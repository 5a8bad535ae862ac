import HollowGrid.Callback
import HollowGrid.Deeds
import HollowGrid.Replies

/-! The commands that ask the hub, when it does not answer. What they hand to the queue is
worked out as one text, which a session keeps as far as it has room. -/
namespace HollowGrid

/-- The commands that ask the hub, each with the argument it is given. -/
inductive HubCommand
  | war
  | worlds
  | travel (target : Ptr)
  | whoami
  | listen
  | ping (whom : Ptr)
  | who
  | saved
  | witness (name : Ptr)
  | gridcast (text : Ptr)
  | gridstats
  | gridprune

namespace HubCommand

def act (env : Env) (c : Block) : HubCommand → Act Unit
  | war => cmdWar env c
  | worlds => cmdWorlds env c
  | travel target => cmdTravel env c target
  | whoami => cmdWhoami env c
  | listen => cmdListen env c
  | ping whom => cmdPing env c whom
  | who => cmdWho env c
  | saved => cmdSaved env c
  | witness name => cmdWitness env c name
  | gridcast text => cmdGridcast env c text
  | gridstats => cmdGridstats env c
  | gridprune => cmdGridprune env c

/-- The questions at which a command calls the hub, as far as it gets. -/
def calls (env : Env) (c : Block) (g : Server) : HubCommand → List Nat
  | listen => if g.grid.echo = [] then [g.asked] else []
  | ping whom => if whom.any fun word => sameFold word (str "all") then [g.asked] else []
  | witness name => if firstWord name = [] then [g.asked, g.asked + 1] else [g.asked]
  | gridcast text => if (text.map skipSpaces).getD [] = [] then [] else [g.asked]
  | gridstats => if keeper env (g.blocks c) then [g.asked] else []
  | gridprune =>
    if keeper env (g.blocks c) then [g.asked, g.asked + 1, g.asked + 2] else []
  | _ => [g.asked]

end HubCommand

/-- Two nodes set up alike. The hub fails the calls that are down and answers the others
alike, the clock, the dice, the disk and what lies in memory may differ. -/
structure Alike (down : Nat → Bool) (env other : Env) : Prop where
  worldName : other.worldName = env.worldName
  remote : other.remote = env.remote
  admins : other.admins = env.admins
  failed : ∀ n, down n = true → ∀ method params, other.rpc n method params = none
  answered : ∀ n, down n = false → other.rpc n = env.rpc n

/-- The text reaches the outbox as far as there is room, and nothing else changes but the
count of questions. -/
def Tells (c : Block) (t : Text) (m : Act Unit) (g : Server) : Prop :=
  ∃ n, m g = .ok ((), { g.queued c t with asked := n })

theorem queued_twice (g : Server) (c : Block) (t u : Text) :
    (g.queued c t).queued c u = g.queued c (t ++ u) := by
  simp only [Server.queued, Server.setBlock, Function.update_self, Function.update_idem,
    List.length_append, List.length_take, List.append_assoc]
  congr 3
  rw [List.take_append]
  congr 3
  omega

namespace Tells

variable {c : Block} {g : Server} {t u : Text}

theorem text (c : Block) (t : Text) (g : Server) : Tells c t (queue c t) g := ⟨g.asked, rfl⟩

theorem line (c : Block) {t : Text} (fits : t.length + 3 ≤ 4096) (g : Server) :
    Tells c (t ++ crlf) (queueLine c t) g := by
  rw [queueLine, when, if_pos fits]
  exact text ..

theorem seq {m k : Act Unit} (first : Tells c t m g)
    (rest : ∀ g', Tells c u k g') : Tells c (t ++ u) (m >>= fun _ => k) g := by
  obtain ⟨n, ended⟩ := first
  obtain ⟨last, done⟩ := rest { g.queued c t with asked := n }
  exact ⟨last, by rw [bind_ok ended, done, ← queued_twice]; rfl⟩

/-- What is told after some questions is told. -/
theorem later {α : Type} {m : Act α} {f : α → Act Unit} {a : α} {n : Nat}
    (ended : m g = .ok (a, { g with asked := n })) (rest : Tells c t (f a) { g with asked := n }) :
    Tells c t (m >>= f) g := by
  obtain ⟨last, done⟩ := rest
  exact ⟨last, by rw [bind_ok ended, done]; rfl⟩

end Tells

theorem cut_fits {cap : Nat} (t : Text) (small : cap ≤ 4000) :
    (snprintf cap t).length + 3 ≤ 4096 := by
  have cut : (snprintf cap t).length ≤ cap - 1 := List.length_take_le ..
  omega

theorem ends_line (t : Text) : crlf <:+: t ++ crlf := (List.suffix_append t crlf).isInfix

theorem line_after {t u : Text} (whole : crlf <:+: u) : crlf <:+: t ++ u :=
  whole.trans (List.suffix_append t u).isInfix

theorem line_before {t u : Text} (whole : crlf <:+: t) : crlf <:+: t ++ u :=
  whole.trans (List.prefix_append t u).isInfix

/-- The same text is told by every node set up alike, and a whole line is in it. -/
def SameTold (down : Nat → Bool) (env : Env) (c : Block) (g : Server) (m : Env → Act Unit) : Prop :=
  ∃ t, crlf <:+: t ∧ ∀ other, Alike down env other → Tells c t (m other) g

section told

variable {down : Nat → Bool} {env : Env} {c : Block} {g : Server} {m : Env → Act Unit}
variable {t u v : Text}

theorem told_line (told : ∀ other, Alike down env other → Tells c (t ++ crlf) (m other) g) :
    SameTold down env c g m :=
  ⟨t ++ crlf, ends_line t, told⟩

theorem told_after (told : ∀ other, Alike down env other → Tells c (t ++ (u ++ crlf)) (m other) g) :
    SameTold down env c g m :=
  ⟨t ++ (u ++ crlf), line_after (ends_line u), told⟩

theorem told_between
    (told : ∀ other, Alike down env other → Tells c (t ++ (u ++ crlf ++ v)) (m other) g) :
    SameTold down env c g m :=
  ⟨t ++ (u ++ crlf ++ v), line_after (line_before (ends_line u)), told⟩

end told

section calls

variable {down : Nat → Bool} {env other : Env} {g : Server}

theorem call_answered (on : other.remote = true) (method : String) (params : List Json) :
    rpcCall other method params g =
      .ok (other.rpc g.asked (str method) params, { g with asked := g.asked + 1 }) := by
  rw [rpcCall, if_pos on]
  rfl

variable (on : other.remote = true)
variable (silent : ∀ method params, other.rpc g.asked method params = none)
include on silent

theorem call_unanswered {α : Type} (method : String) (params : List Json)
    (f : Option Json → α) : (do
      let answer ← rpcCall other method params
      return f answer : Act α) g = .ok (f none, { g with asked := g.asked + 1 }) := by
  rw [bind_ok (call_answered on method params), silent]
  rfl

theorem tide_unanswered : gridTide other g = .ok (none, { g with asked := g.asked + 1 }) := by
  rw [gridTide, if_pos on]
  exact call_unanswered on silent ..

theorem worlds_unanswered :
    gridListWorlds other g = .ok (none, { g with asked := g.asked + 1 }) := by
  rw [gridListWorlds, if_pos on]
  exact call_unanswered on silent ..

theorem character_unanswered (name : Bytes) :
    gridFetchCharacter other name g = .ok (none, { g with asked := g.asked + 1 }) := by
  rw [gridFetchCharacter, if_pos on]
  exact call_unanswered on silent "loadCharacter" [.str name] _

theorem recent_unanswered (limit cap : Nat) :
    gridFetchRecent other limit cap g = .ok (none, { g with asked := g.asked + 1 }) := by
  rw [gridFetchRecent, if_pos on]
  exact call_unanswered on silent ..

theorem across_unanswered (limit : Int) :
    gridFetchRecentAcross other limit 8 8 g = .ok (none, { g with asked := g.asked + 1 }) := by
  rw [gridFetchRecentAcross, if_neg (by decide), if_pos on, bind_ok (call_answered on ..), silent]
  rfl

theorem presence_unanswered (maxAge : Int) (cap : Nat) :
    gridPresence other maxAge cap g = .ok (none, { g with asked := g.asked + 1 }) := by
  rw [gridPresence, if_pos on]
  exact call_unanswered on silent ..

theorem rescued_unanswered (limit : Int) (cap : Nat) :
    gridRecentRescued other limit cap g = .ok (none, { g with asked := g.asked + 1 }) := by
  rw [gridRecentRescued, if_pos on]
  exact call_unanswered on silent ..

theorem fallen_unanswered (limit : Int) (cap : Nat) :
    gridRecentFallen other limit cap g = .ok (none, { g with asked := g.asked + 1 }) := by
  rw [gridRecentFallen, if_pos on]
  exact call_unanswered on silent ..

theorem stats_unanswered (cap : Nat) :
    gridLedgerStats other cap g = .ok (none, { g with asked := g.asked + 1 }) := by
  rw [gridLedgerStats, if_pos on]
  exact call_unanswered on silent ..

theorem prune_unanswered :
    gridPruneLedger other g = .ok (none, { g with asked := g.asked + 1 }) := by
  rw [gridPruneLedger, if_pos on]
  exact call_unanswered on silent ..

theorem gridcast_unanswered (sender text : Bytes) :
    gridGridcast other sender text g = .ok (false, { g with asked := g.asked + 1 }) := by
  rw [gridGridcast, if_pos on]
  exact call_unanswered on silent ..

end calls

section commands

variable {down : Nat → Bool} {env : Env} {c : Block} {g : Server}
variable (on : env.remote = true) (first : down g.asked = true)
include on first

theorem worlds_told : SameTold down env c g fun other => cmdWorlds other c := by
  refine ⟨fmtGridWorldsUnreachable, ends_line _, fun other alike => ?_⟩
  refine Tells.later (worlds_unanswered (alike.remote.trans on) (alike.failed _ first)) ?_
  exact Tells.text ..

theorem travel_told (target : Ptr) :
    SameTold down env c g fun other => cmdTravel other c target := by
  cases target with
  | none => exact worlds_told on first
  | some target =>
    by_cases bare : target = []
    · simpa only [cmdTravel, bare, if_true] using worlds_told on first
    · refine ⟨fmtGridTravelUnreachable, ends_line _, fun other alike => ?_⟩
      simp only [cmdTravel, bare, if_false]
      refine Tells.later (worlds_unanswered (alike.remote.trans on) (alike.failed _ first)) ?_
      refine Tells.later (n := g.asked + 2) (a := other.stale (g.asked + 1)) rfl ?_
      rw [overread, if_pos unreachable_fits]
      exact Tells.text ..

theorem whoami_told : SameTold down env c g fun other => cmdWhoami other c := by
  refine ⟨(lit "(the Grid is unreachable; showing your local self)" ++ crlf) ++
    snprintf 4096 (fmtCharIdentity (g.blocks c).name (identityLoadLocal (g.blocks c))),
    line_before (ends_line _), fun other alike => ?_⟩
  have far := alike.remote.trans on
  refine Tells.later (a := g.blocks c) (n := g.asked) rfl ?_
  rw [if_neg (by simp [far])]
  refine Tells.later (character_unanswered far (alike.failed _ first) _) ?_
  exact Tells.seq (Tells.text ..) fun g' => Tells.text ..

theorem saved_told : SameTold down env c g fun other => cmdSaved other c := by
  apply told_line
  intro other alike
  refine Tells.later (rescued_unanswered (alike.remote.trans on) (alike.failed _ first) 12 12) ?_
  exact Tells.line c (lits_fit _ _ (by decide)) _

theorem listen_told (echoes : g.grid.echo = []) :
    SameTold down env c g fun other => cmdListen other c := by
  refine ⟨fmtGridListenEmpty, ?_, fun other alike => ?_⟩
  · exact line_before (ends_line _)
  have far := alike.remote.trans on
  refine Tells.later (a := g.grid) (n := g.asked) rfl ?_
  rw [if_neg (not_not_intro echoes), if_pos far]
  refine Tells.later (recent_unanswered far (alike.failed _ first) 20 20) ?_
  exact Tells.later (a := none) (n := g.asked + 1) rfl (Tells.text ..)

theorem ping_told {whom : Ptr} (all : (whom.any fun word => sameFold word (str "all")) = true) :
    SameTold down env c g fun other => cmdPing other c whom := by
  apply told_line
  intro other alike
  have far := alike.remote.trans on
  simp only [cmdPing, all, if_true]
  refine Tells.later (a := []) (n := g.asked + 1) ?_ (Tells.text ..)
  rw [pingAll, if_pos far, bind_ok (across_unanswered far (alike.failed _ first) _)]
  rfl

theorem who_told : SameTold down env c g fun other => cmdWho other c := by
  obtain ⟨near, built⟩ : ∃ near, whoAppend 2048 (lit "[") (((g.sessionTable.filterMap id).map
      fun d => (d, g.blocks d)).filterMap fun d => whoLocal env d.2) = near := ⟨_, rfl⟩
  by_cases alone : near.length = 1
  all_goals
    apply told_after
    intro other alike
    have rows : (fun d : Block × Session => whoLocal other d.2) = fun d => whoLocal env d.2 := by
      simp only [whoLocal, gridWorldName, bootName, alike.worldName]
    rw [cmdWho, emitGridWhoNow, rows]
    refine Tells.later (a := (g.sessionTable.filterMap id).map fun d => (d, g.blocks d))
      (n := g.asked) rfl ?_
    refine Tells.later
      (presence_unanswered (alike.remote.trans on) (alike.failed _ first) 30000 32) ?_
    simp only [Option.getD_none, List.filterMap_nil, whoAppend, built, alone, if_true, if_false]
    exact Tells.seq (Tells.text ..) (Tells.line c (lit_fits _ (by decide)))

theorem gridcast_told {text : Ptr} (spoken : (text.map skipSpaces).getD [] ≠ []) :
    SameTold down env c g fun other => cmdGridcast other c text := by
  cases text with
  | none => exact absurd rfl spoken
  | some line =>
    apply told_line
    intro other alike
    have said : skipSpaces line ≠ [] := spoken
    refine Tells.later (a := g.blocks c) (n := g.asked) rfl ?_
    simp only [said, if_false]
    refine Tells.later
      (gridcast_unanswered (alike.remote.trans on) (alike.failed _ first) _ (skipSpaces line)) ?_
    exact Tells.line c (lit_fits _ (by decide)) _

theorem named_told {name : Ptr} (named : firstWord name ≠ []) :
    SameTold down env c g fun other => cmdWitness other c name := by
  by_cases self : sameFold (firstWord name) (g.blocks c).name = true
  · apply told_line
    intro other alike
    refine Tells.later (a := g.blocks c) (n := g.asked) rfl ?_
    refine Tells.later (fallen_unanswered (alike.remote.trans on) (alike.failed _ first) 12 12) ?_
    simp only [named, self, if_true, if_false]
    exact Tells.line c (lit_fits _ (by decide)) _
  · apply told_line
    intro other alike
    refine Tells.later (a := g.blocks c) (n := g.asked) rfl ?_
    refine Tells.later (fallen_unanswered (alike.remote.trans on) (alike.failed _ first) 12 12) ?_
    simp only [named, self, if_false]
    exact Tells.line c (cut_fits _ (by omega)) _

theorem gridstats_told (allowed : keeper env (g.blocks c) = true) :
    SameTold down env c g fun other => cmdGridstats other c := by
  apply told_line
  intro other alike
  have keeps : keeper other (g.blocks c) = true := by
    simpa only [keeper, isAdmin, adminNames, alike.admins] using allowed
  refine Tells.later (a := g.blocks c) (n := g.asked) rfl ?_
  rw [if_pos keeps]
  refine Tells.later (stats_unanswered (alike.remote.trans on) (alike.failed _ first) 32) ?_
  exact Tells.line c (lit_fits _ (by decide)) _

end commands

section rolls

variable {down : Nat → Bool} {env : Env} {c : Block} {g : Server} (on : env.remote = true)
include on

theorem same_answer {α : Type} (method : String) (params : List Json) (f : Option Json → α)
    {m : Env → Act α} (asks : ∀ other, other.remote = true → m other = do
      let answer ← rpcCall other method params
      return f answer) (g : Server) :
    ∃ a, ∀ other, Alike down env other → m other g = .ok (a, { g with asked := g.asked + 1 }) := by
  cases failing : down g.asked with
  | true =>
    refine ⟨f none, fun other alike => ?_⟩
    have far := alike.remote.trans on
    rw [asks other far]
    exact call_unanswered far (alike.failed _ failing) method params f
  | false =>
    refine ⟨f (env.rpc g.asked (str method) params), fun other alike => ?_⟩
    have far := alike.remote.trans on
    rw [asks other far, bind_ok (call_answered far method params), alike.answered _ failing]
    rfl

variable (down) in
theorem stats_same (g : Server) : ∃ counted, ∀ other, Alike down env other →
    gridLedgerStats other 32 g = .ok (counted, { g with asked := g.asked + 1 }) :=
  same_answer on "ledgerStats" [] _ (fun other far => by rw [gridLedgerStats, if_pos far]) g

variable (down) in
theorem prune_same (g : Server) : ∃ removed, ∀ other, Alike down env other →
    gridPruneLedger other g = .ok (removed, { g with asked := g.asked + 1 }) :=
  same_answer on "pruneLedgerKinds" [.arr (pruneKinds.map Json.str)] _
    (fun other far => by rw [gridPruneLedger, if_pos far]) g

variable (down) in
theorem fallen_same (g : Server) : ∃ fallen, ∀ other, Alike down env other →
    gridRecentFallen other 12 12 g = .ok (fallen, { g with asked := g.asked + 1 }) :=
  same_answer on "recentFallen" [.num 12] _
    (fun other far => by rw [gridRecentFallen, if_pos far]) g

omit on in
theorem roll_ends {cap : Nat} {rows : List Text} (fits : (lit "[" ++ rows.flatten).length + 2 ≤ cap)
    (g : Server) :
    rollJson cap rows g =
      .ok (lit "[" ++ rows.flatten ++ lit "]", { g with asked := g.asked }) := by
  rw [rollJson, if_pos fits]
  rfl

/-- Where a prune and the reading before it are answered, what is told hangs on these
answers and not on the reading after it. -/
theorem gridprune_told (allowed : keeper env (g.blocks c) = true)
    (failing : down g.asked = true ∨ down (g.asked + 1) = true ∨ down (g.asked + 2) = true) :
    SameTold down env c g fun other => cmdGridprune other c := by
  have begins (other : Env) (alike : Alike down env other) {t : Text}
      (told : Tells c t (emitGridpruneCmdNow other c) g) : Tells c t (cmdGridprune other c) g := by
    have keeps : keeper other (g.blocks c) = true := by
      simpa only [keeper, isAdmin, adminNames, alike.admins] using allowed
    refine Tells.later (a := g.blocks c) (n := g.asked) rfl ?_
    rw [if_pos keeps]
    exact told
  by_cases first : down g.asked = true
  · apply told_line
    intro other alike
    refine begins other alike ?_
    refine Tells.later (stats_unanswered (alike.remote.trans on) (alike.failed _ first) 32) ?_
    exact Tells.line c (lit_fits _ (by decide)) _
  obtain ⟨counted, stats⟩ := stats_same down on g
  cases counted with
  | none =>
    apply told_line
    intro other alike
    refine begins other alike (Tells.later (stats other alike) ?_)
    exact Tells.line c (lit_fits _ (by decide)) _
  | some old =>
    by_cases second : down (g.asked + 1) = true
    · apply told_line
      intro other alike
      refine begins other alike (Tells.later (stats other alike) ?_)
      refine Tells.later (prune_unanswered (alike.remote.trans on) (alike.failed _ second)) ?_
      exact Tells.line c (lit_fits _ (by decide)) _
    have third : down (g.asked + 2) = true := (failing.resolve_left first).resolve_left second
    obtain ⟨pruned, prunes⟩ := prune_same down on { g with asked := g.asked + 1 }
    cases pruned with
    | none =>
      apply told_line
      intro other alike
      refine begins other alike (Tells.later (stats other alike) ?_)
      exact Tells.later (prunes other alike) (Tells.line c (lit_fits _ (by decide)) _)
    | some removed =>
      have empty_fits : (lit "[" ++ ([] : List Text).flatten).length + 2 ≤ 800 := by decide +kernel
      apply told_between
      intro other alike
      refine begins other alike (Tells.later (stats other alike) ?_)
      refine Tells.later (prunes other alike) ?_
      refine Tells.later (stats_unanswered (alike.remote.trans on) (alike.failed _ third) 32) ?_
      refine Tells.later (roll_ends empty_fits _) ?_
      refine Tells.seq (Tells.text ..) fun g' => ?_
      exact Tells.seq (Tells.line c (cut_fits _ (by omega)) _)
        (Tells.line c (cut_fits _ (by omega)))

omit on in
/-- The roll opens with a line, whoever is on it. -/
theorem fallen_tells (c : Block) (rows : List Fallen) :
    ∃ t u, ∀ g, Tells c (t ++ crlf ++ u) (fallenLines c rows) g := by
  have each (rows : List Fallen) : ∃ u, ∀ g, Tells c u (rows.forM fun row => queueLine c
      (snprintf 160 (lit "  " ++ raw row.name ++ lit "  -- fell at " ++ raw row.third))) g := by
    induction rows with
    | nil => exact ⟨[], fun g => ⟨g.asked, by simp [Server.queued, Server.setBlock]; rfl⟩⟩
    | cons row rest ih =>
      obtain ⟨u, told⟩ := ih
      exact ⟨_, fun g => Tells.seq (Tells.line c (cut_fits _ (by omega)) g) told⟩
  by_cases none_left : rows = []
  · refine ⟨lit "The roll is empty for now. No one the Grid remembers has fallen lately; " ++
      lit "may it stay that way.", [], fun g => ?_⟩
    rw [fallenLines, if_pos none_left, List.append_nil]
    exact Tells.line c (lits_fit _ _ (by decide)) g
  · obtain ⟨u, told⟩ := each rows
    rw [fallenLines, if_neg none_left]
    exact ⟨_, u, fun g => Tells.seq (Tells.line c (lits_fit _ _ (by decide)) g) told⟩

def RollFits (rows : List Fallen) : Prop :=
  (lit "[" ++ (jsonRows (fun _ => fallenJson) 0 rows).flatten).length + 2 ≤ 1200

instance (rows : List Fallen) : Decidable (RollFits rows) := inferInstanceAs (Decidable (_ ≤ _))

/-- What hg_emit_fallen_roll_now does with the rows it read. -/
def tellRoll (c : Block) (rows : List Fallen) : Act Unit := do
  fallenLines c rows
  let json ← rollJson 1200 (jsonRows (fun _ => fallenJson) 0 rows)
  queue c (snprintf 1400 (lit r#"@event grid.fallen {"fallen":"# ++ json ++ lit "\x7d" ++ crlf))

def rollRead (env : Env) (g : Server) : List Fallen :=
  ((rpcRows (env.rpc (g.asked + 1) (str "recentFallen") [.num 12])).map fun rows =>
    (rows.take 12).map (fallenRow "room" 32)).getD []

omit on in
theorem roll_tells {c : Block} {rows : List Fallen} (fits : RollFits rows) :
    ∃ t u v, ∀ g, Tells c (t ++ crlf ++ u ++ v) (tellRoll c rows) g := by
  obtain ⟨t, u, told⟩ := fallen_tells c rows
  exact ⟨t, u, _, fun g => Tells.seq (told g) fun g' =>
    Tells.later (roll_ends fits g') (Tells.text ..)⟩

omit on in
theorem roll_overruns {c : Block} {rows : List Fallen} (large : ¬RollFits rows) (t : Text)
    (g : Server) : ¬Tells c t (tellRoll c rows) g := by
  rintro ⟨n, ended⟩
  obtain ⟨_, _, told⟩ := fallen_tells c rows
  obtain ⟨after, listed⟩ := told g
  rw [RollFits] at large
  rw [tellRoll, bind_ok listed, rollJson, if_neg large] at ended
  cases ended

omit on in
theorem roll_reads {name : Ptr} (bare : firstWord name = []) {other : Env}
    {fallen ignored : Option (List Fallen)}
    (first : gridRecentFallen other 12 12 g = .ok (ignored, { g with asked := g.asked + 1 }))
    (second : gridRecentFallen other 12 12 { g with asked := g.asked + 1 } =
      .ok (fallen, { g with asked := g.asked + 2 })) :
    cmdWitness other c name g = tellRoll c (fallen.getD []) { g with asked := g.asked + 2 } := by
  have start : session c g = .ok (g.blocks c, g) := rfl
  rw [cmdWitness, bind_ok start, bind_ok first, if_pos bare, emitFallenRollNow, bind_ok second]
  rfl

theorem roll_same {name : Ptr} (bare : firstWord name = []) (other : Env)
    (alike : Alike down env other) :
    cmdWitness other c name g =
      tellRoll c (if down (g.asked + 1) then [] else rollRead env g)
        { g with asked := g.asked + 2 } := by
  have far := alike.remote.trans on
  obtain ⟨ignored, first⟩ := fallen_same down on g
  cases second : down (g.asked + 1) with
  | true =>
    exact roll_reads bare (first other alike) (fallen_unanswered far (alike.failed _ second) 12 12)
  | false =>
    have answered : gridRecentFallen other 12 12 { g with asked := g.asked + 1 } =
        .ok ((rpcRows (env.rpc (g.asked + 1) (str "recentFallen") [.num 12])).map fun rows =>
          (rows.take 12).map (fallenRow "room" 32), { g with asked := g.asked + 2 }) := by
      rw [gridRecentFallen, if_pos far, bind_ok (call_answered far ..), alike.answered _ second]
      rfl
    exact roll_reads bare (first other alike) answered

theorem roll_told {name : Ptr} (bare : firstWord name = [])
    (fits : down (g.asked + 1) = false → RollFits (rollRead env g)) :
    SameTold down env c g fun other => cmdWitness other c name := by
  have room : RollFits (if down (g.asked + 1) then [] else rollRead env g) := by
    cases second : down (g.asked + 1) with
    | true => exact (by decide +kernel : RollFits [])
    | false => exact fits second
  obtain ⟨t, u, v, told⟩ := roll_tells (c := c) room
  refine ⟨t ++ crlf ++ u ++ v, line_before (line_before (ends_line t)), fun other alike => ?_⟩
  obtain ⟨n, ended⟩ := told { g with asked := g.asked + 2 }
  exact ⟨n, (roll_same on bare other alike).trans ended⟩

end rolls

section war

def warOpening : Text :=
  lit "Across the whole Grid, the war for the wastes hangs in the balance (tide "

def warTold (tide : Int) : Text :=
  (snprintf 120 (warOpening ++ signed tide ++ lit ").") ++ crlf) ++
    snprintf 80 (lit r#"@event world.war {"tide":"# ++ number tide ++ lit "\x7d" ++ crlf)

theorem opening_length : warOpening.length = 73 := length_lit _

theorem war_opens (tide : Int) {room : Nat} (small : room ≤ 73) :
    (warTold tide).take room = warOpening.take room := by
  have size := opening_length
  have cut : warOpening.take 119 = warOpening := List.take_of_length_le (by omega)
  obtain ⟨rest, whole⟩ : ∃ rest, warTold tide = warOpening ++ rest := by
    rw [warTold, snprintf, List.append_assoc warOpening, List.take_append, cut]
    simp only [List.append_assoc]
    exact ⟨_, rfl⟩
  rw [whole, List.take_append_of_le_length (by omega)]

/-- The sign of the tide is the first byte that tells. -/
theorem war_differs {room : Nat} (large : 73 < room) :
    (warTold 0).take room ≠ (warTold (-1)).take room := by
  intro same
  have cut : (warTold 0).take 74 = (warTold (-1)).take 74 := by
    simpa [List.take_take, Nat.min_eq_left (show 74 ≤ room from large)] using
      congrArg (List.take 74) same
  exact absurd cut (by decide +kernel)

variable {down : Nat → Bool} {env : Env} {c : Block} {g : Server}

theorem war_tells {other : Env} (on : other.remote = true)
    (silent : ∀ method params, other.rpc g.asked method params = none) :
    Tells c (warTold (staleInt (other.stale (g.asked + 1)))) (cmdWar other c) g := by
  refine Tells.later (tide_unanswered on silent) ?_
  generalize slot_tide : staleInt (other.stale (g.asked + 1)) = tide
  refine Tells.later (m := ask other.stale) (n := g.asked + 2) (a := other.stale (g.asked + 1))
    rfl ?_
  rw [Option.getD_none, slot_tide, warTold]
  exact Tells.seq (Tells.line c (cut_fits _ (by omega)) _) fun g' => Tells.text ..

/-- The node itself, with the calls that are down failed and the same byte in every cell
of its memory. -/
def failedOn (env : Env) (down : Nat → Bool) (byte : UInt8) : Env :=
  { env with
    rpc := fun n method params => if down n then none else env.rpc n method params
    stale := fun _ _ => byte }

theorem failed_on_alike (env : Env) (down : Nat → Bool) (byte : UInt8) :
    Alike down env (failedOn env down byte) where
  worldName := rfl
  remote := rfl
  admins := rfl
  failed := fun n failed method params => if_pos failed
  answered := fun n answered => by
    funext method params
    exact if_neg (by simp [answered])

theorem war_told_iff (on : env.remote = true) (first : down g.asked = true) :
    (SameTold down env c g fun other => cmdWar other c) ↔
      outCap - (g.blocks c).outbox.length ≤ 73 := by
  constructor
  · rintro ⟨t, -, told⟩
    by_contra large
    have hears (byte : UInt8) (tide : Int) (read : staleInt (fun _ => byte) = tide) :
        t.take (outCap - (g.blocks c).outbox.length) =
          (warTold tide).take (outCap - (g.blocks c).outbox.length) := by
      have alike := failed_on_alike env down byte
      obtain ⟨n, one⟩ := told _ alike
      obtain ⟨m, two⟩ := war_tells (c := c) (alike.remote.trans on) (alike.failed _ first)
      have stored := congrArg (fun s : Server => (s.blocks c).outbox)
        (congrArg Prod.snd (Except.ok.inj (one.symm.trans two)))
      simpa [Server.queued, failedOn, read] using stored
    exact war_differs (by omega)
      ((hears 0 0 (by decide +kernel)).symm.trans (hears 255 (-1) (by decide +kernel)))
  · intro small
    refine ⟨warTold 0, line_before (ends_line _), fun other alike => ?_⟩
    obtain ⟨n, ended⟩ := war_tells (c := c) (alike.remote.trans on) (alike.failed _ first)
    refine ⟨n, ended.trans ?_⟩
    simp only [Server.queued, war_opens _ small]

end war

namespace HubCommand

/-- What the command needs so that a failed call leaves it with a line to tell. -/
def Steady (down : Nat → Bool) (env : Env) (c : Block) (g : Server) : HubCommand → Prop
  | war => outCap - (g.blocks c).outbox.length ≤ 73
  | witness name =>
    firstWord name = [] → down (g.asked + 1) = false → RollFits (rollRead env g)
  | _ => True

end HubCommand

/-- A command one of whose calls fails tells the same text, a whole line of it at least,
whatever the failed calls left unwritten: except war, and a bare witness whose second call
brings more than its buffer holds. -/
theorem failed_calls_told (down : Nat → Bool) (env : Env) (remote : env.remote = true) (c : Block)
    (g : Server) (x : HubCommand) (fails : ∃ n ∈ x.calls env c g, down n = true) :
    (SameTold down env c g fun other => x.act other c) ↔ x.Steady down env c g := by
  obtain ⟨n, called, failed⟩ := fails
  have first (single : x.calls env c g = [g.asked]) : down g.asked = true := by
    rw [single, List.mem_singleton] at called
    exact called ▸ failed
  have calls_some : x.calls env c g ≠ [] := List.ne_nil_of_mem called
  cases x with
  | war => exact war_told_iff remote (first rfl)
  | worlds => exact iff_of_true (worlds_told remote (first rfl)) trivial
  | travel target => exact iff_of_true (travel_told remote (first rfl) target) trivial
  | whoami => exact iff_of_true (whoami_told remote (first rfl)) trivial
  | who => exact iff_of_true (who_told remote (first rfl)) trivial
  | saved => exact iff_of_true (saved_told remote (first rfl)) trivial
  | listen =>
    by_cases echoes : g.grid.echo = []
    · exact iff_of_true (listen_told remote (first (if_pos echoes)) echoes) trivial
    · exact absurd (if_neg echoes) calls_some
  | ping whom =>
    by_cases all : (whom.any fun word => sameFold word (str "all")) = true
    · exact iff_of_true (ping_told remote (first (if_pos all)) all) trivial
    · exact absurd (if_neg all) calls_some
  | gridcast text =>
    by_cases spoken : (text.map skipSpaces).getD [] = []
    · exact absurd (if_pos spoken) calls_some
    · exact iff_of_true (gridcast_told remote (first (if_neg spoken)) spoken) trivial
  | gridstats =>
    by_cases allowed : keeper env (g.blocks c) = true
    · exact iff_of_true (gridstats_told remote (first (if_pos allowed)) allowed) trivial
    · exact absurd (if_neg allowed) calls_some
  | gridprune =>
    by_cases allowed : keeper env (g.blocks c) = true
    · simp only [HubCommand.calls, if_pos allowed, List.mem_cons, List.not_mem_nil,
        or_false] at called
      refine iff_of_true (gridprune_told remote allowed ?_) trivial
      rcases called with rfl | rfl | rfl
      · exact .inl failed
      · exact .inr (.inl failed)
      · exact .inr (.inr failed)
    · exact absurd (if_neg allowed) calls_some
  | witness name =>
    by_cases bare : firstWord name = []
    · constructor
      · rintro ⟨t, -, told⟩ _ second
        by_contra large
        have alike := failed_on_alike env down 0
        obtain ⟨last, ended⟩ := told _ alike
        have same := roll_same (c := c) (g := g) remote bare _ alike
        rw [second, if_neg Bool.false_ne_true] at same
        exact roll_overruns large t _ ⟨last, same.symm.trans ended⟩
      · exact fun steady => roll_told remote bare (steady bare)
    · exact iff_of_true (named_told remote (first (if_neg bare)) bare)
        fun empty => absurd empty bare

/-- A node of the network whose hub never answers. -/
def cutOffNode : Env := { quietNode with remote := true }

theorem failed_calls_told_travel :
    SameTold (fun _ => true) cutOffNode 0 { disk := sharedDisk } fun other =>
      cmdTravel other 0 (some (str "Dustfall")) :=
  (failed_calls_told (fun _ => true) cutOffNode rfl 0 { disk := sharedDisk }
    (.travel (some (str "Dustfall"))) ⟨0, List.mem_singleton.mpr rfl, rfl⟩).mpr trivial

/-- On a hub that never answers, war prints four bytes of the stack as the tide. -/
theorem war_tells_stack : ¬ ∀ (down : Nat → Bool) (env : Env) (c : Block) (g : Server)
    (x : HubCommand), env.remote = true → (∃ n ∈ x.calls env c g, down n = true) →
      SameTold down env c g fun other => x.act other c := by
  intro always
  have told := always (fun _ => true) cutOffNode 0 { disk := sharedDisk } .war rfl
    ⟨0, List.mem_singleton.mpr rfl, rfl⟩
  have small := (war_told_iff rfl rfl).mp told
  exact absurd small (by decide)

end HollowGrid
