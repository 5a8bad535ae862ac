import HollowGrid.Menu
import HollowGrid.Unanswered

/-! What the commands do with the registers and the flags a called C function may change. The
branches of a few of them hang on what the last call left there, not on what it returned. -/
namespace HollowGrid

/-- What calls leave behind that the ABI does not promise to keep: the zero flag, whether a
register read afterwards changed, the memory it then leads to, the stack, and what is
written from rsi after a short write. -/
structure Leftover where
  zeroFlag : Nat → Bool
  clobbers : Nat → Bool
  stale : Nat → Nat → UInt8
  scratch : Nat → Nat
  torn : Nat → File

/-- The same node and the same answers, with other leftovers. -/
def Env.left (env : Env) (r : Leftover) : Env :=
  { env with
    zeroFlag := r.zeroFlag
    clobbers := r.clobbers
    stale := r.stale
    scratch := r.scratch
    writing := fun n =>
      match env.writing n with
      | .torn _ => .torn (r.torn n)
      | writing => writing }

/-- The functions that read what a call may have changed, with the argument each takes. -/
inductive Routine
  | talk
  | treat
  | yell (msg : Ptr)
  | pledge
  | defy
  | worlds
  | travel (target : Ptr)
  | ping (whom : Ptr)
  | findSlot (word : Bytes)
  | save

namespace Routine

def silently (m : Act Unit) : Act (Option Nat) := do
  m
  return none

def act (env : Env) (c : Block) : Routine → Act (Option Nat)
  | talk => silently (cmdTalk env c)
  | treat => silently (cmdTreat env c)
  | yell msg => silently (cmdYell env c msg)
  | pledge => silently (daisPledge env c)
  | defy => silently (cmdDefy env c)
  | worlds => silently (cmdWorlds env c)
  | travel target => silently (cmdTravel env c target)
  | ping whom => silently (cmdPing env c whom)
  | findSlot word => do
    let s ← session c
    invFindSlot env word 0 s.inventory
  | save => silently (storeSave env c)

end Routine

/-- What is left of a call for anyone to see: its result, every session with the bytes queued
to it, and the files. -/
def observed (outcome : Except Fault (Option Nat × Server)) :
    Except Fault (Option Nat × (Block → Session × Bytes) × (Bytes → Option File)) :=
  outcome.map fun done =>
    (done.1, fun d => ({ done.2.blocks d with outbox := [] }, bytes (done.2.blocks d).outbox),
      done.2.disk)

/-- No leftover makes a difference. -/
def Determined (env : Env) (c : Block) (g : Server) (x : Routine) : Prop :=
  ∀ r r', observed (x.act (env.left r) c g) = observed (x.act (env.left r') c g)

/-- The rows hg_grid_list_worlds brings, none where it fails. -/
def worldRows (env : Env) (g : Server) : Option (List WorldRow) :=
  match gridListWorlds env g with
  | .ok (rows, _) => rows
  | .error _ => none

/-- No stack address changes what travel finds, and what it finds is told whole. -/
def RouteSettled (env : Env) (rows : List WorldRow) (target : Bytes) : Prop :=
  ∃ found : Option WorldRow,
    (∀ address, ((gridMatchWorld address rows target).bind fun i => rows[i]?) = found) ∧
    match found with
    | none => (fmtGridTravelMissing target).length < 512
    | some row => row.id = gridWorldName env

namespace Routine

/-- No branch and no address of the call comes from a leftover. -/
def Untouched (env : Env) (c : Block) (g : Server) : Routine → Prop
  | talk => (g.blocks c).room ≠ roomWaystation ∧
      ((g.blocks c).room = roomDais → (g.blocks c).ashsworn = true)
  | treat => (g.blocks c).room = roomWaystation →
      (g.blocks c).inCombat = true ∨ (g.blocks c).ashsworn = true
  | yell msg => argument msg = [] ∨ jsonEscape 80 (g.blocks c).name = none ∨
      jsonEscape 200 (argument msg) = none ∨
      ∀ d ∈ g.sessionTable.filterMap id, (g.blocks d).name = []
  | pledge => (g.blocks c).room ≠ roomDais
  | defy => (g.blocks c).room ≠ roomDais
  | worlds => (worldRows env g).getD [] = []
  | travel target =>
    if target.getD [] = [] then (worldRows env g).getD [] = []
    else ∀ rows, worldRows env g = some rows → RouteSettled env rows (target.getD [])
  | ping whom => (whom.any fun word => sameFold word (str "all")) = true → env.remote = false →
      ∀ t ∈ g.grid.traces, t.world = gridWorldName env
  | findSlot word => word = [] ∨ ∀ item ∈ (g.blocks c).inventory.head?, sameFold item word = true
  | save => (characterPath (g.blocks c).name).isSome = true →
      ∀ left, env.writing g.asked ≠ .torn left

/-- The state lets what a leftover changes be seen: the outbox has room for the first byte
that differs, or more than bytes changes. -/
def Shows (c : Block) (g : Server) : Routine → Prop
  | talk => 14 < outCap - (g.blocks c).outbox.length
  | treat => 4 < outCap - (g.blocks c).outbox.length ∨ (g.blocks c).hp < (g.blocks c).maxHp
  | ping _ => 0 < outCap - (g.blocks c).outbox.length
  | pledge | defy | findSlot _ | save => True
  | yell _ | worlds | travel _ => False

end Routine

section reads

variable {env : Env} {c : Block} {g : Server} {r r' : Leftover}

/-- Two calls that do the same leave the same. -/
theorem determined_of_same {x : Routine}
    (same : ∀ r r', x.act (env.left r) c g = x.act (env.left r') c g) :
    Determined env c g x :=
  fun r r' => congrArg observed (same r r')

theorem silently_same {m n : Act Unit} (same : m g = n g) :
    Routine.silently m g = Routine.silently n g := by
  show (m >>= fun _ => pure none) g = (n >>= fun _ => pure none) g
  simp only [Bind.bind, StateT.bind, same]

theorem talk_same (untouched : Routine.talk.Untouched env c g) :
    cmdTalk (env.left r) c g = cmdTalk (env.left r') c g := by
  obtain ⟨elsewhere, branded⟩ := untouched
  have start : session c g = .ok (g.blocks c, g) := rfl
  rw [cmdTalk, cmdTalk, bind_ok start, bind_ok start]
  by_cases dais : (g.blocks c).room = roomDais
  · simp only [elsewhere, branded dais, if_true, if_false]
  · simp only [elsewhere, dais, if_false]

theorem treat_same (untouched : Routine.treat.Untouched env c g) :
    cmdTreat (env.left r) c g = cmdTreat (env.left r') c g := by
  have start : session c g = .ok (g.blocks c, g) := rfl
  rw [cmdTreat, cmdTreat, bind_ok start, bind_ok start]
  by_cases here : (g.blocks c).room = roomWaystation
  · rcases untouched here with fighting | branded
    · simp only [fighting, if_true]
    · by_cases fighting : (g.blocks c).inCombat = true
      · simp only [fighting, if_true]
      · have front (r : Leftover) : ask (env.left r).zeroFlag g =
            .ok (r.zeroFlag g.asked, { g with asked := g.asked + 1 }) := rfl
        rw [if_neg (not_not_intro here), if_neg (not_not_intro here), if_neg fighting,
          if_neg fighting, bind_ok (front r), bind_ok (front r'), if_pos (.inr branded),
          if_pos (.inr branded)]
  · rw [if_pos here, if_pos here]

theorem pledge_same (untouched : Routine.pledge.Untouched env c g) :
    daisPledge (env.left r) c g = daisPledge (env.left r') c g := by
  have start : session c g = .ok (g.blocks c, g) := rfl
  have away : (g.blocks c).room ≠ roomDais := untouched
  rw [daisPledge, daisPledge, bind_ok start, bind_ok start, if_pos away, if_pos away]

theorem defy_same (untouched : Routine.defy.Untouched env c g) :
    cmdDefy (env.left r) c g = cmdDefy (env.left r') c g := by
  have start : session c g = .ok (g.blocks c, g) := rfl
  have away : (g.blocks c).room ≠ roomDais := untouched
  rw [cmdDefy, cmdDefy, bind_ok start, bind_ok start, if_pos away, if_pos away]

theorem save_same (untouched : Routine.save.Untouched env c g) :
    storeSave (env.left r) c g = storeSave (env.left r') c g := by
  have start : session c g = .ok (g.blocks c, g) := rfl
  rw [storeSave, storeSave, bind_ok start, bind_ok start]
  cases path : characterPath (g.blocks c).name with
  | none => rfl
  | some key =>
    have written (r : Leftover) : (env.left r).writing g.asked = env.writing g.asked := by
      show (match env.writing g.asked with
        | .torn _ => .torn (r.torn g.asked)
        | writing => writing) = env.writing g.asked
      cases writing : env.writing g.asked with
      | torn left => exact absurd writing (untouched (by rw [path]; rfl) left)
      | whole => rfl
      | fails => rfl
    have asked (r : Leftover) : ask (env.left r).writing g =
        .ok (env.writing g.asked, { g with asked := g.asked + 1 }) := by
      rw [← written r]
      rfl
    simp only [bind_ok (asked r), bind_ok (asked r')]

theorem slot_same {word : Bytes} (untouched : (Routine.findSlot word).Untouched env c g) :
    invFindSlot (env.left r) word 0 (g.blocks c).inventory g =
      invFindSlot (env.left r') word 0 (g.blocks c).inventory g := by
  cases carried : (g.blocks c).inventory with
  | nil => rfl
  | cons item rest =>
    rcases untouched with rfl | first
    · rfl
    · have found := first item (by rw [carried]; rfl)
      simp only [invFindSlot, found, if_true]

theorem rows_listed (env : Env) (g : Server) :
    ∃ g', gridListWorlds env g = .ok (worldRows env g, g') := by
  obtain ⟨rows, g', listed⟩ : ∃ rows g', gridListWorlds env g = .ok (rows, g') := by
    by_cases on : env.remote = true
    · rw [gridListWorlds, if_pos on, bind_ok (call_answered on "listWorlds" [])]
      exact ⟨_, _, rfl⟩
    · rw [gridListWorlds, if_neg on]
      exact ⟨_, _, rfl⟩
  exact ⟨g', by rw [worldRows, listed]⟩

theorem worlds_same (empty : (worldRows env g).getD [] = []) :
    cmdWorlds (env.left r) c g = cmdWorlds (env.left r') c g := by
  obtain ⟨g', listed⟩ := rows_listed env g
  have here (r : Leftover) : gridListWorlds (env.left r) g = .ok (worldRows env g, g') := listed
  rw [cmdWorlds, cmdWorlds, bind_ok (here r), bind_ok (here r')]
  cases rows : worldRows env g with
  | none => rfl
  | some list =>
    have none_left : list = [] := by simpa [rows] using empty
    rw [none_left]
    rfl

theorem travel_fits {t : Text} (fits : t.length < 512) (r : Leftover) (g : Server) :
    queueTravel (env.left r) c t g = queue c t { g with asked := g.asked + 1 } := by
  have asked : ask (env.left r).stale g = .ok (r.stale g.asked, { g with asked := g.asked + 1 }) :=
    rfl
  rw [queueTravel, bind_ok asked, overread, if_pos fits]

theorem travel_to_same {target : Bytes}
    (settled : ∀ rows, worldRows env g = some rows → RouteSettled env rows target) :
    travelTo (env.left r) c target g = travelTo (env.left r') c target g := by
  obtain ⟨g', listed⟩ := rows_listed env g
  have here (r : Leftover) : gridListWorlds (env.left r) g = .ok (worldRows env g, g') := listed
  rw [travelTo, travelTo, bind_ok (here r), bind_ok (here r')]
  cases rows : worldRows env g with
  | none =>
    exact (travel_fits unreachable_fits r g').trans (travel_fits unreachable_fits r' g').symm
  | some list =>
    obtain ⟨found, same, whole⟩ := settled list rows
    have stack (r : Leftover) : ask (env.left r).scratch g' =
        .ok (r.scratch g'.asked, { g' with asked := g'.asked + 1 }) := rfl
    simp only [bind_ok (stack r), bind_ok (stack r'), same]
    cases found with
    | none => exact (travel_fits whole r _).trans (travel_fits whole r' _).symm
    | some row =>
      have own (r : Leftover) : row.id = gridWorldName (env.left r) := whole
      have fits := here_fits env
      simp only [if_pos (own r), if_pos (own r')]
      exact (travel_fits fits r _).trans (travel_fits fits r' _).symm

theorem travel_same {target : Ptr} (untouched : (Routine.travel target).Untouched env c g) :
    cmdTravel (env.left r) c target g = cmdTravel (env.left r') c target g := by
  cases target with
  | none => exact worlds_same untouched
  | some target =>
    by_cases bare : target = []
    · simp only [Routine.Untouched, Option.getD_some, bare, if_true] at untouched
      simpa only [cmdTravel, bare, if_true] using worlds_same untouched
    · simp only [Routine.Untouched, Option.getD_some, bare, if_false] at untouched
      simpa only [cmdTravel, bare, if_false] using travel_to_same untouched

theorem own_pings (env : Env) (n : Nat) {rows : List Trace}
    (own : ∀ t ∈ rows, t.world = gridWorldName env) : pingAllLocal env n rows = pure [] := by
  cases n with
  | zero => cases rows <;> rfl
  | succ n =>
    induction rows with
    | nil => rfl
    | cons t rest ih =>
      rw [pingAllLocal, if_pos (own t List.mem_cons_self)]
      exact ih fun u member => own u (List.mem_cons_of_mem t member)

theorem ping_same {whom : Ptr} (untouched : (Routine.ping whom).Untouched env c g) :
    cmdPing (env.left r) c whom g = cmdPing (env.left r') c whom g := by
  by_cases all : (whom.any fun word => sameFold word (str "all")) = true
  · have traces (r : Leftover) : pingAll (env.left r) g = pingAll env g := by
      by_cases on : env.remote = true
      · have far : (env.left r).remote = true := on
        rw [pingAll, pingAll, if_pos far, if_pos on]
        rfl
      · have near : ¬(env.left r).remote = true := on
        have start : getGrid g = .ok (g.grid, g) := rfl
        have own := untouched all (Bool.eq_false_iff.mpr on)
        rw [pingAll, pingAll, if_neg near, if_neg on, bind_ok start, bind_ok start,
          own_pings env 8 own, own_pings (env.left r) 8 own]
    simp only [cmdPing, all, if_true]
    show (pingAll (env.left r) >>= _) g = (pingAll (env.left r') >>= _) g
    simp only [Bind.bind, StateT.bind, traces r, traces r']
  · rw [cmdPing, cmdPing, if_neg all, if_neg all]

theorem each_idle {α : Type} {xs : List α} {f : α → Act Unit} (idle : ∀ x ∈ xs, f x = pure ()) :
    xs.forM f = pure () := by
  induction xs with
  | nil => rfl
  | cons x rest ih =>
    show (f x >>= fun _ => rest.forM f) = pure ()
    rw [idle x List.mem_cons_self, ih fun y member => idle y (List.mem_cons_of_mem x member)]
    rfl

theorem yell_same {msg : Ptr} (untouched : (Routine.yell msg).Untouched env c g) :
    cmdYell (env.left r) c msg g = cmdYell (env.left r') c msg g := by
  have start : session c g = .ok (g.blocks c, g) := rfl
  rw [cmdYell, cmdYell, bind_ok start, bind_ok start]
  rcases untouched with empty | unnamed | unspoken | alone
  · simp only [empty, if_true]
  · simp only [unnamed]
  · cases name : jsonEscape 80 (g.blocks c).name <;> simp only [unspoken]
  · cases jsonEscape 80 (g.blocks c).name with
    | none => simp only
    | some name =>
      cases jsonEscape 200 (argument msg) with
      | none => simp only
      | some text =>
        have sessions : listed g =
            .ok ((g.sessionTable.filterMap id).map fun d => (d, g.blocks d), g) := rfl
        have idle (r : Leftover) (evt : Text) :
            ((g.sessionTable.filterMap id).map fun d => (d, g.blocks d)).forM
              (yellTo (env.left r) (g.blocks c).name (argument msg) evt) = pure () := by
          refine each_idle fun d member => ?_
          obtain ⟨block, inside, rfl⟩ := List.mem_map.mp member
          exact if_pos (alone block inside)
        by_cases empty : argument msg = []
        · simp only [empty, if_true]
        · simp only [empty, if_false, bind_ok sessions, idle]

theorem routine_determined (x : Routine) (untouched : x.Untouched env c g) :
    Determined env c g x := by
  apply determined_of_same
  intro r r'
  cases x with
  | talk => exact silently_same (talk_same untouched)
  | treat => exact silently_same (treat_same untouched)
  | yell msg => exact silently_same (yell_same untouched)
  | pledge => exact silently_same (pledge_same untouched)
  | defy => exact silently_same (defy_same untouched)
  | worlds => exact silently_same (worlds_same untouched)
  | travel target => exact silently_same (travel_same untouched)
  | ping whom => exact silently_same (ping_same untouched)
  | findSlot word =>
    have start : session c g = .ok (g.blocks c, g) := rfl
    simp only [Routine.act, bind_ok start]
    exact slot_same untouched
  | save => exact silently_same (save_same untouched)

end reads

/-- Every leftover says the same, as far as these go: the flag, the register, the memory
behind it and the torn file. -/
def leaving (flag moved : Bool) (byte : UInt8) (file : File) : Leftover where
  zeroFlag := fun _ => flag
  clobbers := fun _ => moved
  stale := fun _ _ => byte
  scratch := fun _ => 0
  torn := fun _ => file

section shows

variable {env : Env} {c : Block} {g : Server}

theorem silently_ok {m : Act Unit} {g' : Server} (ended : m g = .ok ((), g')) :
    Routine.silently m g = .ok (none, g') := by
  rw [Routine.silently, bind_ok ended]
  rfl

theorem tells_differ {m n : Act Unit} {t u : Text} (k : Nat)
    (room : k < outCap - (g.blocks c).outbox.length)
    (first : Tells c t m g) (second : Tells c u n g)
    (differ : (bytes t).take (k + 1) ≠ (bytes u).take (k + 1)) :
    observed (Routine.silently m g) ≠ observed (Routine.silently n g) := by
  obtain ⟨i, one⟩ := first
  obtain ⟨j, two⟩ := second
  intro same
  rw [silently_ok one, silently_ok two] at same
  have queued : bytes (t.take (outCap - (g.blocks c).outbox.length)) =
      bytes (u.take (outCap - (g.blocks c).outbox.length)) := by
    have stored := congrArg (fun done => (done.2.1 c).2) (Except.ok.inj same)
    simpa [Server.queued, bytes] using stored
  apply differ
  have cut := congrArg (List.take (k + 1)) queued
  simp only [bytes, List.map_take, List.take_take] at cut
  rwa [Nat.min_eq_left room] at cut

/-- A number of the character that ends changed, or a fault, is seen. -/
theorem ends_differ {m n : Act Unit} (field : Session → Int)
    (kept : ∀ s : Session, field { s with outbox := [] } = field s)
    (ends : ∃ g', m g = .ok ((), g') ∧ field (g'.blocks c) = field (g.blocks c))
    (changes : Leads (· = g) (fun _ => True) n fun _ g' =>
      field (g'.blocks c) ≠ field (g.blocks c)) :
    observed (Routine.silently m g) ≠ observed (Routine.silently n g) := by
  obtain ⟨g₁, one, stays⟩ := ends
  intro same
  rw [silently_ok one] at same
  cases two : n g with
  | error fault =>
    have stopped : Routine.silently n g = .error fault := by
      simp only [Routine.silently, Bind.bind, StateT.bind, two, Except.bind]
    rw [stopped] at same
    cases same
  | ok done =>
    have moved := changes.result rfl two
    have ended : n g = .ok ((), done.2) := two
    rw [silently_ok ended] at same
    have sessions := congrArg (fun seen => (seen.2.1 c).1) (Except.ok.inj same)
    have fields := congrArg field sessions
    simp only [kept] at fields
    exact moved (fields.symm.trans stays)

theorem told_field {m : Act Unit} {t : Text} (told : Tells c t m g) (field : Session → Int)
    (kept : ∀ (s : Session) (outbox : Text), field { s with outbox := outbox } = field s) :
    ∃ g', m g = .ok ((), g') ∧ field (g'.blocks c) = field (g.blocks c) := by
  obtain ⟨n, ended⟩ := told
  refine ⟨_, ended, ?_⟩
  simp only [Server.queued, Server.setBlock_own, kept]

theorem tells_line {m : Act Unit} {t : Text} (told : Tells c (t ++ crlf) m g) :
    ∃ u, Tells c u m g :=
  ⟨_, told⟩

theorem morality_shows {m n : Act Unit} {t : Text} (refused : Tells c t m g)
    (taken : Weighs c g true n) :
    observed (Routine.silently m g) ≠ observed (Routine.silently n g) := by
  refine ends_differ (fun s => s.morality) (fun _ => rfl)
    (told_field refused (fun s => s.morality) fun _ _ => rfl) ?_
  exact taken.weaken fun _ _ weighed => weighed.mpr rfl

theorem pledge_shows (determined : Determined env c g .pledge) :
    Routine.pledge.Untouched env c g := by
  intro here
  obtain ⟨t, refused⟩ :
      ∃ t, Tells c t (daisPledge (env.left (leaving false false 0 .unreadable)) c) g := by
    apply tells_line
    refine Tells.later (a := g.blocks c) (n := g.asked) rfl ?_
    rw [if_neg (not_not_intro here)]
    refine Tells.later (n := g.asked + 1) (a := false) rfl ?_
    exact Tells.line c (lits_fit _ _ (by decide)) _
  have taken : Weighs c g true (daisPledge (env.left (leaving true false 0 .unreadable)) c) :=
    pledge_weighs here
  exact morality_shows refused taken (determined _ _)

theorem defy_shows (determined : Determined env c g .defy) : Routine.defy.Untouched env c g := by
  intro here
  obtain ⟨t, refused⟩ :
      ∃ t, Tells c t (cmdDefy (env.left (leaving false false 0 .unreadable)) c) g := by
    apply tells_line
    refine Tells.later (a := g.blocks c) (n := g.asked) rfl ?_
    rw [if_neg (not_not_intro here)]
    refine Tells.later (n := g.asked + 1) (a := false) rfl ?_
    exact Tells.line c (lit_fits _ (by decide)) _
  have sworn : accepts (env.left (leaving true false 0 .unreadable)) g (g.blocks c) .defy = true := by
    simp only [accepts, decide_eq_true here, Bool.true_and]
    rfl
  have taken : Weighs c g
      (accepts (env.left (leaving true false 0 .unreadable)) g (g.blocks c) .defy)
      (cmdDefy (env.left (leaving true false 0 .unreadable)) c) := defy_weighs
  rw [sworn] at taken
  exact morality_shows refused taken (determined _ _)

theorem talk_tells (front : Bool) (dais : (g.blocks c).room = roomWaystation ∨
      (g.blocks c).room = roomDais ∧ (g.blocks c).ashsworn = false) :
    Tells c
      (if (g.blocks c).room = roomWaystation then
        if front then talkWayFront ++ crlf else talkWayNeutral
      else if front then talkDaisFront else talkDaisNeutral)
      (cmdTalk (env.left (leaving front false 0 .unreadable)) c) g := by
  refine Tells.later (a := g.blocks c) (n := g.asked) rfl ?_
  rcases dais with way | ⟨dais, plain⟩
  · have tavern : ¬(g.blocks c).room = roomTavern := by rw [way]; decide
    have flood : ¬(g.blocks c).room = roomFloodgate := by rw [way]; decide
    rw [if_neg tavern, if_neg flood, if_pos way, if_pos way]
    refine Tells.later (n := g.asked + 1) (a := front) rfl ?_
    cases front with
    | true => exact Tells.line c (lits_fit _ _ (by decide)) _
    | false => exact Tells.later (n := g.asked + 2) (a := false) rfl (Tells.text ..)
  · have tavern : ¬(g.blocks c).room = roomTavern := by rw [dais]; decide
    have flood : ¬(g.blocks c).room = roomFloodgate := by rw [dais]; decide
    have way : ¬(g.blocks c).room = roomWaystation := by rw [dais]; decide
    rw [if_neg tavern, if_neg flood, if_neg way, if_neg way, if_pos dais,
      if_neg (Bool.eq_false_iff.mp plain)]
    refine Tells.later (n := g.asked + 1) (a := front) rfl ?_
    cases front with
    | true => exact Tells.text ..
    | false => exact Tells.later (n := g.asked + 2) (a := false) rfl (Tells.text ..)

theorem talk_shows (room : 14 < outCap - (g.blocks c).outbox.length)
    (determined : Determined env c g .talk) : Routine.talk.Untouched env c g := by
  by_contra touched
  have place : (g.blocks c).room = roomWaystation ∨
      (g.blocks c).room = roomDais ∧ (g.blocks c).ashsworn = false := by
    by_contra neither
    exact touched ⟨fun way => neither (.inl way), fun dais => by
      by_contra plain
      exact neither (.inr ⟨dais, Bool.eq_false_iff.mpr plain⟩)⟩
  refine tells_differ 14 room (talk_tells true place) (talk_tells false place) ?_
    (determined (leaving true false 0 .unreadable) (leaving false false 0 .unreadable))
  split <;> decide +kernel

theorem slot_behind (env : Env) (word : Bytes) (items : List Bytes) (i : Nat) (g : Server) :
    ∃ found g', invFindSlot env word i items g = .ok (found, g') ∧ ∀ j, found = some j → i ≤ j := by
  induction items generalizing i g with
  | nil => exact ⟨none, g, rfl, nofun⟩
  | cons item rest ih =>
    unfold invFindSlot
    by_cases empty : word = []
    · rw [if_pos empty]
      exact ⟨none, g, rfl, nofun⟩
    rw [if_neg empty]
    by_cases named : sameFold item word = true
    · rw [if_pos named]
      exact ⟨some i, g, rfl, fun j same => (Option.some.inj same).le⟩
    have moved : ask env.clobbers g = .ok (env.clobbers g.asked, { g with asked := g.asked + 1 }) :=
      rfl
    have chance : ask env.zeroFlag { g with asked := g.asked + 1 } =
        .ok (env.zeroFlag (g.asked + 1), { g with asked := g.asked + 2 }) := rfl
    rw [if_neg named, bind_ok moved, bind_ok chance]
    by_cases hit : (if env.clobbers g.asked then env.zeroFlag (g.asked + 1)
      else startsFold word item) = true
    · rw [if_pos hit]
      exact ⟨some i, _, rfl, fun j same => (Option.some.inj same).le⟩
    · rw [if_neg hit]
      obtain ⟨found, g', done, behind⟩ := ih (i + 1) { g with asked := g.asked + 2 }
      exact ⟨found, g', done, fun j same => Nat.le_of_succ_le (behind j same)⟩

theorem slot_shows {word : Bytes} (determined : Determined env c g (.findSlot word)) :
    (Routine.findSlot word).Untouched env c g := by
  by_cases empty : word = []
  · exact .inl empty
  refine .inr fun item first => ?_
  by_contra other
  obtain ⟨rest, carried⟩ : ∃ rest, (g.blocks c).inventory = item :: rest := by
    cases items : (g.blocks c).inventory with
    | nil => simp [items] at first
    | cons head rest => exact ⟨rest, by simpa [items] using first⟩
  have goes (flag : Bool) : (Routine.findSlot word).act
      (env.left (leaving flag true 0 .unreadable)) c g =
        if flag then .ok (some 0, { g with asked := g.asked + 2 })
        else invFindSlot (env.left (leaving flag true 0 .unreadable)) word 1 rest
          { g with asked := g.asked + 2 } := by
    have start : session c g = .ok (g.blocks c, g) := rfl
    simp only [Routine.act, bind_ok start, carried, invFindSlot, empty, other, if_false]
    cases flag <;> rfl
  obtain ⟨found, g', done, behind⟩ := slot_behind (env.left (leaving false true 0 .unreadable))
    word rest 1 { g with asked := g.asked + 2 }
  have same := determined (leaving true true 0 .unreadable) (leaving false true 0 .unreadable)
  rw [goes true, goes false, if_pos rfl, if_neg Bool.false_ne_true, done] at same
  have result := congrArg Prod.fst (Except.ok.inj same)
  have late := behind 0 result.symm
  omega

theorem save_shows (determined : Determined env c g .save) : Routine.save.Untouched env c g := by
  intro named left torn
  obtain ⟨key, path⟩ := Option.isSome_iff_exists.mp named
  have writes (file : File) : storeSave (env.left (leaving false false 0 file)) c g =
      .ok ((), { g with asked := g.asked + 1 }.onDisk key file) := by
    have start : session c g = .ok (g.blocks c, g) := rfl
    have short : ask (env.left (leaving false false 0 file)).writing g =
        .ok (.torn file, { g with asked := g.asked + 1 }) := by
      show Except.ok (match env.writing g.asked with
        | .torn _ => Writing.torn file
        | writing => writing, _) = _
      rw [torn]
    rw [storeSave, bind_ok start]
    simp only [path, bind_ok short]
    rfl
  have same := determined (leaving false false 0 .unreadable) (leaving false false 0 (.json .null))
  have first : Routine.save.act (env.left (leaving false false 0 .unreadable)) c g = _ :=
    silently_ok (writes .unreadable)
  have second : Routine.save.act (env.left (leaving false false 0 (.json .null))) c g = _ :=
    silently_ok (writes (.json .null))
  rw [first, second] at same
  have disks := congrArg (fun seen => seen.2.2 key) (Except.ok.inj same)
  simp [Server.onDisk] at disks

section cot

variable (here : (g.blocks c).room = roomWaystation) (calm : (g.blocks c).inCombat = false)
variable (plain : (g.blocks c).ashsworn = false)
include here calm

theorem branded_tells : Tells c (treatBranded ++ crlf)
    (cmdTreat (env.left (leaving true false 0 .unreadable)) c) g := by
  refine Tells.later (a := g.blocks c) (n := g.asked) rfl ?_
  rw [if_neg (not_not_intro here), if_neg (Bool.eq_false_iff.mp calm)]
  refine Tells.later (n := g.asked + 1) (a := true) rfl ?_
  rw [if_pos (.inl rfl)]
  exact Tells.line c (lits_fit _ _ (by decide)) _

include plain

theorem whole_tells (whole : (g.blocks c).maxHp ≤ (g.blocks c).hp) :
    Tells c (lit "The medic looks you over and waves you off. \"" ++
        lit "You're whole. Save the cot for someone who isn't.\"" ++ crlf ++ treatEvt 0)
      (cmdTreat (env.left (leaving false false 0 .unreadable)) c) g := by
  have unmarked : ¬(false = true ∨ (g.blocks c).ashsworn = true) := by simp [plain]
  refine Tells.later (a := g.blocks c) (n := g.asked) rfl ?_
  rw [if_neg (not_not_intro here), if_neg (Bool.eq_false_iff.mp calm)]
  refine Tells.later (n := g.asked + 1) (a := false) rfl ?_
  rw [if_neg unmarked, if_pos whole]
  exact Tells.seq (Tells.text ..) fun g' => Tells.text ..

theorem treated_heals (hurt : (g.blocks c).hp < (g.blocks c).maxHp) :
    Leads (· = g) (fun _ => True) (cmdTreat (env.left (leaving false false 0 .unreadable)) c)
      fun _ g' => (g'.blocks c).hp ≠ (g.blocks c).hp := by
  have p := life_last (env.left (leaving false false 0 .unreadable)) c (· = (g.blocks c).maxHp)
  have r := p.reports (d := c) trivial
  have unmarked : ¬(false = true ∨ (g.blocks c).ashsworn = true) := by simp [plain]
  have asked : ask (env.left (leaving false false 0 .unreadable)).zeroFlag g =
      .ok (false, { g with asked := g.asked + 1 }) := rfl
  apply Leads.reads (rfl : session c g = .ok (g.blocks c, g))
  rw [if_neg (not_not_intro here), if_neg (Bool.eq_false_iff.mp calm)]
  intro s started
  rw [started, bind_ok asked, if_neg unmarked, if_neg (by omega)]
  refine Leads.seq (M := fun g' => (g'.blocks c).hp = (g.blocks c).maxHp)
    (P := (· = { g with asked := g.asked + 1 })) ?_ ?_ _ rfl
  · apply Leads.modify
    rintro _ rfl
    rw [Server.updated, Server.setBlock_own]
  · apply Leads.weaken (Leads.stays (q := Any) ?_)
    · intro _ g' same
      omega
    · refine Keeps.seq (p.saves trivial) (Keeps.seq (r.said (sound_lax id)) ?_)
      exact Keeps.seq (r.said (sound_lax id)) r.vitals_now

end cot

theorem treat_shows (shows_it : Routine.treat.Shows c g) (determined : Determined env c g .treat) :
    Routine.treat.Untouched env c g := by
  intro here
  by_contra neither
  have calm : (g.blocks c).inCombat = false := by
    by_contra fighting
    exact neither (.inl (Bool.eq_true_of_not_eq_false fighting))
  have plain : (g.blocks c).ashsworn = false := by
    by_contra marked
    exact neither (.inr (Bool.eq_true_of_not_eq_false marked))
  have same := determined (leaving true false 0 .unreadable) (leaving false false 0 .unreadable)
  by_cases whole : (g.blocks c).maxHp ≤ (g.blocks c).hp
  · have room := shows_it.resolve_right (by omega)
    exact tells_differ 4 room (branded_tells here calm) (whole_tells here calm plain whole)
      (by decide +kernel) same
  · have branded : Tells c _ (cmdTreat (env.left (leaving true false 0 .unreadable)) c) g :=
      branded_tells here calm
    have told := told_field branded (fun s => s.hp) fun _ _ => rfl
    exact ends_differ (fun s => s.hp) (fun _ => rfl) told
      (treated_heals here calm plain (by omega)) same

/-- With every register moved, the first byte it leads to decides for all worlds at once. -/
theorem ping_reads (env : Env) (byte : UInt8) (n : Nat) (rows : List Trace) (g : Server) :
    ∃ asked, pingAllLocal (env.left (leaving false true byte .unreadable)) n rows g =
      .ok (if byte = 0 then [] else
        (rows.filter fun t => t.world ≠ gridWorldName env).take n, { g with asked := asked }) := by
  induction rows generalizing n g with
  | nil =>
    refine ⟨g.asked, ?_⟩
    cases n <;> (simp only [pingAllLocal, List.filter_nil, List.take_nil, ite_self]; rfl)
  | cons t rest ih =>
    cases n with
    | zero =>
      refine ⟨g.asked, ?_⟩
      simp only [pingAllLocal, List.take_zero, ite_self]
      rfl
    | succ n =>
      by_cases own : t.world = gridWorldName env
      · obtain ⟨asked, done⟩ := ih (n + 1) g
        refine ⟨asked, ?_⟩
        rw [pingAllLocal, if_pos (show t.world = gridWorldName (env.left _) from own), done]
        simp [own]
      · have moved : ask (env.left (leaving false true byte .unreadable)).clobbers g =
            .ok (true, { g with asked := g.asked + 1 }) := rfl
        have memory : ask (env.left (leaving false true byte .unreadable)).stale
            { g with asked := g.asked + 1 } =
              .ok (fun _ => byte, { g with asked := g.asked + 2 }) := rfl
        rw [pingAllLocal, if_neg (show ¬t.world = gridWorldName (env.left _) from own),
          bind_ok moved, bind_ok memory]
        by_cases zero : byte = 0
        · obtain ⟨asked, done⟩ := ih (n + 1) { g with asked := g.asked + 2 }
          refine ⟨asked, ?_⟩
          simp only [zero, if_true] at done ⊢
          exact done
        · obtain ⟨asked, done⟩ := ih n { g with asked := g.asked + 2 }
          refine ⟨asked, ?_⟩
          simp only [zero, if_true, if_false] at done ⊢
          rw [bind_ok done]
          simp [own]
          rfl

theorem all_pinged {whom : Ptr} (all : (whom.any fun word => sameFold word (str "all")) = true)
    (near : env.remote = false) (byte : UInt8) :
    Tells c ((fmtGridPingAll 3072 (if byte = 0 then [] else
        (g.grid.traces.filter fun t => t.world ≠ gridWorldName env).take 8)).getD [])
      (cmdPing (env.left (leaving false true byte .unreadable)) c whom) g := by
  obtain ⟨asked, done⟩ := ping_reads env byte 8 g.grid.traces g
  have alone : ¬(env.left (leaving false true byte .unreadable)).remote = true :=
    Bool.eq_false_iff.mp near
  have start : getGrid g = .ok (g.grid, g) := rfl
  simp only [cmdPing, all, if_true]
  refine Tells.later (n := asked) ?_ (Tells.text ..)
  rw [pingAll, if_neg alone, bind_ok start, done]

theorem append_front {cap : Nat} {buf out : Text} {pieces : List Text}
    (whole : fmtAppendAll cap buf pieces = some out) : ∃ rest, out = buf ++ rest := by
  induction pieces generalizing buf with
  | nil => exact ⟨[], by simpa [fmtAppendAll] using whole.symm⟩
  | cons piece others ih =>
    obtain ⟨next, fits, goes_on⟩ := Option.bind_eq_some_iff.mp whole
    obtain ⟨rest, same⟩ := ih goes_on
    unfold fmtAppend at fits
    split at fits
    · cases fits
      exact ⟨piece ++ rest, by rw [same, List.append_assoc]⟩
    · cases fits

/-- The two answers to a ping part with their first byte. -/
theorem ping_differs (t : Trace) (rest : List Trace) :
    (bytes ((fmtGridPingAll 3072 []).getD [])).take 1 ≠
      (bytes ((fmtGridPingAll 3072 (t :: rest)).getD [])).take 1 := by
  have silent : (bytes ((fmtGridPingAll 3072 []).getD [])).take 1 = [84] := by decide +kernel
  rw [silent]
  cases heard : fmtGridPingAll 3072 (t :: rest) with
  | none => simp [bytes]
  | some out =>
    unfold fmtGridPingAll at heard
    rw [if_neg (List.cons_ne_nil t rest)] at heard
    obtain ⟨json, -, whole⟩ := Option.bind_eq_some_iff.mp heard
    obtain ⟨next, fits, goes_on⟩ := Option.bind_eq_some_iff.mp whole
    obtain ⟨last, same⟩ := append_front goes_on
    unfold fmtAppend at fits
    split at fits
    · cases fits
      have opening : (bytes ([] ++
          (lit "You key past your own node, into the whole dead network. It " ++
            lit "remembers, from across the Grid:" ++ crlf))).take 1 = [89] := by
        decide +kernel
      rw [Option.getD_some, same, bytes, List.map_append,
        List.take_append_of_le_length (by decide +kernel)]
      exact fun clash => absurd (clash.trans opening) (by decide)
    · cases fits

theorem ping_shows {whom : Ptr} (room : 0 < outCap - (g.blocks c).outbox.length)
    (determined : Determined env c g (.ping whom)) : (Routine.ping whom).Untouched env c g := by
  intro all near t member
  by_contra foreign
  have same := determined (leaving false true 0 .unreadable) (leaving false true 1 .unreadable)
  refine tells_differ 0 room (all_pinged all near 0) (all_pinged all near 1) ?_ same
  rw [if_pos rfl, if_neg (by decide)]
  obtain ⟨first, rest, kept⟩ : ∃ first rest,
      g.grid.traces.filter (fun t => t.world ≠ gridWorldName env) = first :: rest := by
    refine List.exists_cons_of_ne_nil (List.ne_nil_of_mem (a := t) ?_)
    exact List.mem_filter.mpr ⟨member, by simpa using foreign⟩
  rw [kept, List.take_succ_cons]
  exact ping_differs first _

end shows

/-- The ten functions leave the same whatever a call left in flags, registers and memory, where
none of these is read; and where one is read, it shows. -/
theorem leftovers_unread (env : Env) (c : Block) (g : Server) (x : Routine) :
    (x.Untouched env c g → Determined env c g x) ∧
      (x.Shows c g → Determined env c g x → x.Untouched env c g) := by
  refine ⟨routine_determined x, fun shown determined => ?_⟩
  cases x with
  | talk => exact talk_shows shown determined
  | treat => exact treat_shows shown determined
  | pledge => exact pledge_shows determined
  | defy => exact defy_shows determined
  | ping whom => exact ping_shows shown determined
  | findSlot word => exact slot_shows determined
  | save => exact save_shows determined
  | yell msg => exact shown.elim
  | worlds => exact shown.elim
  | travel target => exact shown.elim

theorem leftovers_unread_save : Determined quietNode 0 { disk := sharedDisk } .save :=
  (leftovers_unread quietNode 0 { disk := sharedDisk } .save).1 fun _ left => by
    simp [quietNode]

/-- A medic goes by the flag strcmp left: it decides whether a wounded newcomer is healed. -/
theorem treat_reads_flag : ¬ ∀ (env : Env) (c : Block) (g : Server) (x : Routine),
    Determined env c g x := by
  intro always
  have determined := always quietNode 0
    { blocks := fun _ => { room := roomWaystation, hp := 1 }, disk := sharedDisk } .treat
  exact absurd (treat_shows (.inl (by decide)) determined rfl) (by decide)

end HollowGrid
