import HollowGrid.Tally
import HollowGrid.Limits

/-! Who has forgiven whom and who keeps whose memory: a pair that the tables had a place for
is rewarded once. -/
namespace HollowGrid

section Tables

variable {pairs : List (Bytes × Bytes)} {a b a' b' : Bytes}

theorem has_pair_fold (pairs : List (Bytes × Bytes)) (first : sameFold a a' = true)
    (second : sameFold b b' = true) : hasPair pairs a b = hasPair pairs a' b' := by
  have lower_first := (same_fold_iff _ _).mp first
  have lower_second := (same_fold_iff _ _).mp second
  simp only [hasPair, sameFold, lower_first, lower_second]

theorem mark_pair_has {cap : Nat} (place : pairs.length < cap) (left : a.length ≤ 40)
    (right : b.length ≤ 40) : hasPair (markPair cap pairs a b) a b = true := by
  unfold markPair
  split
  · assumption
  · rw [if_neg (by omega), List.take_of_length_le left, List.take_of_length_le right]
    simp [hasPair, sameFold]

theorem mark_pair_keeps (cap : Nat) (had : hasPair pairs a b = true) :
    hasPair (markPair cap pairs a' b') a b = true := by
  unfold markPair
  split
  · exact had
  split
  · exact had
  · unfold hasPair at had ⊢
    rw [List.any_append, had, Bool.true_or]

end Tables

/-- No name is longer than valid_name lets it be. -/
def ShortNames (g : Server) : Prop := ∀ d, (g.blocks d).name.length ≤ 32

theorem load_name {env : Env} {s s' : Session} {disk disk' : Disk} (load : Load env s disk s' disk') :
    s'.name = s.name := by
  cases load <;> rfl

theorem move_name {env : Env} {line : Bytes} {s s' : Session} {disk disk' : Disk}
    (move : LoginMove env line s disk s' disk') :
    s'.name = s.name ∨ s'.name = line ∧ validName line = true := by
  cases move with
  | refused => exact .inl rfl
  | keeper _ valid => exact .inr ⟨rfl, valid⟩
  | named _ valid _ load => exact .inr ⟨load_name load, valid⟩
  | trusted _ _ load =>
    have same := load_name load
    exact .inl same
  | raced => exact .inl rfl
  | entered _ enters =>
    left
    cases enters <;> rfl

theorem names_step {env : Env} {g g' : Server} {e : Event} (short : ShortNames g)
    (taken : step env g e = .ok g') : ShortNames g' := by
  intro d
  cases step_course taken with
  | @fresh c wsi _ _ same =>
    rw [same]
    by_cases own : d = c
    · subst own
      obtain ⟨outbox, close, other, told, _⟩ := opened_own g d wsi
      rw [told]
      exact Nat.zero_le 32
    · rw [opened_other g wsi own]
      exact short d
  | @login c text s' disk' _ _ _ move like others _ _ =>
    by_cases own : d = c
    · subst own
      rw [like.name]
      rcases move_name move with same | ⟨chosen, valid⟩
      · rw [same]
        exact short d
      · rw [chosen]
        simp only [validName, Bool.and_eq_true, decide_eq_true_eq] at valid
        exact valid.1.2
    · rw [others d own]
      exact short d
  | command _ played =>
    rw [(played.peers d).name]
    exact short d
  | beat _ played =>
    rw [(played.peers d).name]
    exact short d
  | quiet idle =>
    rw [idle.name d]
    exact short d

theorem names_run {env : Env} {disk : Disk} {events : List Event} {g : Server}
    (reached : Machine.Reaches (step env) (boot env disk) events g) : ShortNames g :=
  Machine.invariant_every_run (step env) ShortNames (boot env disk) (fun _ => Nat.zero_le 32)
    (fun _ _ _ short taken => names_step short taken) events g reached

structure Remembers (l l' : Ledger) : Prop where
  forgiven : ∀ a b, forgivenHas l a b = true → forgivenHas l' a b = true
  kept : ∀ a b, keptHas l a b = true → keptHas l' a b = true

theorem remembers_same {l l' : Ledger} (same : l' = l) : Remembers l l' := by
  rw [same]
  exact ⟨fun _ _ => id, fun _ _ => id⟩

theorem add_deed_forgiven (l : Ledger) (player : Bytes) (kind : Deed) :
    (addDeed l player kind).forgiven = l.forgiven := by
  unfold addDeed
  split <;> rfl

theorem add_deed_kept (l : Ledger) (player : Bytes) (kind : Deed) :
    (addDeed l player kind).kept = l.kept := by
  unfold addDeed
  split <;> rfl

theorem remembers_forgiving (l : Ledger) (a b player : Bytes) (kind : Deed) :
    Remembers l (addDeed (forgivenMark l a b) player kind) := by
  constructor
  · intro x y had
    rw [forgivenHas, add_deed_forgiven]
    exact mark_pair_keeps 256 had
  · intro x y had
    rw [keptHas, add_deed_kept]
    exact had

theorem remembers_keeping (l : Ledger) (a b player : Bytes) (kind : Deed) :
    Remembers l (addDeed (keptMark l a b) player kind) := by
  constructor
  · intro x y had
    rw [forgivenHas, add_deed_forgiven]
    exact had
  · intro x y had
    rw [keptHas, add_deed_kept]
    exact mark_pair_keeps 128 had

section Lasting

variable {env : Env} {g g' : Server} {c : Block}

theorem remembers_framed {may : Block → Part → Prop} {free : Table → Prop}
    (forgiven : ¬free .forgiven) (kept : ¬free .kept) (framed : Framed may free g g') :
    Remembers g.ledger g'.ledger := by
  have pairs := congrArg Ledger.forgiven (framed.ledger .forgiven forgiven)
  have vigils := congrArg Ledger.kept (framed.ledger .kept kept)
  change g'.ledger.forgiven = g.ledger.forgiven at pairs
  change g'.ledger.kept = g.ledger.kept at vigils
  constructor
  · intro a b had
    rw [forgivenHas, pairs]
    exact had
  · intro a b had
    rw [keptHas, vigils]
    exact had

theorem remembers_spoken {line : Bytes} {m : Act Unit} (said : Spoken env c line g m)
    (ended : m g = .ok ((), g')) : Remembers g.ledger g'.ledger := by
  by_cases forgives : ∃ arg, m = cmdForgive env c arg
  · obtain ⟨arg, rfl⟩ := forgives
    rw [(forgive_ledger arg).result rfl ended]
    cases forgiveTaken g c arg with
    | none => exact remembers_same rfl
    | some d => exact remembers_forgiving ..
  by_cases witnesses : ∃ arg, m = cmdWitness env c arg
  · obtain ⟨arg, rfl⟩ := witnesses
    rw [(witness_ledger arg).result rfl ended]
    cases witnessTaken env g c arg with
    | none => exact remembers_same rfl
    | some row => exact remembers_keeping ..
  have framed : Framed (fun _ _ => True) (fun t => t ≠ .forgiven ∧ t ≠ .kept) g g' := by
    apply spoken_framed said ended trivial
    intro arm arg _ same
    have other : arm ≠ .forgive ∧ arm ≠ .witness := by
      constructor
      · rintro rfl
        exact forgives ⟨arg, same⟩
      · rintro rfl
        exact witnesses ⟨arg, same⟩
    constructor
    · exact fun _ _ => trivial
    · exact fun _ _ _ _ => trivial
    · cases arm <;> first | exact absurd rfl other.1 | exact absurd rfl other.2 | decide
  exact remembers_framed (by simp) (by simp) framed

theorem remembers_step {e : Event} (taken : step env g e = .ok g') :
    Remembers g.ledger g'.ledger := by
  cases step_course taken with
  | @fresh d wsi _ _ same =>
    rw [same]
    exact remembers_same rfl
  | login _ _ _ _ _ _ _ same => exact remembers_same same
  | @command d line wsi m _ _ said ended =>
    have later := remembers_spoken said ended
    exact later
  | beat _ _ ended =>
    have kept : Keeps (Framed (fun _ _ => True) worldly g) (fun _ => True) (tickService env) Any :=
      beat_framed (fun _ => trivial) (fun _ => trivial) (fun _ => trivial) (.inl rfl) (.inr rfl)
    have framed := (kept.result (framed_start _ _ g) ended).1
    exact remembers_same (ledger_framed framed)
  | quiet idle => exact remembers_same idle.ledger

theorem remembers_run {events : List Event} (reached : Machine.Reaches (step env) g events g') :
    Remembers g.ledger g'.ledger := by
  induction events generalizing g with
  | nil =>
    cases reached
    exact remembers_same rfl
  | cons e rest ih =>
    obtain ⟨next, taken, later⟩ := Machine.reaches_cons reached
    have first := remembers_step taken
    have others := ih later
    exact ⟨fun a b had => others.forgiven a b (first.forgiven a b had),
      fun a b had => others.kept a b (first.kept a b had)⟩

end Lasting

section Heard

variable {g : Server} {c : Block}

theorem listed_heard (wsi : Wsi) : listed (g.setWsi c wsi) =
    .ok (((g.sessionTable.filterMap id).map fun d => (d, (g.setWsi c wsi).blocks d)),
      g.setWsi c wsi) := rfl

theorem heard_like (wsi : Wsi) (d : Block) : ((g.setWsi c wsi).blocks d).toCharacter =
    (g.blocks d).toCharacter ∧ ((g.setWsi c wsi).blocks d).name = (g.blocks d).name := by
  have heard : Idle g (g.setWsi c wsi) := idle_block rfl rfl rfl rfl
  exact ⟨heard.character d, heard.name d⟩

/-- Whose socket a line came by makes no difference to who is found. -/
theorem found_heard (wsi : Wsi) (room : Int) (word : Bytes) (except : Ptr) :
    foundBy (g.setWsi c wsi) room word except = foundBy g room word except := by
  have matches_same (d : Block) : mayMatch room word except ((g.setWsi c wsi).blocks d) =
      mayMatch room word except (g.blocks d) := by
    obtain ⟨character, name⟩ := heard_like (g := g) (c := c) wsi d
    have place := congrArg Character.room character
    change ((g.setWsi c wsi).blocks d).room = (g.blocks d).room at place
    simp only [mayMatch, place, name]
  unfold foundBy findPlayerPrefix
  by_cases bare : word = []
  · simp only [if_pos bare]
    rfl
  simp only [if_neg bare]
  rw [bind_ok (listed_heard wsi), bind_ok (rfl : listed g = .ok (_, g))]
  simp only [List.filter_map, Function.comp_def, matches_same]
  generalize List.filter _ _ = blocks
  rcases blocks with _ | ⟨d, _ | _⟩ <;> rfl

theorem marked_like {s s' : Session} (same : s'.toCharacter = s.toCharacter) :
    marked s' = marked s := by
  simp only [marked, isFront, same]

theorem forgive_heard (wsi : Wsi) (arg : Ptr) :
    forgiveTaken (g.setWsi c wsi) c arg = forgiveTaken g c arg := by
  have place := congrArg Character.room (heard_like (g := g) (c := c) wsi c).1
  change ((g.setWsi c wsi).blocks c).room = (g.blocks c).room at place
  have names (d : Block) := (heard_like (g := g) (c := c) wsi d).2
  have marks (d : Block) := marked_like (heard_like (g := g) (c := c) wsi d).1
  have ledger : (g.setWsi c wsi).ledger = g.ledger := rfl
  simp only [forgiveTaken, found_heard, place, names, marks, ledger]

theorem witness_heard (env : Env) (wsi : Wsi) (arg : Ptr) :
    witnessTaken env (g.setWsi c wsi) c arg = witnessTaken env g c arg := by
  have rows : (recentFallen env (g.setWsi c wsi)).1 = (recentFallen env g).1 := by
    unfold recentFallen gridRecentFallen rpcCall
    cases env.remote <;> rfl
  have names := (heard_like (g := g) (c := c) wsi c).2
  have ledger : (g.setWsi c wsi).ledger = g.ledger := rfl
  simp only [witnessTaken, rows, names, ledger]

end Heard

/-- Somebody is better or worse for it, or a deed is counted. -/
def Rewarded (g g' : Server) : Prop :=
  (∃ k, (g'.blocks k).morality ≠ (g.blocks k).morality) ∨ g'.ledger.deeds ≠ g.ledger.deeds

/-- The player of the first name is rewarded for forgiving the second. -/
def ForgiveEarned (g : Server) (e : Event) (g' : Server) (forgiver subject : Bytes) : Prop :=
  ∃ c line arg d, Delivered g e c line ∧ RunsArm g c line .forgive arg ∧
    foundBy g (g.blocks c).room (firstWord arg) none = some d ∧ (g.blocks c).name = forgiver ∧
    (g.blocks d).name = subject ∧ Rewarded g g'

/-- The player of the first name is rewarded for keeping the fallen of the second. -/
def KeptEarned (env : Env) (g : Server) (e : Event) (g' : Server) (keeper fallen : Bytes) : Prop :=
  ∃ c line arg row, Delivered g e c line ∧ RunsArm g c line .witness arg ∧
    ((recentFallen env g).1.find? fun row => sameFold row.name (firstWord arg)) = some row ∧
    (g.blocks c).name = keeper ∧ row.name = fallen ∧ Rewarded g g'

/-- Two for the player of the first name and five for the one of the second, and a deed. -/
def ForgivePaid (g g' : Server) (forgiver subject : Bytes) : Prop :=
  ∃ c d, (g.blocks c).name = forgiver ∧ (g.blocks d).name = subject ∧
    (∀ k, (g'.blocks k).morality =
      (g.blocks k).morality + (if k = d then 5 else 0) + if k = c then 2 else 0) ∧
    g'.ledger.deeds = (addDeed g.ledger forgiver .forgave).deeds

/-- Two for the player, and a deed. -/
def KeptPaid (g g' : Server) (keeper : Bytes) : Prop :=
  ∃ c, (g.blocks c).name = keeper ∧
    (∀ k, (g'.blocks k).morality = (g.blocks k).morality + if k = c then 2 else 0) ∧
    g'.ledger.deeds = (addDeed g.ledger keeper .kept).deeds

section Once

variable {env : Env} {g g' : Server} {e : Event} {a b a' b' : Bytes} {c d : Block} {arg : Ptr}
variable {row : Fallen}

theorem unrewarded {wsi : Wsi} (held : Account (g.setWsi c wsi).ledger
    (fun k => ((g.setWsi c wsi).blocks k).morality) g') : ¬Rewarded g g' := by
  have before (k : Block) : ((g.setWsi c wsi).blocks k).morality = (g.blocks k).morality :=
    congrArg Character.morality (heard_like (g := g) (c := c) wsi k).1
  rintro (⟨k, moved⟩ | counted)
  · exact moved ((held.morals k).trans (before k))
  · exact counted (congrArg Ledger.deeds held.ledger)

theorem forgave_found (taken : forgiveTaken g c arg = some d) :
    foundBy g (g.blocks c).room (firstWord arg) none = some d ∧
      forgivenHas g.ledger (g.blocks c).name (g.blocks d).name = false := by
  simp only [forgiveTaken] at taken
  split at taken
  · cases taken
  · obtain ⟨found, allowed⟩ := Option.filter_eq_some_iff.mp taken
    simp only [Bool.and_eq_true, Bool.not_eq_true'] at allowed
    exact ⟨found, allowed.1⟩

theorem witness_found (taken : witnessTaken env g c arg = some row) :
    ((recentFallen env g).1.find? fun row => sameFold row.name (firstWord arg)) = some row ∧
      keptHas g.ledger (g.blocks c).name row.name = false := by
  simp only [witnessTaken] at taken
  split at taken
  · cases taken
  · obtain ⟨listed, allowed⟩ := Option.filter_eq_some_iff.mp taken
    exact ⟨listed, by simpa using allowed⟩

theorem forgive_earned (earned : ForgiveEarned g e g' a b) (taken : step env g e = .ok g') :
    ∃ c d, (g.blocks c).name = a ∧ (g.blocks d).name = b ∧ forgivenHas g.ledger a b = false ∧
      g'.ledger = addDeed (forgivenMark g.ledger a b) a .forgave ∧ ForgivePaid g g' a b := by
  obtain ⟨c, line, arg, d, given, runs, found, rfl, rfl, rewarded⟩ := earned
  obtain ⟨wsi, ended⟩ := runs_step given runs taken
  have names (k : Block) := (heard_like (g := g) (c := c) wsi k).2
  have morals (k : Block) : ((g.setWsi c wsi).blocks k).morality = (g.blocks k).morality :=
    congrArg Character.morality (heard_like (g := g) (c := c) wsi k).1
  have before : (g.setWsi c wsi).ledger = g.ledger := rfl
  have held := (forgive_leads arg).result rfl ended
  rw [forgive_heard] at held
  cases allowed : forgiveTaken g c arg with
  | none =>
    rw [allowed] at held
    exact absurd rewarded (unrewarded held)
  | some k =>
    obtain ⟨same, fresh⟩ := forgave_found allowed
    cases found.symm.trans same
    rw [allowed] at held
    simp only [names, morals, before] at held
    refine ⟨c, d, rfl, rfl, fresh, held.ledger, c, d, rfl, rfl, held.morals, ?_⟩
    rw [held.ledger]
    unfold addDeed
    split <;> rfl

theorem kept_earned (earned : KeptEarned env g e g' a b) (taken : step env g e = .ok g') :
    ∃ c row, (g.blocks c).name = a ∧ row.name = b ∧ row ∈ (recentFallen env g).1 ∧
      keptHas g.ledger a b = false ∧ g'.ledger = addDeed (keptMark g.ledger a b) a .kept ∧
      KeptPaid g g' a := by
  obtain ⟨c, line, arg, row, given, runs, found, rfl, rfl, rewarded⟩ := earned
  obtain ⟨wsi, ended⟩ := runs_step given runs taken
  have names (k : Block) := (heard_like (g := g) (c := c) wsi k).2
  have morals (k : Block) : ((g.setWsi c wsi).blocks k).morality = (g.blocks k).morality :=
    congrArg Character.morality (heard_like (g := g) (c := c) wsi k).1
  have before : (g.setWsi c wsi).ledger = g.ledger := rfl
  have held := (witness_leads arg).result rfl ended
  rw [witness_heard] at held
  cases allowed : witnessTaken env g c arg with
  | none =>
    rw [allowed] at held
    exact absurd rewarded (unrewarded held)
  | some other =>
    obtain ⟨same, fresh⟩ := witness_found allowed
    cases found.symm.trans same
    rw [allowed] at held
    simp only [names, morals, before] at held
    refine ⟨c, row, rfl, rfl, List.mem_of_find?_eq_some found, fresh, held.ledger, c, rfl,
      held.morals, ?_⟩
    rw [held.ledger]
    unfold addDeed
    split <;> rfl

theorem fallen_short {row : Fallen} (member : row ∈ (recentFallen env g).1) :
    row.name.length ≤ 32 := by
  have cut (name : Bytes) : (safeCopy 33 name).length ≤ 32 := by
    rw [safeCopy, List.length_take]
    omega
  unfold recentFallen gridRecentFallen rpcCall at member
  cases away : env.remote with
  | true =>
    rw [away] at member
    change row ∈ (Option.map _ (rpcRows _)).getD [] at member
    cases answer : rpcRows (env.rpc g.asked (str "recentFallen") [.num 12]) with
    | none =>
      rw [answer] at member
      cases member
    | some rows =>
      rw [answer] at member
      obtain ⟨json, _, rfl⟩ := List.mem_map.mp member
      exact cut _
  | false =>
    rw [away] at member
    obtain ⟨held, _, rfl⟩ := List.mem_map.mp member
    exact cut _

theorem forgive_earned_has (short : ShortNames g) (earned : ForgiveEarned g e g' a b)
    (place : g.ledger.forgiven.length < 256) (taken : step env g e = .ok g') :
    forgivenHas g'.ledger a b = true := by
  obtain ⟨c, d, rfl, rfl, _, written, _⟩ := forgive_earned earned taken
  rw [written, forgivenHas, add_deed_forgiven]
  have own := short c
  have other := short d
  exact mark_pair_has place (by omega) (by omega)

theorem kept_earned_has (short : ShortNames g) (earned : KeptEarned env g e g' a b)
    (place : g.ledger.kept.length < 128) (taken : step env g e = .ok g') :
    keptHas g'.ledger a b = true := by
  obtain ⟨c, row, rfl, rfl, listed, _, written, _⟩ := kept_earned earned taken
  rw [written, keptHas, add_deed_kept]
  have own := short c
  have other := fallen_short listed
  exact mark_pair_has place (by omega) (by omega)

end Once

/-- A pair that found a place in its table when it was rewarded is not rewarded again, and the
reward is the two or the seven, and one deed. -/
theorem pairs_once (env : Env) (disk : Disk) (before : List Event) (e₁ : Event)
    (mid : List Event) (e₂ : Event) (g₁ g g₂ g₃ : Server) (a b a' b' : Bytes)
    (reached : Machine.Reaches (step env) (boot env disk) before g₁)
    (taken : step env g₁ e₁ = .ok g) (between : Machine.Reaches (step env) g mid g₂)
    (again : step env g₂ e₂ = .ok g₃) (first : sameFold a a' = true)
    (second : sameFold b b' = true) :
    (ForgiveEarned g₁ e₁ g a b → ForgivePaid g₁ g a b ∧
      (g₁.ledger.forgiven.length < 256 → ¬ForgiveEarned g₂ e₂ g₃ a' b')) ∧
    (KeptEarned env g₁ e₁ g a b → KeptPaid g₁ g a ∧
      (g₁.ledger.kept.length < 128 → ¬KeptEarned env g₂ e₂ g₃ a' b')) := by
  have short := names_run reached
  have remembered := remembers_run between
  constructor
  · intro earned
    obtain ⟨_, _, _, _, _, _, paid⟩ := forgive_earned earned taken
    refine ⟨paid, fun place later => ?_⟩
    have had := remembered.forgiven a b (forgive_earned_has short earned place taken)
    rw [forgivenHas, has_pair_fold _ first second] at had
    obtain ⟨_, _, _, _, fresh, _⟩ := forgive_earned later again
    exact absurd had (by simpa [forgivenHas] using fresh)
  · intro earned
    obtain ⟨_, _, _, _, _, _, _, paid⟩ := kept_earned earned taken
    refine ⟨paid, fun place later => ?_⟩
    have had := remembered.kept a b (kept_earned_has short earned place taken)
    rw [keptHas, has_pair_fold _ first second] at had
    obtain ⟨_, _, _, _, _, fresh, _⟩ := kept_earned later again
    exact absurd had (by simpa [keptHas] using fresh)

/-- Both of the players stand with the Front. -/
def swornDisk : Bytes → Option File := fun _ =>
  some (.json (.obj [(str "secretHash", .str (bcryptLike (str "password") oneSalt)),
    (str "faction", .str (str "front"))]))

def forgivesAda (g : Server) : Bool :=
  decide ((Event.message 1 (str "forgive ada")).valid g = true ∧ (g.blocks 1).state = .play ∧
    roomMove (g.blocks 1).room (heading (str "forgive ada")) = .unknown ∧
    foundBy g (g.blocks 1).room (str "ada") none = some 0 ∧ (g.blocks 1).name = str "bo" ∧
    (g.blocks 0).name = str "ada" ∧ g.ledger.forgiven.length < 256 ∧ (g.blocks 1).morality = 0)

theorem forgives_ada {g g' : Server} (ready : forgivesAda g = true)
    (raised : (g'.blocks 1).morality = 2) :
    ForgiveEarned g (.message 1 (str "forgive ada")) g' (str "bo") (str "ada") ∧
      g.ledger.forgiven.length < 256 := by
  obtain ⟨valid, playing, stays, found, own, other, place, before⟩ := of_decide_eq_true ready
  have parsed : parse (str "forgive ada") = some (.forgive, some (str "ada")) := by decide +kernel
  have word : firstWord (some (str "ada")) = str "ada" := by decide
  refine ⟨⟨1, str "forgive ada", some (str "ada"), 0, ⟨str "forgive ada", rfl, valid, by decide,
    playing, by decide⟩, ⟨by decide, by decide, stays, parsed⟩, ?_, own, other, .inl ⟨1, ?_⟩⟩, place⟩
  · rw [word]
    exact found
  · rw [raised, before]
    decide

/-- Forgiven once, ada is not forgiven again. -/
theorem pairs_once_ada : ∃ g₁ g g₂ : Server, ∃ e, step quietNode g₁ e = .ok g ∧
    step quietNode g e = .ok g₂ ∧ ForgivePaid g₁ g (str "bo") (str "ada") ∧
    (g.blocks 1).morality = 2 ∧ ¬ForgiveEarned g e g₂ (str "BO") (str "ADA") := by
  have met (events : List Event) (test : Server → Bool) (passed : Machine.ends (step quietNode)
      (boot quietNode swornDisk) events test = true) :=
    Machine.ends_reaches (step quietNode) (boot quietNode swornDisk) events test passed
  obtain ⟨g₁, reached₁, ready⟩ := met (returns 0 (str "ada") ++ returns 1 (str "bo")) forgivesAda
    (by decide +kernel)
  obtain ⟨g₂, reached₂, _⟩ := met (returns 0 (str "ada") ++ returns 1 (str "bo") ++
    [.message 1 (str "forgive ada")] ++ [.message 1 (str "forgive ada")]) (fun _ => true)
    (by decide +kernel)
  obtain ⟨g, reached, raised⟩ := met (returns 0 (str "ada") ++ returns 1 (str "bo") ++
    [.message 1 (str "forgive ada")]) (fun g => decide ((g.blocks 1).morality = 2))
    (by decide +kernel)
  obtain ⟨_, front₁, taken⟩ := Machine.reaches_snoc_cases _ _ _ _ _ reached
  cases reached₁.symm.trans front₁
  obtain ⟨_, front, again⟩ := Machine.reaches_snoc_cases _ _ _ _ _ reached₂
  cases reached.symm.trans front
  obtain ⟨earned, place⟩ := forgives_ada ready (of_decide_eq_true raised)
  obtain ⟨paid, once⟩ := (pairs_once quietNode swornDisk _ _ [] _ g₁ g g g₂ _ _ (str "BO")
    (str "ADA") reached₁ taken rfl again (by decide) (by decide)).1 earned
  exact ⟨g₁, g, g₂, _, taken, again, paid, of_decide_eq_true raised, once place⟩

def fallenName (i : Nat) : Bytes := [97 + (i / 26).toUInt8, 97 + (i % 26).toUInt8]

/-- A hub whose only fallen is another one for each of the first 129 vigils. -/
def vigilNode : Env := { quietNode with
  remote := true
  rpc := fun n method _ =>
    if method = str "recentFallen" then
      some (.arr [.obj [(str "name", .str (fallenName (min (n / 3 - 1) 128)))]])
    else none }

def vigils (n : Nat) : List Event :=
  (List.range n).map fun i => .message 0 (str "witness " ++ fallenName i)

def vigilLine : Event := .message 0 (str "witness ey")

def keepsLast (g : Server) : Bool :=
  decide (vigilLine.valid g = true ∧ (g.blocks 0).state = .play ∧
    roomMove (g.blocks 0).room (heading (str "witness ey")) = .unknown ∧
    ((recentFallen vigilNode g).1.find? fun row => sameFold row.name (str "ey")).map Fallen.name =
      some (str "ey") ∧
    (g.blocks 0).name = str "ada")

/-- The line leaves ada better than she was, in a state that passes a test. -/
def raisedThen (test : Server → Bool) (g : Server) : Bool :=
  keepsLast g && (step vigilNode g vigilLine).toOption.any fun next =>
    decide ((next.blocks 0).morality ≠ (g.blocks 0).morality) && test next

theorem raised_then {test : Server → Bool} {g : Server} (shown : raisedThen test g = true) :
    ∃ next, step vigilNode g vigilLine = .ok next ∧ test next = true ∧
      KeptEarned vigilNode g vigilLine next (str "ada") (str "ey") := by
  obtain ⟨ready, later⟩ := (Bool.and_eq_true ..).mp shown
  cases taken : step vigilNode g vigilLine with
  | error fault =>
    rw [taken] at later
    cases later
  | ok next =>
    rw [taken] at later
    obtain ⟨raised, passed⟩ := (Bool.and_eq_true ..).mp later
    obtain ⟨valid, playing, stays, found, own⟩ := of_decide_eq_true ready
    obtain ⟨row, found, fallen⟩ := Option.map_eq_some_iff.mp found
    have parsed : parse (str "witness ey") = some (.witness, some (str "ey")) := by decide +kernel
    have word : firstWord (some (str "ey")) = str "ey" := by decide
    refine ⟨next, rfl, passed, 0, str "witness ey", some (str "ey"), row, ⟨str "witness ey", rfl,
      valid, by decide, playing, by decide⟩, ⟨by decide, by decide, stays, parsed⟩, ?_, own, fallen,
      .inl ⟨0, of_decide_eq_true raised⟩⟩
    rw [word]
    exact found

/-- Once the table is full of vigils, the same name is kept and kept again. -/
theorem kept_again : ¬ ∀ before e₁ mid e₂ (g₁ g g₂ g₃ : Server) a b a' b',
    Machine.Reaches (step vigilNode) (boot vigilNode sharedDisk) before g₁ →
    step vigilNode g₁ e₁ = .ok g → Machine.Reaches (step vigilNode) g mid g₂ →
    step vigilNode g₂ e₂ = .ok g₃ → sameFold a a' = true → sameFold b b' = true →
    KeptEarned vigilNode g₁ e₁ g a b → ¬KeptEarned vigilNode g₂ e₂ g₃ a' b' := by
  intro once
  obtain ⟨g₁, reached, shown⟩ := Machine.ends_reaches (step vigilNode)
    (boot vigilNode sharedDisk) (returns 0 (str "ada") ++ vigils 128)
    (raisedThen (raisedThen fun _ => true)) (by decide +kernel)
  obtain ⟨g, taken, later, earned⟩ := raised_then shown
  obtain ⟨last, again, _, anew⟩ := raised_then later
  exact once _ _ [] _ g₁ g g last _ _ _ _ reached taken rfl again (by decide) (by decide) earned
    anew

end HollowGrid
