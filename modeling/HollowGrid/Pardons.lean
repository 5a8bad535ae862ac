import HollowGrid.Resolving
import HollowGrid.Rolls

/-! Whom an accepted forgive is for. The caller's own name is turned away before the search,
which then takes any beginning of it. -/
namespace HollowGrid

def forgivenLedger (g : Server) (c d : Block) : Ledger :=
  addDeed (forgivenMark g.ledger (g.blocks c).name (g.blocks d).name) (g.blocks c).name .forgave

/-- The state c leaves behind by forgiving d: the pair and the deed, five for d and two for c,
and no path but that of d touched. -/
structure Forgave (c d : Block) (g g' : Server) : Prop where
  ledger : g'.ledger = forgivenLedger g c d
  target : (g'.blocks d).morality = (g.blocks d).morality + 5 + if d = c then 2 else 0
  caller : (g'.blocks c).morality = (g.blocks c).morality + 2 + if d = c then 5 else 0
  paths : ∀ e, e ≠ d → Part.arc.of (g'.blocks e).toCharacter = Part.arc.of (g.blocks e).toCharacter

/-- What stops a forgive from reaching its caller: no word, the whole name, a word that somebody
else in the room may be meant by or the caller may not, a pair that is marked already, or a caller
who carries nothing. -/
def Unreached (g : Server) (c : Block) (arg : Ptr) : Prop :=
  firstWord arg = [] ∨ sameFold (firstWord arg) (g.blocks c).name = true ∨
    (g.present.filter fun d => mayMatch (g.blocks c).room (firstWord arg) none (g.blocks d)) ≠ [c] ∨
    forgivenHas g.ledger (g.blocks c).name (g.blocks c).name = true ∨ marked (g.blocks c) = false

section Pardons

variable {env : Env} {g g' : Server} {c d : Block} {arg : Ptr}

theorem total_update (c : Block) (f : Character → Character) : Total (update c f) :=
  Keeps.modify fun _ _ => trivial

theorem total_save (env : Env) (c : Block) : Total (storeSave env c) := by
  intro g _
  rw [store_save_run]
  exact ⟨trivial, trivial⟩

theorem total_room (room : Int) (t : Text) (except : Bytes) : Total (deliverRoom room t except) :=
  total_bind (fun _ _ => ⟨trivial, trivial⟩) fun _ => total_each _ fun _ =>
    total_if (total_queue _ _) (total_pure ())

theorem total_affects (c : Block) : Total (emitAffectsNow c) :=
  total_bind (fun _ _ => ⟨trivial, trivial⟩) fun _ => total_queue _ _

theorem total_echo (node kind text : Bytes) : Total (gridRecordLocalEcho env node kind text) :=
  total_bind (total_ask _) fun _ => Keeps.modify fun _ _ => trivial

theorem total_forgiven (d : Block) (self : Bytes) (ashsworn path : Bool) :
    Total (emitForgivenTargetNow d self ashsworn path) :=
  total_bind (total_queue _ _) fun _ =>
    total_if (total_bind (total_queue _ _) fun _ => total_queue _ _)
      (total_if (total_pure ()) (total_bind (total_queue _ _) fun _ => total_queue _ _))

theorem total_path (d : Block) (self : Bytes) (t : Session) :
    Total (forgivenPath env d self t) := by
  have redeemed : Total (emitForgivenRedeemedNow d self) :=
    total_bind (fun _ _ => ⟨trivial, trivial⟩) fun _ => total_bind (total_queue _ _) fun _ =>
      total_bind (total_queue _ _) fun _ => total_bind (total_queue _ _) fun _ => total_affects _
  exact total_if (total_forgiven d _ _ _) (total_if (total_forgiven d _ _ _)
    (total_bind (total_update d _) fun _ => total_bind (total_save env d) fun _ => redeemed))

/-- What is left to do once the ledger and the two moralities are written. -/
def forgiveRest (env : Env) (c d : Block) (s t : Session) : Act Unit := do
  gridRecordLocalEcho env (nodeOr s.room "market") (str "grace")
    ((s.name ++ str " forgave " ++ t.name ++ str " here.").take 159)
  forgivenPath env d s.name t
  deliverRoom s.room
    (snprintf 160 (raw s.name ++ lit " forgives " ++ raw t.name ++ lit "." ++ crlf)) s.name
  queueLine c (snprintf 160 (lit "You choose to forgive " ++ raw t.name ++
    lit ". Out here that is not nothing; it may be everything."))
  emitAffectsNow c

def Server.pardoned (g : Server) (c d : Block) : Server :=
  let marked : Server := { g with ledger := forgivenLedger g c d }
  (marked.updated d fun ch => { ch with morality := ch.morality + 5 }).updated c
    fun ch => { ch with morality := ch.morality + 2 }

theorem forgive_splits (env : Env) (g : Server) (c d : Block) :
    forgive env c d g = forgiveRest env c d (g.blocks c) (g.blocks d) (g.pardoned c d) := rfl

theorem rest_total (env : Env) (c d : Block) (s t : Session) :
    Total (forgiveRest env c d s t) :=
  total_bind (total_echo _ _ _) fun _ => total_bind (total_path d _ _) fun _ =>
    total_bind (total_room _ _ _) fun _ => total_bind (total_line c _) fun _ => total_affects c

theorem rest_framed (s t : Session) (start : Server) :
    Keeps (Framed (fun b q => b = d ∧ q = .arc) worldly start) (fun _ => True)
      (forgiveRest env c d s t) Any := by
  have p := framed_permits env (fun b q => b = d ∧ q = .arc) worldly start
  have r := p.reports (d := c) trivial
  exact Keeps.seq (p.echoes (clean_lax _) (clean_lax _) (clean_lax _))
    (Keeps.seq (p.forgiven_path_kept trivial ⟨rfl, rfl⟩ nofun _)
      (Keeps.seq (p.delivers_room _ _ nofun) (Keeps.seq (r.line nofun) r.affects_now)))

theorem character_updated (g : Server) (b e : Block) (f : Character → Character) :
    ((g.updated b f).blocks e).toCharacter =
      if e = b then f (g.blocks e).toCharacter else (g.blocks e).toCharacter := by
  by_cases own : e = b
  · subst own
    rw [if_pos rfl, Server.updated, Server.setBlock_own]
  · rw [if_neg own, Server.updated, Server.setBlock_other _ _ own]

theorem pardoned_morality (g : Server) (c d e : Block) :
    ((g.pardoned c d).blocks e).morality = (g.blocks e).morality + (if e = d then 5 else 0) +
      if e = c then 2 else 0 := by
  rw [Server.pardoned, character_updated, character_updated]
  by_cases first : e = d
  · by_cases second : e = c
    · simp only [if_pos first, if_pos second]
    · simp only [if_pos first, if_neg second, Int.add_zero]
  · by_cases second : e = c
    · simp only [if_neg first, if_pos second, Int.add_zero]
    · simp only [if_neg first, if_neg second, Int.add_zero]

theorem pardoned_paths (g : Server) (c d e : Block) :
    Part.arc.of ((g.pardoned c d).blocks e).toCharacter = Part.arc.of (g.blocks e).toCharacter := by
  rw [Server.pardoned, character_updated, character_updated]
  split <;> split <;> rfl

theorem forgive_forgives (env : Env) (g : Server) (c d : Block) :
    ∃ g', forgive env c d g = .ok ((), g') ∧ Forgave c d g g' := by
  obtain ⟨_, g', ended⟩ := total_ends (rest_total env c d (g.blocks c)
    (g.blocks d)) (g.pardoned c d)
  have framed := ((rest_framed (g.blocks c) (g.blocks d) (g.pardoned c d)).result
    (framed_start ..) ended).1
  have morals (e : Block) : (g'.blocks e).morality = ((g.pardoned c d).blocks e).morality := by
    have same := congrArg Character.morality (framed.parts e .morals (by simp))
    exact same
  refine ⟨g', by rw [forgive_splits, ended], ledger_framed framed, ?_, ?_, fun e away => ?_⟩
  · rw [morals, pardoned_morality, if_pos rfl]
  · rw [morals, pardoned_morality, if_pos rfl]
    by_cases own : c = d
    · simp [own]
      omega
    · simp [own, Ne.symm own]
  · rw [framed.parts e .arc (by simp [away]), pardoned_paths]

/-- Whoever forgives somebody else is not seven better off. -/
theorem forgave_once (others : Forgave c d g g') (own : Forgave c c g g') : d = c := by
  by_contra apart
  have other := others.caller
  have self := own.caller
  rw [if_neg apart] at other
  rw [if_pos rfl] at self
  omega

theorem taken_self (g : Server) (c : Block) (arg : Ptr) :
    forgiveTaken g c arg = some c ↔ ¬Unreached g c arg := by
  simp only [forgiveTaken, Unreached, not_or]
  split
  · rename_i refused
    refine iff_of_false (by simp) fun reached => ?_
    exact refused.elim reached.1 reached.2.1
  · rename_i named
    obtain ⟨some_word, other⟩ := not_or.mp named
    rw [Option.filter_eq_some_iff, found_iff]
    simp [some_word, other]

theorem forgive_either (env : Env) (g : Server) (c : Block) (arg : Ptr) :
    (∃ d, forgiveTaken g c arg = some d ∧ cmdForgive env c arg g = forgive env c d g) ∨
      forgiveTaken g c arg = none ∧ ∃ t, cmdForgive env c arg g = queueLine c t g := by
  simp only [forgiveTaken]
  rw [cmdForgive, bind_ok (rfl : session c g = .ok (g.blocks c, g))]
  by_cases bare : firstWord arg = []
  · rw [if_pos (.inl bare), if_pos bare]
    exact .inr ⟨rfl, _, rfl⟩
  by_cases self : sameFold (firstWord arg) (g.blocks c).name = true
  · rw [if_pos (.inr self), if_neg bare, if_pos self]
    exact .inr ⟨rfl, _, rfl⟩
  rw [if_neg (by simp [bare, self]), if_neg bare, if_neg self, bind_ok (prefix_reads g _ _ _)]
  cases foundBy g (g.blocks c).room (firstWord arg) none with
  | none => exact .inr ⟨rfl, _, rfl⟩
  | some d =>
    simp only [Option.filter_some]
    rw [bind_ok (rfl : session d g = .ok (g.blocks d, g)),
      bind_ok (rfl : getLedger g = .ok (g.ledger, g))]
    by_cases already : forgivenHas g.ledger (g.blocks c).name (g.blocks d).name = true
    · rw [if_pos already, if_neg (by simp [already])]
      exact .inr ⟨rfl, _, rfl⟩
    rw [if_neg already]
    by_cases fallen : marked (g.blocks d) = true
    · rw [if_pos fallen, if_pos (by simp [already, fallen])]
      exact .inl ⟨d, rfl, rfl⟩
    · rw [if_neg fallen, if_neg (by simp [fallen])]
      exact .inr ⟨rfl, _, rfl⟩

/-- A forgive always ends. It forgives the session that it takes, and none but a session other
than the caller's exactly when its word does not reach the caller. -/
theorem forgive_other_iff (env : Env) (g : Server) (c : Block) (arg : Ptr) :
    ∃ g', cmdForgive env c arg g = .ok ((), g') ∧
      (∀ d, forgiveTaken g c arg = some d → Forgave c d g g') ∧
      ((∀ d, Forgave c d g g' → d ≠ c) ↔ Unreached g c arg) := by
  have self := taken_self g c arg
  rcases forgive_either env g c arg with ⟨d, taken, run⟩ | ⟨untaken, t, run⟩
  · obtain ⟨g', ended, forgave⟩ := forgive_forgives env g c d
    refine ⟨g', run.trans ended, fun e same => ?_, ?_⟩
    · rw [taken] at same
      cases same
      exact forgave
    · rw [taken, Option.some.injEq] at self
      constructor
      · intro others
        by_contra reached
        exact others d forgave (self.mpr reached)
      · rintro unreached e own rfl
        exact self.mp (forgave_once forgave own) unreached
  · obtain ⟨_, g', ended⟩ := total_ends (total_line c t) g
    refine ⟨g', run.trans ended, fun e same => ?_, ?_⟩
    · rw [untaken] at same
      cases same
    · refine iff_of_true ?_ (by_contra fun reached => ?_)
      · rintro d own rfl
        have p := framed_permits env (fun _ _ => False) worldly g
        have told : Keeps _ _ (queueLine d t) _ := (p.reports (d := d) trivial).line nofun
        have framed := (told.result (framed_start ..) ended).1
        have same : (g'.blocks d).morality = (g.blocks d).morality := by
          have kept := congrArg Character.morality (framed.parts d .morals (by simp))
          exact kept
        have more := own.caller
        rw [if_pos rfl] at more
        omega
      · rw [self.mpr reached] at untaken
        cases untaken

def aloneAda : Server where
  blocks := fun _ => { name := str "Ada", morality := -60 }
  sessionTable := some 0 :: List.replicate 31 none
  disk := fun _ => none

/-- She forgives herself by the first two letters of her name. -/
theorem forgives_herself : ¬ ∀ (env : Env) (g g' : Server) (c : Block) (arg : Ptr),
    cmdForgive env c arg g = .ok ((), g') → ∀ d, Forgave c d g g' → d ≠ c := by
  intro always
  obtain ⟨g', ended, _, others⟩ := forgive_other_iff quietNode aloneAda 0 (some (str "ad"))
  have unreached := others.mp (always _ _ _ _ _ ended)
  revert unreached
  unfold Unreached
  decide +kernel

end Pardons

end HollowGrid
