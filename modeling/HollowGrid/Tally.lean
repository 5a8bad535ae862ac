import HollowGrid.Frames

/-! What each command does to the ledger: the pairs, the deeds and the hours it writes, and
when. -/
namespace HollowGrid

def worldly (t : Table) : Prop := t = .rat ∨ t = .clock

theorem ledger_framed {may : Block → Part → Prop} {g g' : Server}
    (framed : Framed may worldly g g') : g'.ledger = g.ledger := by
  have same (t : Table) (shut : ¬worldly t) := framed.ledger t shut
  have forgiven := congrArg Ledger.forgiven (same .forgiven (by simp [worldly]))
  have kept := congrArg Ledger.kept (same .kept (by simp [worldly]))
  have deeds := congrArg Ledger.deeds (same .deeds (by simp [worldly]))
  have caches := congrArg Ledger.cacheGold (same .caches (by simp [worldly]))
  have cells := congrArg Ledger.cellsReadyAt (same .hours (by simp [worldly]))
  have transit := congrArg Ledger.transitReadyAt (same .hours (by simp [worldly]))
  cases g
  cases g'
  cases ‹Ledger›
  cases ‹Ledger›
  simp_all [Table.ofLedger]

/-- A ledger outlasts everything that is not written to it. -/
theorem ledger_permits (env : Env) (l : Ledger) :
    Permits False env (fun _ => True) (fun _ => True) (fun _ _ => True) worldly
      fun g => g.ledger = l :=
  lasting_permits env fun _ _ framed held => (ledger_framed framed).trans held

structure Account (l : Ledger) (morality : Block → Int) (g : Server) : Prop where
  ledger : g.ledger = l
  morals : ∀ k, (g.blocks k).morality = morality k

/-- An account outlasts everything that is not written to it. -/
theorem account_permits (env : Env) (l : Ledger) (morality : Block → Int) :
    Permits False env (fun _ => True) (fun _ => True) (fun _ q => q ≠ .morals) worldly
      (Account l morality) :=
  lasting_permits env fun _ g' framed held => ⟨(ledger_framed framed).trans held.ledger, fun k => by
    have same := congrArg Character.morality (framed.parts k .morals (by simp))
    exact Eq.trans same (held.morals k)⟩

theorem account_start (g : Server) : Account g.ledger (fun k => (g.blocks k).morality) g :=
  ⟨rfl, fun _ => rfl⟩

theorem account_raised {l : Ledger} {morality : Block → Int} {g : Server} (c : Block) (n : Int)
    (held : Account l morality g) : Account l (fun k => morality k + if k = c then n else 0)
      (g.updated c fun ch => { ch with morality := ch.morality + n }) := by
  refine ⟨held.ledger, fun k => ?_⟩
  by_cases own : k = c
  · subst own
    rw [Server.updated, Server.setBlock_own, if_pos rfl, ← held.morals k]
  · rw [Server.updated, Server.setBlock_other _ _ own, if_neg own, Int.add_zero, held.morals k]

def foundBy (g : Server) (room : Int) (word : Bytes) (except : Ptr) : Option Block :=
  match findPlayerPrefix room word except g with
  | .ok (found, _) => found
  | .error _ => none

theorem prefix_reads (g : Server) (room : Int) (word : Bytes) (except : Ptr) :
    findPlayerPrefix room word except g = .ok (foundBy g room word except, g) := by
  have ran : ∃ found, findPlayerPrefix room word except g = .ok (found, g) := by
    unfold findPlayerPrefix
    split
    · exact ⟨none, rfl⟩
    · rw [bind_ok (rfl : listed g = .ok (_, g))]
      generalize List.filter _ _ = found
      rcases found with _ | ⟨d, _ | _⟩ <;> exact ⟨_, rfl⟩
  obtain ⟨found, ended⟩ := ran
  rw [foundBy, ended]

/-- The player whom an accepted forgive is for. -/
def forgiveTaken (g : Server) (c : Block) (arg : Ptr) : Option Block :=
  let s := g.blocks c
  if firstWord arg = [] ∨ sameFold (firstWord arg) s.name = true then none
  else (foundBy g s.room (firstWord arg) none).filter fun d =>
    !forgivenHas g.ledger s.name (g.blocks d).name && marked (g.blocks d)

/-- The last of the fallen that an answer gives, and the state after the question. -/
def recentFallen (env : Env) (g : Server) : List Fallen × Server :=
  match gridRecentFallen env 12 12 g with
  | .ok (answer, g') => (answer.getD [], g')
  | .error _ => ([], g)

def witnessTaken (env : Env) (g : Server) (c : Block) (arg : Ptr) : Option Fallen :=
  let s := g.blocks c
  if firstWord arg = [] ∨ sameFold (firstWord arg) s.name = true then none
  else ((recentFallen env g).1.find? fun row => sameFold row.name (firstWord arg)).filter fun row =>
    !keptHas g.ledger s.name row.name

section Effects

variable {env : Env} {c : Block} {g : Server}

theorem steal_ledger : Leads (· = g) (fun _ => True) (cmdSteal env c) fun _ g' =>
    g'.ledger =
      if (g.blocks c).room = roomMarket then addDeed g.ledger (g.blocks c).name .stolen
      else g.ledger := by
  apply Leads.reads (rfl : session c g = .ok (g.blocks c, g))
  apply Leads.ite
  · intro away
    rw [if_neg away]
    have p := ledger_permits env g.ledger
    exact Leads.start (P := fun g' => g'.ledger = g.ledger) rfl
      (Leads.stays ((p.reports trivial).line nofun))
  · intro here
    rw [if_pos (not_not.mp here)]
    have p := ledger_permits env (addDeed g.ledger (g.blocks c).name .stolen)
    have r := p.reports (d := c) trivial
    apply Leads.seq (M := fun g' => g'.ledger = g.ledger)
    · apply Leads.modify
      rintro _ rfl
      rfl
    apply Leads.seq (M := fun g' => g'.ledger = addDeed g.ledger (g.blocks c).name .stolen)
    · apply Leads.modify
      intro g' same
      change addDeed g'.ledger _ _ = _
      rw [same]
    apply Leads.stays (q := Any)
    apply Keeps.seq (p.saves trivial)
    apply Keeps.seq (p.delivers_room _ _ nofun)
    apply Keeps.seq (r.line nofun)
    apply Keeps.seq r.vitals_now
    exact Keeps.seq r.affects_now (p.arc_kept trivial trivial)

/-- An accepted forgive marks the pair, counts the deed and raises both, a refused one does
nothing of it. -/
theorem forgive_leads (arg : Ptr) : Leads (· = g) (fun _ => True) (cmdForgive env c arg) fun _ g' =>
    match forgiveTaken g c arg with
    | some d => Account (addDeed (forgivenMark g.ledger (g.blocks c).name (g.blocks d).name)
          (g.blocks c).name .forgave)
        (fun k => (g.blocks k).morality + (if k = d then 5 else 0) + if k = c then 2 else 0) g'
    | none => Account g.ledger (fun k => (g.blocks k).morality) g' := by
  have p := account_permits env g.ledger fun k => (g.blocks k).morality
  have r := p.reports (d := c) trivial
  have tells (t : Text) : Leads (· = g) (fun _ => True) (queueLine c t) fun _ g' =>
      Account g.ledger (fun k => (g.blocks k).morality) g' :=
    Leads.start (account_start g) (Leads.stays (r.line nofun))
  apply Leads.reads (rfl : session c g = .ok (g.blocks c, g))
  simp only [forgiveTaken]
  apply Leads.ite
  · intro bare
    rw [if_pos (.inl bare)]
    exact tells _
  intro named
  apply Leads.ite
  · intro self
    rw [if_pos (.inr self)]
    exact tells _
  intro other
  rw [if_neg (by simp [named, other])]
  apply Leads.reads (prefix_reads g _ _ _)
  cases foundBy g (g.blocks c).room (firstWord arg) none with
  | none => exact tells _
  | some d =>
    apply Leads.reads (rfl : session d g = .ok (g.blocks d, g))
    apply Leads.reads (rfl : getLedger g = .ok (g.ledger, g))
    simp only [Option.filter_some]
    apply Leads.ite
    · intro already
      simp only [already, Bool.not_true, Bool.false_and, Bool.false_eq_true, if_false]
      exact tells _
    intro fresh
    apply Leads.ite
    · intro fallen
      simp only [Bool.not_eq_true] at fresh
      simp only [fresh, Bool.not_false, fallen, Bool.and_self, if_true]
      have p' := account_permits env (addDeed (forgivenMark g.ledger (g.blocks c).name
        (g.blocks d).name) (g.blocks c).name .forgave)
        fun k => (g.blocks k).morality + (if k = d then 5 else 0) + if k = c then 2 else 0
      have r' := p'.reports (d := c) trivial
      apply Leads.reads (rfl : session c g = .ok (g.blocks c, g))
      apply Leads.reads (rfl : session d g = .ok (g.blocks d, g))
      apply Leads.seq (M := Account (addDeed (forgivenMark g.ledger
        (g.blocks c).name (g.blocks d).name) (g.blocks c).name .forgave)
        fun k => (g.blocks k).morality)
      · apply Leads.modify
        rintro _ rfl
        exact ⟨rfl, fun _ => rfl⟩
      apply Leads.seq (M := Account (addDeed (forgivenMark g.ledger
        (g.blocks c).name (g.blocks d).name) (g.blocks c).name .forgave)
        fun k => (g.blocks k).morality + if k = d then 5 else 0)
      · apply Leads.modify
        intro g' held
        exact account_raised d 5 held
      apply Leads.seq (M := Account (addDeed (forgivenMark g.ledger
        (g.blocks c).name (g.blocks d).name) (g.blocks c).name .forgave)
        fun k => (g.blocks k).morality + (if k = d then 5 else 0) + if k = c then 2 else 0)
      · apply Leads.modify
        intro g' held
        exact account_raised c 2 held
      apply Leads.stays (q := Any)
      apply Keeps.seq (p'.echoes (clean_lax _) (clean_lax _) (clean_lax _))
      apply Keeps.seq (p'.forgiven_path_kept trivial (by simp) nofun _)
      apply Keeps.seq (p'.delivers_room _ _ nofun)
      exact Keeps.seq (r'.line nofun) r'.affects_now
    · intro plain
      simp only [Bool.not_eq_true] at plain
      simp only [plain, Bool.and_false, Bool.false_eq_true, if_false]
      exact tells _

theorem forgive_ledger (arg : Ptr) : Leads (· = g) (fun _ => True) (cmdForgive env c arg) fun _ g' =>
    g'.ledger =
      match forgiveTaken g c arg with
      | some d => addDeed (forgivenMark g.ledger (g.blocks c).name (g.blocks d).name)
          (g.blocks c).name .forgave
      | none => g.ledger := by
  apply Leads.weaken (forgive_leads arg)
  intro _ g' held
  cases taken : forgiveTaken g c arg with
  | none =>
    rw [taken] at held
    exact held.ledger
  | some d =>
    rw [taken] at held
    exact held.ledger

theorem fallen_reads (env : Env) (g : Server) : ∃ n answer,
    gridRecentFallen env 12 12 g = .ok (answer, { g with asked := n }) ∧
    recentFallen env g = (answer.getD [], { g with asked := n }) := by
  have ran : ∃ n answer, gridRecentFallen env 12 12 g = .ok (answer, { g with asked := n }) := by
    unfold gridRecentFallen rpcCall
    cases env.remote with
    | true => exact ⟨_, _, rfl⟩
    | false => exact ⟨g.asked, _, rfl⟩
  obtain ⟨n, answer, ended⟩ := ran
  exact ⟨n, answer, ended, by rw [recentFallen, ended]⟩

/-- An accepted witness marks the pair, counts the deed and raises its player, a refused one does
nothing of it. -/
theorem witness_leads (arg : Ptr) :
    Leads (· = g) (fun _ => True) (cmdWitness env c arg) fun _ g' =>
      match witnessTaken env g c arg with
      | some row => Account (addDeed (keptMark g.ledger (g.blocks c).name row.name)
            (g.blocks c).name .kept)
          (fun k => (g.blocks k).morality + if k = c then 2 else 0) g'
      | none => Account g.ledger (fun k => (g.blocks k).morality) g' := by
  have p := account_permits env g.ledger fun k => (g.blocks k).morality
  have r := p.reports (d := c) trivial
  obtain ⟨n, answer, asked, found⟩ := fallen_reads env g
  have tells {m : Act Unit} (quiet : Keeps (Account g.ledger fun k => (g.blocks k).morality)
      (fun _ => True) m Any) : Leads (· = ({ g with asked := n } : Server)) (fun _ => True) m
        fun _ g' => Account g.ledger (fun k => (g.blocks k).morality) g' :=
    Leads.start ⟨rfl, fun _ => rfl⟩ (Leads.stays quiet)
  apply Leads.reads (rfl : session c g = .ok (g.blocks c, g))
  apply Leads.bind (R := fun given g' => given = answer ∧ g' = ({ g with asked := n } : Server))
  · rintro _ rfl
    rw [asked]
    exact ⟨rfl, rfl⟩
  intro given
  apply Leads.given
  rintro rfl
  simp only [witnessTaken, found]
  apply Leads.ite
  · intro bare
    rw [if_pos (.inl bare)]
    exact tells r.fallen_roll_now
  intro named
  apply Leads.ite
  · intro self
    rw [if_pos (.inr self)]
    exact tells (r.line nofun)
  intro other
  rw [if_neg (by simp [named, other])]
  cases (given.getD []).find? fun row => sameFold row.name (firstWord arg) with
  | none => exact tells (r.line nofun)
  | some row =>
    simp only [Option.filter_some]
    apply Leads.reads (rfl : getLedger ({ g with asked := n } : Server) = .ok (g.ledger, _))
    apply Leads.ite
    · intro already
      simp only [already, Bool.not_true, Bool.false_eq_true, if_false]
      exact tells (r.line nofun)
    · intro fresh
      simp only [Bool.not_eq_true] at fresh
      simp only [fresh, Bool.not_false, if_true]
      have p' := account_permits env (addDeed (keptMark g.ledger (g.blocks c).name row.name)
        (g.blocks c).name .kept) fun k => (g.blocks k).morality + if k = c then 2 else 0
      have r' := p'.reports (d := c) trivial
      apply Leads.reads (rfl : session c ({ g with asked := n } : Server) = .ok (g.blocks c, _))
      apply Leads.seq (M := Account (addDeed (keptMark g.ledger (g.blocks c).name row.name)
        (g.blocks c).name .kept) fun k => (g.blocks k).morality)
      · apply Leads.modify
        rintro _ rfl
        exact ⟨rfl, fun _ => rfl⟩
      apply Leads.seq (M := Account (addDeed (keptMark g.ledger (g.blocks c).name row.name)
        (g.blocks c).name .kept) fun k => (g.blocks k).morality + if k = c then 2 else 0)
      · apply Leads.modify
        intro g' held
        exact account_raised c 2 held
      apply Leads.stays (q := Any)
      apply Keeps.seq (p'.saves trivial)
      apply Keeps.seq (p'.echoes (clean_lax _) (clean_lax _) (clean_lax _))
      apply Keeps.seq (r'.line nofun)
      exact Keeps.seq (r'.said nofun) r'.affects_now

theorem witness_ledger (arg : Ptr) :
    Leads (· = g) (fun _ => True) (cmdWitness env c arg) fun _ g' =>
      g'.ledger =
        match witnessTaken env g c arg with
        | some row => addDeed (keptMark g.ledger (g.blocks c).name row.name) (g.blocks c).name .kept
        | none => g.ledger := by
  apply Leads.weaken (witness_leads arg)
  intro _ g' held
  cases taken : witnessTaken env g c arg with
  | none =>
    rw [taken] at held
    exact held.ledger
  | some row =>
    rw [taken] at held
    exact held.ledger

end Effects

end HollowGrid
