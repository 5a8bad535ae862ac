import HollowGrid.Pairs

/-! The deeds a player has done against those the reckoning counts. -/
namespace HollowGrid

section Rows

def rowCount (rows : List (Bytes × List Int)) (name : Bytes) (kind : Deed) : Int :=
  match rows.find? fun row => sameFold row.1 name with
  | some row => row.2.getD kind.index 0
  | none => 0

theorem deed_count_rows (l : Ledger) (name : Bytes) (kind : Deed) :
    deedCount l name kind = rowCount l.deeds name kind := rfl

def hasPlace (room : Nat) (rows : List (Bytes × List Int)) (name : Bytes) : Bool :=
  rows.any (fun row => sameFold row.1 name) || decide (rows.length < room)

theorem index_in_row (kind : Deed) : kind.index < 13 := by
  cases kind <;> decide

theorem all_index (kind : Deed) : Deed.all[kind.index]? = some kind := by
  cases kind <;> rfl

theorem index_inj {kind kind' : Deed} (same : kind.index = kind'.index) : kind = kind' := by
  have held := all_index kind
  rw [same, all_index] at held
  exact (Option.some.inj held).symm

theorem bump_count {counts : List Int} (whole : counts.length = 13) (kind kind' : Deed) :
    (bump kind counts).getD kind'.index 0 =
      counts.getD kind'.index 0 + if kind = kind' then 1 else 0 := by
  have inside := index_in_row kind'
  rw [← whole] at inside
  have inside' : kind'.index < (bump kind counts).length := by
    rw [bump, List.length_modify]
    exact inside
  rw [← List.getElem_eq_getD (h := inside') 0, ← List.getElem_eq_getD (h := inside) 0]
  simp only [bump, List.getElem_modify]
  by_cases same : kind = kind'
  · subst same
    rw [if_pos rfl, if_pos rfl]
  · rw [if_neg same, if_neg fun index => same (index_inj index), Int.add_zero]

theorem same_fold_trans {a b c : Bytes} (first : sameFold a b = true) :
    sameFold a c = sameFold b c := by
  have lower_same := (same_fold_iff _ _).mp first
  rw [sameFold, sameFold, lower_same]

theorem same_fold_comm (a b : Bytes) : sameFold a b = sameFold b a := by
  rw [Bool.eq_iff_iff, same_fold_iff, same_fold_iff]
  exact eq_comm

theorem bump_rows_count {player : Bytes} (short : player.length ≤ 40) (kind : Deed)
    (name : Bytes) (kind' : Deed) (room : Nat) (rows : List (Bytes × List Int))
    (whole : ∀ row ∈ rows, row.2.length = 13) :
    rowCount (bumpRows player kind room rows) name kind' = rowCount rows name kind' +
      if sameFold player name = true ∧ kind = kind' ∧ hasPlace room rows player = true then 1
      else 0 := by
  induction rows generalizing room with
  | nil =>
    by_cases full : room = 0
    · simp [bumpRows, full, rowCount, hasPlace]
    · have place : 0 < room := Nat.pos_of_ne_zero full
      simp only [bumpRows, if_neg full, List.take_of_length_le short]
      have zero : noDeeds.getD kind'.index 0 = 0 := by cases kind' <;> rfl
      cases own : sameFold player name with
      | true =>
        have fresh := bump_count (rfl : noDeeds.length = 13) kind kind'
        rw [zero] at fresh
        simpa [rowCount, hasPlace, own, place] using fresh
      | false => simp [rowCount, own]
  | cons row rest ih =>
    obtain ⟨other, counts⟩ := row
    have counts_whole := whole _ List.mem_cons_self
    have rest_whole : ∀ row ∈ rest, row.2.length = 13 := fun row member =>
      whole row (List.mem_cons_of_mem _ member)
    cases mine : sameFold other player with
    | true =>
      have placed : hasPlace room ((other, counts) :: rest) player = true := by
        simp [hasPlace, mine]
      have same := same_fold_trans (c := name) mine
      simp only [bumpRows, mine, if_true, placed, and_true]
      cases own : sameFold player name with
      | true => simpa [rowCount, same, own] using bump_count counts_whole kind kind'
      | false => simp [rowCount, same, own]
    | false =>
      have later := ih (room - 1) rest_whole
      have place : hasPlace room ((other, counts) :: rest) player =
          hasPlace (room - 1) rest player := by
        simp only [hasPlace, List.any_cons, mine, Bool.false_or, List.length_cons]
        congr 1
        rw [decide_eq_decide]
        omega
      simp only [bumpRows, mine, Bool.false_eq_true, if_false, place]
      cases theirs : sameFold other name with
      | true =>
        have stranger : sameFold player name = false := by
          by_contra own
          have folded := same_fold_trans (c := player) theirs
          rw [mine, same_fold_comm] at folded
          exact own folded.symm
        simp [rowCount, theirs, stranger]
      | false =>
        simp only [rowCount, List.find?_cons, theirs] at later ⊢
        exact later

theorem bump_rows_whole (player : Bytes) (kind : Deed) (room : Nat) (rows : List (Bytes × List Int))
    (whole : ∀ row ∈ rows, row.2.length = 13) :
    ∀ row ∈ bumpRows player kind room rows, row.2.length = 13 := by
  induction rows generalizing room with
  | nil =>
    intro row member
    unfold bumpRows at member
    split at member
    · cases member
    · rw [List.mem_singleton.mp member, bump, List.length_modify]
      rfl
  | cons head rest ih =>
    have rest_whole : ∀ row ∈ rest, row.2.length = 13 := fun row member =>
      whole row (List.mem_cons_of_mem _ member)
    intro row member
    unfold bumpRows at member
    split at member
    · rcases List.mem_cons.mp member with rfl | later
      · rw [bump, List.length_modify]
        exact whole head List.mem_cons_self
      · exact rest_whole row later
    · rcases List.mem_cons.mp member with rfl | later
      · exact whole head List.mem_cons_self
      · exact ih (room - 1) rest_whole row later

end Rows

def vialFound (env : Env) (g : Server) (s : Session) : Bool :=
  match invFindSlot env (str "antidote") 0 s.inventory g with
  | .ok (slot, _) => slot.isSome
  | .error _ => true

def recordedDeed (env : Env) (g : Server) (c : Block) (arg : Ptr) : Arm → Option Deed
  | .steal => if (g.blocks c).room = roomMarket then some .stolen else none
  | .forgive => (forgiveTaken g c arg).map fun _ => .forgave
  | .witness => (witnessTaken env g c arg).map fun _ => .kept
  | .free =>
    if (g.blocks c).room = roomHoldingPit then
      if vialFound env g (g.blocks c) then none else some .freed
    else if (g.blocks c).room = roomCells then
      if env.now g.asked < g.ledger.cellsReadyAt then none else some .freed
    else none
  | .shelter =>
    if (g.blocks c).room = roomTransitHub then
      if env.now g.asked < g.ledger.transitReadyAt then none else some .sheltered
    else none
  | .join =>
    if (g.blocks c).room = roomDais then
      if env.zeroFlag g.asked then some .pledged else none
    else none
  | .defy =>
    if (g.blocks c).room = roomDais then
      if env.zeroFlag g.asked then some .defected else none
    else none
  | _ => none

/-- The act a command of c performs and does not record. -/
def silentDeed (g : Server) (c : Block) (arg : Ptr) : Arm → Option Deed
  | .mend =>
    (foundBy g (g.blocks c).room (argument arg) (some (g.blocks c).name)).bind fun d =>
      if (g.blocks d).hp < (g.blocks d).maxHp ∧ 5 < (g.blocks c).hp then some .mended else none
  | .cache =>
    if 0 < atoll (argument arg) ∧ atoll (argument arg) ≤ (g.blocks c).gold ∧
      (cacheCell (g.blocks c).room).isSome then some .aided else none
  | .defend =>
    if (g.blocks c).room = roomMarket ∧ (g.blocks c).mktResolved = 0 then some .stood else none
  | .join =>
    if (g.blocks c).room = roomMarket ∧ (g.blocks c).mktResolved = 0 then some .pledged else none
  | .inscribe => if argument arg = [] then none else some .inscribed
  | _ => none

section Effects

variable {env : Env} {c : Block} {g : Server}

/-- The deeds outlast everything that does not write them. -/
theorem deeds_last (env : Env) (rows : List (Bytes × List Int)) :
    Permits False env (fun _ => True) (fun _ => True) (fun _ _ => True) (fun t => t ≠ .deeds)
      fun g => g.ledger.deeds = rows :=
  lasting_permits env fun g g' framed held => by
    have same := congrArg Ledger.deeds (framed.ledger .deeds (by simp))
    change g'.ledger.deeds = g.ledger.deeds at same
    rw [same]
    exact held

theorem deeds_same {m : Act Unit} {next : Option Deed} (none_next : next = none)
    (kept : Keeps (fun g' => g'.ledger.deeds = g.ledger.deeds) (fun _ => True) m Any) :
    Leads (· = g) (fun _ => True) m fun _ g' => g'.ledger.deeds =
      match next with
      | some kind => (addDeed g.ledger (g.blocks c).name kind).deeds
      | none => g.ledger.deeds := by
  rw [none_next]
  exact Leads.start (P := fun g' => g'.ledger.deeds = g.ledger.deeds) rfl (Leads.stays kept)

theorem add_deed_rows {l l' : Ledger} (same : l.deeds = l'.deeds) (player : Bytes) (kind : Deed) :
    (addDeed l player kind).deeds = (addDeed l' player kind).deeds := by
  unfold addDeed
  split
  · exact same
  · change bumpRows _ _ _ l.deeds = bumpRows _ _ _ l'.deeds
    rw [same]

theorem deed_recorded {player : Bytes} {kind : Deed} {m : Act Unit}
    (kept : Keeps (fun g' => g'.ledger.deeds = (addDeed g.ledger player kind).deeds)
      (fun _ => True) m Any) :
    Leads (fun g' => g'.ledger.deeds = g.ledger.deeds) (fun _ => True)
      (onLedger (fun l => addDeed l player kind) >>= fun _ => m) fun _ g' =>
        g'.ledger.deeds = (addDeed g.ledger player kind).deeds := by
  apply Leads.seq (M := fun g' => g'.ledger.deeds = (addDeed g.ledger player kind).deeds)
  · apply Leads.modify
    intro g' same
    exact add_deed_rows same player kind
  · exact Leads.stays kept

theorem vial_leads : Leads (· = g) (fun _ => True)
    (invFindSlot env (str "antidote") 0 (g.blocks c).inventory) fun slot g' =>
      slot.isSome = vialFound env g (g.blocks c) ∧ g'.ledger.deeds = g.ledger.deeds := by
  intro s same
  cases same
  have kept := (deeds_last env g.ledger.deeds).finds_slot (str "antidote") 0
    (g.blocks c).inventory g rfl
  unfold vialFound
  cases ended : invFindSlot env (str "antidote") 0 (g.blocks c).inventory g with
  | error fault => trivial
  | ok r =>
    rw [ended] at kept
    exact ⟨rfl, kept.1⟩

theorem free_pit_deeds : Leads (· = g) (fun _ => True) (freePit env c) fun _ g' =>
    g'.ledger.deeds = if vialFound env g (g.blocks c) then g.ledger.deeds
      else (addDeed g.ledger (g.blocks c).name .freed).deeds := by
  have p := deeds_last env g.ledger.deeds
  have r := p.reports (d := c) trivial
  have p' := deeds_last env (addDeed g.ledger (g.blocks c).name .freed).deeds
  have r' := p'.reports (d := c) trivial
  apply Leads.reads (rfl : session c g = .ok (g.blocks c, g))
  apply Leads.bind vial_leads
  intro slot
  apply Leads.given
  intro found
  rw [← found]
  apply Leads.ite
  · intro carried
    rw [if_pos carried]
    exact Leads.stays (r.line (sound_lax id))
  intro missing
  rw [if_neg missing]
  have open_parts : Spares (fun _ => True) fun ch => rememberFreed "Mira"
      { invAdd (str "antidote") ch with morality := ch.morality + 12 } :=
    fun _ shut => absurd trivial shut
  apply Leads.seq (Leads.stays (p.updates trivial (fun ch _ => character_lax _) open_parts))
  apply deed_recorded
  apply Keeps.bind p'.times
  intro now _
  apply Keeps.seq (p'.rescues now (clean_lax _) (clean_lax _) (clean_lax _))
  have tells (t : Text) : Keeps (fun g' => g'.ledger.deeds = (addDeed g.ledger (g.blocks c).name
      .freed).deeds) (fun _ => True) (queueLine c t) Any := r'.line (sound_lax id)
  refine Keeps.seq ?_ ?_
  · exact tells _
  apply Keeps.seq (r'.said (sound_lax id))
  apply Keeps.seq (p'.shifts 0)
  exact Keeps.seq r'.affects_now (p'.saves trivial)

theorem free_two_deeds (now : Int) (deed : Deed) (first second : String) (prose : Text)
    {name : Bytes} : Leads (fun g' => g'.ledger.deeds = g.ledger.deeds ∧ (g'.blocks c).name = name)
      (fun _ => True) (freeTwo env c now deed first second prose) fun _ g' =>
        g'.ledger.deeds = (addDeed g.ledger name deed).deeds := by
  have p := deeds_last env g.ledger.deeds
  have p' := deeds_last env (addDeed g.ledger name deed).deeds
  have r' := p'.reports (d := c) trivial
  apply Leads.bind (R := fun s g' => s.name = name ∧ g'.ledger.deeds = g.ledger.deeds)
  · exact fun _ held => ⟨held.2, held.1⟩
  intro s
  apply Leads.given
  rintro rfl
  have open_parts : Spares (fun _ => True) (rememberFreed first) :=
    fun _ shut => absurd trivial shut
  apply Leads.seq (Leads.stays (p.updates trivial (fun ch _ => character_lax _) open_parts))
  apply deed_recorded
  apply Keeps.seq (p'.rescues now (clean_lax _) (clean_lax _) (clean_lax _))
  apply Keeps.seq (p'.rescues now (clean_lax _) (clean_lax _) (clean_lax _))
  apply Keeps.seq (p'.updates trivial (fun ch _ => character_lax _)
      (by intro q shut ch; cases q <;> first | rfl | contradiction))
  apply Keeps.seq (r'.said (sound_lax id))
  apply Keeps.seq (r'.said (sound_lax id))
  exact Keeps.seq r'.affects_now (p'.saves trivial)

theorem now_leads (env : Env) (g : Server) : Leads (· = g) (fun _ => True) (nowMs env)
    fun now g' => now = env.now g.asked ∧ g' = ({ g with asked := g.asked + 1 } : Server) := by
  rintro _ rfl
  exact ⟨rfl, rfl⟩

theorem free_cells_deeds : Leads (· = g) (fun _ => True) (freeCells env c) fun _ g' =>
    g'.ledger.deeds = if env.now g.asked < g.ledger.cellsReadyAt then g.ledger.deeds
      else (addDeed g.ledger (g.blocks c).name .freed).deeds := by
  have r := (deeds_last env g.ledger.deeds).reports (d := c) trivial
  have tells (t : Text) : Leads (· = ({ g with asked := g.asked + 1 } : Server)) (fun _ => True)
      (queueLine c t) fun _ g' => g'.ledger.deeds = g.ledger.deeds :=
    Leads.start (P := fun g' => g'.ledger.deeds = g.ledger.deeds) rfl
      (Leads.stays (r.line (sound_lax id)))
  apply Leads.bind (now_leads env g)
  intro now
  apply Leads.given
  rintro rfl
  apply Leads.reads (rfl : getLedger ({ g with asked := g.asked + 1 } : Server) = .ok (g.ledger, _))
  apply Leads.ite
  · intro early
    rw [if_pos early]
    exact tells _
  · intro due
    rw [if_neg due]
    apply Leads.seq (M := fun g' => g'.ledger.deeds = g.ledger.deeds ∧
      (g'.blocks c).name = (g.blocks c).name)
    · apply Leads.modify
      rintro _ rfl
      exact ⟨rfl, rfl⟩
    · apply free_two_deeds

theorem free_deeds : Leads (· = g) (fun _ => True) (cmdFree env c) fun _ g' => g'.ledger.deeds =
    match recordedDeed env g c none .free with
    | some kind => (addDeed g.ledger (g.blocks c).name kind).deeds
    | none => g.ledger.deeds := by
  apply Leads.reads (rfl : session c g = .ok (g.blocks c, g))
  simp only [recordedDeed]
  apply Leads.ite
  · intro pit
    rw [if_pos pit]
    apply Leads.weaken free_pit_deeds
    intro _ g' deeds
    rw [deeds]
    cases vialFound env g (g.blocks c) <;> rfl
  intro other
  rw [if_neg other]
  apply Leads.ite
  · intro cells
    rw [if_pos cells]
    apply Leads.weaken free_cells_deeds
    intro _ g' deeds
    rw [deeds]
    by_cases early : env.now g.asked < g.ledger.cellsReadyAt
    · rw [if_pos early, if_pos early]
    · rw [if_neg early, if_neg early]
  · intro elsewhere
    rw [if_neg elsewhere]
    have r := (deeds_last env g.ledger.deeds).reports (d := c) trivial
    exact deeds_same (c := c) rfl (r.line (sound_lax id))

theorem shelter_deeds : Leads (· = g) (fun _ => True) (cmdShelter env c) fun _ g' =>
    g'.ledger.deeds =
      match recordedDeed env g c none .shelter with
      | some kind => (addDeed g.ledger (g.blocks c).name kind).deeds
      | none => g.ledger.deeds := by
  have r := (deeds_last env g.ledger.deeds).reports (d := c) trivial
  have tells (t : Text) : Leads (· = ({ g with asked := g.asked + 1 } : Server)) (fun _ => True)
      (queueLine c t) fun _ g' => g'.ledger.deeds = g.ledger.deeds :=
    Leads.start (P := fun g' => g'.ledger.deeds = g.ledger.deeds) rfl
      (Leads.stays (r.line (sound_lax id)))
  apply Leads.reads (rfl : session c g = .ok (g.blocks c, g))
  simp only [recordedDeed]
  apply Leads.ite
  · intro away
    rw [if_neg away]
    exact deeds_same (c := c) rfl (r.line (sound_lax id))
  intro here
  rw [if_pos (not_not.mp here)]
  apply Leads.bind (now_leads env g)
  intro now
  apply Leads.given
  rintro rfl
  apply Leads.reads (rfl : getLedger ({ g with asked := g.asked + 1 } : Server) = .ok (g.ledger, _))
  apply Leads.ite
  · intro early
    rw [if_pos early]
    exact tells _
  · intro due
    rw [if_neg due]
    apply Leads.seq (M := fun g' => g'.ledger.deeds = g.ledger.deeds ∧
      (g'.blocks c).name = (g.blocks c).name)
    · apply Leads.modify
      rintro _ rfl
      exact ⟨rfl, rfl⟩
    · apply free_two_deeds

theorem steal_deeds : Leads (· = g) (fun _ => True) (cmdSteal env c) fun _ g' => g'.ledger.deeds =
    match recordedDeed env g c none .steal with
    | some kind => (addDeed g.ledger (g.blocks c).name kind).deeds
    | none => g.ledger.deeds := by
  apply Leads.weaken steal_ledger
  intro _ g' written
  rw [written]
  simp only [recordedDeed]
  split <;> rfl

theorem forgive_deeds (arg : Ptr) : Leads (· = g) (fun _ => True) (cmdForgive env c arg) fun _ g' =>
    g'.ledger.deeds =
      match recordedDeed env g c arg .forgive with
      | some kind => (addDeed g.ledger (g.blocks c).name kind).deeds
      | none => g.ledger.deeds := by
  apply Leads.weaken (forgive_ledger arg)
  intro _ g' written
  rw [written]
  simp only [recordedDeed]
  cases forgiveTaken g c arg with
  | none => rfl
  | some d =>
    simp only [Option.map_some]
    have same : (forgivenMark g.ledger (g.blocks c).name (g.blocks d).name).deeds =
      g.ledger.deeds := rfl
    exact add_deed_rows same _ _

theorem witness_deeds (arg : Ptr) : Leads (· = g) (fun _ => True) (cmdWitness env c arg) fun _ g' =>
    g'.ledger.deeds =
      match recordedDeed env g c arg .witness with
      | some kind => (addDeed g.ledger (g.blocks c).name kind).deeds
      | none => g.ledger.deeds := by
  apply Leads.weaken (witness_ledger arg)
  intro _ g' written
  rw [written]
  simp only [recordedDeed]
  cases witnessTaken env g c arg with
  | none => rfl
  | some row =>
    simp only [Option.map_some]
    have same : (keptMark g.ledger (g.blocks c).name row.name).deeds = g.ledger.deeds := rfl
    exact add_deed_rows same _ _

/-- The flag a call left is only read. -/
theorem flag_leads (env : Env) (g : Server) : Leads (· = g) (fun _ => True) (ask env.zeroFlag)
    fun flag g' => flag = env.zeroFlag g.asked ∧
      g' = ({ g with asked := g.asked + 1 } : Server) := by
  rintro _ rfl
  exact ⟨rfl, rfl⟩

theorem pledge_deeds (here : (g.blocks c).room = roomDais) :
    Leads (· = g) (fun _ => True) (daisPledge env c) fun _ g' => g'.ledger.deeds =
      if env.zeroFlag g.asked then (addDeed g.ledger (g.blocks c).name .pledged).deeds
      else g.ledger.deeds := by
  have p := deeds_last env g.ledger.deeds
  have r := p.reports (d := c) trivial
  have p' := deeds_last env (addDeed g.ledger (g.blocks c).name .pledged).deeds
  have r' := p'.reports (d := c) trivial
  apply Leads.reads (rfl : session c g = .ok (g.blocks c, g))
  rw [if_neg (not_not.mpr here)]
  apply Leads.bind (flag_leads env g)
  intro unsworn
  apply Leads.given
  rintro rfl
  apply Leads.start (P := fun g' => g'.ledger.deeds = g.ledger.deeds) rfl
  cases env.zeroFlag g.asked with
  | false => exact Leads.stays (r.line (sound_lax id))
  | true =>
    have open_parts : Spares (fun _ => True) fun ch => swear ch (g.blocks c) :=
      fun _ shut => absurd trivial shut
    apply Leads.seq (Leads.stays (p.updates trivial (fun ch _ => character_lax _) open_parts))
    apply Leads.seq (Leads.stays
      (Keeps.branch (r.said (sound_lax id)) (r.line (sound_lax id))))
    apply deed_recorded
    apply Keeps.seq (p'.shifts _)
    apply Keeps.seq (p'.echoes (clean_lax _) (clean_lax _) (clean_lax _))
    apply Keeps.seq (p'.saves trivial)
    apply Keeps.seq (p'.delivers_room _ _ (sound_lax id))
    apply Keeps.seq (p'.arc_kept trivial trivial)
    exact Keeps.seq r'.affects_now (Keeps.seq r'.vitals_now r'.room_actions_now)

theorem defy_deeds : Leads (· = g) (fun _ => True) (cmdDefy env c) fun _ g' => g'.ledger.deeds =
    match recordedDeed env g c none .defy with
    | some kind => (addDeed g.ledger (g.blocks c).name kind).deeds
    | none => g.ledger.deeds := by
  have p := deeds_last env g.ledger.deeds
  have r := p.reports (d := c) trivial
  have p' := deeds_last env (addDeed g.ledger (g.blocks c).name .defected).deeds
  have r' := p'.reports (d := c) trivial
  apply Leads.reads (rfl : session c g = .ok (g.blocks c, g))
  simp only [recordedDeed]
  apply Leads.ite
  · intro away
    rw [if_neg away]
    exact deeds_same (c := c) rfl (r.line (sound_lax id))
  intro here
  rw [if_pos (not_not.mp here)]
  apply Leads.bind (flag_leads env g)
  intro sworn
  apply Leads.given
  rintro rfl
  apply Leads.start (P := fun g' => g'.ledger.deeds = g.ledger.deeds) rfl
  cases env.zeroFlag g.asked with
  | false => exact Leads.stays (r.line (sound_lax id))
  | true =>
    have open_parts : Spares (fun _ => True) fun ch : Character =>
        { ch with faction := str "ally", morality := ch.morality + 30 } :=
      fun _ shut => absurd trivial shut
    apply Leads.seq (Leads.stays (p.updates trivial (fun ch _ => character_lax _) open_parts))
    apply Leads.seq (Leads.stays (r.said (sound_lax id)))
    apply deed_recorded
    apply Keeps.seq (p'.shifts _)
    apply Keeps.seq (p'.echoes (clean_lax _) (clean_lax _) (clean_lax _))
    apply Keeps.seq (p'.saves trivial)
    apply Keeps.seq (p'.delivers_room _ _ (sound_lax id))
    apply Keeps.seq
    · exact Keeps.branch (p'.return_kept trivial trivial) (p'.arc_kept trivial trivial)
    exact Keeps.seq r'.affects_now (Keeps.seq r'.vitals_now r'.room_actions_now)

theorem join_deeds : Leads (· = g) (fun _ => True) (cmdJoin env c) fun _ g' => g'.ledger.deeds =
    match recordedDeed env g c none .join with
    | some kind => (addDeed g.ledger (g.blocks c).name kind).deeds
    | none => g.ledger.deeds := by
  have p := deeds_last env g.ledger.deeds
  have r := p.reports (d := c) trivial
  apply Leads.reads (rfl : session c g = .ok (g.blocks c, g))
  simp only [recordedDeed]
  apply Leads.ite
  · intro dais
    rw [if_pos dais]
    apply Leads.weaken (pledge_deeds dais)
    intro _ g' deeds
    rw [deeds]
    cases env.zeroFlag g.asked <;> rfl
  intro away
  rw [if_neg away]
  apply deeds_same (c := c) rfl
  apply Keeps.branch (r.said (sound_lax id))
  have open_parts : Spares (fun _ => True) (takeCoin (g.blocks c)) :=
    fun _ shut => absurd trivial shut
  apply Keeps.seq (p.updates trivial (fun ch _ => character_lax _) open_parts)
  apply Keeps.seq (r.said (sound_lax id))
  apply Keeps.seq r.affects
  apply Keeps.seq r.vitals
  apply Keeps.seq (p.oath_kept trivial)
  apply Keeps.seq (p.shifts _)
  exact Keeps.seq (p.arc_kept trivial trivial) (p.saves trivial)

/-- What a handler does to the deeds: the record of its act when it has one, else nothing. -/
theorem exec_deeds (arg : Ptr) (arm : Arm) :
    Leads (· = g) (fun _ => True) (exec env c arg arm) fun _ g' => g'.ledger.deeds =
      match recordedDeed env g c arg arm with
      | some kind => (addDeed g.ledger (g.blocks c).name kind).deeds
      | none => g.ledger.deeds := by
  by_cases records : .deeds ∈ arm.tables
  · cases arm with
    | steal => exact steal_deeds
    | forgive => exact forgive_deeds arg
    | witness => exact witness_deeds arg
    | free => exact free_deeds
    | shelter => exact shelter_deeds
    | join => exact join_deeds
    | defy => exact defy_deeds
    | _ => simp [Arm.tables] at records
  · have within : arm.Within c (fun _ => True) (fun _ _ => True) (· ≠ .deeds) := by
      constructor
      · exact fun _ _ => trivial
      · exact fun _ _ _ _ => trivial
      · rintro t member rfl
        exact records member
    have none_here : recordedDeed env g c arg arm = none := by
      cases arm <;> first | rfl | exact absurd (by decide) records
    exact deeds_same none_here ((deeds_last env g.ledger.deeds).exec_kept trivial within
      (fun b _ => clean_lax b) nofun nofun fun _ _ => trivial)

end Effects

section Lines

variable {env : Env} {c : Block} {g g' : Server} {e : Event} {line : Bytes}

theorem slot_answers (env : Env) (word : Bytes) (items : List Bytes) (i asked : Nat) :
    ∃ slot n, ∀ g : Server, g.asked = asked →
      invFindSlot env word i items g = .ok (slot, { g with asked := n }) := by
  induction items generalizing i asked with
  | nil =>
    refine ⟨none, asked, ?_⟩
    rintro g rfl
    rfl
  | cons item rest ih =>
    by_cases bare : word = []
    · refine ⟨none, asked, ?_⟩
      rintro g rfl
      rw [invFindSlot, if_pos bare]
      rfl
    by_cases whole : sameFold item word = true
    · refine ⟨some i, asked, ?_⟩
      rintro g rfl
      rw [invFindSlot, if_neg bare, if_pos whole]
      rfl
    have asks (g : Server) (same : g.asked = asked) : invFindSlot env word i (item :: rest) g =
        (if (if env.clobbers asked then env.zeroFlag (asked + 1) else startsFold word item) then
          pure (some i) else invFindSlot env word (i + 1) rest : Act (Option Nat))
          { g with asked := asked + 2 } := by
      cases same
      rw [invFindSlot, if_neg bare, if_neg whole]
      rfl
    by_cases hit : (if env.clobbers asked then env.zeroFlag (asked + 1)
      else startsFold word item) = true
    · refine ⟨some i, asked + 2, fun g same => ?_⟩
      rw [asks g same, if_pos hit]
      rfl
    · obtain ⟨slot, n, later⟩ := ih (i + 1) (asked + 2)
      refine ⟨slot, n, fun g same => ?_⟩
      rw [asks g same, if_neg hit]
      exact later { g with asked := asked + 2 } rfl

theorem vial_heard (env : Env) (wsi : Wsi) :
    vialFound env (g.setWsi c wsi) ((g.setWsi c wsi).blocks c) = vialFound env g (g.blocks c) := by
  have carried := congrArg Character.inventory (heard_like (g := g) (c := c) wsi c).1
  change ((g.setWsi c wsi).blocks c).inventory = (g.blocks c).inventory at carried
  obtain ⟨slot, n, answers⟩ := slot_answers env (str "antidote") (g.blocks c).inventory 0 g.asked
  unfold vialFound
  rw [carried, answers g rfl, answers (g.setWsi c wsi) rfl]

/-- Whose socket a line came by makes no difference to what it records. -/
theorem recorded_heard (env : Env) (wsi : Wsi) (arg : Ptr) (arm : Arm) :
    recordedDeed env (g.setWsi c wsi) c arg arm = recordedDeed env g c arg arm := by
  have place := congrArg Character.room (heard_like (g := g) (c := c) wsi c).1
  change ((g.setWsi c wsi).blocks c).room = (g.blocks c).room at place
  have asked : (g.setWsi c wsi).asked = g.asked := rfl
  have ledger : (g.setWsi c wsi).ledger = g.ledger := rfl
  cases arm <;>
    simp only [recordedDeed, place, asked, ledger, forgive_heard, witness_heard, vial_heard]

theorem line_deeds (line : Bytes) : Leads (· = g) (fun _ => True) (worldCommand env c line)
    fun _ g' => (∃ arm arg, RunsArm g c line arm arg ∧ g'.ledger.deeds =
      match recordedDeed env g c arg arm with
      | some kind => (addDeed g.ledger (g.blocks c).name kind).deeds
      | none => g.ledger.deeds) ∨
    ((∀ arm arg, ¬RunsArm g c line arm arg) ∧ g'.ledger.deeds = g.ledger.deeds) := by
  by_cases ran : ∃ arm arg, RunsArm g c line arm arg
  · obtain ⟨arm, arg, runs⟩ := ran
    intro s same
    cases same
    rw [runs_arm env runs]
    exact Leads.weaken (exec_deeds arg arm) (fun _ g' deeds => .inl ⟨arm, arg, runs, deeds⟩) _ rfl
  · have p := deeds_last env g.ledger.deeds
    have r := p.reports (d := c) trivial
    have idle : ∀ arm arg, ¬RunsArm g c line arm arg := fun arm arg runs => ran ⟨arm, arg, runs⟩
    have quiet {m : Act Unit}
        (kept : Keeps (fun g' => g'.ledger.deeds = g.ledger.deeds) (fun _ => True) m Any) :
        Leads (· = g) (fun _ => True) m fun _ g' =>
          (∃ arm arg, RunsArm g c line arm arg ∧ g'.ledger.deeds =
            match recordedDeed env g c arg arm with
            | some kind => (addDeed g.ledger (g.blocks c).name kind).deeds
            | none => g.ledger.deeds) ∨
          ((∀ arm arg, ¬RunsArm g c line arm arg) ∧ g'.ledger.deeds = g.ledger.deeds) := by
      apply Leads.weaken (Leads.start (P := fun g' => g'.ledger.deeds = g.ledger.deeds) rfl
        (Leads.stays kept))
      exact fun _ g' same => .inr ⟨idle, same⟩
    apply Leads.ite
    · exact fun _ => quiet r.scene_now
    intro looks
    apply Leads.ite
    · exact fun _ => quiet (r.look_kept _)
    intro at_one
    apply Leads.reads (rfl : session c g = .ok (g.blocks c, g))
    cases moved : roomMove (g.blocks c).room (heading line) with
    | there room => exact quiet (p.move_kept trivial trivial room)
    | noExit => exact quiet r.cant_move_kept
    | unknown =>
      simp only [notMovement]
      cases parsed : parse line with
      | none => exact quiet r.unknown_kept
      | some found =>
        obtain ⟨arm, arg⟩ := found
        exact absurd ⟨looks, by simpa using at_one, moved, parsed⟩ (idle arm arg)

end Lines

/-- What char.reckoning reports of a deed of a player. -/
def reckoned (l : Ledger) (name : Bytes) (kind : Deed) : Int := toInt32 (deedCount l name kind)

/-- The event of cmd_reckoning. -/
def reckoningEvent (l : Ledger) (s : Session) : Text :=
  snprintf 800 (reckoningEvt s (deedsJson (lit "\x7b") 0
    (Deed.all.map fun kind => (kind, reckoned l s.name kind))))

theorem reckoning_emitted (c : Block) (g : Server) : ∃ told : Act Unit,
    Keeps (fun g' => g'.ledger = g.ledger) (fun _ => True) told Any ∧
    cmdReckoning c g = (told >>= fun _ => queue c (reckoningEvent g.ledger (g.blocks c))) g := by
  have r := (ledger_permits quietNode g.ledger).reports (d := c) trivial
  let counts := Deed.all.map fun kind => (kind, reckoned g.ledger (g.blocks c).name kind)
  let done := counts.filter fun row => 0 < row.2
  refine ⟨do
    queueLine c (lit "The Grid has kept count. This is the sum of you so far:")
    queueLine c (snprintf 160 (standingLine (g.blocks c)))
    (reckoningArc (g.blocks c)).toList.forM (queueLine c)
    done.forM fun row => queueLine c (snprintf 128 (lit row.1.label ++ number row.2))
    when (done = []) (queueLine c
      (lit "  Nothing yet weighs on either side. The wastes are still waiting to see who you are.")),
    ?_, ?_⟩
  · have tells (t : Text) : Keeps (fun g' => g'.ledger = g.ledger) (fun _ => True)
        (queueLine c t) Any := r.line (sound_lax id)
    apply Keeps.seq (tells _)
    apply Keeps.seq (tells _)
    apply Keeps.seq (Keeps.for_each fun t _ => tells t)
    apply Keeps.seq (Keeps.for_each fun row _ => tells _)
    exact keeps_when (tells _)
  · unfold cmdReckoning
    rw [bind_ok (rfl : session c g = .ok (g.blocks c, g)),
      bind_ok (rfl : getLedger g = .ok (g.ledger, g))]
    simp only [bind_assoc]
    rfl

/-- A glow-rat falls to the player of the name in a beat of the timer. -/
def Slays (env : Env) (g : Server) (e : Event) (name : Bytes) : Prop :=
  e = .tick ∧ ∃ c g', step env g e = .ok g' ∧ sameFold (g.blocks c).name name = true ∧
    (g.blocks c).xp < (g'.blocks c).xp

def Performs (env : Env) (g : Server) (e : Event) (name : Bytes) (kind : Deed) : Prop :=
  (∃ c line arm arg, Delivered g e c line ∧ RunsArm g c line arm arg ∧
    sameFold (g.blocks c).name name = true ∧
    (recordedDeed env g c arg arm = some kind ∨ silentDeed g c arg arm = some kind)) ∨
  kind = .slain ∧ Slays env g e name

open Classical in
/-- How often a run performs it. -/
noncomputable def times (env : Env) (name : Bytes) (kind : Deed) : Server → List Event → Nat
  | _, [] => 0
  | g, e :: rest => (if Performs env g e name kind then 1 else 0) +
      match step env g e with
      | .ok next => times env name kind next rest
      | .error _ => 0

/-- The act of an event, when it has one, is of those that are recorded, its player has a row
or can have one, and the counter does not pass what the report can hold. -/
structure Recorded (env : Env) (g : Server) (e : Event) : Prop where
  line : ∀ c line arm arg, Delivered g e c line → RunsArm g c line arm arg →
    silentDeed g c arg arm = none ∧ ∀ kind, recordedDeed env g c arg arm = some kind →
      hasPlace deedMaxEntries g.ledger.deeds (g.blocks c).name = true ∧
      deedCount g.ledger (g.blocks c).name kind < 2147483647
  spared : ∀ name, ¬Slays env g e name

def WholeRows (g : Server) : Prop := ∀ row ∈ g.ledger.deeds, row.2.length = 13

def Introduced (g : Server) : Prop := ∀ d, (g.blocks d).state = .name ∨ (g.blocks d).name ≠ []

section Runs

variable {env : Env} {c c' : Block} {g g' : Server} {e : Event} {line line' : Bytes} {arm : Arm}
  {arg : Ptr}

theorem delivered_once (given : Delivered g e c line) (again : Delivered g e c' line') :
    c = c' ∧ line = line' := by
  obtain ⟨text, rfl, _, _, _, rfl⟩ := given
  obtain ⟨_, same, _, _, _, rfl⟩ := again
  cases same
  exact ⟨rfl, rfl⟩

theorem runs_heard (wsi : Wsi) :
    RunsArm (g.setWsi c wsi) c line arm arg ↔ RunsArm g c line arm arg := by
  have place := congrArg Character.room (heard_like (g := g) (c := c) wsi c).1
  change ((g.setWsi c wsi).blocks c).room = (g.blocks c).room at place
  constructor
  · intro runs
    exact ⟨runs.looks, runs.at_one, place ▸ runs.stays, runs.parsed⟩
  · intro runs
    exact ⟨runs.looks, runs.at_one, place.symm ▸ runs.stays, runs.parsed⟩

theorem performs_line {name : Bytes} {kind : Deed} (given : Delivered g e c line)
    (runs : RunsArm g c line arm arg) : Performs env g e name kind ↔
      sameFold (g.blocks c).name name = true ∧
        (recordedDeed env g c arg arm = some kind ∨ silentDeed g c arg arm = some kind) := by
  constructor
  · rintro (⟨c', line', arm', arg', given', runs', own, acts⟩ | ⟨_, beat, _⟩)
    · obtain ⟨rfl, rfl⟩ := delivered_once given given'
      have same := runs.parsed.symm.trans runs'.parsed
      cases same
      exact ⟨own, acts⟩
    · obtain ⟨text, spoke, _⟩ := given
      cases spoke.symm.trans beat
  · rintro ⟨own, acts⟩
    exact .inl ⟨c, line, arm, arg, given, runs, own, acts⟩

theorem performs_nothing {name : Bytes} {kind : Deed} (spared : ∀ name, ¬Slays env g e name)
    (idle : ∀ c line arm arg, Delivered g e c line → ¬RunsArm g c line arm arg) :
    ¬Performs env g e name kind := by
  rintro (⟨c, line, arm, arg, given, runs, _⟩ | ⟨_, slays⟩)
  · exact idle c line arm arg given runs
  · exact spared name slays

theorem delivered_deeds (given : Delivered g e c line) (taken : step env g e = .ok g') :
    (∃ arm arg, RunsArm g c line arm arg ∧ g'.ledger.deeds =
      match recordedDeed env g c arg arm with
      | some kind => (addDeed g.ledger (g.blocks c).name kind).deeds
      | none => g.ledger.deeds) ∨
    ((∀ arm arg, ¬RunsArm g c line arm arg) ∧ g'.ledger.deeds = g.ledger.deeds) := by
  obtain ⟨wsi, ran⟩ := delivered_run env given
  have ended := map_ok (ran.symm.trans taken)
  have name := (heard_like (g := g) (c := c) wsi c).2
  have ledger : (g.setWsi c wsi).ledger = g.ledger := rfl
  have led : Leads (· = g.setWsi c wsi) (fun _ => True) (worldCommand env c line) _ :=
    line_deeds line
  have deeds := led.result rfl ended
  simp only [runs_heard, recorded_heard, name, ledger] at deeds
  exact deeds

theorem undelivered_ledger (silent : ∀ c line, ¬Delivered g e c line)
    (taken : step env g e = .ok g') : g'.ledger = g.ledger := by
  cases step_course taken with
  | @fresh d wsi _ _ same =>
    rw [same]
    rfl
  | login _ _ _ _ _ _ _ same => exact same
  | @command d line _ _ given => exact absurd given (silent d line)
  | beat _ _ ended =>
    have kept : Keeps (Framed (fun _ _ => True) worldly g) (fun _ => True) (tickService env) Any :=
      beat_framed (fun _ => trivial) (fun _ => trivial) (fun _ => trivial) (.inl rfl) (.inr rfl)
    exact ledger_framed (kept.result (framed_start _ _ g) ended).1
  | quiet idle => exact idle.ledger

theorem valid_named {name : Bytes} (valid : validName name = true) : name ≠ [] := by
  rintro rfl
  cases valid

theorem move_introduced {s s' : Session} {disk disk' : Disk}
    (known : s.state = .name ∨ s.name ≠ []) (move : LoginMove env line s disk s' disk') :
    s'.state = .name ∨ s'.name ≠ [] := by
  cases move with
  | refused => exact known
  | keeper _ valid => exact .inr (valid_named valid)
  | named _ valid _ load =>
    right
    rw [load_name load]
    exact valid_named valid
  | trusted token _ load =>
    right
    have same := load_name load
    rw [same]
    exact known.resolve_left (by simp [token])
  | raced asked => exact .inr (known.resolve_left (by simp [asked]))
  | entered asked enters =>
    right
    have same : s'.name = s.name := by cases enters <;> rfl
    rw [same]
    exact known.resolve_left (by simp [asked])

theorem introduced_step (known : Introduced g) (taken : step env g e = .ok g') :
    Introduced g' := by
  intro d
  cases step_course taken with
  | @fresh c wsi _ _ same =>
    rw [same]
    by_cases own : d = c
    · subst own
      left
      rw [(opened_own g d wsi).state]
      rfl
    · rw [opened_other g wsi own]
      exact known d
  | @login c text s' disk' _ _ _ move like others _ _ =>
    by_cases own : d = c
    · subst own
      rw [like.state, like.name]
      exact move_introduced (known d) move
    · rw [others d own]
      exact known d
  | command _ played =>
    rw [(played.peers d).name, (played.peers d).state]
    exact known d
  | beat _ played =>
    rw [(played.peers d).name, (played.peers d).state]
    exact known d
  | quiet idle =>
    rw [idle.name d, idle.state d]
    exact known d

theorem introduced_run {disk : Disk} {events : List Event}
    (reached : Machine.Reaches (step env) (boot env disk) events g) : Introduced g :=
  Machine.invariant_every_run (step env) Introduced (boot env disk) (fun _ => .inl rfl)
    (fun _ _ _ known taken => introduced_step known taken) events g reached

theorem whole_rows_step (whole : WholeRows g) (taken : step env g e = .ok g') : WholeRows g' := by
  by_cases spoke : ∃ c line, Delivered g e c line
  · obtain ⟨c, line, given⟩ := spoke
    rcases delivered_deeds given taken with ⟨arm, arg, _, deeds⟩ | ⟨_, deeds⟩
    · rw [WholeRows, deeds]
      cases recordedDeed env g c arg arm with
      | none => exact whole
      | some kind =>
        by_cases bare : (g.blocks c).name = []
        · simp only [addDeed, if_pos bare]
          exact whole
        · simp only [addDeed, if_neg bare]
          exact bump_rows_whole _ _ _ _ whole
    · rw [WholeRows, deeds]
      exact whole
  · have same := undelivered_ledger (fun c line given => spoke ⟨c, line, given⟩) taken
    rw [WholeRows, same]
    exact whole

open Classical in
/-- Every event of the condition is counted as often as it is performed. -/
theorem counts_step (short : ShortNames g) (known : Introduced g) (whole : WholeRows g)
    (recorded : Recorded env g e) (taken : step env g e = .ok g') (name : Bytes) (kind : Deed) :
    deedCount g'.ledger name kind =
      deedCount g.ledger name kind + if Performs env g e name kind then 1 else 0 := by
  by_cases spoke : ∃ c line, Delivered g e c line
  · obtain ⟨c, line, given⟩ := spoke
    rcases delivered_deeds given taken with ⟨arm, arg, runs, deeds⟩ | ⟨idle, deeds⟩
    · obtain ⟨silent, placed⟩ := recorded.line c line arm arg given runs
      rw [deed_count_rows, deed_count_rows, deeds]
      simp only [performs_line given runs, silent, reduceCtorEq, or_false]
      cases act : recordedDeed env g c arg arm with
      | none => simp
      | some done =>
        obtain ⟨_, _, _, _, playing, _⟩ := given
        have named : (g.blocks c).name ≠ [] := (known c).resolve_left (by simp [playing])
        have own := short c
        have bumped := bump_rows_count (by omega : (g.blocks c).name.length ≤ 40) done name kind
          deedMaxEntries g.ledger.deeds whole
        simp only [addDeed, if_neg named, bumped, Option.some.injEq, (placed done act).1, and_true]
    · have still : ¬Performs env g e name kind := by
        apply performs_nothing recorded.spared
        intro d other arm arg given'
        obtain ⟨rfl, rfl⟩ := delivered_once given given'
        exact idle arm arg
      rw [deed_count_rows, deed_count_rows, deeds, if_neg still, Int.add_zero]
  · have silent : ∀ c line, ¬Delivered g e c line := fun c line given => spoke ⟨c, line, given⟩
    have still : ¬Performs env g e name kind :=
      performs_nothing recorded.spared fun c line _ _ given => absurd given (silent c line)
    rw [undelivered_ledger silent taken, if_neg still, Int.add_zero]

open Classical in
theorem times_snoc {name : Bytes} {kind : Deed} {start : Server} {events : List Event}
    (reached : Machine.Reaches (step env) start events g) (e : Event) :
    times env name kind start (events ++ [e]) =
      times env name kind start events + if Performs env g e name kind then 1 else 0 := by
  induction events generalizing start with
  | nil =>
    cases reached
    simp only [List.nil_append, times]
    cases step env g e <;> simp
  | cons first rest ih =>
    obtain ⟨next, taken, later⟩ := Machine.reaches_cons reached
    have counted := ih later
    simp only [List.cons_append, times, taken]
    rw [counted, Nat.add_assoc]

theorem whole_rows_run {disk : Disk} {events : List Event}
    (reached : Machine.Reaches (step env) (boot env disk) events g) : WholeRows g :=
  Machine.invariant_every_run (step env) WholeRows (boot env disk) (fun _ row => nomatch row)
    (fun _ _ _ whole taken => whole_rows_step whole taken) events g reached

theorem count_fold {l : Ledger} {name name' : Bytes} (same : sameFold name name' = true)
    (kind : Deed) : deedCount l name kind = deedCount l name' kind := by
  have lower_same := (same_fold_iff _ _).mp same
  simp only [deedCount, sameFold, lower_same]

theorem recorded_room {name : Bytes} {kind : Deed} (recorded : Recorded env g e)
    (performs : Performs env g e name kind) : deedCount g.ledger name kind < 2147483647 := by
  rcases performs with ⟨c, line, arm, arg, given, runs, own, acts⟩ | ⟨_, slays⟩
  · obtain ⟨silent, placed⟩ := recorded.line c line arm arg given runs
    rw [silent] at acts
    rw [← count_fold own]
    exact (placed kind (acts.resolve_right nofun)).2
  · exact absurd slays (recorded.spared name)

/-- While every act is recorded, a counter is the number of the acts. -/
theorem counts_run {disk : Disk} {events : List Event} (name : Bytes) (kind : Deed)
    (reached : Machine.Reaches (step env) (boot env disk) events g)
    (met : Machine.Meets (step env) (Recorded env) (boot env disk) events) :
    deedCount g.ledger name kind = times env name kind (boot env disk) events ∧
      deedCount g.ledger name kind ≤ 2147483647 := by
  induction events using List.reverseRecOn generalizing g with
  | nil =>
    cases reached
    constructor
    · rfl
    · exact Int.zero_le_ofNat 2147483647
  | append_singleton events e ih =>
    obtain ⟨last, front, taken⟩ := Machine.reaches_snoc_cases _ _ _ _ _ reached
    obtain ⟨same, room⟩ := ih front (Machine.meets_front _ _ _ _ _ met)
    have recorded := met events e [] last rfl front
    have counted := counts_step (names_run front) (introduced_run front) (whole_rows_run front)
      recorded taken name kind
    rw [counted, times_snoc front, same]
    by_cases performs : Performs env last e name kind
    · have fits := recorded_room recorded performs
      rw [if_pos performs, if_pos performs]
      constructor
      · push_cast
        rfl
      · omega
    · rw [if_neg performs, if_neg performs]
      constructor
      · rfl
      · omega

end Runs

/-- In a run of acts that are all recorded the reckoning reports how often each of them has
been performed. -/
theorem deeds_reckoned (env : Env) (disk : Disk) (events : List Event) (g : Server) (name : Bytes)
    (kind : Deed) (reached : Machine.Reaches (step env) (boot env disk) events g)
    (met : Machine.Meets (step env) (Recorded env) (boot env disk) events) :
    reckoned g.ledger name kind = times env name kind (boot env disk) events := by
  obtain ⟨same, room⟩ := counts_run name kind reached met
  have fits : toInt32 (deedCount g.ledger name kind) = deedCount g.ledger name kind := by
    unfold toInt32
    omega
  rw [reckoned, fits, same]

def recordedTest (env : Env) (g : Server) : Event → Bool
  | .message c text =>
    decide ((g.blocks c).state ≠ .play) ||
      match parse (cstr (trimmed text)) with
      | none => true
      | some (arm, arg) => decide (silentDeed g c arg arm = none) &&
        match recordedDeed env g c arg arm with
        | none => true
        | some kind => hasPlace deedMaxEntries g.ledger.deeds (g.blocks c).name &&
          decide (deedCount g.ledger (g.blocks c).name kind < 2147483647)
  | .tick => false
  | _ => true

theorem recorded_tested (env : Env) (g : Server) (e : Event)
    (passed : recordedTest env g e = true) : Recorded env g e := by
  constructor
  · intro c line arm arg given runs
    obtain ⟨text, rfl, _, _, playing, rfl⟩ := given
    simp only [recordedTest, playing, ne_eq, not_true_eq_false, decide_false, Bool.false_or,
      runs.parsed, Bool.and_eq_true, decide_eq_true_eq] at passed
    refine ⟨passed.1, fun kind acts => ?_⟩
    simpa only [acts, Bool.and_eq_true, decide_eq_true_eq] using passed.2
  · rintro name ⟨rfl, _⟩
    cases passed

/-- Bo forgives ada, and that is what the reckoning has of it. -/
def graceOfBo : List Event :=
  returns 0 (str "ada") ++ returns 1 (str "bo") ++ [.message 1 (str "forgive ada")]

theorem deeds_reckoned_bo : ∃ g : Server, reckoned g.ledger (str "bo") .forgave = 1 ∧
    reckoned g.ledger (str "bo") .forgave =
      times quietNode (str "bo") .forgave (boot quietNode swornDisk) graceOfBo := by
  obtain ⟨g, reached, shown⟩ := Machine.ends_reaches (step quietNode) (boot quietNode swornDisk)
    graceOfBo (fun g => decide (reckoned g.ledger (str "bo") .forgave = 1)) (by decide +kernel)
  have met := Machine.meets_passed (step quietNode) (recordedTest quietNode) (Recorded quietNode)
    (recorded_tested quietNode) (boot quietNode swornDisk) graceOfBo (by decide +kernel)
  exact ⟨g, of_decide_eq_true shown, deeds_reckoned quietNode swornDisk graceOfBo g _ _ reached met⟩

/-- The line of ada, who is in play, carves a word of which nothing is counted. -/
def carvesHi (g : Server) : Bool :=
  decide ((Event.message 0 (str "inscribe hi")).valid g = true ∧ (g.blocks 0).state = .play ∧
    roomMove (g.blocks 0).room (heading (str "inscribe hi")) = .unknown ∧
    (g.blocks 0).name = str "ada" ∧ reckoned g.ledger (str "ada") .inscribed = 0)

theorem carves_hi {g : Server} (ready : carvesHi g = true) :
    Performs quietNode g (.message 0 (str "inscribe hi")) (str "ada") .inscribed := by
  obtain ⟨raised, playing, stays, own, _⟩ := of_decide_eq_true ready
  have parsed : parse (str "inscribe hi") = some (.inscribe, some (str "hi")) := by decide +kernel
  have same : sameFold (g.blocks 0).name (str "ada") = true := by
    rw [own]
    decide
  exact .inl ⟨0, str "inscribe hi", .inscribe, some (str "hi"), ⟨str "inscribe hi", rfl, raised,
    by decide, playing, by decide⟩, ⟨by decide, by decide, stays, parsed⟩, same, .inr rfl⟩

/-- What ada inscribes is not counted. -/
theorem inscribed_uncounted : ¬ ∀ events (g : Server) name kind,
    Machine.Reaches (step quietNode) (boot quietNode sharedDisk) events g →
    reckoned g.ledger name kind =
      times quietNode name kind (boot quietNode sharedDisk) events := by
  intro counted
  obtain ⟨g₁, reached, shown⟩ := Machine.ends_reaches (step quietNode)
    (boot quietNode sharedDisk) (returns 0 (str "ada"))
    (fun g => carvesHi g && match step quietNode g (.message 0 (str "inscribe hi")) with
      | .ok next => decide (reckoned next.ledger (str "ada") .inscribed = 0)
      | .error _ => false) (by decide +kernel)
  obtain ⟨ready, later⟩ := (Bool.and_eq_true ..).mp shown
  cases taken : step quietNode g₁ (.message 0 (str "inscribe hi")) with
  | error fault =>
    rw [taken] at later
    cases later
  | ok g =>
    rw [taken] at later
    have after := counted _ g (str "ada") .inscribed
      (Machine.reaches_snoc _ _ _ _ _ _ reached taken)
    rw [of_decide_eq_true later, times_snoc reached, if_pos (carves_hi ready)] at after
    omega

end HollowGrid
