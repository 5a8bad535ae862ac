import HollowGrid.Policy

/-! What grid_match_world is for, and the calls on which it does that. -/
namespace HollowGrid

/-- The first world of the name, else the first whose name has the target in it, whatever the
case of the letters. -/
def wantedWorld (rows : List WorldRow) (target : Bytes) : Option Nat :=
  match rows.findIdx? fun row => lower row.id = lower target with
  | some i => some i
  | none => rows.findIdx? fun row => contains (lower target) (lower row.id)

section Matching

variable {address : Nat} {rows : List WorldRow} {target : Bytes}

theorem exact_wanted (rows : List WorldRow) (target : Bytes) :
    (rows.findIdx? fun row => sameFold row.id target) =
      rows.findIdx? fun row => lower row.id = lower target :=
  congrArg (List.findIdx? · rows) (funext fun row => by simp [sameFold, beq_eq_decide])

/-- The first byte of a lowered buffer comes of the address alone. -/
theorem lowered_head (address : Nat) (b : UInt8) (rest : Bytes) :
    ∃ tail, gridLowerInplace address (b :: rest) =
      (tolower (toInt32 (address : Int)) % 256).toNat.toUInt8 :: tail :=
  ⟨_, by simp [gridLowerInplace]; rfl⟩

theorem lowered_blank {address : Nat}
    (zero : (tolower (toInt32 (address : Int)) % 256).toNat.toUInt8 = 0) (b : Bytes) :
    cstr (gridLowerInplace address b) = [] := by
  cases b with
  | nil => rfl
  | cons b rest =>
    obtain ⟨tail, same⟩ := lowered_head address b rest
    rw [same, zero]
    rfl

theorem page_blinds (id : Bytes) (some_byte : target ≠ []) :
    scratchMatch 4096 id target = false := by
  obtain ⟨b, rest, rfl⟩ := List.exists_cons_of_ne_nil some_byte
  obtain ⟨tail, same⟩ := lowered_head 4160 b (rest.take 62)
  have sixty_four : (tolower (toInt32 ((4160 : Nat) : Int)) % 256).toNat.toUInt8 = 64 := by decide
  have blank : cstr (gridLowerInplace 4096 (id.take 63)) = [] := lowered_blank (by decide) _
  rw [scratchMatch, blank, List.take_succ_cons, same, sixty_four]
  rfl

theorem wrap_matches (id target : Bytes) : scratchMatch 4288 id target = true := by
  have blank : cstr (gridLowerInplace (4288 + 64) (target.take 63)) = [] :=
    lowered_blank (by decide) _
  rw [scratchMatch, blank]
  cases cstr (gridLowerInplace 4288 (id.take 63)) <;> simp [contains]

theorem exact_found (named : ∃ row ∈ rows, sameFold row.id target = true)
    (some_byte : target ≠ []) : gridMatchWorld address rows target = wantedWorld rows target := by
  obtain ⟨row, member, same⟩ := named
  have found : (rows.findIdx? fun row => sameFold row.id target).isSome = true :=
    List.findIdx?_isSome.trans (List.any_eq_true.mpr ⟨row, member, same⟩)
  obtain ⟨i, first⟩ := Option.isSome_iff_exists.mp found
  rw [gridMatchWorld, if_neg some_byte, wantedWorld, ← exact_wanted, first]

theorem exact_missed (unnamed : ¬∃ row ∈ rows, sameFold row.id target = true)
    (some_byte : target ≠ []) : gridMatchWorld address rows target =
      rows.findIdx? fun row => scratchMatch address row.id target := by
  have missed : (rows.findIdx? fun row => sameFold row.id target) = none :=
    List.findIdx?_eq_none_iff.mpr fun row member => by
      simpa using fun same => unnamed ⟨row, member, same⟩
  rw [gridMatchWorld, if_neg some_byte, missed]

/-- Wherever its buffers lie, the matcher finds the wanted world exactly when a whole name
decides or there is no world at all. -/
theorem match_wanted_iff (rows : List WorldRow) (target : Bytes) (some_byte : target ≠ []) :
    (∀ address, gridMatchWorld address rows target = wantedWorld rows target) ↔
      rows = [] ∨ ∃ row ∈ rows, sameFold row.id target = true := by
  constructor
  · intro wanted
    by_contra neither
    obtain ⟨some_row, unnamed⟩ := not_or.mp neither
    have page := wanted 4096
    have wrap := wanted 4288
    rw [exact_missed unnamed some_byte] at page wrap
    rw [← page] at wrap
    obtain ⟨row, rest, rfl⟩ := List.exists_cons_of_ne_nil some_row
    have first : ((row :: rest).findIdx? fun row => scratchMatch 4288 row.id target) = some 0 := by
      simp [List.findIdx?_cons, wrap_matches]
    have none_found : ((row :: rest).findIdx? fun row => scratchMatch 4096 row.id target) = none :=
      List.findIdx?_eq_none_iff.mpr fun row _ => page_blinds row.id some_byte
    rw [first, none_found] at wrap
    cases wrap
  · rintro (rfl | named) address
    · rw [gridMatchWorld, if_neg some_byte]
      rfl
    · exact exact_found named some_byte

theorem match_wanted_iff_saltreach :
    (∀ address, gridMatchWorld address [⟨str "Saltreach", [], 0⟩] (str "SALTREACH") =
        wantedWorld [⟨str "Saltreach", [], 0⟩] (str "SALTREACH")) ↔
      [(⟨str "Saltreach", [], 0⟩ : WorldRow)] = [] ∨
        ∃ row ∈ [(⟨str "Saltreach", [], 0⟩ : WorldRow)], sameFold row.id (str "SALTREACH") = true :=
  match_wanted_iff _ _ (by decide)

/-- A part of a name is not found at an address whose low byte is 0. -/
theorem part_not_matched : ¬ ∀ (address : Nat) (rows : List WorldRow) (target : Bytes),
    rows.length ≤ 8 → (∀ row ∈ rows, row.id.length ≤ 47) → target ≠ [] →
      gridMatchWorld address rows target = wantedWorld rows target := by
  intro always
  have found := always 4096 [⟨str "Saltreach", [], 0⟩] (str "salt") (by decide) (by decide)
    (by decide)
  revert found
  decide

end Matching

end HollowGrid
