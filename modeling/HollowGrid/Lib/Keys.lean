import Mathlib.Data.List.Dedup
import Mathlib.Data.List.Induction
import Mathlib.Data.List.Perm.Subperm

/-! Tables of bounded size that take a key once: a scan for it, and a new row while there is room.
Such a table has exactly the keys it was asked for as long as they are no more than its rows. -/
namespace HollowGrid.Keys

variable {κ : Type} [DecidableEq κ] {cap : Nat} {keys asked : List κ} {x : κ}

def insert (cap : Nat) (keys : List κ) (x : κ) : List κ :=
  if x ∈ keys then keys else if cap ≤ keys.length then keys else keys ++ [x]

def table (cap : Nat) (asked : List κ) : List κ := asked.foldl (insert cap) []

theorem table_snoc (cap : Nat) (asked : List κ) (x : κ) :
    table cap (asked ++ [x]) = insert cap (table cap asked) x := by
  rw [table, List.foldl_append]
  rfl

theorem distinct_le (among : ∀ x ∈ keys, x ∈ asked) :
    keys.dedup.length ≤ asked.dedup.length := by
  refine (keys.nodup_dedup.subperm fun x member => ?_).length_le
  exact List.mem_dedup.mpr (among x (List.mem_dedup.mp member))

theorem room_left (nodup : keys.Nodup) (same : ∀ x, x ∈ keys ↔ x ∈ asked) (new : x ∉ keys)
    (fits : (asked ++ [x]).dedup.length ≤ cap) : keys.length < cap := by
  have both : (x :: keys).Nodup := List.nodup_cons.mpr ⟨new, nodup⟩
  have among : ∀ y ∈ x :: keys, y ∈ asked ++ [x] := by
    intro y member
    rcases List.mem_cons.mp member with rfl | held
    · simp
    · exact List.mem_append_left _ ((same y).mp held)
  have short := distinct_le among
  rw [both.dedup, List.length_cons] at short
  omega

theorem table_holds (fits : asked.dedup.length ≤ cap) :
    (table cap asked).Nodup ∧ ∀ x, x ∈ table cap asked ↔ x ∈ asked := by
  induction asked using List.reverseRecOn with
  | nil => exact ⟨List.nodup_nil, fun x => Iff.rfl⟩
  | append_singleton asked y ih =>
    have before : asked.dedup.length ≤ cap :=
      Nat.le_trans (distinct_le fun x member => List.mem_append_left [y] member) fits
    obtain ⟨nodup, same⟩ := ih before
    rw [table_snoc, insert]
    by_cases held : y ∈ table cap asked
    · rw [if_pos held]
      refine ⟨nodup, fun x => (same x).trans ?_⟩
      have known := (same y).mp held
      constructor
      · exact fun member => List.mem_append_left _ member
      · intro member
        rcases List.mem_append.mp member with earlier | last
        · exact earlier
        · exact List.mem_singleton.mp last ▸ known
    · have room := room_left nodup same held fits
      rw [if_neg held, if_neg (by omega)]
      refine ⟨?_, fun x => ?_⟩
      · exact List.nodup_append.mpr ⟨nodup, by simp, by grind⟩
      · simp only [List.mem_append, same x]

theorem next_placed (fits : (asked ++ [x]).dedup.length ≤ cap) :
    x ∈ table cap asked ∨ (table cap asked).length < cap := by
  have before : asked.dedup.length ≤ cap :=
    Nat.le_trans (distinct_le fun y member => List.mem_append_left [x] member) fits
  obtain ⟨nodup, same⟩ := table_holds before
  by_cases held : x ∈ table cap asked
  · exact .inl held
  · exact .inr (room_left nodup same held fits)

end HollowGrid.Keys
