import Mathlib.Logic.Function.Basic
import Mathlib.Logic.Relation

/-! Records under keys, each lent to one holder at a time. A record at rest stays as it is. Its
holder may change it, and gives it back as it left it. -/
namespace HollowGrid

/-- The records there are, and which of them are lent. -/
structure Archive (κ π : Type) where
  record : κ → Option π
  lent : κ → Prop

namespace Archive

variable {κ π : Type} {a b : Archive κ π} {k : κ}

/-- A move of an archive: it rests, a record is lent, opened or given back, or the holders work
on the records they have. -/
inductive Move (a b : Archive κ π) : Prop
  | rests : b.record = a.record → (∀ l, b.lent l ↔ a.lent l) → Move a b
  | lends (k : κ) : ¬a.lent k → a.record k ≠ none → b.record = a.record →
      (∀ l, b.lent l ↔ l = k ∨ a.lent l) → Move a b
  | opens (k : κ) : ¬a.lent k → a.record k = none → b.record k ≠ none →
      (∀ l, l ≠ k → b.record l = a.record l) → (∀ l, b.lent l ↔ l = k ∨ a.lent l) → Move a b
  | works : (∀ l, ¬a.lent l → b.record l = a.record l) → (∀ l, a.lent l → b.record l ≠ none) →
      (∀ l, b.lent l ↔ a.lent l) → Move a b
  | returns (k : κ) : a.lent k → b.record = a.record → (∀ l, b.lent l ↔ l ≠ k ∧ a.lent l) →
      Move a b

theorem Move.kept (move : Move a b) (there : a.record k ≠ none) : b.record k ≠ none := by
  cases move with
  | rests same => rwa [same]
  | lends _ _ _ same => rwa [same]
  | opens l _ none _ others =>
    have other : k ≠ l := fun own => there (own ▸ none)
    rwa [others k other]
  | works home out =>
    by_cases lent : a.lent k
    · exact out k lent
    · rwa [home k lent]
  | returns _ _ same => rwa [same]

theorem Move.changed (move : Move a b) (changed : b.record k ≠ a.record k) :
    b.lent k ∧ (a.lent k ∨ a.record k = none) := by
  cases move with
  | rests same => exact absurd (congrFun same k) changed
  | lends _ _ _ same => exact absurd (congrFun same k) changed
  | opens l _ none _ others lent =>
    by_cases own : k = l
    · subst own
      exact ⟨(lent k).mpr (.inl rfl), .inr none⟩
    · exact absurd (others k own) changed
  | works home _ lent =>
    by_cases out : a.lent k
    · exact ⟨(lent k).mpr out, .inl out⟩
    · exact absurd (home k out) changed
  | returns _ _ same => exact absurd (congrFun same k) changed

theorem Move.same (move : Move a b) (handed : ¬(a.lent k ∧ b.lent k)) (there : a.record k ≠ none) :
    b.record k = a.record k := by
  by_contra changed
  obtain ⟨out, before⟩ := move.changed changed
  rcases before with held | none
  · exact handed ⟨held, out⟩
  · exact there none

theorem moves_kept (moves : Relation.ReflTransGen Move a b) (there : a.record k ≠ none) :
    b.record k ≠ none := by
  induction moves with
  | refl => exact there
  | tail _ move ih => exact move.kept ih

end Archive

end HollowGrid
