import Mathlib.Algebra.BigOperators.Group.Finset.Basic
import Mathlib.Algebra.Order.Group.Multiset
import Mathlib.Tactic.Abel

/-! Holdings: what each of finitely many owners has, and a transfer between two of them. -/
namespace HollowGrid

variable {ι α : Type} [DecidableEq ι]

/-- All that the owners of a set have. -/
def holdings (owners : Finset ι) (held : ι → List α) : Multiset α :=
  ∑ d ∈ owners, (held d : Multiset α)

/-- One thing goes from one owner to another, and nothing else moves. -/
structure Transfer (held held' : ι → List α) (c d : ι) (i : Nat) (item : α) : Prop where
  apart : d ≠ c
  had : (held c)[i]? = some item
  gave : held' c = (held c).eraseIdx i
  got : held' d = held d ++ [item]
  others : ∀ k, k ≠ c → k ≠ d → held' k = held k

omit [DecidableEq ι] in
theorem holdings_same {owners : Finset ι} {held held' : ι → List α} (same : ∀ k, held' k = held k) :
    holdings owners held' = holdings owners held :=
  Finset.sum_congr rfl fun k _ => congrArg _ (same k)

theorem erased_part {l : List α} {i : Nat} {item : α} (had : l[i]? = some item) :
    (l : Multiset α) = item ::ₘ (l.eraseIdx i : Multiset α) := by
  obtain ⟨inside, same⟩ := List.getElem?_eq_some_iff.mp had
  subst same
  exact (Multiset.coe_eq_coe.mpr (List.getElem_cons_eraseIdx_perm inside)).symm

/-- A transfer between two owners leaves what all have together. -/
theorem Transfer.conserves {owners : Finset ι} {held held' : ι → List α} {c d : ι} {i : Nat}
    {item : α} (moved : Transfer held held' c d i item) (giver : c ∈ owners) (taker : d ∈ owners) :
    holdings owners held' = holdings owners held := by
  have inner : d ∈ owners.erase c := Finset.mem_erase.mpr ⟨moved.apart, taker⟩
  have rest : ∑ k ∈ (owners.erase c).erase d, (held' k : Multiset α) =
      ∑ k ∈ (owners.erase c).erase d, (held k : Multiset α) := by
    refine Finset.sum_congr rfl fun k member => ?_
    have not_taker := (Finset.mem_erase.mp member).1
    have not_giver := (Finset.mem_erase.mp (Finset.mem_erase.mp member).2).1
    rw [moved.others k not_giver not_taker]
  unfold holdings
  rw [← Finset.add_sum_erase _ _ giver, ← Finset.add_sum_erase _ _ inner,
    ← Finset.add_sum_erase owners (fun k => (held k : Multiset α)) giver,
    ← Finset.add_sum_erase _ (fun k => (held k : Multiset α)) inner, rest, moved.gave, moved.got,
    erased_part moved.had, ← Multiset.coe_add, ← Multiset.singleton_add, Multiset.coe_singleton]
  abel

end HollowGrid
