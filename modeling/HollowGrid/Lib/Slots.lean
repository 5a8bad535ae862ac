import Mathlib.Data.List.Perm.Basic
import Mathlib.Data.List.ReduceOption

/-! Tables of a fixed number of slots, each empty or with one entry. The entries are the
list without its empty slots. -/
namespace HollowGrid.Slots

variable {α : Type} {table : List (Option α)} {i j : Nat} {a : α}

theorem split_at (at_slot : table[i]? = some none ∨ table[i]? = some (some a)) (x : Option α) :
    table.set i x = table.take i ++ x :: table.drop (i + 1) := by
  rw [List.set_eq_take_append_cons_drop, if_pos]
  rcases at_slot with h | h
  · exact (List.getElem?_eq_some_iff.mp h).1
  · exact (List.getElem?_eq_some_iff.mp h).1

theorem set_same {x : Option α} (held : table[i]? = some x) : table.set i x = table := by
  refine List.ext_getElem? fun k => ?_
  rw [List.getElem?_set]
  split
  · rename_i same
    subst same
    rw [held, if_pos (List.getElem?_eq_some_iff.mp held).1]
  · rfl

theorem fill (free : table[i]? = some none) :
    (table.set i (some a)).reduceOption.Perm (a :: table.reduceOption) := by
  have whole : table = table.take i ++ none :: table.drop (i + 1) :=
    (set_same free).symm.trans (split_at (a := a) (.inl free) none)
  rw [split_at (a := a) (.inl free)]
  conv_rhs => rw [whole]
  simp only [List.reduceOption_append, List.reduceOption_cons_of_some,
    List.reduceOption_cons_of_none]
  exact List.perm_middle

theorem clear (held : table[i]? = some (some a)) :
    table.reduceOption.Perm (a :: (table.set i none).reduceOption) := by
  have whole : table = table.take i ++ some a :: table.drop (i + 1) :=
    (set_same held).symm.trans (split_at (.inr held) (some a))
  rw [split_at (.inr held)]
  conv_lhs => rw [whole]
  simp only [List.reduceOption_append, List.reduceOption_cons_of_some,
    List.reduceOption_cons_of_none]
  exact List.perm_middle

theorem once (distinct : table.reduceOption.Nodup) (first : table[i]? = some (some a))
    (second : table[j]? = some (some a)) : i = j := by
  by_contra apart
  have fresh : a ∉ (table.set i none).reduceOption :=
    (List.nodup_cons.mp ((clear first).nodup_iff.mp distinct)).1
  refine fresh (List.reduceOption_mem_iff.mpr (List.mem_of_getElem? (i := j) ?_))
  rw [List.getElem?_set_ne apart]
  exact second

end HollowGrid.Slots
