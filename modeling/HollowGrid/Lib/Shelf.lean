import Mathlib.Data.List.Basic

/-! Tables of fixed size that keep the newest entries. A shelf moves its entries up by one slot
and puts the new one in front. A ring puts it over the oldest. -/
namespace HollowGrid

variable {α : Type}

/-- The slots of a table and how many of them are in use. -/
structure Shelf (α : Type) where
  slots : List α
  count : Nat

namespace Shelf

/-- From the given slot down to the first, each takes what the one before it has. none is a slot
outside the table. -/
def shift : Nat → List α → Option (List α)
  | 0, slots => some slots
  | i + 1, slots =>
    match slots[i]? with
    | some a => if i + 1 < slots.length then shift i (slots.set (i + 1) a) else none
    | none => none

def push (cap : Nat) (shelf : Shelf α) (a : α) : Option (Shelf α) :=
  (shift (if shelf.count < cap then shelf.count else cap - 1) shelf.slots).bind fun moved =>
    if 0 < moved.length then
      some ⟨moved.set 0 a, if shelf.count < cap then shelf.count + 1 else shelf.count⟩
    else none

def rows (shelf : Shelf α) : List α := shelf.slots.take shelf.count

structure Newest (cap : Nat) (shelf : Shelf α) (history : List α) : Prop where
  sized : shelf.slots.length = cap
  used : shelf.count ≤ cap
  rows : shelf.rows = history.reverse.take cap

theorem shift_moves (n : Nat) (slots : List α) (within : n < slots.length) :
    shift n slots = some (slots.take 1 ++ (slots.take n ++ slots.drop (n + 1))) := by
  induction n generalizing slots with
  | zero =>
    cases slots with
    | nil => cases within
    | cons a rest => simp [shift]
  | succ i ih =>
    have before : i < slots.length := by omega
    rw [shift, List.getElem?_eq_getElem before]
    simp only [if_pos within]
    rw [ih _ (by simpa using before)]
    have front : (slots.set (i + 1) slots[i]).take 1 = slots.take 1 := by
      rw [List.take_set_of_le (by omega)]
    have middle : (slots.set (i + 1) slots[i]).take i = slots.take i := by
      rw [List.take_set_of_le (by omega)]
    have back : (slots.set (i + 1) slots[i]).drop (i + 1) = slots[i] :: slots.drop (i + 2) := by
      rw [List.drop_eq_getElem_cons (by simpa using within), List.getElem_set_self,
        List.drop_set_of_lt (by omega)]
    rw [front, middle, back, List.take_succ_eq_append_getElem before, List.append_assoc,
      List.singleton_append]

theorem shift_front {n : Nat} {slots : List α} (within : n < slots.length) (a : α) :
    (shift n slots).map (fun moved => moved.set 0 a) =
      some (a :: (slots.take n ++ slots.drop (n + 1))) := by
  rw [shift_moves n slots within]
  cases slots with
  | nil => cases within
  | cons b rest => simp

theorem newest_cleared (cap : Nat) (a : α) : Newest cap ⟨List.replicate cap a, 0⟩ [] :=
  ⟨List.length_replicate .., Nat.zero_le cap, by simp [rows]⟩

/-- A new entry goes to the front, and with no slot left the oldest is gone. -/
theorem newest_push {cap : Nat} {shelf : Shelf α} {history : List α} (room : 0 < cap)
    (newest : Newest cap shelf history) (a : α) :
    ∃ next, push cap shelf a = some next ∧ Newest cap next (history ++ [a]) := by
  obtain ⟨slots, count⟩ := shelf
  obtain ⟨sized, used, kept⟩ := newest
  simp only [rows] at sized used kept
  have within : (if count < cap then count else cap - 1) < slots.length := by
    split
    · omega
    · omega
  have moved := shift_front within a
  obtain ⟨shifted, found, front⟩ := Option.map_eq_some_iff.mp moved
  have some_slot : 0 < shifted.length := by
    have whole := congrArg List.length front
    simp only [List.length_set, List.length_cons] at whole
    omega
  refine ⟨⟨shifted.set 0 a, if count < cap then count + 1 else count⟩, ?_, ?_, ?_, ?_⟩
  · simp only [push, found, Option.bind_some, if_pos some_slot]
  · have whole := congrArg List.length front
    simp only [List.length_cons, List.length_append, List.length_take, List.length_drop] at whole
    simp only [whole]
    omega
  · simp only
    split
    · omega
    · exact used
  · simp only [rows]
    rw [front, List.reverse_append, List.reverse_singleton, List.singleton_append]
    obtain ⟨last, rfl⟩ : ∃ last, cap = last + 1 := ⟨cap - 1, by omega⟩
    rw [List.take_succ_cons]
    have older : history.reverse.take last = (slots.take count).take last := by
      rw [kept, List.take_take, Nat.min_eq_left (Nat.le_succ last)]
    rw [older, List.take_take]
    by_cases free : count < last + 1
    · simp only [if_pos free, List.take_succ_cons]
      rw [List.take_left' (by rw [List.length_take]; omega), Nat.min_eq_right (by omega)]
    · have full : count = last + 1 := by omega
      simp only [full, Nat.lt_irrefl, if_false, List.take_succ_cons, Nat.add_sub_cancel]
      rw [List.take_left' (by rw [List.length_take]; omega), Nat.min_eq_left (by omega)]

end Shelf

namespace Ring

/-- The ring has the newest entries of a history, entry i in slot i modulo its size. -/
structure Newest (cap : Nat) (slots : List α) (count : Nat) (history : List α) : Prop where
  sized : slots.length = cap
  used : count = min history.length cap
  held : ∀ i, i < history.length → history.length ≤ i + cap → slots[i % cap]? = history[i]?

theorem newest_cleared (cap : Nat) (a : α) : Newest cap (List.replicate cap a) 0 [] :=
  ⟨List.length_replicate .., (Nat.zero_min cap).symm, nofun⟩

theorem slot_apart {cap i j : Nat} (later : i < j) (near : j < i + cap) : i % cap ≠ j % cap := by
  intro same
  have whole := Nat.sub_mod_eq_zero_of_mod_eq same.symm
  rw [Nat.mod_eq_of_lt (by omega)] at whole
  omega

theorem newest_put {cap count : Nat} {slots history : List α} (room : 0 < cap)
    (newest : Newest cap slots count history) (a : α) :
    Newest cap (slots.set (history.length % cap) a) (if count < cap then count + 1 else count)
      (history ++ [a]) where
  sized := by rw [List.length_set, newest.sized]
  used := by
    have used := newest.used
    simp only [List.length_append, List.length_singleton]
    split
    · omega
    · omega
  held := by
    intro i within near
    simp only [List.length_append, List.length_singleton] at within near
    rcases Nat.lt_or_eq_of_le (Nat.le_of_lt_succ within) with older | rfl
    · rw [List.getElem?_set_ne (slot_apart older (by omega)).symm,
        List.getElem?_append_left older]
      exact newest.held i older (by omega)
    · have slot : history.length % cap < slots.length := by
        rw [newest.sized]
        exact Nat.mod_lt _ room
      rw [List.getElem?_set_self slot, List.getElem?_concat_length]

theorem newest_slot {cap count : Nat} {slots history : List α}
    (newest : Newest cap slots count history) {slot : Nat} (within : slot < count) :
    ∃ i, i < history.length ∧ history.length ≤ i + cap ∧ i % cap = slot := by
  have used := newest.used
  have small : slot < cap := by omega
  -- the last number below the length of the history that falls on the slot
  refine ⟨slot + cap * ((history.length - 1 - slot) / cap), ?_, ?_, ?_⟩
  · have whole := Nat.mul_div_le (history.length - 1 - slot) cap
    omega
  · have next := Nat.lt_mul_div_succ (history.length - 1 - slot) (Nat.zero_lt_of_lt small)
    rw [Nat.mul_add] at next
    omega
  · rw [Nat.add_mul_mod_self_left, Nat.mod_eq_of_lt small]

/-- Until the ring is full its entries stand in order. -/
theorem newest_short {cap count : Nat} {slots history : List α}
    (newest : Newest cap slots count history) (short : history.length ≤ cap) :
    slots.take count = history := by
  have used := newest.used
  refine List.ext_getElem? fun i => ?_
  rw [List.getElem?_take]
  by_cases within : i < history.length
  · have held := newest.held i within (by omega)
    rw [Nat.mod_eq_of_lt (by omega)] at held
    rw [if_pos (by omega), held]
  · rw [if_neg (by omega), List.getElem?_eq_none (Nat.le_of_not_lt within)]

/-- After that, the entries of the last turn stand before what is left of the turn before. -/
theorem newest_full {cap count : Nat} {slots history : List α} (room : 0 < cap)
    (newest : Newest cap slots count history) (full : cap ≤ history.length) :
    slots.take count = history.drop (history.length - history.length % cap) ++
      (history.drop (history.length - cap)).take (cap - history.length % cap) := by
  have used := newest.used
  have sized := newest.sized
  have small := Nat.mod_lt history.length room
  have front : (history.drop (history.length - history.length % cap)).length =
      history.length % cap := by
    rw [List.length_drop]
    omega
  have turns := Nat.div_add_mod history.length cap
  have whole : 1 ≤ history.length / cap := (Nat.one_le_div_iff room).mpr full
  refine List.ext_getElem? fun i => ?_
  rw [List.getElem?_take, List.getElem?_append, front]
  by_cases last : i < history.length % cap
  · have number : history.length - history.length % cap + i =
        i + cap * (history.length / cap) := by omega
    have held := newest.held (i + cap * (history.length / cap)) (by omega) (by omega)
    rw [Nat.add_mul_mod_self_left, Nat.mod_eq_of_lt (by omega)] at held
    rw [if_pos (by omega), if_pos last, List.getElem?_drop, number, held]
  · rw [if_neg last, List.getElem?_take]
    by_cases within : i < cap
    · obtain ⟨earlier, before⟩ : ∃ n, history.length / cap = n + 1 :=
        ⟨history.length / cap - 1, by omega⟩
      rw [before, Nat.mul_add, Nat.mul_one] at turns
      have number : history.length - cap + (i - history.length % cap) = i + cap * earlier := by
        omega
      have held := newest.held (i + cap * earlier) (by omega) (by omega)
      rw [Nat.add_mul_mod_self_left, Nat.mod_eq_of_lt within] at held
      rw [if_pos (by omega), if_pos (by omega), List.getElem?_drop, number, held]
    · rw [if_neg (by omega), if_neg (by omega)]

end Ring

end HollowGrid
