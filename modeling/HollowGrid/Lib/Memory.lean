import HollowGrid.Lib.Bytes
import Mathlib.Algebra.Order.Group.Nat
import Mathlib.Data.List.GetD

/-! Byte memory: a store of bytes, the C string and the quadword at an address, and
what a store leaves of each. -/
namespace HollowGrid

abbrev Memory := Nat → UInt8

def quad (n : Int) : Bytes :=
  (List.range 8).map fun i => UInt8.ofNat ((n % 18446744073709551616).toNat / 256 ^ i % 256)

namespace Memory

/-- The bytes go to the address and on from there. -/
def store (m : Memory) (a : Nat) (b : Bytes) : Memory :=
  fun i => if a ≤ i ∧ i < a + b.length then b.getD (i - a) 0 else m i

/-- strncpy(dst, src, n), which pads with NULs. -/
def strncpy (m : Memory) (dst : Nat) (src : Bytes) (n : Nat) : Memory :=
  m.store dst (src.take n ++ List.replicate (n - src.length) 0)

def bytesAt (m : Memory) (a n : Nat) : Bytes := (List.range n).map fun i => m (a + i)

/-- The C string in a field of the given size. -/
def textAt (m : Memory) (a cap : Nat) : Bytes := cstr (m.bytesAt a cap)

/-- A NUL stands within the field. -/
def Terminated (m : Memory) (a cap : Nat) : Prop := ∃ i < cap, m (a + i) = 0

def wordAt (m : Memory) (a : Nat) : Nat :=
  (m a).toNat + 256 * ((m (a + 1)).toNat + 256 * ((m (a + 2)).toNat + 256 * ((m (a + 3)).toNat +
    256 * ((m (a + 4)).toNat + 256 * ((m (a + 5)).toNat + 256 * ((m (a + 6)).toNat +
      256 * (m (a + 7)).toNat))))))

def quadAt (m : Memory) (a : Nat) : Int :=
  if m.wordAt a < 9223372036854775808 then m.wordAt a else m.wordAt a - 18446744073709551616

/-- The two memories have the same bytes in a region. -/
def Agree (m m' : Memory) (a n : Nat) : Prop := ∀ i, a ≤ i → i < a + n → m i = m' i

def Apart (r s : Nat × Nat) : Prop := r.1 + r.2 ≤ s.1 ∨ s.1 + s.2 ≤ r.1

instance (r s : Nat × Nat) : Decidable (Apart r s) := inferInstanceAs (Decidable (_ ∨ _))

variable {m m' : Memory} {a cap : Nat} {b : Bytes}

theorem store_outside {i : Nat} (out : i < a ∨ a + b.length ≤ i) : m.store a b i = m i := by
  refine if_neg ?_
  omega

theorem store_inside {i : Nat} (inside : i < b.length) : m.store a b (a + i) = b[i] := by
  rw [store, if_pos ⟨Nat.le_add_right a i, Nat.add_lt_add_left inside a⟩, Nat.add_sub_cancel_left,
    List.getD_eq_getElem _ _ inside]

@[simp]
theorem store_nil (m : Memory) (a : Nat) : m.store a [] = m := by
  funext i
  exact store_outside (by simp; omega)

theorem store_append (m : Memory) (a : Nat) (b c : Bytes) :
    (m.store a b).store (a + b.length) c = m.store a (b ++ c) := by
  funext i
  simp only [store, List.length_append]
  by_cases front : i < a + b.length
  · rw [if_neg (by omega)]
    split
    · rw [if_pos (by omega), List.getD_append _ _ _ _ (by omega)]
    · rw [if_neg (by omega)]
  · by_cases back : i < a + b.length + c.length
    · rw [if_pos (by omega), if_pos (by omega), List.getD_append_right _ _ _ _ (by omega)]
      congr 1
      omega
    · rw [if_neg (by omega), if_neg (by omega), if_neg (by omega)]

theorem store_agrees (same : Agree m m' a cap) (c : Nat) :
    Agree (m.store c b) (m'.store c b) a cap := by
  intro i low high
  simp only [store, same i low high]

theorem store_apart {c n : Nat} (apart : Apart (c, n) (a, b.length)) :
    Agree (m.store a b) m c n := by
  intro i low high
  refine store_outside ?_
  rcases apart with before | behind
  · exact .inl (Nat.lt_of_lt_of_le high before)
  · exact .inr (Nat.le_trans behind low)

theorem Agree.trans {m'' : Memory} {c n : Nat} (first : Agree m m' c n)
    (second : Agree m' m'' c n) : Agree m m'' c n :=
  fun i low high => (first i low high).trans (second i low high)

theorem bytes_congr (same : Agree m m' a cap) : m.bytesAt a cap = m'.bytesAt a cap := by
  refine List.map_congr_left fun i member => same _ (Nat.le_add_right a i) ?_
  exact Nat.add_lt_add_left (List.mem_range.mp member) a

theorem text_congr (same : Agree m m' a cap) : m.textAt a cap = m'.textAt a cap :=
  congrArg cstr (bytes_congr same)

theorem terminated_congr (same : Agree m m' a cap) (ended : m'.Terminated a cap) :
    m.Terminated a cap := by
  obtain ⟨i, short, zero⟩ := ended
  refine ⟨i, short, ?_⟩
  rw [same _ (Nat.le_add_right a i) (Nat.add_lt_add_left short a), zero]

theorem word_congr (same : Agree m m' a 8) : m.wordAt a = m'.wordAt a := by
  have at_byte (i : Nat) (small : i < 8) : m (a + i) = m' (a + i) :=
    same _ (Nat.le_add_right a i) (Nat.add_lt_add_left small a)
  have first : m a = m' a := at_byte 0 (by omega)
  simp only [wordAt, first, at_byte 1 (by omega), at_byte 2 (by omega), at_byte 3 (by omega),
    at_byte 4 (by omega), at_byte 5 (by omega), at_byte 6 (by omega), at_byte 7 (by omega)]

theorem word_zeros (zeros : ∀ i < 8, m (a + i) = 0) : m.wordAt a = 0 := by
  have first : m a = 0 := zeros 0 (by omega)
  simp [wordAt, first, zeros 1 (by omega), zeros 2 (by omega), zeros 3 (by omega),
    zeros 4 (by omega), zeros 5 (by omega), zeros 6 (by omega), zeros 7 (by omega)]

theorem quad_congr (same : Agree m m' a 8) : m.quadAt a = m'.quadAt a := by
  simp only [quadAt, word_congr same]

/-- A field that takes a string and its NUL is terminated. -/
theorem terminated_store (short : b.length < cap) : (m.store a (b ++ [0])).Terminated a cap := by
  refine ⟨b.length, short, ?_⟩
  have bound : b.length < (b ++ [0]).length := by simp
  have last : (m.store a (b ++ [0])) (a + b.length) = (b ++ [0])[b.length] := store_inside bound
  rw [last]
  simp

theorem terminated_zeros (n : Nat) (some_byte : 0 < cap) (fits : cap ≤ n) :
    (m.store a (List.replicate n 0)).Terminated a cap := by
  refine ⟨0, some_byte, ?_⟩
  rw [store_inside (by simp; omega)]
  simp

/-- What a store of a string with its NUL reads back as. -/
theorem text_store (whole : 0 ∉ b) (short : b.length < cap) :
    (m.store a (b ++ [0])).textAt a cap = b := by
  have front : (m.store a (b ++ [0])).bytesAt a cap =
      (b ++ [0]) ++ ((m.store a (b ++ [0])).bytesAt a cap).drop (b.length + 1) := by
    have taken : ((m.store a (b ++ [0])).bytesAt a cap).take (b.length + 1) = b ++ [0] := by
      refine List.ext_getElem (by simp [bytesAt]; omega) fun i left right => ?_
      rw [List.getElem_take]
      simp only [bytesAt, List.getElem_map, List.getElem_range]
      exact store_inside right
    exact (List.take_append_drop (b.length + 1) _).symm.trans (by rw [taken])
  have body : b.takeWhile (· ≠ 0) = b := cstr_whole whole
  rw [textAt, front, cstr, List.append_assoc,
    List.takeWhile_append_of_pos (List.takeWhile_eq_self_iff.mp body)]
  simp

theorem text_nil (first : m a = 0) : m.textAt a cap = [] := by
  cases cap with
  | zero => rfl
  | succ cap => simp [textAt, bytesAt, List.range_succ_eq_map, cstr, first]

theorem quad_length (n : Int) : (quad n).length = 8 := by simp [quad]

theorem word_store (n : Int) :
    (m.store a (quad n)).wordAt a = (n % 18446744073709551616).toNat := by
  have at_byte (i : Nat) (small : i < 8) : ((m.store a (quad n)) (a + i)).toNat =
      (n % 18446744073709551616).toNat / 256 ^ i % 256 := by
    rw [store_inside (by rw [quad_length]; exact small)]
    simp [quad]
  have first : ((m.store a (quad n)) a).toNat = (n % 18446744073709551616).toNat % 256 := by
    simpa using at_byte 0 (by omega)
  simp only [wordAt, first, at_byte 1 (by omega), at_byte 2 (by omega), at_byte 3 (by omega),
    at_byte 4 (by omega), at_byte 5 (by omega), at_byte 6 (by omega), at_byte 7 (by omega)]
  omega

/-- A quadword that a register stored reads back as the register. -/
theorem quad_store {n : Int} (low : -9223372036854775808 ≤ n) (high : n ≤ 9223372036854775807) :
    (m.store a (quad n)).quadAt a = n := by
  rw [quadAt, word_store]
  split <;> omega

section Copying

variable {src : Bytes} {dst n i : Nat}

theorem strncpy_length : (src.take n ++ List.replicate (n - src.length) 0).length = n := by
  simp
  omega

theorem strncpy_inside (inside : i < n) : strncpy m dst src n (dst + i) = src.getD i 0 := by
  rw [strncpy, store_inside (by rw [strncpy_length]; exact inside)]
  by_cases held : i < src.length
  · rw [List.getElem_append_left (by simp; omega), List.getElem_take, List.getD_eq_getElem _ _ held]
  · rw [List.getElem_append_right (by simp; omega), List.getElem_replicate,
      List.getD_eq_default _ _ (by omega)]

theorem strncpy_outside (out : i < dst ∨ dst + n ≤ i) : strncpy m dst src n i = m i := by
  rw [strncpy]
  exact store_outside (by rw [strncpy_length]; exact out)

theorem strncpy_apart {c k : Nat} (apart : Apart (c, k) (dst, n)) :
    Agree (strncpy m dst src n) m c k :=
  store_apart (by rw [strncpy_length]; exact apart)

theorem ended_byte (t : Bytes) (i : Nat) : t.getD i 0 = (t ++ [0]).getD i 0 := by
  rw [List.getD_eq_getElem?_getD, List.getD_eq_getElem?_getD, List.getElem?_append]
  grind

/-- A field whose bytes are those of a string with NULs behind reads as the string. -/
theorem text_of_bytes (whole : 0 ∉ b) (short : b.length < cap)
    (bytes : ∀ i < cap, m (a + i) = b.getD i 0) : m.textAt a cap = b := by
  have same : Agree m (m.store a (b ++ [0])) a cap := by
    intro c low high
    obtain ⟨i, rfl⟩ := Nat.exists_eq_add_of_le low
    rw [bytes i (by omega), store]
    split
    · rw [Nat.add_sub_cancel_left, ended_byte]
    · exact (bytes i (by omega)).symm
  exact (text_congr same).trans (text_store whole short)

theorem strncpy_text (whole : 0 ∉ src) (short : src.length < n) :
    (strncpy m dst src n).textAt dst n = src :=
  text_of_bytes whole short fun _ inside => strncpy_inside inside

end Copying

end Memory

end HollowGrid
