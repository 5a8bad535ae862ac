import HollowGrid.Lib.Memory

/-! A memory with the list of the stores made to it, and C strings in it. -/
namespace HollowGrid

namespace Memory

/-- The bytes before the first NUL from the address on, as far as the fuel goes. -/
def scan (m : Memory) : Nat → Nat → Nat
  | 0, _ => 0
  | fuel + 1, a => if m a = 0 then 0 else scan m fuel (a + 1) + 1

/-- strlen, where addresses have 64 bits. -/
def strlen (m : Memory) (a : Nat) : Nat := m.scan 18446744073709551616 a

/-- The string stands at the address, and its NUL behind it. -/
structure CString (m : Memory) (a : Nat) (b : Bytes) : Prop where
  whole : 0 ∉ b
  held : ∀ i ≤ b.length, m (a + i) = b.getD i 0

variable {m : Memory} {a : Nat} {b c : Bytes}

theorem scan_length {fuel n : Nat} (front : ∀ i < n, m (a + i) ≠ 0) (ends : m (a + n) = 0)
    (short : n < fuel) : m.scan fuel a = n := by
  induction n generalizing a fuel with
  | zero =>
    obtain ⟨fuel, rfl⟩ := Nat.exists_eq_succ_of_ne_zero (Nat.ne_of_gt short)
    exact if_pos ends
  | succ n ih =>
    obtain ⟨fuel, rfl⟩ := Nat.exists_eq_succ_of_ne_zero (Nat.ne_zero_of_lt short)
    have first : m a ≠ 0 := front 0 (Nat.succ_pos n)
    rw [scan, if_neg first, ih (a := a + 1) _ _ (Nat.lt_of_succ_lt_succ short)]
    · intro i inside
      rw [Nat.add_right_comm, Nat.add_assoc]
      exact front (i + 1) (Nat.succ_lt_succ inside)
    · rw [Nat.add_right_comm, Nat.add_assoc]
      exact ends

theorem strlen_string (string : m.CString a b) (short : b.length < 18446744073709551616) :
    m.strlen a = b.length := by
  refine scan_length (fun i inside zero => string.whole ?_) ?_ short
  · rw [string.held i inside.le, List.getD_eq_getElem _ _ inside] at zero
    exact zero ▸ List.getElem_mem inside
  · rw [string.held _ le_rfl, List.getD_eq_default _ _ le_rfl]

theorem string_over (string : m.CString a b) (whole : 0 ∉ c) :
    (m.store (a + b.length) (c ++ [0])).CString a (b ++ c) where
  whole := by simp [string.whole, whole]
  held := by
    intro i inside
    rw [List.length_append] at inside
    by_cases front : i < b.length
    · rw [store_outside (.inl (Nat.add_lt_add_left front a)), string.held i front.le,
        List.getD_append _ _ _ _ front]
    · obtain ⟨k, rfl⟩ := Nat.exists_eq_add_of_le (Nat.le_of_not_lt front)
      have back : k < (c ++ [0]).length := by
        rw [List.length_append, List.length_singleton]
        omega
      rw [← Nat.add_assoc, store_inside back, List.getD_append_right _ _ _ _ (Nat.le_add_right _ _),
        Nat.add_sub_cancel_left, ended_byte, List.getD_eq_getElem _ _ back]

theorem string_store (m : Memory) (a : Nat) (whole : 0 ∉ b) :
    (m.store a (b ++ [0])).CString a b where
  whole := whole
  held := by
    intro i inside
    have bound : i < (b ++ [0]).length := by
      rw [List.length_append, List.length_singleton]
      omega
    rw [store_inside bound, ended_byte, List.getD_eq_getElem _ _ bound]

end Memory

/-- The memory, the stores made to it, and how often strlen has run. -/
structure Ram where
  memory : Memory
  stores : List (Nat × Bytes)
  scans : Nat

namespace Ram

def fresh (m : Memory) : Ram := ⟨m, [], 0⟩

def put (r : Ram) (a : Nat) (b : Bytes) : Ram :=
  { r with memory := r.memory.store a b, stores := r.stores ++ [(a, b)] }

def scanned (r : Ram) : Ram := { r with scans := r.scans + 1 }

def Inside (r : Ram) (a n : Nat) : Prop :=
  ∀ store ∈ r.stores, a ≤ store.1 ∧ store.1 + store.2.length ≤ a + n

variable {r : Ram} {a n at_byte : Nat} {b : Bytes}

theorem inside_put : (r.put at_byte b).Inside a n ↔
    r.Inside a n ∧ a ≤ at_byte ∧ at_byte + b.length ≤ a + n := by
  simp only [Inside, put, List.forall_mem_append, List.forall_mem_singleton]

theorem inside_scanned : r.scanned.Inside a n ↔ r.Inside a n := Iff.rfl

theorem inside_fresh (m : Memory) : (fresh m).Inside a n := by simp [Inside, fresh]

end Ram

end HollowGrid
