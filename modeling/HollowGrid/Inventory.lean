import HollowGrid.Records

/-! inv_add_internal and inv_remove_slot of asm/social.asm over the bytes of a session block, with
the memcpy of the C library as a parameter. -/
namespace HollowGrid

open Memory

/-- memcpy(dst, src, n) -/
abbrev Copier := Memory → Nat → Nat → Nat → Memory

/-- What C promises of memcpy: a copy, where the two objects do not overlap. -/
def Copies (memcpy : Copier) : Prop :=
  ∀ m dst src n, Apart (dst, n) (src, n) → memcpy m dst src n = m.store dst (m.bytesAt src n)

def slotAddress (k : Nat) : Nat := sessionInventory + k * invSlotSize

def invAddInternal (m : Memory) (item : Ptr) : Memory × Int :=
  match item with
  | none => (m, -1)
  | some text =>
    if cstr text = [] then (m, -1)
    else
      let count := m.quadAt sessionInvCount
      if count < 0 then (m, -1)
      else if invSlots ≤ count then (m, -1)
      else
        let slot := slotAddress count.toNat
        let copied := (strncpy m slot (cstr text) invSlotSize).store (slot + invSlotSize - 1) [0]
        (copied.store sessionInvCount (quad (count + 1)), 0)

def invRemoveSlot (memcpy : Copier) (m : Memory) (slot : Int) : Memory × Int :=
  let count := m.quadAt sessionInvCount
  if slot < 0 then (m, -1)
  else if count ≤ slot then (m, -1)
  else
    let behind := (count - slot - 1).toNat
    let moved := if behind = 0 then m
      else memcpy m (slotAddress slot.toNat) (slotAddress slot.toNat + invSlotSize)
        (invSlotSize * behind % 4294967296)
    let counted := moved.store sessionInvCount (quad (count - 1))
    (counted.store (slotAddress (count - 1).toNat) (List.replicate invSlotSize 0), 0)

inductive InvCall
  | add (item : Ptr)
  | remove (slot : Int)
  deriving DecidableEq, Repr

def InvCall.run (memcpy : Copier) (m : Memory) : InvCall → Memory × Int
  | add item => invAddInternal m item
  | remove slot => invRemoveSlot memcpy m slot

def InvCall.apply (items : List Bytes) : InvCall → List Bytes × Int
  | add item =>
    let text := cstr (item.getD [])
    if text = [] ∨ invSlots ≤ items.length then (items, -1)
    else (items ++ [text.take (invSlotSize - 1)], 0)
  | remove slot =>
    if 0 ≤ slot ∧ slot < items.length then (items.eraseIdx slot.toNat, 0) else (items, -1)

def runCalls (memcpy : Copier) : Memory → List InvCall → Memory × List Int
  | m, [] => (m, [])
  | m, call :: rest =>
    let step := call.run memcpy m
    let done := runCalls memcpy step.1 rest
    (done.1, step.2 :: done.2)

def applyCalls : List Bytes → List InvCall → List Bytes × List Int
  | items, [] => (items, [])
  | items, call :: rest =>
    let step := call.apply items
    let done := applyCalls step.1 rest
    (done.1, step.2 :: done.2)

/-- The block holds the items: slot k the bytes of item k with NULs behind, NULs where none is. -/
structure Carries (m : Memory) (items : List Bytes) : Prop where
  count : m.quadAt sessionInvCount = items.length
  few : items.length ≤ invSlots
  strings : ∀ item ∈ items, item.length < invSlotSize ∧ 0 ∉ item
  slots : ∀ k < invSlots, ∀ i < invSlotSize,
    m (slotAddress k + i) = (items.getD k []).getD i 0

/-- A removal with at most one item behind the removed one. -/
def InvCall.Short (items : List Bytes) : InvCall → Prop
  | add _ => True
  | remove slot => 0 ≤ slot → items.length ≤ slot.toNat + 2

def ShortCalls : List Bytes → List InvCall → Prop
  | _, [] => True
  | items, call :: rest => call.Short items ∧ ShortCalls (call.apply items).1 rest

section Bytes

variable {m : Memory} {src : Bytes} {dst n i : Nat}

theorem copied_inside (from_at : Nat) (inside : i < n) :
    (m.store dst (m.bytesAt from_at n)) (dst + i) = m (from_at + i) := by
  rw [store_inside (by rw [bytesAt, List.length_map, List.length_range]; exact inside)]
  simp [bytesAt]

theorem copied_outside (from_at : Nat) (out : i < dst ∨ dst + n ≤ i) :
    (m.store dst (m.bytesAt from_at n)) i = m i :=
  store_outside (by simpa [bytesAt] using out)

theorem counted_slot (count : Int) (k i : Nat) :
    (m.store sessionInvCount (quad count)) (slotAddress k + i) = m (slotAddress k + i) := by
  refine store_outside (.inr ?_)
  simp only [quad_length, sessionInvCount, slotAddress, sessionInventory]
  omega

theorem slots_count {m' : Memory} (same : ∀ i < sessionInventory, m' i = m i) :
    m'.quadAt sessionInvCount = m.quadAt sessionInvCount := by
  refine quad_congr fun i _ high => same i ?_
  simp only [sessionInvCount, sessionInventory] at *
  omega

/-- One slot takes a string, cut to leave a NUL at its end. -/
theorem stored_slot {k : Nat} (byte : i < invSlotSize) :
    ((strncpy m (slotAddress n) src invSlotSize).store (slotAddress n + invSlotSize - 1) [0])
      (slotAddress k + i) =
    if k = n then (src.take (invSlotSize - 1)).getD i 0 else m (slotAddress k + i) := by
  simp only [slotAddress, invSlotSize] at byte ⊢
  split
  · rename_i own
    subst own
    have cut : (src.take 15).getD i 0 = if i < 15 then src.getD i 0 else 0 := by
      rw [List.getD_eq_getElem?_getD, List.getElem?_take]
      split <;> simp
    rw [cut]
    split
    · rename_i inner
      rw [store_outside (by simp; omega), strncpy_inside byte]
    · obtain rfl : i = 15 := by omega
      exact store_inside (i := 0) (b := [0]) Nat.one_pos
  · rw [store_outside (by simp; omega), strncpy_outside (by omega)]

theorem moved_slot {j k : Nat} (byte : i < invSlotSize) :
    (m.store (slotAddress k) (m.bytesAt (slotAddress k + invSlotSize) invSlotSize))
      (slotAddress j + i) =
    if j = k then m (slotAddress (k + 1) + i) else m (slotAddress j + i) := by
  split
  · rename_i own
    subst own
    rw [copied_inside _ byte]
    congr 1
    simp only [slotAddress, invSlotSize]
    omega
  · simp only [slotAddress, invSlotSize] at byte ⊢
    exact copied_outside _ (by omega)

theorem cleared_slot {j k : Nat} (byte : i < invSlotSize) :
    (m.store (slotAddress k) (List.replicate invSlotSize 0)) (slotAddress j + i) =
    if j = k then 0 else m (slotAddress j + i) := by
  split
  · rename_i own
    subst own
    rw [store_inside (by rw [List.length_replicate]; exact byte), List.getElem_replicate]
  · simp only [slotAddress, invSlotSize] at byte ⊢
    exact store_outside (by rw [List.length_replicate]; omega)

theorem text_slot {t : Bytes} {j k : Nat} (short : t.length < invSlotSize)
    (zeros : m (slotAddress k + i) = 0) (byte : i < invSlotSize) :
    (m.store (slotAddress k) (t ++ [0])) (slotAddress j + i) =
    if j = k then t.getD i 0 else m (slotAddress j + i) := by
  split
  · rename_i own
    subst own
    rw [store]
    split
    · rw [Nat.add_sub_cancel_left, ← ended_byte]
    · rename_i behind
      simp only [List.length_append, List.length_singleton] at behind
      rw [zeros, List.getD_eq_default _ _ (by omega)]
  · simp only [slotAddress, invSlotSize] at byte short ⊢
    exact store_outside (by simp; omega)

end Bytes

section Steps

variable {memcpy : Copier} {m : Memory} {items : List Bytes}

theorem appended_slot (items : List Bytes) (x : Bytes) (k : Nat) :
    (items ++ [x]).getD k [] = if k = items.length then x else items.getD k [] := by
  rw [List.getD_eq_getElem?_getD, List.getD_eq_getElem?_getD, List.getElem?_append]
  grind

theorem erased_slot (items : List Bytes) (j k : Nat) :
    (items.eraseIdx j).getD k [] = if k < j then items.getD k [] else items.getD (k + 1) [] := by
  rw [List.getD_eq_getElem?_getD, List.getElem?_eraseIdx]
  split <;> rw [List.getD_eq_getElem?_getD]

theorem add_carries (carries : Carries m items) (item : Ptr) :
    Carries (invAddInternal m item).1 ((InvCall.add item).apply items).1 ∧
      (invAddInternal m item).2 = ((InvCall.add item).apply items).2 := by
  cases item with
  | none => exact ⟨carries, rfl⟩
  | some text =>
    by_cases empty : cstr text = []
    · simpa [invAddInternal, InvCall.apply, empty] using carries
    by_cases full : invSlots ≤ items.length
    · have high : (invSlots : Int) ≤ items.length := by exact_mod_cast full
      simpa [invAddInternal, InvCall.apply, empty, full, carries.count, high] using carries
    have room : items.length < invSlots := by omega
    have low : ¬(items.length : Int) < 0 := by omega
    have some_room : ¬(invSlots : Int) ≤ items.length := by omega
    have call : invAddInternal m (some text) =
        (((strncpy m (slotAddress items.length) (cstr text) invSlotSize).store
          (slotAddress items.length + invSlotSize - 1) [0]).store sessionInvCount
            (quad (items.length + 1)), 0) := by
      simp only [invAddInternal, if_neg empty, carries.count, if_neg low, if_neg some_room,
        Int.toNat_natCast]
    have meant : (InvCall.add (some text)).apply items =
        (items ++ [(cstr text).take (invSlotSize - 1)], 0) := by
      simp [InvCall.apply, empty, full]
    rw [call, meant]
    refine ⟨⟨?_, ?_, ?_, fun k slot i byte => ?_⟩, rfl⟩
    · rw [quad_store (by omega) (by simp only [invSlots] at room; omega)]
      simp
    · simp only [List.length_append, List.length_singleton]
      omega
    · intro x member
      rcases List.mem_append.mp member with held | new
      · exact carries.strings x held
      · rw [List.mem_singleton.mp new]
        refine ⟨?_, clip_whole text _⟩
        simp only [List.length_take, invSlotSize]
        omega
    · change store _ sessionInvCount _ _ = ((items ++ _).getD k []).getD i 0
      rw [counted_slot, stored_slot byte, appended_slot]
      split
      · rfl
      · exact carries.slots k slot i byte

def shifted (m : Memory) (n k : Nat) : Memory :=
  if n = k + 2 then
    m.store (slotAddress k) (m.bytesAt (slotAddress k + invSlotSize) invSlotSize)
  else m

/-- A removal with at most one item behind hangs on no memcpy. -/
theorem remove_run (copies : Copies memcpy) {n k : Nat} (count : m.quadAt sessionInvCount = n)
    (held : k < n) (short : n ≤ k + 2) : invRemoveSlot memcpy m k =
      (((shifted m n k).store sessionInvCount (quad (n - 1))).store (slotAddress (n - 1))
        (List.replicate invSlotSize 0), 0) := by
  have below : ¬(k : Int) < 0 := by omega
  have beyond : ¬(n : Int) ≤ k := by omega
  have last : ((n : Int) - 1).toNat = n - 1 := by omega
  rcases Nat.eq_or_lt_of_le held with alone | more
  · have none_behind : ((n : Int) - k - 1).toNat = 0 := by omega
    have kept : shifted m n k = m := if_neg (by omega)
    simp only [invRemoveSlot, count, if_neg below, if_neg beyond, none_behind, last, if_true, kept]
  · have one_behind : ((n : Int) - k - 1).toNat = 1 := by omega
    have copied : memcpy m (slotAddress k) (slotAddress k + invSlotSize)
        (invSlotSize * 1 % 4294967296) = shifted m n k :=
      (copies m _ _ invSlotSize (.inl (Nat.le_refl _))).trans (if_pos (by omega)).symm
    simp only [invRemoveSlot, count, if_neg below, if_neg beyond, one_behind, last,
      Int.toNat_natCast]
    rw [if_neg Nat.one_ne_zero, copied]

theorem shifted_slot {n k j i : Nat} (byte : i < invSlotSize) :
    shifted m n k (slotAddress j + i) =
      if j = k ∧ n = k + 2 then m (slotAddress (k + 1) + i) else m (slotAddress j + i) := by
  unfold shifted
  split
  · rename_i two
    simp only [two, and_true]
    exact moved_slot byte
  · rename_i other
    rw [if_neg fun both => other both.2]

theorem remove_carries (copies : Copies memcpy) (carries : Carries m items) {slot : Int}
    (short : (InvCall.remove slot).Short items) :
    Carries (invRemoveSlot memcpy m slot).1 ((InvCall.remove slot).apply items).1 ∧
      (invRemoveSlot memcpy m slot).2 = ((InvCall.remove slot).apply items).2 := by
  by_cases below : slot < 0
  · have refused : ¬(0 ≤ slot ∧ slot < items.length) := by omega
    simpa [invRemoveSlot, InvCall.apply, below, refused] using carries
  by_cases beyond : (items.length : Int) ≤ slot
  · have refused : ¬(0 ≤ slot ∧ slot < items.length) := by omega
    simpa [invRemoveSlot, InvCall.apply, carries.count, below, beyond, refused] using carries
  obtain ⟨k, rfl⟩ := Int.eq_ofNat_of_zero_le (not_lt.mp below)
  have held : k < items.length := by omega
  have behind : items.length ≤ k + 2 := by simpa using short (by omega)
  have few : items.length ≤ 16 := carries.few
  have erased : ((InvCall.remove k).apply items) = (items.eraseIdx k, 0) := by
    simp [InvCall.apply, held]
  rw [remove_run copies carries.count held behind, erased]
  refine ⟨⟨?_, ?_, fun x member => ?_, fun j slot i byte => ?_⟩, rfl⟩
  · change (store _ _ _).quadAt _ = ((items.eraseIdx k).length : Int)
    have same (m' : Memory) : (store (m'.store sessionInvCount (quad (items.length - 1)))
        (slotAddress (items.length - 1)) (List.replicate invSlotSize 0)).quadAt sessionInvCount =
        items.length - 1 := by
      rw [slots_count fun i low => store_outside (by simp only [slotAddress]; omega),
        quad_store (by omega) (by omega)]
    rw [same, List.length_eraseIdx_of_lt held]
    omega
  · change (items.eraseIdx k).length ≤ invSlots
    exact (List.length_eraseIdx_le ..).trans carries.few
  · exact carries.strings x (List.mem_of_mem_eraseIdx member)
  · change store _ _ _ _ = ((items.eraseIdx k).getD j []).getD i 0
    have gone (j : Nat) (past : items.length ≤ j) : (items.getD j []).getD i 0 = 0 := by
      rw [List.getD_eq_default _ _ past]
      rfl
    have before (j : Nat) (slot : j < invSlots) :
        m (slotAddress j + i) = (items.getD j []).getD i 0 := carries.slots j slot i byte
    rw [cleared_slot byte, counted_slot, shifted_slot byte, erased_slot]
    simp only [invSlots] at slot before
    by_cases top : j = items.length - 1
    · rw [if_pos top]
      split
      · omega
      · exact (gone _ (by omega)).symm
    · rw [if_neg top]
      by_cases next : j = k ∧ items.length = k + 2
      · rw [if_pos next, if_neg (by omega), next.1, before (k + 1) (by omega)]
      · rw [if_neg next, before j slot]
        split
        · rfl
        · rw [gone _ (by omega), gone _ (by omega)]

/-- A short call does the same with every memcpy. -/
theorem call_same {other : Copier} (copies : Copies memcpy) (others : Copies other)
    (carries : Carries m items) {call : InvCall} (short : call.Short items) :
    call.run memcpy m = call.run other m := by
  cases call with
  | add item => rfl
  | remove slot =>
    change invRemoveSlot memcpy m slot = invRemoveSlot other m slot
    by_cases below : slot < 0
    · simp [invRemoveSlot, below]
    by_cases beyond : (items.length : Int) ≤ slot
    · simp [invRemoveSlot, carries.count, below, beyond]
    obtain ⟨k, rfl⟩ := Int.eq_ofNat_of_zero_le (not_lt.mp below)
    have held : k < items.length := by omega
    have behind : items.length ≤ k + 2 := by simpa using short (by omega)
    rw [remove_run copies carries.count held behind, remove_run others carries.count held behind]

theorem call_carries (copies : Copies memcpy) (carries : Carries m items) {call : InvCall}
    (short : call.Short items) :
    Carries (call.run memcpy m).1 (call.apply items).1 ∧
      (call.run memcpy m).2 = (call.apply items).2 := by
  cases call with
  | add item => exact add_carries carries item
  | remove slot => exact remove_carries copies carries short

theorem calls_carry (copies : Copies memcpy) (carries : Carries m items) {calls : List InvCall}
    (short : ShortCalls items calls) :
    Carries (runCalls memcpy m calls).1 (applyCalls items calls).1 ∧
      (runCalls memcpy m calls).2 = (applyCalls items calls).2 := by
  induction calls generalizing m items with
  | nil => exact ⟨carries, rfl⟩
  | cons call rest ih =>
    obtain ⟨stepped, result⟩ := call_carries copies carries short.1
    obtain ⟨last, results⟩ := ih stepped short.2
    exact ⟨last, by simp only [runCalls, applyCalls, result, results]⟩

end Steps

section Loading

variable {m : Memory} {items : List Bytes}

def Filled (m : Memory) (items : List Bytes) : Prop :=
  ∀ k < invSlots, ∀ i < invSlotSize, m (slotAddress k + i) = (items.getD k []).getD i 0

theorem slots_load (values : List Json) (few : items.length ≤ invSlots) (filled : Filled m items) :
    Filled (loadSlots values items.length m).2 (items ++ slotTexts values items.length) := by
  induction values generalizing m items with
  | nil => simpa [loadSlots, slotTexts] using filled
  | cons value rest ih =>
    by_cases full : invSlots ≤ items.length
    · rw [loadSlots, if_pos full, slot_texts_full _ full, List.append_nil]
      exact filled
    rw [loadSlots, if_neg full]
    cases string : value.stringValue with
    | none =>
      rw [slot_texts_skip string]
      exact ih few filled
    | some text =>
      have room : items.length < invSlots := by omega
      have clipped : ((cstr text).take 15).length < invSlotSize := by
        simp only [List.length_take, invSlotSize]
        omega
      have grown : Filled (m.store (slotAddress items.length) ((cstr text).take 15 ++ [0]))
          (items ++ [(cstr text).take 15]) := by
        intro k slot i byte
        have zeros : m (slotAddress items.length + i) = 0 := by
          rw [filled _ room i byte, List.getD_eq_default _ _ (Nat.le_refl _)]
          rfl
        rw [text_slot clipped zeros byte, appended_slot]
        split
        · rfl
        · exact filled k slot i byte
      have rest_filled := ih (by simp; omega) grown
      rw [List.length_append, List.length_singleton, List.append_assoc] at rest_filled
      rw [slot_texts_take string rest room]
      exact rest_filled

theorem cleared_filled (m : Memory) : Filled ((m.store sessionInventory
    (List.replicate (invSlots * invSlotSize) 0)).store sessionInvCount (quad 0)) [] := by
  intro k slot i byte
  rw [counted_slot]
  simp only [slotAddress, invSlots, invSlotSize] at slot byte ⊢
  rw [Nat.add_assoc, store_inside (by simp only [List.length_replicate]; omega),
    List.getElem_replicate]
  rfl

theorem listed_strings (root : Json) : (loadInventory root).length ≤ invSlots ∧
    ∀ item ∈ loadInventory root, item.length < invSlotSize ∧ 0 ∉ item := by
  unfold loadInventory
  cases root.item (str "inventory") with
  | none => simp
  | some value =>
    refine ⟨by simp, fun item member => ?_⟩
    obtain ⟨text, -, rfl⟩ := List.mem_map.mp member
    refine ⟨?_, clip_whole text 15⟩
    simp only [List.length_take, invSlotSize]
    omega

theorem loaded_carries (root : Json) (m : Memory) :
    Carries (loadArray root m) (loadInventory root) where
  count := (@array_loaded m root).1
  few := (listed_strings root).1
  strings := (listed_strings root).2
  slots := by
    intro k slot i byte
    unfold loadArray loadInventory
    cases root.item (str "inventory") with
    | none => exact cleared_filled m k slot i byte
    | some value =>
      have filled := @slots_load _ [] value.children (Nat.zero_le _) (cleared_filled m)
      exact (counted_slot _ k i).trans (filled k slot i byte)

end Loading

theorem calls_of_model (ch : Character) {item : Bytes} (string : 0 ∉ item) (k : Nat) :
    (invAdd item ch).inventory = ((InvCall.add (some item)).apply ch.inventory).1 ∧
      (invRemove k ch).inventory = ((InvCall.remove k).apply ch.inventory).1 := by
  have whole : cstr item = item := cstr_whole string
  constructor
  · rw [invAdd, InvCall.apply, Option.getD_some, whole]
    split <;> rfl
  · by_cases held : k < ch.inventory.length
    · simp [invRemove, InvCall.apply, held]
    · have same : ch.inventory.eraseIdx k = ch.inventory :=
        List.eraseIdx_of_length_le (Nat.not_lt.mp held)
      simp [invRemove, InvCall.apply, held, same]

/-- A memcpy that is right where C promises it and nowhere else. -/
def spoiling : Copier := fun m dst src n =>
  if Apart (dst, n) (src, n) then m.store dst (m.bytesAt src n) else m.store dst [m src + 1]

theorem spoiling_copies : Copies spoiling := fun _ _ _ _ apart => if_pos apart

/-- A removal is right for every memcpy only where it copies one slot or none. -/
theorem removal_right_iff {m : Memory} {items : List Bytes} (carries : Carries m items) {k : Nat}
    (held : k < items.length) :
    (∀ memcpy, Copies memcpy → Carries (invRemoveSlot memcpy m k).1 (items.eraseIdx k)) ↔
      items.length ≤ k + 2 := by
  have erased : ((InvCall.remove k).apply items) = (items.eraseIdx k, 0) := by
    simp [InvCall.apply, held]
  constructor
  · intro right
    by_contra long
    have few : items.length ≤ 16 := carries.few
    have after := (right spoiling spoiling_copies).slots k (by simp only [invSlots]; omega) 0
      (by decide)
    have next := carries.slots (k + 1) (by simp only [invSlots]; omega) 0 (by decide)
    have below : ¬((k : Int) < 0) := by omega
    have beyond : ¬((items.length : Int) ≤ k) := by omega
    have size : invSlotSize * ((items.length : Int) - k - 1).toNat % 4294967296 =
        16 * (items.length - k - 1) := by
      simp only [invSlotSize]
      omega
    have overlaps : ¬Apart (slotAddress k, 16 * (items.length - k - 1))
        (slotAddress k + invSlotSize, 16 * (items.length - k - 1)) := by
      simp only [Apart, invSlotSize]
      omega
    have some_behind : ((items.length : Int) - k - 1).toNat ≠ 0 := by omega
    rw [erased_slot, if_neg (Nat.lt_irrefl k), ← next] at after
    simp only [invRemoveSlot, carries.count, if_neg below, if_neg beyond, if_neg some_behind,
      Int.toNat_natCast, size, spoiling, if_neg overlaps] at after
    rw [cleared_slot (by decide), if_neg (by omega), counted_slot,
      store_inside (i := 0) (b := [_]) Nat.one_pos] at after
    have same_place : slotAddress (k + 1) + 0 = slotAddress k + invSlotSize := by
      simp only [slotAddress, invSlotSize]
      omega
    rw [same_place, List.getElem_singleton] at after
    exact absurd after (by simp)
  · intro short memcpy copies
    have removed := (@remove_carries _ _ _ copies carries k fun _ => by simpa using short).1
    rwa [erased] at removed

/-- At every call of the run the block does what the list does, with every memcpy of the C
contract. -/
def RunRight (m : Memory) (items : List Bytes) (calls : List InvCall) : Prop :=
  ∀ memcpy, Copies memcpy → ∀ n,
    Carries (runCalls memcpy m (calls.take n)).1 (applyCalls items (calls.take n)).1 ∧
      (runCalls memcpy m (calls.take n)).2 = (applyCalls items (calls.take n)).2

theorem short_take {items : List Bytes} {calls : List InvCall} (short : ShortCalls items calls)
    (n : Nat) : ShortCalls items (calls.take n) := by
  induction calls generalizing items n with
  | nil => simpa using short
  | cons call rest ih =>
    cases n with
    | zero => trivial
    | succ n => exact ⟨short.1, ih short.2 n⟩

theorem run_right_iff {m : Memory} {items : List Bytes} (carries : Carries m items)
    (calls : List InvCall) : RunRight m items calls ↔ ShortCalls items calls := by
  constructor
  · intro right
    induction calls generalizing m items with
    | nil => trivial
    | cons call rest ih =>
      have short : call.Short items := by
        cases call with
        | add item => trivial
        | remove slot =>
          intro low
          obtain ⟨k, rfl⟩ := Int.eq_ofNat_of_zero_le low
          by_cases held : k < items.length
          · have erased : ((InvCall.remove k).apply items) = (items.eraseIdx k, 0) := by
              simp [InvCall.apply, held]
            refine (removal_right_iff carries held).mp fun memcpy copies => ?_
            have first := (right memcpy copies 1).1
            simp only [List.take_succ_cons, List.take_zero, runCalls, applyCalls, erased] at first
            exact first
          · simp only [Int.toNat_natCast]
            omega
      refine ⟨short, ih (call_carries spoiling_copies carries short).1 fun memcpy copies n => ?_⟩
      have later := right memcpy copies (n + 1)
      simp only [List.take_succ_cons, runCalls, applyCalls] at later
      rw [call_same copies spoiling_copies carries short] at later
      exact ⟨later.1, (List.cons.inj later.2).2⟩
  · intro short memcpy copies n
    exact calls_carry copies carries (short_take short n)

/-- From a loaded inventory the block does what the list does, at every call and with every
memcpy, exactly in the runs whose removals have at most one item behind the removed one. -/
theorem inventory_refines_iff (root : Json) (m : Memory) (calls : List InvCall) :
    RunRight (loadArray root m) (loadInventory root) calls ↔
      ShortCalls (loadInventory root) calls :=
  run_right_iff (loaded_carries root m) calls

def threeItems : Json :=
  .obj [(str "inventory", .arr [.str (str "a"), .str (str "b"), .str (str "c")])]

/-- With two items behind it a removal copies slots that overlap. -/
theorem first_of_three_overlaps : ¬ ∀ (root : Json) (m : Memory) (calls : List InvCall),
    RunRight (loadArray root m) (loadInventory root) calls := by
  intro always
  have short := (run_right_iff (loaded_carries threeItems fun _ => 0) [.remove 0]).mp
    (always threeItems (fun _ => 0) [.remove 0])
  have few := short.1 (Int.le_refl 0)
  revert few
  decide

end HollowGrid
