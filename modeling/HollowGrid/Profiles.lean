import HollowGrid.Records

/-! What a character file keeps of a session, and that loading and saving it again keeps the
same. -/
namespace HollowGrid

/-- The character of a connection that has just been taken. -/
def arrival : Character := (newSession 0).toCharacter

/-- What an arrival finds in a file. An empty slot is no item. -/
def profile (root : Json) : Character :=
  { loadCharacter root arrival with
    inventory := (loadInventory root).filter (· ≠ []) }

/-- What a save of the session keeps. -/
def Session.kept (s : Session) : Character := profile (characterRecord s)

section Numbers

theorem double_of_divides {n : Int} (divides : 2 ^ (n.natAbs.log2 - 52) ∣ n.natAbs) :
    toDouble n = n := by
  have some_unit : 0 < 2 ^ (n.natAbs.log2 - 52) := Nat.two_pow_pos _
  have rest : n.natAbs % 2 ^ (n.natAbs.log2 - 52) = 0 := Nat.mod_eq_zero_of_dvd divides
  have whole : n.natAbs / 2 ^ (n.natAbs.log2 - 52) * 2 ^ (n.natAbs.log2 - 52) = n.natAbs :=
    Nat.div_mul_cancel divides
  have even : ¬(2 * 0 > 2 ^ (n.natAbs.log2 - 52) ∨ (2 * 0 = 2 ^ (n.natAbs.log2 - 52) ∧
      n.natAbs / 2 ^ (n.natAbs.log2 - 52) % 2 = 1)) := by omega
  simp only [toDouble, rest, if_neg even, whole]
  split <;> omega

theorem double_bits (n : Int) : ∃ k shift, (toDouble n).natAbs = k * 2 ^ shift ∧ k ≤ 2 ^ 53 := by
  have below : n.natAbs < 2 ^ 53 * 2 ^ (n.natAbs.log2 - 52) := by
    rw [← pow_add]
    refine Nat.lt_of_lt_of_le Nat.lt_log2_self (Nat.pow_le_pow_right (by omega) ?_)
    omega
  have short : n.natAbs / 2 ^ (n.natAbs.log2 - 52) < 2 ^ 53 :=
    Nat.div_lt_of_lt_mul (by rwa [Nat.mul_comm])
  have nearest (k : Nat) (near : k ≤ n.natAbs / 2 ^ (n.natAbs.log2 - 52) + 1) : k ≤ 2 ^ 53 := by
    omega
  unfold toDouble
  extract_lets magnitude shift unit quotient rest rounded
  refine ⟨rounded, shift, ?_, nearest rounded ?_⟩
  · split
    · rw [Int.natAbs_neg, Int.natAbs_natCast]
    · rw [Int.natAbs_natCast]
  · change (if _ then quotient + 1 else quotient) ≤ quotient + 1
    split
    · exact Nat.le_refl _
    · exact Nat.le_succ _

theorem to_double_twice (n : Int) : toDouble (toDouble n) = toDouble n := by
  obtain ⟨k, shift, size, small⟩ := double_bits n
  refine double_of_divides ?_
  rw [size]
  rcases Nat.lt_or_eq_of_le small with bits | rfl
  · by_cases zero : k * 2 ^ shift = 0
    · rw [zero]
      exact Nat.dvd_zero _
    · have top : (k * 2 ^ shift).log2 < 53 + shift := by
        rw [Nat.log2_lt zero, pow_add]
        exact Nat.mul_lt_mul_of_pos_right bits (Nat.two_pow_pos shift)
      exact Nat.dvd_mul_left_of_dvd (Nat.pow_dvd_pow 2 (by omega)) k
  · rw [← pow_add, Nat.log2_two_pow]
    exact Nat.pow_dvd_pow 2 (by omega)

/-- A number that a save wrote is kept by every load and save after it. -/
theorem stored_number_settles (n : Int) :
    truncate (toDouble (truncate (toDouble n))) = truncate (toDouble n) := by
  by_cases inside : int64Min ≤ toDouble n ∧ toDouble n ≤ int64Max
  · have same : truncate (toDouble n) = toDouble n := if_pos inside
    rw [same, to_double_twice, same]
  · have lowest : truncate (toDouble n) = int64Min := if_neg inside
    rw [lowest]
    decide

end Numbers

section Settled

theorem cut_settles (b : Bytes) (n : Nat) : (cstr ((cstr b).take n)).take n = (cstr b).take n := by
  have ends : 0 ∉ (cstr b).take n := clip_whole b n
  rw [cstr_whole ends, List.take_take, Nat.min_self]

/-- The items that a load finds in the record of a session with the given ones. -/
def storedItems (items : List Bytes) : List Bytes :=
  ((items.take invSlots).filter (· ≠ [])).map fun text => (cstr text).take 15

theorem stored_items (s : Session) :
    loadInventory (characterRecord s) = storedItems s.inventory := by
  have there : (characterRecord s).item (str "inventory") =
      some (.arr (((s.inventory.take invSlots).filter (· ≠ [])).map Json.str)) := rfl
  have strings (items : List Bytes) : (items.map Json.str).filterMap Json.stringValue = items := by
    rw [List.filterMap_map]
    exact List.filterMap_some
  have few : ((s.inventory.take invSlots).filter (· ≠ [])).length ≤ invSlots :=
    Nat.le_trans (List.length_filter_le _ _) (by rw [List.length_take]; exact Nat.min_le_left _ _)
  rw [loadInventory, there]
  simp only [Json.children, strings]
  rw [List.take_of_length_le few, storedItems]

theorem stored_items_settle (items : List Bytes) :
    storedItems (storedItems items) = (storedItems items).filter (· ≠ []) := by
  have few : (storedItems items).length ≤ invSlots := by
    rw [storedItems, List.length_map]
    exact Nat.le_trans (List.length_filter_le _ _)
      (by rw [List.length_take]; exact Nat.min_le_left _ _)
  rw [storedItems, List.take_of_length_le few]
  refine (List.map_congr_left fun text member => ?_).trans (List.map_id _)
  obtain ⟨old, _, rfl⟩ := List.mem_map.mp (List.mem_of_mem_filter member)
  exact cut_settles old 15

/-- What a save and a load make of a character. -/
def settle (ch : Character) : Character :=
  { arrival with
    race := (cstr ch.race).take 15
    faction := (cstr ch.faction).take 15
    position := (cstr ch.position).take 15
    title := (cstr ch.title).take 47
    weapon := (cstr ch.weapon).take 15
    room := truncate (toDouble ch.room)
    hp := truncate (toDouble ch.hp)
    maxHp := truncate (toDouble ch.maxHp)
    level := truncate (toDouble ch.level)
    xp := truncate (toDouble ch.xp)
    gold := truncate (toDouble ch.gold)
    morality := truncate (toDouble ch.morality)
    addiction := truncate (toDouble ch.addiction)
    ashsworn := ch.ashsworn
    strayed := ch.strayed
    redeemed := ch.redeemed
    resisted := ch.resisted
    inventory := storedItems ch.inventory }

theorem load_record (s : Session) :
    loadCharacter (characterRecord s) arrival = settle s.toCharacter := by
  rw [settle, ← stored_items]
  rfl

theorem kept_settles (s : Session) : s.kept =
    { settle s.toCharacter with inventory := (storedItems s.inventory).filter (· ≠ []) } := by
  rw [Session.kept, profile, load_record, stored_items]

theorem kept_reload {s old : Session}
    (found : s.toCharacter = loadCharacter (characterRecord old) arrival) : s.kept = old.kept := by
  rw [load_record] at found
  rw [kept_settles, kept_settles]
  rw [found]
  simp only [settle, cut_settles, stored_number_settles, stored_items_settle, List.filter_filter,
    Bool.and_self]

end Settled

end HollowGrid
