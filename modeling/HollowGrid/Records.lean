import HollowGrid.Identity
import HollowGrid.Lib.Memory

/-! The character file and the session block: what a save writes is what a load brings back,
and what a load may do to the bytes of the block. -/
namespace HollowGrid

open Memory

/-- A session whose saved fields are what the fields of a block can hold. -/
structure FitsFile (s : Session) : Prop where
  race : FitsField 16 s.race
  faction : FitsField 16 s.faction
  position : FitsField 16 s.position
  title : FitsField 48 s.title
  weapon : FitsField 16 s.weapon
  secretHash : FitsField 72 s.secretHash
  room : Exact s.room
  hp : Exact s.hp
  maxHp : Exact s.maxHp
  level : Exact s.level
  xp : Exact s.xp
  gold : Exact s.gold
  morality : Exact s.morality
  addiction : Exact s.addiction
  count : s.inventory.length ≤ invSlots
  items : ∀ item ∈ s.inventory, item ≠ [] ∧ FitsField 16 item

/-- The session with the saved fields of another. -/
def Session.restored (s saved : Session) : Session :=
  { s with
    race := saved.race
    faction := saved.faction
    position := saved.position
    title := saved.title
    weapon := saved.weapon
    room := saved.room
    hp := saved.hp
    maxHp := saved.maxHp
    level := saved.level
    xp := saved.xp
    gold := saved.gold
    morality := saved.morality
    addiction := saved.addiction
    ashsworn := saved.ashsworn
    strayed := saved.strayed
    redeemed := saved.redeemed
    resisted := saved.resisted
    secretHash := saved.secretHash
    inventory := saved.inventory }

/-! ## The bytes of the block -/

inductive Kind
  | text (cap : Nat)
  | number
  | flag
  deriving DecidableEq

/-- A field of the block and the member it is loaded from. -/
structure Field where
  key : String
  off : Nat
  kind : Kind
  deriving DecidableEq

namespace Field

def size (f : Field) : Nat :=
  match f.kind with
  | .text cap => cap
  | .number | .flag => 8

def region (f : Field) : Nat × Nat := (f.off, f.size)

/-- json_string, and LOAD_NUM and LOAD_BOOL with the call each makes. -/
def load (root : Json) (f : Field) (m : Memory) : Memory :=
  match f.kind with
  | .text cap =>
    match (root.item (str f.key)).bind Json.stringValue with
    | some text => m.store f.off ((cstr text).take (cap - 1) ++ [0])
    | none => m
  | .number => m.store f.off (quad (jsonNumber root (str f.key) (m.quadAt f.off)))
  | .flag =>
    match root.item (str f.key) with
    | some value => m.store f.off (quad (if value.isTrue then 1 else 0))
    | none => m.store f.off (quad (m.quadAt f.off))

end Field

/-- The fields hg_store_load fills, in its order, at the offsets of state.inc. -/
def loadedFields : List Field :=
  [⟨"race", 48, .text 16⟩, ⟨"faction", 168, .text 16⟩, ⟨"position", 184, .text 16⟩,
    ⟨"title", 200, .text 48⟩, ⟨"weapon", 248, .text 16⟩, ⟨"roomIndex", 64, .number⟩,
    ⟨"hp", 72, .number⟩, ⟨"maxHp", 80, .number⟩, ⟨"level", 88, .number⟩, ⟨"xp", 96, .number⟩,
    ⟨"gold", 104, .number⟩, ⟨"morality", 112, .number⟩, ⟨"addiction", 120, .number⟩,
    ⟨"ashsworn", 128, .flag⟩, ⟨"strayed", 136, .flag⟩, ⟨"redeemed", 144, .flag⟩,
    ⟨"resisted", 152, .flag⟩]

def sessionName : Nat := 8
def sessionInvCount : Nat := 328
def sessionInventory : Nat := 336
def sessionSecretHash : Nat := 17400
def invSlotSize : Nat := 16

def hashField : Field := ⟨"secretHash", sessionSecretHash, .text 72⟩

def loadSlots : List Json → Nat → Memory → Nat × Memory
  | [], n, m => (n, m)
  | value :: rest, n, m =>
    if invSlots ≤ n then (n, m)
    else
      match value.stringValue with
      | some text =>
        loadSlots rest (n + 1)
          (m.store (sessionInventory + n * invSlotSize) ((cstr text).take (invSlotSize - 1) ++ [0]))
      | none => loadSlots rest n m

/-- The inventory is cleared before the array is looked for. -/
def loadArray (root : Json) (m : Memory) : Memory :=
  let cleared := (m.store sessionInventory (List.replicate (invSlots * invSlotSize) 0)).store
    sessionInvCount (quad 0)
  match root.item (str "inventory") with
  | some value =>
    let (n, filled) := loadSlots value.children 0 cleared
    filled.store sessionInvCount (quad n)
  | none => cleared

def loadText (root : Json) (m : Memory) : Memory :=
  let fields := loadedFields.foldl (fun m f => f.load root m) m
  hashField.load root (fields.store sessionSecretHash (List.replicate 72 0))

/-- What the calls of one load return. -/
structure LoadCalls where
  fopen : Bool
  seekEnd : Int
  ftell : Int
  seekStart : Int
  malloc : Bool
  /-- cJSON_Parse of the bytes fread left in the buffer, however many they are. -/
  parsed : Option Json

/-- hg_store_load over the bytes of the block, with the value it returns. -/
def storeLoadBlock (calls : LoadCalls) (m : Memory) : Int × Memory :=
  if characterPath (m.textAt sessionName 40) = none then (-1, m)
  else if calls.fopen = false then (0, m)
  else if calls.seekEnd ≠ 0 then (-1, m)
  else if calls.ftell < 2 ∨ 65536 < calls.ftell then (-1, m)
  else if calls.seekStart ≠ 0 then (-1, m)
  else if calls.malloc = false then (-1, m)
  else
    match calls.parsed with
    | none => (-1, m)
    | some root => (1, loadArray root (loadText root m))

/-- What a load may write: a position in none of these is left alone. -/
def loadedRegions : List (Nat × Nat) :=
  loadedFields.map Field.region ++ [hashField.region, (sessionInvCount, 8),
    (sessionInventory, invSlots * invSlotSize)]

/-- The position is no byte of a loaded field. -/
def Spared (i : Nat) : Prop := ∀ r ∈ loadedRegions, i < r.1 ∨ r.1 + r.2 ≤ i

/-- Every string field of state.inc but the hash and the inventory. -/
def stringFields : List (Nat × Nat) :=
  [(8, 40), (48, 16), (168, 16), (184, 16), (200, 48), (248, 16), (264, 16), (280, 16), (296, 16),
    (312, 16), (624, 40), (680, 40)]

def Ended (m : Memory) : Prop := ∀ r ∈ stringFields, m.Terminated r.1 r.2

/-- What the readers of a loaded block rely on. -/
structure Formed (m : Memory) : Prop where
  count : 0 ≤ m.quadAt sessionInvCount ∧ m.quadAt sessionInvCount ≤ invSlots
  slots : ∀ k < invSlots, m.Terminated (sessionInventory + k * invSlotSize) invSlotSize
  hash : m.Terminated sessionSecretHash 72

section Bytes

variable {m m' : Memory} {f : Field} {root : Json}

theorem clip_whole (b : Bytes) (n : Nat) : 0 ∉ (cstr b).take n := by
  intro member
  have live := List.mem_takeWhile_imp (List.mem_of_mem_take member)
  simp at live

theorem load_outside (some_byte : 0 < f.size) {i : Nat} (out : i < f.off ∨ f.off + f.size ≤ i) :
    f.load root m i = m i := by
  cases kind : f.kind with
  | text cap =>
    simp only [Field.size, kind] at some_byte out
    simp only [Field.load, kind]
    cases (root.item (str f.key)).bind Json.stringValue with
    | none => rfl
    | some text =>
      apply store_outside
      simp only [List.length_append, List.length_take, List.length_cons, List.length_nil]
      omega
  | number =>
    simp only [Field.size, kind] at out
    simp only [Field.load, kind]
    exact store_outside (by rwa [quad_length])
  | flag =>
    simp only [Field.size, kind] at out
    simp only [Field.load, kind]
    cases root.item (str f.key) <;> exact store_outside (by rwa [quad_length])

theorem load_local (same : Agree m m' f.off f.size) :
    Agree (f.load root m) (f.load root m') f.off f.size := by
  unfold Field.load
  split
  · split
    · exact store_agrees same _
    · exact same
  · rename_i kind
    have word : Agree m m' f.off 8 := by simpa only [Field.size, kind] using same
    rw [quad_congr word]
    exact store_agrees same _
  · rename_i kind
    have word : Agree m m' f.off 8 := by simpa only [Field.size, kind] using same
    split
    · exact store_agrees same _
    · rw [quad_congr word]
      exact store_agrees same _

theorem fields_outside {fields : List Field} (some_byte : ∀ f ∈ fields, 0 < f.size) {i : Nat}
    (out : ∀ f ∈ fields, i < f.off ∨ f.off + f.size ≤ i) (m : Memory) :
    fields.foldl (fun m f => f.load root m) m i = m i := by
  induction fields generalizing m with
  | nil => rfl
  | cons f rest ih =>
    rw [List.foldl_cons,
      ih (fun f member => some_byte f (.tail _ member)) (fun f member => out f (.tail _ member)),
      load_outside (some_byte f (.head _)) (out f (.head _))]

/-- Of fields that do not overlap, each ends as its own load leaves it. -/
theorem field_loaded {fields : List Field} (some_byte : ∀ f ∈ fields, 0 < f.size)
    (apart : fields.Pairwise fun f f' => Apart f.region f'.region) (member : f ∈ fields)
    (m : Memory) :
    Agree (fields.foldl (fun m f => f.load root m) m) (f.load root m) f.off f.size := by
  induction fields generalizing m with
  | nil => cases member
  | cons first rest ih =>
    have later := fun f' within => some_byte f' (List.Mem.tail first within)
    obtain ⟨clear, rest_apart⟩ := List.pairwise_cons.mp apart
    rw [List.foldl_cons]
    rcases List.mem_cons.mp member with rfl | inner
    · intro i low high
      refine fields_outside later (fun f' within => ?_) _
      rcases clear f' within with below | above
      · simp only [Field.region] at below
        omega
      · simp only [Field.region] at above
        omega
    · intro i low high
      rw [ih later rest_apart inner _ i low high]
      refine load_local (fun j low high => load_outside (some_byte first (.head _)) ?_) i low high
      rcases clear f inner with below | above
      · simp only [Field.region] at below
        omega
      · simp only [Field.region] at above
        omega

theorem fields_apart : (loadedFields.Pairwise fun f f' => Apart f.region f'.region) ∧
    ∀ f ∈ loadedFields, 0 < f.size ∧ Apart f.region hashField.region ∧
      Apart f.region (sessionInvCount, 8) ∧
      Apart f.region (sessionInventory, invSlots * invSlotSize) := by
  decide

theorem load_ended {cap : Nat} (text : f.kind = .text cap) (some_byte : 0 < cap)
    (ended : m.Terminated f.off cap) : (f.load root m).Terminated f.off cap := by
  simp only [Field.load, text]
  split
  · exact terminated_store (by rw [List.length_take]; omega)
  · exact ended

def slotTexts (values : List Json) (n : Nat) : List Bytes :=
  ((values.filterMap Json.stringValue).take (invSlots - n)).map fun text => (cstr text).take 15

theorem slot_texts_skip {value : Json} (other : value.stringValue = none) (rest : List Json)
    (n : Nat) : slotTexts (value :: rest) n = slotTexts rest n := by
  simp [slotTexts, other]

theorem slot_texts_take {value : Json} {text : Bytes} (string : value.stringValue = some text)
    (rest : List Json) {n : Nat} (room : n < invSlots) :
    slotTexts (value :: rest) n = (cstr text).take 15 :: slotTexts rest (n + 1) := by
  have one_more : invSlots - n = (invSlots - (n + 1)) + 1 := by omega
  simp [slotTexts, string, one_more]

theorem slot_texts_full (values : List Json) {n : Nat} (full : invSlots ≤ n) :
    slotTexts values n = [] := by
  have none_left : invSlots - n = 0 := by omega
  simp [slotTexts, none_left]

theorem slots_filled (values : List Json) (n : Nat) (m : Memory) :
    (loadSlots values n m).1 = n + (slotTexts values n).length ∧
      (∀ i, i < sessionInventory + n * invSlotSize ∨
          sessionInventory + (n + (slotTexts values n).length) * invSlotSize ≤ i →
        (loadSlots values n m).2 i = m i) ∧
      ∀ k (short : k < (slotTexts values n).length),
        (loadSlots values n m).2.Terminated (sessionInventory + (n + k) * invSlotSize) 16 ∧
        (loadSlots values n m).2.textAt (sessionInventory + (n + k) * invSlotSize) 16 =
          (slotTexts values n)[k] := by
  induction values generalizing n m with
  | nil => simp [loadSlots, slotTexts]
  | cons value rest ih =>
    by_cases full : invSlots ≤ n
    · rw [loadSlots, if_pos full, slot_texts_full _ full]
      simp
    rw [loadSlots, if_neg full]
    cases string : value.stringValue with
    | none =>
      rw [slot_texts_skip string]
      exact ih n m
    | some text =>
      simp only [slot_texts_take string rest (not_le.mp full), List.length_cons]
      obtain ⟨count, outside, inside⟩ := ih (n + 1)
        (m.store (sessionInventory + n * invSlotSize) ((cstr text).take (invSlotSize - 1) ++ [0]))
      have clipped : ((cstr text).take 15).length < 16 := by
        rw [List.length_take]
        omega
      have slot : Agree
          (loadSlots rest (n + 1) (m.store (sessionInventory + n * invSlotSize)
            ((cstr text).take (invSlotSize - 1) ++ [0]))).2
          (m.store (sessionInventory + n * invSlotSize) ((cstr text).take 15 ++ [0]))
          (sessionInventory + n * invSlotSize) 16 := by
        intro i low high
        refine outside i (.inl ?_)
        simp only [invSlotSize] at high ⊢
        omega
      refine ⟨by rw [count]; omega, fun i out => ?_, fun k short => ?_⟩
      · simp only [invSlotSize] at out outside ⊢
        rw [outside i (by omega)]
        apply store_outside
        simp only [List.length_append, List.length_cons, List.length_nil, List.length_take]
        omega
      · cases k with
        | zero =>
          exact ⟨terminated_congr slot (terminated_store clipped),
            (text_congr slot).trans (text_store (clip_whole text 15) clipped)⟩
        | succ k =>
          have step : n + (k + 1) = n + 1 + k := by omega
          rw [step]
          exact inside k (by omega)

theorem array_outside {i : Nat} (low : i < sessionInvCount ∨ sessionInvCount + 8 ≤ i)
    (high : i < sessionInventory ∨ sessionInventory + invSlots * invSlotSize ≤ i) :
    loadArray root m i = m i := by
  have cleared : ((m.store sessionInventory (List.replicate (invSlots * invSlotSize) 0)).store
      sessionInvCount (quad 0)) i = m i := by
    rw [store_outside (by rwa [quad_length]), store_outside (by rwa [List.length_replicate])]
  unfold loadArray
  cases root.item (str "inventory") with
  | none => exact cleared
  | some value =>
    obtain ⟨_, outside, _⟩ := slots_filled value.children 0
      ((m.store sessionInventory (List.replicate (invSlots * invSlotSize) 0)).store
        sessionInvCount (quad 0))
    have few : (slotTexts value.children 0).length ≤ invSlots := by
      simp [slotTexts]
    simp only
    rw [store_outside (by rwa [quad_length]), outside i ?_, cleared]
    simp only [invSlots, invSlotSize] at high few ⊢
    omega

theorem text_outside {i : Nat} (out : ∀ f ∈ loadedFields, i < f.off ∨ f.off + f.size ≤ i)
    (hash : i < sessionSecretHash ∨ sessionSecretHash + 72 ≤ i) : loadText root m i = m i := by
  rw [loadText, load_outside (by decide) (by simpa [hashField, Field.size] using hash),
    store_outside (by simpa using hash), fields_outside (fun f member =>
      (fields_apart.2 f member).1) out]

theorem field_last (member : f ∈ loadedFields) :
    Agree (loadArray root (loadText root m)) (f.load root m) f.off f.size := by
  obtain ⟨_, hash, count, slots⟩ := fields_apart.2 f member
  intro i low high
  simp only [Apart, Field.region, hashField, Field.size] at hash count slots high
  rw [array_outside (by omega) (by omega), loadText,
    load_outside (by decide) (by simp only [hashField, Field.size]; omega),
    store_outside (by simp only [List.length_replicate]; omega)]
  exact field_loaded (fun f member => (fields_apart.2 f member).1) fields_apart.1 member m i low
    high

theorem hash_last : Agree (loadArray root (loadText root m))
    (hashField.load root (m.store sessionSecretHash (List.replicate 72 0))) sessionSecretHash 72 := by
  intro i low high
  rw [array_outside (by simp only [sessionInvCount, sessionSecretHash] at *; omega)
    (by simp only [sessionInventory, invSlots, invSlotSize, sessionSecretHash] at *; omega), loadText]
  refine @load_local _ _ hashField _ (fun j low high => ?_) i low high
  simp only [hashField, Field.size] at low high
  simp only [store, List.length_replicate, low, high, and_self, if_true]

theorem array_loaded :
    (loadArray root m).quadAt sessionInvCount = (loadInventory root).length ∧
      (∀ k (short : k < (loadInventory root).length),
        (loadArray root m).textAt (sessionInventory + k * invSlotSize) invSlotSize =
          (loadInventory root)[k]) ∧
      ∀ k < invSlots, (loadArray root m).Terminated (sessionInventory + k * invSlotSize)
        invSlotSize := by
  have zeros (k : Nat) (slot : k < invSlots) : ((m.store sessionInventory
      (List.replicate (invSlots * invSlotSize) 0)).store sessionInvCount (quad 0)).Terminated
        (sessionInventory + k * invSlotSize) invSlotSize := by
    refine ⟨0, by decide, ?_⟩
    simp only [invSlots, invSlotSize, sessionInventory, sessionInvCount] at slot ⊢
    rw [store_outside (by rw [quad_length]; omega), add_zero,
      store_inside (by simp only [List.length_replicate]; omega)]
    exact List.getElem_replicate _
  unfold loadArray loadInventory
  cases root.item (str "inventory") with
  | none =>
    refine ⟨?_, fun k short => by simp at short, zeros⟩
    exact quad_store (by decide) (by decide)
  | some value =>
    obtain ⟨count, outside, inside⟩ := slots_filled value.children 0
      ((m.store sessionInventory (List.replicate (invSlots * invSlotSize) 0)).store
        sessionInvCount (quad 0))
    have few : (slotTexts value.children 0).length ≤ invSlots := by
      simp [slotTexts]
    have same (a : Nat) (off : sessionInventory ≤ a) (filled : Memory) :
        Agree (filled.store sessionInvCount (quad (loadSlots value.children 0
          ((m.store sessionInventory (List.replicate (invSlots * invSlotSize) 0)).store
            sessionInvCount (quad 0))).1)) filled a invSlotSize := by
      intro i low _
      refine store_outside (.inr ?_)
      simp only [quad_length, sessionInvCount, sessionInventory] at *
      omega
    refine ⟨?_, fun k short => ?_, fun k slot => ?_⟩
    · simp only [count, zero_add]
      have small : (slotTexts value.children 0).length ≤ 16 := few
      exact quad_store (by omega) (by omega)
    · refine (text_congr (same _ (Nat.le_add_right _ _) _)).trans ?_
      have slot := (inside k short).2
      rw [zero_add] at slot
      exact slot
    · refine terminated_congr (same _ (Nat.le_add_right _ _) _) ?_
      by_cases used : k < (slotTexts value.children 0).length
      · have slot := (inside k used).1
        rwa [zero_add] at slot
      · refine terminated_congr (fun i low high => outside i (.inr ?_)) (zeros k slot)
        simp only [invSlotSize] at *
        omega

theorem string_fields_known : ∀ r ∈ stringFields,
    (∃ f ∈ loadedFields, f.kind = .text r.2 ∧ 0 < r.2 ∧ f.off = r.1) ∨
      ∀ s ∈ loadedRegions, Apart r s := by
  decide

/-- The bytes that no field of the file goes to. -/
theorem spared_kept {i : Nat} (spared : Spared i) :
    loadArray root (loadText root m) i = m i := by
  simp only [Spared, loadedRegions, List.mem_append, List.mem_map, List.mem_cons] at spared
  rw [array_outside (spared _ (.inr (.inr (.inl rfl)))) (spared _ (.inr (.inr (.inr (.inl rfl))))),
    text_outside (fun f member => spared _ (.inl ⟨f, member, rfl⟩))
      (spared _ (.inr (.inl rfl)))]

theorem loaded_formed : Formed (loadArray root (loadText root m)) := by
  obtain ⟨count, _, slots⟩ := @array_loaded (loadText root m) root
  have few : (loadInventory root).length ≤ invSlots := by
    unfold loadInventory
    split <;> simp
  refine ⟨by rw [count]; omega, slots, terminated_congr hash_last ?_⟩
  exact load_ended (show hashField.kind = .text 72 from rfl) (by decide)
    (terminated_zeros 72 (by decide) le_rfl)

theorem loaded_ended (ended : Ended m) : Ended (loadArray root (loadText root m)) := by
  intro r member
  rcases string_fields_known r member with ⟨f, loaded, text, some_byte, off⟩ | apart
  · have last : Agree (loadArray root (loadText root m)) (f.load root m) f.off r.2 := by
      have region := @field_last m f root loaded
      rwa [Field.size, text] at region
    have before : m.Terminated f.off r.2 := off ▸ ended r member
    exact off ▸ terminated_congr last (load_ended text some_byte before)
  · refine terminated_congr (fun i low high => spared_kept fun s within => ?_) (ended _ member)
    rcases apart s within with below | above <;> omega

/-- A load that fails leaves the whole block; one that applies keeps it well formed and writes
to no byte outside the fields it loads. -/
theorem load_block_safe (calls : LoadCalls) (m : Memory) :
    ((storeLoadBlock calls m).1 = 1 ∨
        ((storeLoadBlock calls m).1 = 0 ∨ (storeLoadBlock calls m).1 = -1) ∧
          (storeLoadBlock calls m).2 = m) ∧
      ((storeLoadBlock calls m).1 = 1 → Formed (storeLoadBlock calls m).2 ∧
        (Ended m → Ended (storeLoadBlock calls m).2) ∧
        ∀ i, Spared i → (storeLoadBlock calls m).2 i = m i) := by
  unfold storeLoadBlock
  split_ifs
  · exact ⟨.inr ⟨.inr rfl, rfl⟩, by simp⟩
  · exact ⟨.inr ⟨.inl rfl, rfl⟩, by simp⟩
  · exact ⟨.inr ⟨.inr rfl, rfl⟩, by simp⟩
  · exact ⟨.inr ⟨.inr rfl, rfl⟩, by simp⟩
  · exact ⟨.inr ⟨.inr rfl, rfl⟩, by simp⟩
  · exact ⟨.inr ⟨.inr rfl, rfl⟩, by simp⟩
  · cases calls.parsed with
    | none => exact ⟨.inr ⟨.inr rfl, rfl⟩, by simp⟩
    | some root => exact ⟨.inl rfl, fun _ => ⟨loaded_formed, loaded_ended, fun i => spared_kept⟩⟩

end Bytes

def flagWord (b : Bool) : Int := if b then 1 else 0

/-- The loaded fields of the bytes are those of the character, and the hash is the hash. -/
structure Depicts (m : Memory) (ch : Character) (hash : Bytes) : Prop where
  race : m.textAt 48 16 = ch.race
  faction : m.textAt 168 16 = ch.faction
  position : m.textAt 184 16 = ch.position
  title : m.textAt 200 48 = ch.title
  weapon : m.textAt 248 16 = ch.weapon
  room : m.quadAt 64 = ch.room
  hp : m.quadAt 72 = ch.hp
  maxHp : m.quadAt 80 = ch.maxHp
  level : m.quadAt 88 = ch.level
  xp : m.quadAt 96 = ch.xp
  gold : m.quadAt 104 = ch.gold
  morality : m.quadAt 112 = ch.morality
  addiction : m.quadAt 120 = ch.addiction
  ashsworn : m.quadAt 128 = flagWord ch.ashsworn
  strayed : m.quadAt 136 = flagWord ch.strayed
  redeemed : m.quadAt 144 = flagWord ch.redeemed
  resisted : m.quadAt 152 = flagWord ch.resisted
  hash : m.textAt sessionSecretHash 72 = hash
  count : m.quadAt sessionInvCount = ch.inventory.length
  items : ∀ k (short : k < ch.inventory.length),
    m.textAt (sessionInventory + k * invSlotSize) invSlotSize = ch.inventory[k]

section Depicted

variable {m : Memory} {root : Json} {key : String} {off : Nat}

theorem text_read {cap : Nat} {b : Bytes} (some_byte : 0 < cap) (before : m.textAt off cap = b) :
    (Field.load root ⟨key, off, .text cap⟩ m).textAt off cap = jsonString root (str key) b cap := by
  simp only [Field.load, jsonString]
  cases (root.item (str key)).bind Json.stringValue with
  | none => exact before
  | some text => exact text_store (clip_whole text _) (by rw [List.length_take]; omega)

theorem quad_range (m : Memory) (a : Nat) :
    -9223372036854775808 ≤ m.quadAt a ∧ m.quadAt a ≤ 9223372036854775807 := by
  have bytes (i : Nat) : (m i).toNat < 256 := (m i).toNat_lt
  have b0 := bytes a
  have b1 := bytes (a + 1)
  have b2 := bytes (a + 2)
  have b3 := bytes (a + 3)
  have b4 := bytes (a + 4)
  have b5 := bytes (a + 5)
  have b6 := bytes (a + 6)
  have b7 := bytes (a + 7)
  have word : m.wordAt a < 18446744073709551616 := by
    unfold wordAt
    omega
  unfold quadAt
  split <;> omega

theorem number_range (value : Json) :
    -9223372036854775808 ≤ numberValue value ∧ numberValue value ≤ 9223372036854775807 := by
  unfold numberValue truncate int64Min int64Max
  split
  · split <;> omega
  · omega

theorem number_read {n : Int} (before : m.quadAt off = n) :
    (Field.load root ⟨key, off, .number⟩ m).quadAt off = jsonNumber root (str key) n := by
  subst before
  simp only [Field.load, jsonNumber]
  cases root.item (str key) with
  | none => exact quad_store (quad_range m off).1 (quad_range m off).2
  | some value => exact quad_store (number_range value).1 (number_range value).2

theorem flag_read {b : Bool} (before : m.quadAt off = flagWord b) :
    (Field.load root ⟨key, off, .flag⟩ m).quadAt off = flagWord (jsonBool root (str key) b) := by
  simp only [Field.load, jsonBool]
  cases root.item (str key) with
  | none => exact (quad_store (quad_range m off).1 (quad_range m off).2).trans before
  | some value => exact quad_store (by split <;> omega) (by split <;> omega)

theorem text_last {cap : Nat} {b : Bytes} (member : ⟨key, off, .text cap⟩ ∈ loadedFields)
    (some_byte : 0 < cap) (before : m.textAt off cap = b) :
    (loadArray root (loadText root m)).textAt off cap = jsonString root (str key) b cap :=
  (text_congr (field_last member)).trans (text_read some_byte before)

theorem number_last {n : Int} (member : ⟨key, off, .number⟩ ∈ loadedFields)
    (before : m.quadAt off = n) :
    (loadArray root (loadText root m)).quadAt off = jsonNumber root (str key) n :=
  (quad_congr (field_last member)).trans (number_read before)

theorem flag_last {b : Bool} (member : ⟨key, off, .flag⟩ ∈ loadedFields)
    (before : m.quadAt off = flagWord b) :
    (loadArray root (loadText root m)).quadAt off = flagWord (jsonBool root (str key) b) :=
  (quad_congr (field_last member)).trans (flag_read before)

/-- The loader of the block does what the loader of the record says. -/
theorem depicted_load {ch : Character} {hash : Bytes} (root : Json) (d : Depicts m ch hash) :
    Depicts (loadArray root (loadText root m)) (loadCharacter root ch) (loadHash root) where
  race := text_last (by decide) (by decide) d.race
  faction := text_last (by decide) (by decide) d.faction
  position := text_last (by decide) (by decide) d.position
  title := text_last (by decide) (by decide) d.title
  weapon := text_last (by decide) (by decide) d.weapon
  room := number_last (by decide) d.room
  hp := number_last (by decide) d.hp
  maxHp := number_last (by decide) d.maxHp
  level := number_last (by decide) d.level
  xp := number_last (by decide) d.xp
  gold := number_last (by decide) d.gold
  morality := number_last (by decide) d.morality
  addiction := number_last (by decide) d.addiction
  ashsworn := flag_last (by decide) d.ashsworn
  strayed := flag_last (by decide) d.strayed
  redeemed := flag_last (by decide) d.redeemed
  resisted := flag_last (by decide) d.resisted
  hash := by
    have first : m.store sessionSecretHash (List.replicate 72 0) (sessionSecretHash + 0) = 0 :=
      store_inside (by decide)
    exact (text_congr hash_last).trans (text_read (by decide) (text_nil first))
  count := array_loaded.1
  items := array_loaded.2.1

/-- The record of ada, over a session block of zeros. -/
theorem depicted_load_ada : Depicts (loadArray (characterRecord ada)
      (loadText (characterRecord ada) fun _ => 0))
    (loadCharacter (characterRecord ada) {}) (loadHash (characterRecord ada)) :=
  @depicted_load (fun _ => 0) {} [] (characterRecord ada)
    ⟨rfl, rfl, rfl, rfl, rfl, rfl, rfl, rfl, rfl, rfl, rfl, rfl, rfl, rfl, rfl, rfl, rfl, rfl, rfl,
      fun _ short => absurd short (Nat.not_lt_zero _)⟩

end Depicted

section RoundTrip

theorem cut_fits_field {cap : Nat} {b : Bytes} (fits : FitsField cap b) :
    (cstr b).take (cap - 1) = b :=
  safe_copy_fits fits

theorem string_back (s : Session) (key : String) {b dest : Bytes} {cap : Nat}
    (fits : FitsField cap b) (there : (characterRecord s).item (str key) = some (.str b)) :
    jsonString (characterRecord s) (str key) dest cap = b := by
  rw [jsonString, there]
  exact cut_fits_field fits

theorem stored_number_back (s : Session) (key : String) {n fallback : Int} (held : Exact n)
    (there : (characterRecord s).item (str key) = some (.num (toDouble n))) :
    jsonNumber (characterRecord s) (str key) fallback = n := by
  rw [jsonNumber, there]
  exact number_back held

/-- The array loop of the loader undoes that of the saver. -/
theorem inventory_back {s : Session} (fits : FitsFile s) :
    loadInventory (characterRecord s) = s.inventory := by
  have there : (characterRecord s).item (str "inventory") =
      some (.arr (((s.inventory.take invSlots).filter (· ≠ [])).map Json.str)) := rfl
  have all : (s.inventory.take invSlots).filter (· ≠ []) = s.inventory := by
    rw [List.take_of_length_le fits.count, List.filter_eq_self]
    intro item member
    exact decide_eq_true (fits.items item member).1
  have strings : (s.inventory.map Json.str).filterMap Json.stringValue = s.inventory := by
    rw [List.filterMap_map]
    exact List.filterMap_some
  rw [loadInventory, there, all]
  simp only [Json.children, strings, List.take_of_length_le fits.count]
  refine List.map_congr_left (fun item member => ?_) |>.trans (List.map_id _)
  exact cut_fits_field (fits.items item member).2

theorem character_back {s : Session} (fits : FitsFile s) (into : Session) :
    { into with
      toCharacter := loadCharacter (characterRecord s) into.toCharacter
      secretHash := loadHash (characterRecord s) } = into.restored s := by
  simp only [loadCharacter, loadHash, string_back s "race" fits.race rfl,
    string_back s "faction" fits.faction rfl, string_back s "position" fits.position rfl,
    string_back s "title" fits.title rfl, string_back s "weapon" fits.weapon rfl,
    string_back s "secretHash" fits.secretHash rfl, stored_number_back s "roomIndex" fits.room rfl,
    stored_number_back s "hp" fits.hp rfl, stored_number_back s "maxHp" fits.maxHp rfl,
    stored_number_back s "level" fits.level rfl, stored_number_back s "xp" fits.xp rfl,
    stored_number_back s "gold" fits.gold rfl, stored_number_back s "morality" fits.morality rfl,
    stored_number_back s "addiction" fits.addiction rfl, inventory_back fits]
  rfl

/-- A save whose calls all succeed, and a load from the same file at any later time into any
block of that name: the saved fields are restored and no other field changes. -/
theorem saved_then_loaded (env env' : Env) (c d : Block) (g later : Server) (key : Bytes)
    (fits : FitsFile (g.blocks c)) (path : characterPath (g.blocks c).name = some key)
    (written : env.writing g.asked = .whole) (same_name : (later.blocks d).name = (g.blocks c).name)
    (read : env'.reading later.asked = .whole) :
    ∃ saved, storeSave env c g = .ok ((), saved) ∧ saved.blocks = g.blocks ∧
      (later.disk key = saved.disk key →
        storeLoad env' d later = .ok (.applied,
          { later.setBlock d ((later.blocks d).restored (g.blocks c)) with
            asked := later.asked + 1 })) := by
  have start : session c g = .ok (g.blocks c, g) := rfl
  have asked_save :
      ask env.writing g = .ok (env.writing g.asked, { g with asked := g.asked + 1 }) :=
    rfl
  refine ⟨({ g with asked := g.asked + 1 } : Server).onDisk key
    (.json (characterRecord (g.blocks c))), ?_, rfl, fun kept => ?_⟩
  · rw [storeSave, bind_ok start]
    simp only [path]
    rw [bind_ok asked_save, written]
    rfl
  · have onfile : later.disk key = some (.json (characterRecord (g.blocks c))) := by
      rw [kept]
      exact Function.update_self ..
    have there : session d later = .ok (later.blocks d, later) := rfl
    have asked_load : ask env'.reading later =
        .ok (env'.reading later.asked, { later with asked := later.asked + 1 }) := rfl
    rw [storeLoad, bind_ok there, same_name]
    simp only [path]
    have got : (get : Act Server) { later with asked := later.asked + 1 } =
        .ok ({ later with asked := later.asked + 1 }, { later with asked := later.asked + 1 }) :=
      rfl
    rw [bind_ok asked_load, bind_ok got, read]
    simp only [onfile]
    have same : ({ later with asked := later.asked + 1 } : Server).loaded d
        (characterRecord (g.blocks c)) =
        { later.setBlock d ((later.blocks d).restored (g.blocks c)) with
          asked := later.asked + 1 } := by
      rw [Server.loaded]
      exact congrArg (fun s => { later.setBlock d s with asked := later.asked + 1 })
        (character_back fits (later.blocks d))
    exact congrArg (fun g' => Except.ok (Loaded.applied, g')) same

theorem ada_fits_file : FitsFile ada where
  race := ⟨by decide, by decide⟩
  faction := ⟨by decide, by decide⟩
  position := ⟨by decide, by decide⟩
  title := ⟨by decide, by decide⟩
  weapon := ⟨by decide, by decide⟩
  secretHash := ⟨by decide, by decide⟩
  room := by unfold Exact; decide
  hp := by unfold Exact; decide
  maxHp := by unfold Exact; decide
  level := by unfold Exact; decide
  xp := by unfold Exact; decide
  gold := by unfold Exact; decide
  morality := by unfold Exact; decide
  addiction := by unfold Exact; decide
  count := by decide
  items := by
    intro item member
    rcases List.mem_pair.mp member with rfl | rfl
    · exact ⟨by decide, by decide, by decide⟩
    · exact ⟨by decide, by decide, by decide⟩

/-- A process whose every block is of one session. -/
def hosting (s : Session) : Server := { blocks := fun _ => s, disk := fun _ => none }

theorem saved_then_loaded_ada :
    ∃ saved, storeSave quietNode 0 (hosting ada) = .ok ((), saved) ∧
      saved.blocks = (hosting ada).blocks ∧
      (((hosting { name := str "Ada" }).onDisk (str "ada") (.json (characterRecord ada))).disk
          (str "ada") = saved.disk (str "ada") →
        storeLoad quietNode 7
            ((hosting { name := str "Ada" }).onDisk (str "ada") (.json (characterRecord ada))) =
          .ok (.applied, { ((hosting { name := str "Ada" }).onDisk (str "ada")
            (.json (characterRecord ada))).setBlock 7
              (Session.restored { name := str "Ada" } ada) with asked := 1 })) :=
  saved_then_loaded quietNode quietNode 0 7 (hosting ada)
    ((hosting { name := str "Ada" }).onDisk (str "ada") (.json (characterRecord ada))) (str "ada")
    ada_fits_file (by decide) rfl rfl rfl

end RoundTrip

end HollowGrid
