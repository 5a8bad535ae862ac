import HollowGrid.Callback
import HollowGrid.Saving

/-! valid_name and the paths of asm/store.asm, compare by compare: which file a typed name
touches. -/
namespace HollowGrid

open Memory

/-- .special -/
def specialByte (al : UInt8) : Bool := if al = 45 then true else if al = 95 then true else false

def passesByte (al : UInt8) : Bool :=
  if al < 48 then specialByte al
  else if al ≤ 57 then true
  else if al < 65 then specialByte al
  else if al ≤ 90 then true
  else if al < 97 then specialByte al
  else if al ≤ 122 then true
  else specialByte al

def passesFrom : Bytes → Bool
  | [] => true
  | al :: rest => if passesByte al then passesFrom rest else false

/-- valid_name(ptr, len) on the len bytes at ptr. -/
def validNameScan (name : Bytes) : Bool :=
  if name.length < 2 then false
  else if 32 < name.length then false
  else passesFrom name

/-- A byte of [0-9A-Za-z_-]. -/
def NameByte (b : UInt8) : Prop :=
  48 ≤ b ∧ b ≤ 57 ∨ 65 ≤ b ∧ b ≤ 90 ∨ 97 ≤ b ∧ b ≤ 122 ∨ b = 95 ∨ b = 45

/-- What snprintf put whole into a buffer of cap bytes, by the int it returned. -/
def printedWhole (cap : Nat) (text : Bytes) : Option Bytes :=
  let eax := toInt32 text.length
  if eax ≤ 0 then none else if (cap : Int) ≤ eax then none else some text

/-- hg_store_init(data_dir): store_root afterwards and the result. -/
def hgStoreInit (madeData madeRoot : Bool) (storeRoot dataDir : Bytes) : Bytes × Int :=
  if !madeData then (storeRoot, -1)
  else
    let text := dataDir ++ str "/characters"
    let cut := text.take 511
    match printedWhole 512 text with
    | some _ => (cut, if madeRoot then 0 else -1)
    | none => (cut, -1)

/-- .store of one byte. -/
def loweredByte (dl : UInt8) : UInt8 := if dl < 65 then dl else if 90 < dl then dl else dl + 32

/-- .lower from rcx on, into the frame at rsp. -/
def lowerLoop (frame : Memory) (rcx : Nat) : Bytes → Memory
  | [] => frame
  | dl :: rest => lowerLoop (frame.store rcx [loweredByte dl]) (rcx + 1) rest

/-- character_path(name, out, out_cap), with the stale bytes of its frame: what out holds. -/
def characterPathInto (storeRoot : Bytes) (frame : Memory) (name : Bytes) (cap : Nat) :
    Option Bytes :=
  let rax := (cstr name).length
  if rax = 0 then none
  else if 32 < rax then none
  else
    let ended := (lowerLoop frame 0 (cstr name)).store rax [0]
    printedWhole cap (storeRoot ++ str "/" ++ ended.textAt 0 48 ++ str ".json")

/-- The two paths of hg_store_save for the bytes of SESSION_NAME. -/
def savePaths (storeRoot : Bytes) (frame : Memory) (name : Bytes) : Option (Bytes × Bytes) :=
  (characterPathInto storeRoot frame name 640).bind fun path =>
    (printedWhole 656 (path ++ str ".tmp")).map (path, ·)

/-- The path names an entry of the directory itself. -/
def DirectChild (root path : Bytes) : Prop :=
  ∃ child, path = root ++ str "/" ++ child ∧ child ≠ [] ∧ 47 ∉ child ∧ child ≠ str "." ∧
    child ≠ str ".."

section Names

variable {name : Bytes} {b : UInt8}

theorem passes_byte_iff (b : UInt8) : passesByte b = true ↔ NameByte b := by
  unfold passesByte specialByte NameByte
  grind

theorem passes_from_iff (name : Bytes) : passesFrom name = true ↔ ∀ b ∈ name, NameByte b := by
  induction name with
  | nil => simp [passesFrom]
  | cons b rest ih =>
    rw [passesFrom, List.forall_mem_cons, ← passes_byte_iff b, ← ih]
    split <;> simp_all

theorem valid_scan_iff (name : Bytes) : validNameScan name = true ↔
    2 ≤ name.length ∧ name.length ≤ 32 ∧ ∀ b ∈ name, NameByte b := by
  rw [← passes_from_iff, validNameScan]
  split
  · simp
    omega
  split
  · simp
    omega
  · rename_i long short
    exact ⟨fun pass => ⟨Nat.not_lt.mp long, Nat.not_lt.mp short, pass⟩, fun all => all.2.2⟩

theorem name_byte_iff (b : UInt8) : nameByte b = true ↔ NameByte b := by
  simp only [nameByte, NameByte, Bool.or_eq_true, Bool.and_eq_true, decide_eq_true_eq, beq_iff_eq]
  grind

/-- The compares accept the names of the model. -/
theorem scan_valid (name : Bytes) : validNameScan name = validName name := by
  rw [Bool.eq_iff_iff, valid_scan_iff]
  simp only [validName, Bool.and_eq_true, decide_eq_true_eq, List.all_eq_true, name_byte_iff,
    and_assoc]

theorem lowered_byte (b : UInt8) : loweredByte b = lowerByte b := by
  unfold loweredByte lowerByte
  grind

theorem name_byte_kept (named : NameByte b) : lowerByte b ≠ 0 ∧ lowerByte b ≠ 47 := by
  unfold NameByte at named
  unfold lowerByte
  grind

theorem name_whole (named : ∀ b ∈ name, NameByte b) : 0 ∉ name := by
  intro zero
  have byte := named 0 zero
  unfold NameByte at byte
  grind

theorem lower_apart (named : ∀ b ∈ name, NameByte b) : 0 ∉ lower name ∧ 47 ∉ lower name := by
  constructor
  · intro there
    obtain ⟨b, member, same⟩ := List.mem_map.mp there
    exact (name_byte_kept (named b member)).1 same
  · intro there
    obtain ⟨b, member, same⟩ := List.mem_map.mp there
    exact (name_byte_kept (named b member)).2 same

end Names

section Paths

variable {root name : Bytes} {frame : Memory}

theorem lower_loop_stores (frame : Memory) (rcx : Nat) (name : Bytes) :
    lowerLoop frame rcx name = frame.store rcx (lower name) := by
  induction name generalizing frame rcx with
  | nil => simp [lowerLoop, lower]
  | cons b rest ih =>
    rw [lowerLoop, ih, lowered_byte]
    exact store_append frame rcx [lowerByte b] (lower rest)

theorem lowered_text (frame : Memory) (whole : 0 ∉ lower name) (short : name.length ≤ 32) :
    ((lowerLoop frame 0 name).store name.length [0]).textAt 0 48 = lower name := by
  have size : (lower name).length = name.length := List.length_map _
  have ended := store_append frame 0 (lower name) [0]
  rw [Nat.zero_add, size] at ended
  rw [lower_loop_stores, ended]
  exact text_store whole (by omega)

theorem printed_whole {cap : Nat} {text : Bytes} (some_byte : text ≠ []) (fits : text.length < cap)
    (int : cap ≤ 2147483648) : printedWhole cap text = some text := by
  have pos := List.length_pos_iff.mpr some_byte
  have same : toInt32 text.length = text.length := by
    rw [toInt32]
    omega
  simp only [printedWhole, same]
  rw [if_neg (by omega), if_neg (by omega)]

/-- Every root that hg_store_init lets stand is the data directory's and fits its 512 bytes. -/
theorem init_root {madeData madeRoot : Bool} {old dataDir : Bytes}
    (done : (hgStoreInit madeData madeRoot old dataDir).2 = 0) :
    (hgStoreInit madeData madeRoot old dataDir).1.length ≤ 511 := by
  unfold hgStoreInit at done ⊢
  cases madeData with
  | false => cases done
  | true =>
    have cut := List.length_take_le 511 (dataDir ++ str "/characters")
    simp only [Bool.not_true, Bool.false_eq_true, if_false]
    split <;> exact cut

theorem character_length (root name : Bytes) :
    (characterFile root name).length = root.length + name.length + 6 := by
  have slash : (str "/").length = 1 := by decide
  have json : (str ".json").length = 5 := by decide
  simp only [characterFile, List.length_append, lower, List.length_map, slash, json]
  omega

theorem temp_length (root name : Bytes) :
    (tempFile root name).length = root.length + name.length + 10 := by
  have suffix : (str ".tmp").length = 4 := by decide
  rw [tempFile, List.length_append, character_length, suffix]

theorem save_paths (short : root.length ≤ 511) (frame : Memory)
    (valid : validNameScan name = true) :
    savePaths root frame name = some (characterFile root name, tempFile root name) := by
  obtain ⟨long, bound, named⟩ := (valid_scan_iff name).mp valid
  have text : cstr name = name := cstr_whole (name_whole named)
  have path_size := character_length root name
  have temp_size := temp_length root name
  have path : characterPathInto root frame name 640 = some (characterFile root name) := by
    simp only [characterPathInto, text]
    rw [if_neg (by omega), if_neg (by omega), lowered_text frame (lower_apart named).1 bound,
      ← characterFile]
    refine printed_whole (fun none => ?_) (by omega) (by decide)
    rw [none] at path_size
    simp at path_size
  have temp : printedWhole 656 (characterFile root name ++ str ".tmp") =
      some (tempFile root name) := by
    refine printed_whole (fun none => ?_) (by rw [← tempFile]; omega) (by decide)
    rw [← tempFile] at none
    rw [none] at temp_size
    simp at temp_size
  rw [savePaths, path, Option.bind_some, temp, Option.map_some]

theorem same_file_iff (root a b : Bytes) :
    characterFile root a = characterFile root b ↔ sameFold a b = true := by
  rw [same_fold_iff]
  constructor
  · exact file_inj
  · intro same
    rw [characterFile, characterFile, same]

theorem file_child (root : Bytes) (named : ∀ b ∈ name, NameByte b) :
    DirectChild root (characterFile root name) := by
  have json : (str ".json").length = 5 := by decide
  have size : 5 ≤ (lower name ++ str ".json").length := by
    rw [List.length_append, json]
    omega
  refine ⟨lower name ++ str ".json", ?_, fun same => ?_, fun slash => ?_, fun same => ?_,
    fun same => ?_⟩
  · rw [characterFile, List.append_assoc (root ++ str "/")]
  · rw [same] at size
    exact absurd size (by decide)
  · rcases List.mem_append.mp slash with inside | behind
    · exact (lower_apart named).2 inside
    · exact absurd behind (by decide)
  · rw [same] at size
    exact absurd size (by decide)
  · rw [same] at size
    exact absurd size (by decide)

end Paths

/-- Each accepted name has a file of its own but for case, a direct child of the root and no
name's temporary file. -/
theorem name_paths :
    (∀ name, validNameScan name = true ↔
      2 ≤ name.length ∧ name.length ≤ 32 ∧ ∀ b ∈ name, NameByte b) ∧
    ∀ (root : Bytes) (frame frame' : Memory) (a b : Bytes), root.length ≤ 511 →
      validNameScan a = true → validNameScan b = true →
      ∃ path temp path' temp', savePaths root frame a = some (path, temp) ∧
        savePaths root frame' b = some (path', temp') ∧
        (path = path' ↔ sameFold a b = true) ∧ DirectChild root path ∧ path ≠ temp' := by
  refine ⟨valid_scan_iff, fun root frame frame' a b short first second => ?_⟩
  refine ⟨_, _, _, _, save_paths short frame first, save_paths short frame' second,
    same_file_iff root a b, ?_, ?_⟩
  · exact file_child root ((valid_scan_iff a).mp first).2.2
  · exact (temp_no_file root b (lower a)).symm

theorem name_paths_ada : ∃ path temp path' temp',
    savePaths (str "data/characters") (fun _ => 7) (str "Ada") = some (path, temp) ∧
      savePaths (str "data/characters") (fun _ => 0) (str "aDA") = some (path', temp') ∧
      (path = path' ↔ sameFold (str "Ada") (str "aDA") = true) ∧
      DirectChild (str "data/characters") path ∧ path ≠ temp' :=
  name_paths.2 (str "data/characters") (fun _ => 7) (fun _ => 0) (str "Ada") (str "aDA")
    (by decide) (by decide) (by decide)

end HollowGrid
