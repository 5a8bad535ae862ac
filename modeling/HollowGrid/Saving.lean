import HollowGrid.Lib.Files
import HollowGrid.Lib.Memory
import HollowGrid.Store

/-! hg_store_save call by call: the temporary file, the write loop and the rename. -/
namespace HollowGrid

open Files

structure WriteAnswer where
  took : Int
  rsi : Nat

/-- A write takes at most what it is given. -/
def WriteAnswer.count (w : WriteAnswer) (n : Nat) : Nat := min w.took.toNat n

/-- What the calls of one save answer. -/
structure SaveAnswers where
  /-- cJSON_PrintUnformatted, none when it or a cJSON call before it fails. -/
  prints : Json → Option Bytes
  /-- The address of the text. -/
  heap : Nat
  memory : Memory
  opens : Bool
  wrote : Nat → WriteAnswer
  syncs : Bool
  closes : Bool
  renames : Bool
  rootOpens : Bool
  rootSyncs : Bool

/-- character_path_fmt -/
def characterFile (root name : Bytes) : Bytes := root ++ str "/" ++ lower name ++ str ".json"

/-- temp_path_fmt -/
def tempFile (root name : Bytes) : Bytes := characterFile root name ++ str ".tmp"

/-- .write_loop. Nothing of the loop sets rsi but the call, and the add after it. There are
as many rounds as bytes left, which is enough: each takes one at least. -/
def writeLoop (m : Memory) (wrote : Nat → WriteAnswer) : Nat → Nat → Nat → Nat → List Bytes × Bool
  | 0, _, _, _ => ([], true)
  | rounds + 1, k, rsi, left =>
    if left = 0 then ([], true)
    else
      let took := (wrote k).count left
      if took = 0 then ([], false)
      else
        let rest := writeLoop m wrote rounds (k + 1)
          (((wrote k).rsi + took) % 18446744073709551616) (left - took)
        (m.bytesAt rsi took :: rest.1, rest.2)

def done (ok : Bool) (call : Call Bytes) : Call Bytes := if ok then call else .failed

/-- .write_ok and on. -/
def finishSave (root temp final : Bytes) (a : SaveAnswers) : List (Call Bytes) × Int :=
  if !a.syncs then ([.failed, .close temp], -1)
  else if !a.closes then ([.sync temp, .failed], -1)
  else if !a.renames then ([.sync temp, .close temp, .failed], -1)
  else
    ([.sync temp, .close temp, .rename temp final] ++
      if a.rootOpens then [.opened root, done a.rootSyncs (.sync root), .close root]
      else [.failed], 0)

def writeFile (root temp final text : Bytes) (a : SaveAnswers) : List (Call Bytes) × Int :=
  if !a.opens then ([.failed], -1)
  else
    let m := a.memory.store a.heap (text ++ [0])
    let loop := writeLoop m a.wrote text.length 0 a.heap text.length
    let opened := .create temp :: loop.1.map (.append temp)
    if loop.2 then
      let rest := finishSave root temp final a
      (opened ++ rest.1, rest.2)
    else (opened ++ [.failed, .close temp], -1)

/-- character_path or the snprintf of the temporary path fails. -/
def Pathless (root name : Bytes) : Prop :=
  characterPath name = none ∨ 640 ≤ (characterFile root name).length ∨
    656 ≤ (tempFile root name).length

instance (root name : Bytes) : Decidable (Pathless root name) :=
  inferInstanceAs (Decidable (_ ∨ _ ∨ _))

/-- hg_store_save: the calls that reach the file system, and what it returns. -/
def saveCalls (root : Bytes) (s : Session) (a : SaveAnswers) : List (Call Bytes) × Int :=
  if Pathless root s.name then ([], -1)
  else match a.prints (characterRecord s) with
    | none => ([], -1)
    | some text => writeFile root (tempFile root s.name) (characterFile root s.name) (cstr text) a

/-- What a save promises: at any point the file is the old one or all of the new text on
disk, 0 comes after the rename of a whole text, and -1 leaves the file. -/
structure SaveSafe (files : Bytes → Option Entry) (temp final : Bytes) (text : Option Bytes)
    (save : List (Call Bytes) × Int) : Prop where
  crash : ∀ n, after files (save.1.take n) final = files final ∨
    after files (save.1.take n) final = text.map fun t => ⟨t, true⟩
  returned : save.2 = 0 ∨ save.2 = -1
  saved : save.2 = 0 → ∃ parts back, save.1 = written temp parts ++ .rename temp final :: back ∧
    some parts.flatten = text
  refused : save.2 = -1 → after files save.1 final = files final

section Loop

variable (wrote : Nat → WriteAnswer) (heap size : Nat)

/-- The bytes written before a call of the loop. -/
def behind : Nat → Nat
  | 0 => 0
  | k + 1 => behind k + (wrote k).count (size - behind k)

/-- The address that a call of the loop writes from. -/
def aimed : Nat → Nat
  | 0 => heap
  | k + 1 =>
    ((wrote k).rsi + (wrote k).count (size - behind wrote size k)) % 18446744073709551616

def AllTake : Prop :=
  ∀ k, behind wrote size k < size → 0 < (wrote k).count (size - behind wrote size k)

end Loop

/-- Every call of the loop finds in rsi an address of bytes that are the text's next ones. -/
def Resumes (m : Memory) (wrote : Nat → WriteAnswer) (heap : Nat) (text : Bytes) : Prop :=
  ∀ k, behind wrote text.length k < text.length →
    m.bytesAt (aimed wrote heap text.length k)
        ((wrote k).count (text.length - behind wrote text.length k)) =
      (text.drop (behind wrote text.length k)).take
        ((wrote k).count (text.length - behind wrote text.length k))

structure GoesThrough (a : SaveAnswers) (text : Bytes) : Prop where
  opens : a.opens = true
  takes : AllTake a.wrote text.length
  syncs : a.syncs = true
  closes : a.closes = true
  renames : a.renames = true

/-- A call of the save fails, or every write of its loop is aimed at the rest of the text. -/
def AimsRight (root : Bytes) (s : Session) (a : SaveAnswers) : Prop :=
  ∀ text, ¬Pathless root s.name → a.prints (characterRecord s) = some text →
    GoesThrough a (cstr text) →
      Resumes (a.memory.store a.heap (cstr text ++ [0])) a.wrote a.heap (cstr text)

section LoopRuns

variable {m : Memory} {wrote : Nat → WriteAnswer} {heap : Nat} {text : Bytes} {size : Nat}

theorem behind_short (wrote : Nat → WriteAnswer) (size k : Nat) : behind wrote size k ≤ size := by
  induction k with
  | zero => exact Nat.zero_le size
  | succ k ih =>
    rw [behind, WriteAnswer.count]
    omega

theorem behind_mono (wrote : Nat → WriteAnswer) (size : Nat) {k j : Nat} (later : k ≤ j) :
    behind wrote size k ≤ behind wrote size j := by
  induction later with
  | refl => exact Nat.le_refl _
  | step _ ih => exact ih.trans (Nat.le_add_right _ _)

/-- After the last byte there is no call to make. -/
theorem spent_after {wrote : Nat → WriteAnswer} {size k j : Nat}
    (spent : size - behind wrote size k = 0) (later : k ≤ j) : ¬behind wrote size j < size := by
  have grown := behind_mono wrote size later
  omega

theorem from_next {P : Nat → Prop} (k : Nat) :
    (∀ j, k ≤ j → P j) ↔ P k ∧ ∀ j, k + 1 ≤ j → P j := by
  constructor
  · exact fun all => ⟨all k (Nat.le_refl k), fun j later => all j (Nat.le_of_succ_le later)⟩
  · rintro ⟨first, rest⟩ j later
    obtain rfl | later := Nat.eq_or_lt_of_le later
    · exact first
    · exact rest j later

theorem bytes_length (m : Memory) (a n : Nat) : (m.bytesAt a n).length = n := by
  simp [Memory.bytesAt]

/-- The loop from its k-th call on ends well when every call takes something. -/
theorem loop_ends (m : Memory) (wrote : Nat → WriteAnswer) (heap size rounds k : Nat)
    (enough : size - behind wrote size k ≤ rounds) :
    (writeLoop m wrote rounds k (aimed wrote heap size k) (size - behind wrote size k)).2 = true ↔
      ∀ j, k ≤ j → behind wrote size j < size →
        0 < (wrote j).count (size - behind wrote size j) := by
  induction rounds generalizing k with
  | zero =>
    have spent := Nat.le_zero.mp enough
    exact ⟨fun _ j later inside => absurd inside (spent_after spent later), fun _ => rfl⟩
  | succ rounds ih =>
    rw [writeLoop]
    by_cases spent : size - behind wrote size k = 0
    · rw [if_pos spent]
      exact ⟨fun _ j later inside => absurd inside (spent_after spent later), fun _ => rfl⟩
    rw [if_neg spent, from_next k]
    by_cases stuck : (wrote k).count (size - behind wrote size k) = 0
    · rw [if_pos stuck]
      refine ⟨nofun, fun all => ?_⟩
      have := all.1 (by omega)
      omega
    · rw [if_neg stuck]
      have next : size - behind wrote size k - (wrote k).count (size - behind wrote size k) =
          size - behind wrote size (k + 1) := by
        rw [behind]
        omega
      have rest := ih (k + 1) (by omega)
      rw [aimed, ← next] at rest
      refine rest.trans ⟨fun all => ⟨fun _ => by omega, all⟩, fun all => all.2⟩

theorem loop_writes (m : Memory) (wrote : Nat → WriteAnswer) (heap : Nat) (text : Bytes)
    (rounds k : Nat) (enough : text.length - behind wrote text.length k ≤ rounds)
    (ends : (writeLoop m wrote rounds k (aimed wrote heap text.length k)
      (text.length - behind wrote text.length k)).2 = true) :
    (writeLoop m wrote rounds k (aimed wrote heap text.length k)
        (text.length - behind wrote text.length k)).1.flatten =
      text.drop (behind wrote text.length k) ↔
    ∀ j, k ≤ j → behind wrote text.length j < text.length →
      m.bytesAt (aimed wrote heap text.length j)
          ((wrote j).count (text.length - behind wrote text.length j)) =
        (text.drop (behind wrote text.length j)).take
          ((wrote j).count (text.length - behind wrote text.length j)) := by
  induction rounds generalizing k with
  | zero =>
    have all : text.drop (behind wrote text.length k) = [] := List.drop_eq_nil_of_le (by omega)
    rw [writeLoop, all]
    have spent := Nat.le_zero.mp enough
    exact ⟨fun _ j later inside => absurd inside (spent_after spent later), fun _ => rfl⟩
  | succ rounds ih =>
    rw [writeLoop] at ends ⊢
    by_cases spent : text.length - behind wrote text.length k = 0
    · have all : text.drop (behind wrote text.length k) = [] := List.drop_eq_nil_of_le (by omega)
      rw [if_pos spent, all]
      exact ⟨fun _ j later inside => absurd inside (spent_after spent later), fun _ => rfl⟩
    rw [if_neg spent] at ends ⊢
    by_cases stuck : (wrote k).count (text.length - behind wrote text.length k) = 0
    · rw [if_pos stuck] at ends
      cases ends
    rw [if_neg stuck] at ends ⊢
    have next : text.length - behind wrote text.length k -
        (wrote k).count (text.length - behind wrote text.length k) =
        text.length - behind wrote text.length (k + 1) := by
      rw [behind]
      omega
    have rest := ih (k + 1) (by omega)
    rw [aimed, ← next] at rest
    rw [from_next k, ← rest ends, List.flatten_cons]
    have cut : text.drop (behind wrote text.length k) =
        (text.drop (behind wrote text.length k)).take
            ((wrote k).count (text.length - behind wrote text.length k)) ++
          text.drop (behind wrote text.length (k + 1)) := by
      rw [behind, ← List.drop_drop, List.take_append_drop]
    constructor
    · intro same
      rw [cut] at same
      obtain ⟨front, back⟩ := List.append_inj same (by simp [bytes_length, WriteAnswer.count])
      exact ⟨fun _ => front, back⟩
    · rintro ⟨front, back⟩
      rw [cut, front (by omega), back]

end LoopRuns

section Saves

variable {files : Bytes → Option Entry} {temp final root : Bytes} {calls back : List (Call Bytes)}

theorem refused_safe (text : Option Bytes) (spares : ∀ call ∈ calls, call.Spares final) :
    SaveSafe files temp final text (calls, -1) where
  crash n := .inl (taken_spared spares n)
  returned := .inr rfl
  saved := nofun
  refused _ := after_spared spares

theorem renamed_safe_iff {text : Bytes} {parts : List Bytes} (apart : temp ≠ final)
    (spares : ∀ call ∈ back, call.Spares final) :
    SaveSafe files temp final (some text) (written temp parts ++ .rename temp final :: back, 0) ↔
      parts.flatten = text := by
  constructor
  · intro safe
    obtain ⟨others, rest, same, whole⟩ := safe.saved rfl
    rw [written_inj same]
    exact Option.some.inj whole
  · rintro rfl
    refine ⟨fun n => ?_, .inl rfl, fun _ => ⟨parts, back, rfl, rfl⟩, nofun⟩
    have points := replaced files (written_spares parts apart) spares apart n
    rwa [after_synced] at points

theorem temp_apart (root name : Bytes) : tempFile root name ≠ characterFile root name := by
  intro same
  have sizes := congrArg List.length same
  have suffix : (str ".tmp").length = 4 := by decide
  rw [tempFile, List.length_append] at sizes
  omega

theorem root_apart (root name : Bytes) : root ≠ characterFile root name := by
  intro same
  have sizes := congrArg List.length same
  have slash : (str "/").length = 1 := by decide
  simp only [characterFile, List.length_append] at sizes
  omega

inductive SaveCourse (root temp final text : Bytes) (a : SaveAnswers) :
    List (Call Bytes) × Int → Prop
  | refused (calls : List (Call Bytes)) :
      (∀ path, temp ≠ path → ∀ call ∈ calls, call.Spares path) → ¬GoesThrough a text →
      SaveCourse root temp final text a (calls, -1)
  | renamed (parts : List Bytes) (back : List (Call Bytes)) :
      (∀ path, root ≠ path → ∀ call ∈ back, call.Spares path) → GoesThrough a text →
      (Resumes (a.memory.store a.heap (text ++ [0])) a.wrote a.heap text ↔ parts.flatten = text) →
      SaveCourse root temp final text a (written temp parts ++ .rename temp final :: back, 0)

theorem opened_spares (parts : List Bytes) {path : Bytes} (apart : temp ≠ path) :
    ∀ call ∈ Call.create temp :: parts.map (Call.append temp), call.Spares path :=
  fun call member => written_spares parts apart call (List.mem_append_left _ member)

theorem root_spares (a : SaveAnswers) {path : Bytes} (off : root ≠ path) :
    ∀ call ∈ (if a.rootOpens = true then
      [.opened root, done a.rootSyncs (.sync root), .close root] else [.failed]),
      call.Spares path := by
  cases a.rootOpens <;> cases a.rootSyncs <;> simp [Call.Spares, done, off]

/-- The exits of the calls, in their order. -/
theorem write_course (root temp final text : Bytes) (a : SaveAnswers) :
    SaveCourse root temp final text a (writeFile root temp final text a) := by
  cases opens : a.opens with
  | false =>
    have refused : writeFile root temp final text a = ([.failed], -1) := by simp [writeFile, opens]
    rw [refused]
    refine .refused _ (by simp [Call.Spares]) fun through => ?_
    simp [through.opens] at opens
  | true =>
    have takes := loop_ends (a.memory.store a.heap (text ++ [0])) a.wrote a.heap text.length
      text.length 0 (Nat.sub_le _ _)
    have writes := loop_writes (a.memory.store a.heap (text ++ [0])) a.wrote a.heap text
      text.length 0 (Nat.sub_le _ _)
    simp only [behind, aimed, Nat.sub_zero, List.drop_zero, Nat.zero_le, forall_const]
      at takes writes
    simp only [writeFile, opens, Bool.not_true, Bool.false_eq_true, if_false]
    generalize writeLoop (a.memory.store a.heap (text ++ [0])) a.wrote text.length 0 a.heap
      text.length = loop at takes writes ⊢
    obtain ⟨parts, ends⟩ := loop
    have exits (last : List (Call Bytes)) (spares : ∀ path, temp ≠ path → ∀ call ∈ last,
        call.Spares path) (short : ¬GoesThrough a text) :
        SaveCourse root temp final text a
          (.create temp :: parts.map (.append temp) ++ last, -1) :=
      .refused _ (fun path apart call member => (List.mem_append.mp member).elim
        (opened_spares parts apart call) (spares path apart call)) short
    cases ends with
    | false =>
      refine exits _ (by simp [Call.Spares]) fun through => ?_
      exact absurd (takes.mpr through.takes) (by simp)
    | true =>
      simp only [if_true, finishSave]
      cases syncs : a.syncs with
      | false =>
        exact exits _ (by simp [Call.Spares]) fun through => by simp [through.syncs] at syncs
      | true =>
        cases closes : a.closes with
        | false =>
          refine exits _ (by simp [Call.Spares]) fun through => ?_
          simp [through.closes] at closes
        | true =>
          cases renames : a.renames with
          | false =>
            refine exits _ (by simp [Call.Spares]) fun through => ?_
            simp [through.renames] at renames
          | true =>
            have through : GoesThrough a text := ⟨opens, takes.mp rfl, syncs, closes, renames⟩
            have course : SaveCourse root temp final text a _ :=
              .renamed parts _ (fun path off => root_spares a off) through (writes rfl).symm
            simpa [written] using course

theorem write_safe_iff (text : Bytes) (a : SaveAnswers) (apart : temp ≠ final)
    (off : root ≠ final) :
    SaveSafe files temp final (some text) (writeFile root temp final text a) ↔
      (GoesThrough a text → Resumes (a.memory.store a.heap (text ++ [0])) a.wrote a.heap text) := by
  have course := write_course root temp final text a
  generalize writeFile root temp final text a = ran at course
  cases course with
  | refused calls spares short =>
    exact iff_of_true (refused_safe _ (spares final apart)) fun through => absurd through short
  | renamed parts back spares through whole =>
    rw [renamed_safe_iff apart (spares final off), whole]
    exact ⟨fun same _ => same, fun same => same through⟩

theorem aimed_safe (files : Bytes → Option Entry) {root : Bytes} {s : Session} {a : SaveAnswers}
    (aims : AimsRight root s a) :
    SaveSafe files (tempFile root s.name) (characterFile root s.name)
      ((a.prints (characterRecord s)).map cstr) (saveCalls root s a) := by
  unfold saveCalls
  by_cases pathless : Pathless root s.name
  · rw [if_pos pathless]
    exact refused_safe _ nofun
  rw [if_neg pathless]
  cases printed : a.prints (characterRecord s) with
  | none => exact refused_safe _ nofun
  | some text =>
    rw [Option.map_some]
    exact (write_safe_iff (cstr text) a (temp_apart root s.name) (root_apart root s.name)).mpr
      (aims text pathless printed)

theorem safe_aimed {files : Bytes → Option Entry} {root : Bytes} {s : Session} {a : SaveAnswers}
    (safe : SaveSafe files (tempFile root s.name) (characterFile root s.name)
      ((a.prints (characterRecord s)).map cstr) (saveCalls root s a)) : AimsRight root s a := by
  intro text named printed through
  rw [saveCalls, if_neg named, printed, Option.map_some] at safe
  exact (write_safe_iff (cstr text) a (temp_apart root s.name) (root_apart root s.name)).mp safe
    through

/-- A save keeps its promise exactly when a call fails or every write of its loop is aimed at
the rest of the text. -/
theorem save_safe_iff (files : Bytes → Option Entry) (root : Bytes) (s : Session)
    (a : SaveAnswers) :
    SaveSafe files (tempFile root s.name) (characterFile root s.name)
        ((a.prints (characterRecord s)).map cstr) (saveCalls root s a) ↔
      AimsRight root s a :=
  ⟨safe_aimed, aimed_safe files⟩

theorem bytes_stored {m : Memory} {heap b n : Nat} {text : Bytes} (inside : b + n ≤ text.length) :
    (m.store heap (text ++ [0])).bytesAt (heap + b) n = (text.drop b).take n := by
  refine List.ext_getElem (by simp [Memory.bytesAt]; omega) fun i left right => ?_
  have small : b + i < text.length := by
    rw [bytes_length] at left
    omega
  have bound : b + i < (text ++ [0]).length := by
    rw [List.length_append]
    omega
  have byte : (m.store heap (text ++ [0])) (heap + (b + i)) = (text ++ [0])[b + i] :=
    Memory.store_inside bound
  rw [List.getElem_append_left small] at byte
  simpa [Memory.bytesAt, Nat.add_assoc] using byte

/-- Writes that leave the register as it was go on with the rest of the text. -/
theorem kept_resumes {m : Memory} {wrote : Nat → WriteAnswer} {heap : Nat} {text : Bytes}
    (low : heap + text.length < 18446744073709551616)
    (kept : ∀ k, (wrote k).rsi = aimed wrote heap text.length k) :
    Resumes (m.store heap (text ++ [0])) wrote heap text := by
  have here (k : Nat) : aimed wrote heap text.length k = heap + behind wrote text.length k := by
    induction k with
    | zero => rfl
    | succ k ih =>
      have short := behind_short wrote text.length (k + 1)
      rw [behind] at short
      rw [aimed, kept k, ih, behind, Nat.add_assoc, Nat.mod_eq_of_lt (by omega)]
  intro k inside
  rw [here k]
  refine bytes_stored ?_
  rw [WriteAnswer.count]
  omega

/-- Where no write changes the register, every save keeps its promise. -/
theorem kept_safe (files : Bytes → Option Entry) (root : Bytes) (s : Session) (a : SaveAnswers)
    (low : ∀ text, a.prints (characterRecord s) = some text →
      a.heap + (cstr text).length < 18446744073709551616)
    (kept : ∀ text, a.prints (characterRecord s) = some text →
      ∀ k, (a.wrote k).rsi = aimed a.wrote a.heap (cstr text).length k) :
    SaveSafe files (tempFile root s.name) (characterFile root s.name)
      ((a.prints (characterRecord s)).map cstr) (saveCalls root s a) :=
  aimed_safe files fun text _ printed _ => kept_resumes (low text printed) (kept text printed)

/-- The files of the characters as the loader of a name sees them. -/
def characterDisk (parse : Bytes → File) (root : Bytes)
    (files : Bytes → Option Entry) : Bytes → Option File :=
  fun key => (files (root ++ str "/" ++ key ++ str ".json")).map fun e => parse e.content

theorem temp_no_file (root name key : Bytes) :
    tempFile root name ≠ root ++ str "/" ++ key ++ str ".json" := by
  intro same
  have ends := congrArg List.getLast? same
  have p : (str ".tmp").getLast? = some 112 := by decide
  have n : (str ".json").getLast? = some 110 := by decide
  rw [tempFile, List.getLast?_append, List.getLast?_append, p, n] at ends
  simp at ends

theorem file_inj {root key other : Bytes}
    (same : root ++ str "/" ++ key ++ str ".json" = root ++ str "/" ++ other ++ str ".json") :
    key = other :=
  List.append_cancel_left (List.append_cancel_right same)

def afterWriting (g : Server) (s : Session) : Writing → Bytes → Option File
  | .whole => Function.update g.disk (lower s.name) (some (.json (characterRecord s)))
  | .fails => g.disk
  | .torn left => Function.update g.disk (lower s.name) (some left)

theorem path_lower {name key : Bytes} (path : characterPath name = some key) :
    key = lower name := by
  unfold characterPath at path
  split at path
  · cases path
  · exact (Option.some.inj path).symm

theorem save_disk (env : Env) (c : Block) (g : Server) {key : Bytes}
    (path : characterPath (g.blocks c).name = some key) :
    ∃ g', storeSave env c g = .ok ((), g') ∧
      g'.disk = afterWriting g (g.blocks c) (env.writing g.asked) := by
  have named := path_lower path
  subst named
  unfold storeSave
  rw [bind_ok (rfl : session c g = .ok (g.blocks c, g)), path]
  dsimp only
  rw [bind_ok (rfl : ask env.writing g =
    .ok (env.writing g.asked, { g with asked := g.asked + 1 }))]
  cases env.writing g.asked with
  | whole => exact ⟨_, rfl, rfl⟩
  | fails => exact ⟨_, rfl, rfl⟩
  | torn left => exact ⟨_, rfl, rfl⟩

theorem disk_kept {parse : Bytes → File} {calls : List (Call Bytes)} {name : Bytes}
    (spares : ∀ path, tempFile root name ≠ path → ∀ call ∈ calls, call.Spares path) :
    characterDisk parse root (after files calls) = characterDisk parse root files := by
  funext key
  rw [characterDisk, characterDisk, after_spared (spares _ (temp_no_file root name key))]

theorem disk_renamed (files : Bytes → Option Entry) (parse : Bytes → File) (parts : List Bytes)
    (name : Bytes)
    (spares : ∀ path, root ≠ path → ∀ call ∈ back, call.Spares path) :
    characterDisk parse root (after files (written (tempFile root name) parts ++
        .rename (tempFile root name) (characterFile root name) :: back)) =
      Function.update (characterDisk parse root files) (lower name)
        (some (parse parts.flatten)) := by
  funext key
  have off : root ≠ root ++ str "/" ++ key ++ str ".json" := by
    intro same
    have sizes := congrArg List.length same
    have slash : (str "/").length = 1 := by decide
    simp only [List.length_append] at sizes
    omega
  have last : after files (written (tempFile root name) parts ++
      .rename (tempFile root name) (characterFile root name) :: back)
        (root ++ str "/" ++ key ++ str ".json") =
      (Call.rename (tempFile root name) (characterFile root name)).apply
        (after files (written (tempFile root name) parts))
          (root ++ str "/" ++ key ++ str ".json") := by
    rw [after_append]
    exact after_spared (spares _ off)
  rw [characterDisk, last, Call.apply,
    Function.update_of_ne (temp_no_file root name key).symm]
  by_cases own : key = lower name
  · subst own
    have moved : Function.update (after files (written (tempFile root name) parts))
        (characterFile root name) (after files (written (tempFile root name) parts)
          (tempFile root name)) (root ++ str "/" ++ lower name ++ str ".json") =
        some ⟨parts.flatten, true⟩ := by
      rw [after_synced]
      exact Function.update_self (characterFile root name) _ _
    rw [moved, Function.update_self]
    rfl
  · have other : root ++ str "/" ++ key ++ str ".json" ≠ characterFile root name :=
      fun same => own (file_inj same)
    rw [Function.update_of_ne other, Function.update_of_ne own,
      after_spared (written_spares parts (temp_no_file root name key)), characterDisk]

/-- To the loader a save is one of the writings: whole or failed where the writes are aimed
right. -/
theorem save_writes (parse : Bytes → File) (files : Bytes → Option Entry) (root : Bytes)
    (a : SaveAnswers) (c : Block) (g : Server)
    (seen : characterDisk parse root files = g.disk)
    (read : ∀ text, a.prints (characterRecord (g.blocks c)) = some text →
      parse (cstr text) = .json (characterRecord (g.blocks c))) :
    ∃ w, (AimsRight root (g.blocks c) a → ∀ left, w ≠ .torn left) ∧
      ∀ env : Env, env.writing g.asked = w → ∃ g', storeSave env c g = .ok ((), g') ∧
        characterDisk parse root (after files (saveCalls root (g.blocks c) a).1) = g'.disk := by
  have fails_whole (left : File) : Writing.fails ≠ .torn left := by simp
  by_cases pathless : Pathless root (g.blocks c).name
  · refine ⟨.fails, fun _ => fails_whole, fun env writes => ?_⟩
    have unsaved : (saveCalls root (g.blocks c) a).1 = [] := by rw [saveCalls, if_pos pathless]
    rw [unsaved]
    cases path : characterPath (g.blocks c).name with
    | none =>
      refine ⟨g, ?_, seen⟩
      rw [storeSave, bind_ok (rfl : session c g = .ok (g.blocks c, g)), path]
      rfl
    | some key =>
      obtain ⟨g', ran, same⟩ := save_disk env c g path
      rw [writes] at same
      exact ⟨g', ran, seen.trans same.symm⟩
  obtain ⟨key, path⟩ : ∃ key, characterPath (g.blocks c).name = some key :=
    Option.ne_none_iff_exists'.mp fun absent => pathless (.inl absent)
  have saved (w : Writing) (disk : characterDisk parse root
      (after files (saveCalls root (g.blocks c) a).1) = afterWriting g (g.blocks c) w) :
      ∀ env : Env, env.writing g.asked = w → ∃ g', storeSave env c g = .ok ((), g') ∧
        characterDisk parse root (after files (saveCalls root (g.blocks c) a).1) = g'.disk := by
    rintro env rfl
    obtain ⟨g', ran, same⟩ := save_disk env c g path
    exact ⟨g', ran, disk.trans same.symm⟩
  cases printed : a.prints (characterRecord (g.blocks c)) with
  | none =>
    refine ⟨.fails, fun _ => fails_whole, saved .fails ?_⟩
    simpa [saveCalls, pathless, printed, after, afterWriting] using seen
  | some text =>
    have calls : saveCalls root (g.blocks c) a = writeFile root (tempFile root (g.blocks c).name)
        (characterFile root (g.blocks c).name) (cstr text) a := by
      simp only [saveCalls, if_neg pathless, printed]
    rw [calls] at saved ⊢
    have course := write_course root (tempFile root (g.blocks c).name)
      (characterFile root (g.blocks c).name) (cstr text) a
    generalize writeFile root (tempFile root (g.blocks c).name)
      (characterFile root (g.blocks c).name) (cstr text) a = ran at course saved ⊢
    cases course with
    | refused stopped spares _ =>
      exact ⟨.fails, fun _ => fails_whole, saved .fails ((disk_kept spares).trans seen)⟩
    | renamed parts back spares through whole =>
      have disk := disk_renamed files parse parts (g.blocks c).name spares
      rw [seen] at disk
      by_cases same : parts.flatten = cstr text
      · refine ⟨.whole, fun _ left => by simp, saved .whole ?_⟩
        rw [disk, same, read text printed]
        rfl
      · refine ⟨.torn (parse parts.flatten), fun aims => ?_, saved (.torn _) disk⟩
        exact absurd (whole.mp (aims text pathless printed through)) same

def adaSaved : Session := { name := str "ada", hp := 30, maxHp := 30 }

/-- Its record as cJSON prints it. -/
def adaText : Bytes :=
  str ("\x7b\"name\":\"ada\",\"race\":\"\",\"faction\":\"\",\"position\":\"\",\"title\":\"\"," ++
    "\"weapon\":\"\",\"roomIndex\":0,\"hp\":30,\"maxHp\":30,\"level\":0,\"xp\":0,\"gold\":0," ++
    "\"morality\":0,\"addiction\":0,\"ashsworn\":false,\"strayed\":false," ++
    "\"redeemed\":false,\"resisted\":false,\"secretHash\":\"\",\"inventory\":[]\x7d")

/-- The first write takes five bytes and leaves 0 in rsi. -/
def shortWrite : SaveAnswers where
  prints := fun _ => some adaText
  heap := 4096
  memory := fun _ => 0
  opens := true
  wrote := fun k => ⟨if k = 0 then 5 else 4096, 0⟩
  syncs := true
  closes := true
  renames := true
  rootOpens := true
  rootSyncs := true

def readsAda (text : Bytes) : File :=
  if text = adaText then .json (characterRecord adaSaved) else .unreadable

/-- A short write is one of the writings. -/
theorem save_writes_short : ∃ w, ∀ env : Env, env.writing 0 = w → ∃ g',
    storeSave env 0 { disk := fun _ => none, blocks := fun _ => adaSaved } = .ok ((), g') ∧
    characterDisk readsAda (str "data") (after (fun _ => none)
      (saveCalls (str "data") adaSaved shortWrite).1) = g'.disk := by
  have whole : cstr adaText = adaText := by decide +kernel
  obtain ⟨w, _, wrote⟩ := save_writes readsAda (fun _ => none) (str "data") shortWrite 0
    { disk := fun _ => none, blocks := fun _ => adaSaved } rfl fun text printed => by
      have same : text = adaText := (Option.some.inj printed).symm
      rw [same, whole, readsAda]
      exact if_pos rfl
  exact ⟨w, wrote⟩

/-- The file of ada is renamed with five bytes of its text. -/
theorem short_write_tears : ¬ ∀ (files : Bytes → Option Entry) (root : Bytes) (s : Session)
    (a : SaveAnswers), SaveSafe files (tempFile root s.name) (characterFile root s.name)
      ((a.prints (characterRecord s)).map cstr) (saveCalls root s a) := by
  intro always
  have safe := always (fun _ => none) (str "data/characters") adaSaved shortWrite
  have torn : after (fun _ => none)
      ((saveCalls (str "data/characters") adaSaved shortWrite).1.take 9)
      (characterFile (str "data/characters") adaSaved.name) ∉
        [none, (shortWrite.prints (characterRecord adaSaved)).map fun t => ⟨cstr t, true⟩] := by
    decide +kernel
  rcases safe.crash 9 with old | new
  · exact torn (by simp [old])
  · refine torn (List.mem_cons_of_mem _ (List.mem_singleton.mpr ?_))
    rwa [Option.map_map] at new

end Saves

end HollowGrid
