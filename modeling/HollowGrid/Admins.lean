import HollowGrid.Callback
import Mathlib.Data.List.Induction

/-! admins_ensure and hg_is_admin of asm/social_ledger.asm: the table of keepers, filled at the
first call. -/
namespace HollowGrid

structure AdminTable where
  ready : Bool := false
  admins : List Bytes := []
  deriving DecidableEq, Repr

/-- ADMINS, or the default when it is unset or empty. -/
def adminsText (env : Env) : Bytes :=
  match env.admins with
  | none => str "skyphusion"
  | some text => if cstr text = [] then str "skyphusion" else cstr text

def adminsEnsure (env : Env) (t : AdminTable) : AdminTable :=
  if t.ready then t else ⟨true, adminWords 16 (adminsText env)⟩

def hgIsAdmin (env : Env) (t : AdminTable) (name : Ptr) : Bool × AdminTable :=
  let t := adminsEnsure env t
  (name.any fun name => t.admins.any fun admin => sameFold admin name, t)

/-- The table after a run of calls. -/
def tableAfter (env : Env) (calls : List Ptr) : AdminTable :=
  calls.foldl (fun t name => (hgIsAdmin env t name).2) {}

/-- The maximal runs of bytes other than comma, space and tab, in order. -/
def runsOf (text : Bytes) : List Bytes := (text.splitOnP isSeparator).filter fun run => run ≠ []

/-- The name is one of the first 16 in full. -/
def NamedKeeper (env : Env) (name : Bytes) : Prop :=
  ∃ run ∈ (runsOf (adminsText env)).take 16, sameFold run name = true

/-- The name is the first 32 bytes of a longer one of the first 16. -/
def ClippedKeeper (env : Env) (name : Bytes) : Prop :=
  ∃ run ∈ (runsOf (adminsText env)).take 16, 32 < run.length ∧ sameFold (run.take 32) name = true

instance (env : Env) (name : Bytes) : Decidable (NamedKeeper env name) :=
  inferInstanceAs (Decidable (∃ run ∈ (runsOf (adminsText env)).take 16, sameFold run name = true))

section Words

theorem runs_skip (text : Bytes) : runsOf (skipWhile isSeparator text) = runsOf text := by
  induction text with
  | nil => rfl
  | cons b rest ih =>
    by_cases separates : isSeparator b = true
    · have cut : runsOf (b :: rest) = runsOf rest := by
        simp [runsOf, List.splitOnP_cons_eq_if_modifyHead, separates]
      rw [cut, ← ih]
      simp [skipWhile, separates]
    · simp [skipWhile, separates]

theorem runs_word {b : UInt8} {rest : Bytes} (letter : isSeparator b = false) :
    runsOf (b :: rest) = ((b :: rest).takeWhile fun x => !isSeparator x) ::
      runsOf (skipWhile (fun x => !isSeparator x) (b :: rest)) := by
  have parts := List.takeWhile_append_dropWhile (p := fun x => !isSeparator x) (l := b :: rest)
  have plain : ∀ x ∈ (b :: rest).takeWhile fun x => !isSeparator x, isSeparator x = false := by
    intro x member
    have passes := List.all_takeWhile (p := fun x => !isSeparator x) (l := b :: rest)
    simpa using List.all_eq_true.mp passes x member
  have some_byte : ((b :: rest).takeWhile fun x => !isSeparator x) ≠ [] := by simp [letter]
  unfold skipWhile
  generalize (b :: rest).takeWhile (fun x => !isSeparator x) = word at *
  cases behind : (b :: rest).dropWhile fun x => !isSeparator x with
  | nil =>
    rw [behind, List.append_nil] at parts
    rw [← parts, runsOf, List.splitOnP_eq_singleton plain]
    simp [some_byte, runsOf]
  | cons sep more =>
    have separates : isSeparator sep = true := by
      have stops := List.head?_dropWhile_not (fun x => !isSeparator x) (b :: rest)
      rw [behind] at stops
      simpa using stops
    rw [behind] at parts
    rw [← parts, runsOf, List.splitOnP_append_cons_of_forall_mem plain sep separates]
    simp [some_byte, runsOf, List.splitOnP_cons_eq_if_modifyHead, separates]

/-- The tokenizer takes the first runs, each cut to what its slot holds. -/
theorem admin_words_runs (n : Nat) (text : Bytes) :
    adminWords n text = ((runsOf text).take n).map fun run => run.take 32 := by
  induction n generalizing text with
  | zero => rfl
  | succ n ih =>
    rw [← runs_skip, adminWords]
    cases start : skipWhile isSeparator text with
    | nil => rfl
    | cons b rest =>
      have letter : isSeparator b = false := by
        have stops := List.head?_dropWhile_not isSeparator text
        rw [skipWhile] at start
        rw [start] at stops
        simpa using stops
      rw [runs_word letter, List.take_succ_cons, List.map_cons, ← ih]

end Words

section Calls

variable {env : Env}

theorem ensure_again (calls : List Ptr) : adminsEnsure env (tableAfter env calls) =
    ⟨true, adminWords 16 (adminsText env)⟩ := by
  induction calls using List.reverseRecOn with
  | nil => rfl
  | append_singleton calls name ih =>
    rw [tableAfter, List.foldl_append, ← tableAfter, List.foldl_cons, List.foldl_nil, hgIsAdmin]
    simp only [ih]
    rfl

theorem answer_runs (calls : List Ptr) (name : Bytes) :
    (hgIsAdmin env (tableAfter env calls) (some name)).1 = true ↔
      ∃ run ∈ (runsOf (adminsText env)).take 16, sameFold (run.take 32) name = true := by
  simp [hgIsAdmin, ensure_again, admin_words_runs, -List.map_take]

theorem answer_cases (calls : List Ptr) (name : Bytes) :
    (hgIsAdmin env (tableAfter env calls) (some name)).1 = true ↔
      (∃ run ∈ (runsOf (adminsText env)).take 16, run.length ≤ 32 ∧ sameFold run name = true) ∨
        ClippedKeeper env name := by
  rw [answer_runs]
  constructor
  · rintro ⟨run, member, same⟩
    by_cases short : run.length ≤ 32
    · rw [List.take_of_length_le short] at same
      exact .inl ⟨run, member, short, same⟩
    · exact .inr ⟨run, member, by omega, same⟩
  · rintro (⟨run, member, short, same⟩ | ⟨run, member, -, same⟩)
    · exact ⟨run, member, by rw [List.take_of_length_le short, same]⟩
    · exact ⟨run, member, same⟩

end Calls

/-- The gates of the model ask what every call answers, for an ADMINS that is a C string. -/
theorem is_admin_answer {env : Env} (ends : ∀ text, env.admins = some text → 0 ∉ text)
    (calls : List Ptr) (name : Bytes) :
    (hgIsAdmin env (tableAfter env calls) (some name)).1 = isAdmin env name := by
  have names : adminWords 16 (adminsText env) = adminNames env := by
    unfold adminsText adminNames
    cases given : env.admins with
    | none => rfl
    | some text =>
      cases text with
      | nil => rfl
      | cons b rest =>
        have other : b ≠ 0 := by
          rintro rfl
          exact ends _ given (List.mem_cons_self ..)
        simp [cstr, other]
  simp only [hgIsAdmin, ensure_again, names, Option.any_some, isAdmin]

/-- A call names the keepers of the list exactly, the first and every later one, unless the name
is the start of an over-long word and no word of its own. -/
theorem admin_named_iff (env : Env) (calls : List Ptr) {name : Bytes}
    (valid : validName name = true) :
    ((hgIsAdmin env (tableAfter env calls) (some name)).1 = true ↔ NamedKeeper env name) ↔
      (ClippedKeeper env name → NamedKeeper env name) := by
  have short : name.length ≤ 32 := by
    simp only [validName, Bool.and_eq_true, decide_eq_true_eq] at valid
    exact valid.1.2
  have named : NamedKeeper env name ↔
      ∃ run ∈ (runsOf (adminsText env)).take 16, run.length ≤ 32 ∧ sameFold run name = true := by
    constructor
    · rintro ⟨run, member, same⟩
      have long : run.length = name.length := by
        simpa [lower] using congrArg List.length ((same_fold_iff _ _).mp same)
      exact ⟨run, member, by omega, same⟩
    · rintro ⟨run, member, -, same⟩
      exact ⟨run, member, same⟩
  rw [answer_cases, ← named]
  tauto

theorem admin_named_keeper :
    ((hgIsAdmin quietNode (tableAfter quietNode []) (some (str "Keeper"))).1 = true ↔
      NamedKeeper quietNode (str "Keeper")) ↔
    (ClippedKeeper quietNode (str "Keeper") → NamedKeeper quietNode (str "Keeper")) :=
  admin_named_iff quietNode [] (by decide)

/-- A player whose name is the start of an over-long word is a keeper. -/
theorem clipped_word_admits : ¬ ∀ (env : Env) (calls : List Ptr) (name : Bytes),
    validName name = true →
    ((hgIsAdmin env (tableAfter env calls) (some name)).1 = true ↔ NamedKeeper env name) := by
  intro always
  have keeper := always { quietNode with admins := some (List.replicate 33 97) } []
    (List.replicate 32 97) (by decide)
  revert keeper
  decide +kernel

end HollowGrid
