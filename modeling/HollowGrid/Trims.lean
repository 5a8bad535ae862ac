import HollowGrid.Callback
import Mathlib.Data.List.TakeWhile

/-! The two loops of .receive that trim a message at its ends. -/
namespace HollowGrid

/-- A line without a space, a tab or a line end at either end. -/
structure Whole (b : Bytes) : Prop where
  some_byte : b ≠ []
  head : ∀ x, b.head? = some x → isTrail x = false
  last : ∀ x, b.getLast? = some x → isTrail x = false

section Loops

variable {w v b : Bytes}

theorem trails_not_blank {x : UInt8} (off : isTrail x = false) : isBlank x = false := by
  simp only [isTrail, isBlank, Bool.or_eq_false_iff] at off ⊢
  exact off.1.1

theorem drop_stops {p : UInt8 → Bool} (front : Bytes) {y : UInt8} (stops : p y = false)
    (rest : Bytes) :
    (front ++ y :: rest).dropWhile p = front.dropWhile p ++ y :: rest := by
  rw [List.dropWhile_append]
  split
  · rename_i empty
    rw [List.isEmpty_iff.mp empty, List.dropWhile_cons_of_neg (by simp [stops]), List.nil_append]
  · rfl

theorem tail_trimmed (whole : Whole b) (trails : ∀ x ∈ v, isTrail x = true) :
    trimTail isTrail (w ++ b ++ v) = w ++ b := by
  obtain ⟨front, y, rfl⟩ : ∃ front y, b = front ++ [y] :=
    ⟨_, _, (List.dropLast_append_getLast whole.some_byte).symm⟩
  have stops : isTrail y = false := whole.last y (by simp)
  have turned : (w ++ (front ++ [y]) ++ v).reverse =
      v.reverse ++ y :: (front.reverse ++ w.reverse) := by simp
  have gone : v.reverse.dropWhile isTrail = [] :=
    List.dropWhile_eq_nil_iff.mpr fun x member => trails x (List.mem_reverse.mp member)
  rw [trimTail, turned, drop_stops _ stops, gone]
  simp

/-- What the loops leave: the leading one stops at a line end. -/
theorem line_trimmed (whole : Whole b) (trails : ∀ x ∈ v, isTrail x = true)
    (short : (w ++ b ++ v).length ≤ 255) :
    trimmed (w ++ b ++ v) = skipWhile isBlank w ++ b := by
  obtain ⟨y, rest, rfl⟩ := List.exists_cons_of_ne_nil whole.some_byte
  have stops : isBlank y = false := trails_not_blank (whole.head y rfl)
  rw [trimmed, List.take_of_length_le short, tail_trimmed whole trails, skipWhile,
    drop_stops _ stops, skipWhile]

theorem line_itself (whole : Whole b) (short : b.length ≤ 255) : trimmed b = b := by
  have line := line_trimmed (w := []) (v := []) whole (by simp) (by simpa using short)
  simpa [skipWhile] using line

/-- Nothing but bytes to trim is the empty line. -/
theorem blank_trimmed (trails : ∀ x ∈ w, isTrail x = true) : trimmed w = [] := by
  have gone : (w.take 255).reverse.dropWhile isTrail = [] :=
    List.dropWhile_eq_nil_iff.mpr fun x member =>
      trails x (List.mem_of_mem_take (List.mem_reverse.mp member))
  rw [trimmed, trimTail, gone]
  rfl

theorem front_dropped (trails : ∀ x ∈ w, isTrail x = true) :
    skipWhile isBlank w = [] ↔ lineFeed ∉ w ∧ carriageReturn ∉ w := by
  rw [skipWhile, List.dropWhile_eq_nil_iff]
  constructor
  · intro blank
    refine ⟨fun feed => ?_, fun ret => ?_⟩
    · exact absurd (blank _ feed) (by decide)
    · exact absurd (blank _ ret) (by decide)
  · rintro ⟨no_feed, no_return⟩ x member
    have trail := trails x member
    simp only [isTrail, isBlank, Bool.or_eq_true, beq_iff_eq] at trail ⊢
    grind

end Loops

theorem received_same {one two : Bytes} (same : trimmed one = trimmed two) (env : Env) (c : Block) :
    receive env c one = receive env c two := by
  rw [receive, same, ← receive]

def choosing : Server := { blocks := fun _ => { state := .race }, disk := sharedDisk }

/-- The race that a message leaves at the menu. -/
def raceAfter (input : Bytes) : Except Fault Bytes :=
  (receive quietNode 0 input choosing).map fun done => (done.2.blocks 0).race

theorem one_chosen : raceAfter [49] = .ok (str "human") := by decide +kernel

theorem end_refused {y : UInt8} (breaks : y = lineFeed ∨ y = carriageReturn) (rest : Bytes) :
    raceChosen (y :: rest ++ [49]) = none := by
  have table : ∀ race ∈ raceTable, ∀ x, (str race).head? = some x →
      lowerByte x ≠ lineFeed ∧ lowerByte x ≠ carriageReturn := by decide +kernel
  have plain : y ≠ 0 ∧ lowerByte y = y := by rcases breaks with rfl | rfl <;> decide
  have none_fits : raceTable.find? (fun race => sameFold (cstr (y :: rest ++ [49])) (str race)) =
      none := by
    refine List.find?_eq_none.mpr fun race member same => ?_
    have letters := (same_fold_iff _ _).mp same
    cases word : str race with
    | nil => simp [word, cstr, plain.1, lower] at letters
    | cons x more =>
      have first : y = lowerByte x := by
        simp [word, cstr, plain, lower] at letters
        exact letters.1
      have off := table race member x (by rw [word]; rfl)
      rcases breaks with rfl | rfl
      · exact off.1 first.symm
      · exact off.2 first.symm
  unfold raceChosen
  split
  · simp at *
  · exact none_fits

theorem refused_keeps {input : Bytes} (refused : raceChosen (trimmed input) = none) :
    raceAfter input = .ok [] := by
  have run : receive quietNode 0 input choosing = receiveRace 0 (trimmed input)
      (choosing.setWsi 0 ((choosing.socket 0).getD 0)) := rfl
  rw [raceAfter, run, receiveRace, refused]
  rfl

/-- A message has the effect of the line in it, for every session and every line, exactly when no
line end stands in front of the line; blanks and line ends alone have the effect of nothing. -/
theorem trims_iff (w v : Bytes) (front : ∀ x ∈ w, isTrail x = true)
    (back : ∀ x ∈ v, isTrail x = true) (short : w.length + v.length < 255) :
    ((∀ env c g b, Whole b → w.length + b.length + v.length ≤ 255 →
        receive env c (w ++ b ++ v) g = receive env c b g) ↔
      lineFeed ∉ w ∧ carriageReturn ∉ w) ∧
    ∀ env c input, (∀ x ∈ input, isTrail x = true) →
      receive env c input = receive env c [] := by
  refine ⟨⟨fun same => ?_, fun plain env c g b whole fits => ?_⟩, fun env c input only => ?_⟩
  · have line : Whole [49] := ⟨by simp, by simp [isTrail, space, tab, lineFeed, carriageReturn],
      by simp [isTrail, space, tab, lineFeed, carriageReturn]⟩
    have sent := same quietNode 0 choosing [49] line (by simp; omega)
    have races : raceAfter (w ++ [49] ++ v) = .ok (str "human") := by
      rw [raceAfter, sent, ← raceAfter, one_chosen]
    have trims := line_trimmed (w := w) (v := v) line back (by simp; omega)
    rw [← front_dropped front]
    by_contra stays
    obtain ⟨y, rest, left⟩ := List.exists_cons_of_ne_nil stays
    have breaks : y = lineFeed ∨ y = carriageReturn := by
      have trail := front y ((List.dropWhile_sublist _).subset (left ▸ List.mem_cons_self ..))
      have off := List.head?_dropWhile_not isBlank w
      rw [skipWhile] at left
      rw [left] at off
      simp only [isTrail, isBlank] at trail off
      grind
    have refused : raceAfter (w ++ [49] ++ v) = .ok [] :=
      refused_keeps (by rw [trims, left, end_refused breaks])
    rw [races] at refused
    revert refused
    decide
  · have trims : trimmed (w ++ b ++ v) = b := by
      rw [line_trimmed whole back (by simp; omega), (front_dropped front).mpr plain]
      rfl
    rw [received_same (trims.trans (line_itself whole (by omega)).symm)]
  · exact received_same ((blank_trimmed only).trans (blank_trimmed (w := []) (by simp)).symm) env c

theorem trims_space : ((∀ env c g b, Whole b → [space].length + b.length + [lineFeed].length ≤ 255 →
      receive env c ([space] ++ b ++ [lineFeed]) g = receive env c b g) ↔
      lineFeed ∉ [space] ∧ carriageReturn ∉ [space]) ∧
    ∀ env c input, (∀ x ∈ input, isTrail x = true) → receive env c input = receive env c [] :=
  trims_iff [space] [lineFeed] (by simp [isTrail]) (by simp [isTrail]) (by decide)

/-- A name behind a line feed is refused. -/
theorem line_feed_refuses : ¬ ∀ (env : Env) (c : Block) (g : Server) (w b v : Bytes),
    (∀ x ∈ w, isTrail x = true) → (∀ x ∈ v, isTrail x = true) → Whole b →
    w.length + b.length + v.length ≤ 255 →
    receive env c (w ++ b ++ v) g = receive env c b g := by
  intro always
  have line : Whole (str "ada") := ⟨by decide, fun x first => Option.some.inj first ▸ by decide,
    fun x final => Option.some.inj final ▸ by decide⟩
  have same := always quietNode 0 { disk := sharedDisk } [lineFeed] (str "ada") []
    (by simp [isTrail]) (by simp) line (by decide)
  have states := congrArg (Except.map fun done : Unit × Server => (done.2.blocks 0).state) same
  revert states
  decide +kernel

end HollowGrid
