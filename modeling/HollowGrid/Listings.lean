import HollowGrid.Composed

/-! Events that list rows: how the buffers of ffi/format.c are filled, and what a client reads
in them. -/
namespace HollowGrid

open JsonText

def rowsField (key : String) (rows : List (List Member)) : Member :=
  ⟨str key, rowsText rows, rowsValue rows⟩

def jsonText {α : Type} (row : α → Text) (xs : List α) : Text :=
  lit "[" ++ (jsonRows (fun _ => row) 0 xs).flatten ++ lit "]"

theorem number_legible {n : Nat} {key : String} (named : Quotable (str key)) (number : Int)
    (deep : 1 ≤ n) : Legible n (numberMember key number) where
  good := ⟨named.plain, prints_more (prints_number number) deep⟩
  visible := decimal_visible number

section Listings

variable {α : Type} {n wide cap : Nat} {row : α → Text} {members : α → List Member} {xs : List α}

theorem rows_legible {key : String} {rows : List (List Member)} (named : Quotable (str key))
    (filled : ∀ row ∈ rows, row ≠ [] ∧ row.length ≤ wide)
    (legible : ∀ row ∈ rows, ∀ m ∈ row, Legible 1 m) (some_wide : 1 ≤ wide)
    (deep : max (wide + 1) rows.length + 1 ≤ n) : Legible n (rowsField key rows) where
  good := by
    refine ⟨named.plain, ?_⟩
    have each := prints_rows filled fun row listed m member => (legible row listed m member).good
    exact prints_more each (by omega)
  visible := by
    intro x member
    simp only [rowsField, rowsText, List.cons_append, List.mem_cons, List.mem_append,
      List.not_mem_nil, or_false] at member
    rcases member with rfl | joined | rfl
    · decide
    · refine joined_bytes (P := (32 ≤ ·)) (by decide) (fun p listed => ?_) x joined
      obtain ⟨row, there, rfl⟩ := List.mem_map.mp listed
      exact object_visible (legible row there)
    · decide

/-- Rows after the first are set off by commas. -/
theorem later_rows (same : ∀ x ∈ xs, bytes (row x) = objectText (members x)) (i : Nat) :
    bytes (jsonRows (fun _ => row) (i + 1) xs).flatten =
      (xs.map fun x => 44 :: objectText (members x)).flatten := by
  induction xs generalizing i with
  | nil => rfl
  | cons x xs ih =>
    have head := same x List.mem_cons_self
    have tail := ih (fun y member => same y (List.mem_cons_of_mem _ member)) (i + 1)
    have mark : bytes (comma (i + 1)) = [44] := by
      rw [comma, if_neg (Nat.succ_ne_zero i)]
      decide
    rw [jsonRows, List.flatten_cons, bytes_join, bytes_join, mark, head, tail]
    rfl

theorem joined_rows (parts : List Bytes) (first : Bytes) :
    ([44] : Bytes).intercalate (first :: parts) = first ++ (parts.map (44 :: ·)).flatten := by
  induction parts generalizing first with
  | nil => simp
  | cons second parts ih =>
    rw [List.intercalate_cons_cons, ih]
    simp

theorem rows_bytes (same : ∀ x ∈ xs, bytes (row x) = objectText (members x)) :
    bytes (jsonText row xs) = rowsText (xs.map members) := by
  cases xs with
  | nil => rfl
  | cons x xs =>
    have head := same x List.mem_cons_self
    have tail := later_rows (fun y member => same y (List.mem_cons_of_mem _ member)) 0
    have opens : bytes (lit "[") = [91] ∧ bytes (lit "]") = [93] ∧ bytes (comma 0) = [] := by decide
    rw [jsonText, jsonRows, List.flatten_cons, bytes_join, bytes_join, bytes_join, bytes_join,
      opens.1, opens.2.1, opens.2.2, head, tail, rowsText, List.map_cons, List.map_cons,
      joined_rows]
    simp [Function.comp_def]

theorem append_all (cap : Nat) (buf : Text) (pieces : List Text) (some_piece : pieces ≠ []) :
    fmtAppendAll cap buf pieces =
      if (buf ++ pieces.flatten).length < cap then some (buf ++ pieces.flatten) else none := by
  induction pieces generalizing buf with
  | nil => contradiction
  | cons piece rest ih =>
    rw [fmtAppendAll, fmtAppend, List.flatten_cons]
    by_cases fits : buf.length + piece.length < cap
    · rw [if_pos fits, Option.bind_some]
      by_cases last : rest = []
      · subst last
        simp [fmtAppendAll, fits]
      · rw [ih _ last, List.append_assoc]
    · have spilt : ¬(buf ++ (piece ++ rest.flatten)).length < cap := by
        simp only [List.length_append]
        omega
      rw [if_neg fits, if_neg spilt]
      rfl

theorem fmt_json (cap : Nat) (row : α → Text) (xs : List α) : fmtJson cap row xs =
    if (jsonText row xs).length < cap then some (jsonText row xs) else none := by
  rw [fmtJson, List.cons_append, append_all cap [] _ (by simp)]
  simp [jsonText]

end Listings

end HollowGrid
