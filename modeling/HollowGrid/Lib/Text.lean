import HollowGrid.Lib.Bytes

/-! Output text that remembers where each byte came from: from a string literal of
the server, from stored or received text, or from memory outside any string. -/
namespace HollowGrid

inductive Source
  | server
  | text
  | memory
  deriving DecidableEq, Repr

structure Cell where
  byte : UInt8
  source : Source
  deriving DecidableEq, Repr

abbrev Text := List Cell

def bytes (t : Text) : Bytes := t.map Cell.byte

/-- A literal of the source, or the fixed part of a format string. -/
def lit (s : String) : Text := (str s).map fun b => ⟨b, .server⟩

/-- "%s" -/
def raw (b : Bytes) : Text := b.map fun x => ⟨x, .text⟩

/-- "%ld" -/
def number (n : Int) : Text := (decimal n).map fun b => ⟨b, .server⟩

def leaked (b : Bytes) : Text := b.map fun x => ⟨x, .memory⟩

/-- The text a bounded snprintf leaves in its buffer. Its return value is the
length of the whole text. -/
def snprintf (cap : Nat) (t : Text) : Text := t.take (cap - 1)

def hexDigit (n : UInt8) : UInt8 := if n < 10 then n + 48 else n + 87

/- A text cell may stand anywhere but is never a line end, and never an @ that
opens a line. Only server cells are free. -/

def isBreak (b : UInt8) : Bool := b == carriageReturn || b == lineFeed

/-- With strict set, no byte is a CR or an LF. -/
def Clean (strict : Prop) (b : Bytes) : Prop := strict → ∀ x ∈ b, isBreak x = false

/-- x stands first in its line: at the start of the text or after a line feed. -/
def AtLineStart (before : Text) : Prop :=
  before = [] ∨ ∃ front cell, before = front ++ [cell] ∧ cell.byte = lineFeed

def Sound (strict : Prop) (t : Text) : Prop :=
  strict → ∀ before cell after, t = before ++ cell :: after → cell.source ≠ .server →
    isBreak cell.byte = false ∧ (AtLineStart before → cell.byte ≠ atSign)

def MidLine (strict : Prop) (t : Text) : Prop := strict → ¬ AtLineStart t

def Inline (strict : Prop) (t : Text) : Prop := strict → ∀ cell ∈ t, isBreak cell.byte = false

/- Conditions on a literal are put on its characters: a kernel reads these off the
literal, where taking the string apart would cost it the square of the length. -/

def charByte (c : Char) : UInt8 := c.toNat.toUInt8

/-- A literal leaves the line open: it is not empty and does not end with an LF. -/
def leavesOpen (chars : List Char) : Bool := chars.getLast?.any fun c => charByte c ≠ lineFeed

def staysInline (chars : List Char) : Bool := chars.all fun c => !isBreak (charByte c)

variable {strict : Prop}

theorem clean_of_subset {a b : Bytes} (clean : Clean strict b) (subset : ∀ x ∈ a, x ∈ b) :
    Clean strict a :=
  fun on x member => clean on x (subset x member)

theorem clean_nil : Clean strict [] := by
  intro _ x member
  cases member

theorem clean_append {a b : Bytes} (first : Clean strict a) (second : Clean strict b) :
    Clean strict (a ++ b) := by
  intro on x member
  rcases List.mem_append.mp member with h | h
  · exact first on x h
  · exact second on x h

theorem clean_take {b : Bytes} (n : Nat) (clean : Clean strict b) : Clean strict (b.take n) :=
  clean_of_subset clean fun _ => List.mem_of_mem_take

theorem clean_drop {b : Bytes} (n : Nat) (clean : Clean strict b) : Clean strict (b.drop n) :=
  clean_of_subset clean fun _ => List.mem_of_mem_drop

theorem clean_cstr {b : Bytes} (clean : Clean strict b) : Clean strict (cstr b) :=
  clean_of_subset clean fun x => take_while_subset _ b x

theorem clean_skip {b : Bytes} (p : UInt8 → Bool) (clean : Clean strict b) :
    Clean strict (skipWhile p b) :=
  clean_of_subset clean fun x => drop_while_subset p b x

theorem break_below {x : UInt8} (printable : 32 ≤ x.toNat) : isBreak x = false := by
  rw [isBreak, Bool.or_eq_false_iff, beq_eq_false_iff_ne, beq_eq_false_iff_ne]
  constructor
  · rintro rfl
    exact absurd printable (by decide)
  · rintro rfl
    exact absurd printable (by decide)

theorem sound_nil : Sound strict [] := by
  intro _ before cell after split
  simp at split

theorem sound_lax {t : Text} (off : ¬strict) : Sound strict t := fun on => absurd on off

theorem sound_server {t : Text} (server : ∀ cell ∈ t, cell.source = .server) : Sound strict t := by
  intro _ before cell after split foreign
  exact absurd (server cell (by simp [split])) foreign

theorem sound_lit (s : String) : Sound strict (lit s) := by
  refine sound_server fun cell member => ?_
  obtain ⟨_, _, rfl⟩ := List.mem_map.mp member
  rfl

theorem sound_number (n : Int) : Sound strict (number n) := by
  refine sound_server fun cell member => ?_
  obtain ⟨_, _, rfl⟩ := List.mem_map.mp member
  rfl

/-- What stands before a cell decides whether it opens a line, and text in front
of a piece can only take that away. -/
theorem line_start_tail {a b : Text} (start : AtLineStart (a ++ b)) : AtLineStart b := by
  rcases start with empty | ⟨front, cell, split, ends⟩
  · exact .inl (List.append_eq_nil_iff.mp empty).2
  · rcases b.eq_nil_or_concat with rfl | ⟨init, last, rfl⟩
    · exact .inl rfl
    · refine .inr ⟨init, last, by simp, ?_⟩
      have h : last = cell := by
        simpa using congrArg List.getLast? split
      rw [h]
      exact ends

theorem sound_append {a b : Text} (first : Sound strict a) (second : Sound strict b) :
    Sound strict (a ++ b) := by
  intro on before cell after split foreign
  rcases List.append_eq_append_iff.mp split with ⟨middle, rfl, tail⟩ | ⟨middle, rfl, tail⟩
  · obtain ⟨plain, start⟩ := second on middle cell after tail foreign
    exact ⟨plain, fun h => start (line_start_tail h)⟩
  · cases middle with
    | nil =>
      obtain ⟨plain, start⟩ := second on [] cell after (by simpa using tail.symm) foreign
      exact ⟨plain, fun _ => start (.inl rfl)⟩
    | cons x rest =>
      simp only [List.cons_append, List.cons.injEq] at tail
      obtain ⟨rfl, rfl⟩ := tail
      exact first on before cell rest rfl foreign

theorem sound_take {t : Text} (n : Nat) (sound : Sound strict t) : Sound strict (t.take n) := by
  intro on before cell after split foreign
  refine sound on before cell (after ++ t.drop n) ?_ foreign
  rw [← List.cons_append, ← List.append_assoc, ← split, List.take_append_drop]

theorem sound_snprintf {t : Text} (cap : Nat) (sound : Sound strict t) :
    Sound strict (snprintf cap t) :=
  sound_take _ sound

theorem inline_raw {b : Bytes} (clean : Clean strict b) : Inline strict (raw b) := by
  intro on cell member
  obtain ⟨x, there, rfl⟩ := List.mem_map.mp member
  exact clean on x there

theorem inline_nil : Inline strict [] := by
  intro _ cell member
  cases member

theorem str_chars (chars : List Char) : str (String.ofList chars) = chars.map charByte := by
  rw [str, String.toList_ofList]
  rfl

/-- The characters of a literal, which the kernel is slow to read out of it. -/
theorem lit_chars (chars : List Char) :
    lit (String.ofList chars) = chars.map fun c => ⟨charByte c, .server⟩ := by
  rw [lit, str_chars, List.map_map]
  rfl

theorem length_lit (chars : List Char) : (lit (String.ofList chars)).length = chars.length := by
  rw [lit, str_chars, List.length_map, List.length_map]

theorem lit_fits {cap : Nat} (chars : List Char) (short : chars.length + 3 ≤ cap) :
    (lit (String.ofList chars)).length + 3 ≤ cap := by
  rw [length_lit]
  exact short

theorem lits_fit {cap : Nat} (chars more : List Char)
    (short : chars.length + more.length + 3 ≤ cap) :
    (lit (String.ofList chars) ++ lit (String.ofList more)).length + 3 ≤ cap := by
  rw [List.length_append, length_lit, length_lit]
  exact short

theorem length_raw (b : Bytes) : (raw b).length = b.length := List.length_map ..

theorem clean_str (chars : List Char) (plain : staysInline chars = true) :
    Clean strict (str (String.ofList chars)) := by
  intro _ b member
  rw [str_chars] at member
  obtain ⟨c, there, rfl⟩ := List.mem_map.mp member
  simpa using List.all_eq_true.mp plain c there

theorem inline_lit (chars : List Char) (plain : staysInline chars = true) :
    Inline strict (lit (String.ofList chars)) := by
  intro on cell member
  obtain ⟨b, there, rfl⟩ := List.mem_map.mp member
  exact clean_str chars plain on b there

theorem mid_lit (chars : List Char) (leaves : leavesOpen chars = true) :
    MidLine strict (lit (String.ofList chars)) := by
  rw [lit, str_chars]
  rintro _ (empty | ⟨front, cell, split, ends⟩)
  · have none_left : chars = [] := by simpa using empty
    simp [leavesOpen, none_left] at leaves
  · obtain ⟨c, last, same⟩ : ∃ c, chars.getLast? = some c ∧ charByte c = cell.byte := by
      have h := congrArg (fun t => (bytes t).getLast?) split
      simpa [bytes] using h
    simp [leavesOpen, last, same, ends] at leaves

/-- The end of a text decides whether its line is open. -/
theorem mid_tail {a b : Text} (mid : MidLine strict b) : MidLine strict (a ++ b) :=
  fun on start => mid on (line_start_tail start)

theorem mid_field {a b : Text} (mid : MidLine strict a) (inline : Inline strict b) :
    MidLine strict (a ++ b) := by
  rintro on (empty | ⟨front, cell, split, ends⟩)
  · exact mid on (.inl (List.append_eq_nil_iff.mp empty).1)
  · rcases b.eq_nil_or_concat with rfl | ⟨init, last, rfl⟩
    · exact mid on (.inr ⟨front, cell, by simpa using split, ends⟩)
    · have h : last = cell := by simpa using congrArg List.getLast? split
      have plain := inline on last (by simp)
      rw [h, ends] at plain
      exact absurd plain (by decide)

theorem sound_field {a b : Text} (sound : Sound strict a) (mid : MidLine strict a)
    (inline : Inline strict b) : Sound strict (a ++ b) := by
  intro on before cell after split foreign
  rcases List.append_eq_append_iff.mp split with ⟨middle, rfl, tail⟩ | ⟨middle, rfl, tail⟩
  · have front : Inline strict middle := fun on x member => inline on x (by simp [tail, member])
    exact ⟨inline on cell (by simp [tail]), fun start => absurd start (mid_field mid front on)⟩
  · cases middle with
    | nil =>
      refine ⟨inline on cell (by simp at tail; simp [← tail]), fun start => ?_⟩
      exact absurd start (by simpa using mid on)
    | cons x rest =>
      simp only [List.cons_append, List.cons.injEq] at tail
      obtain ⟨rfl, rfl⟩ := tail
      exact sound on before cell rest rfl foreign

end HollowGrid
