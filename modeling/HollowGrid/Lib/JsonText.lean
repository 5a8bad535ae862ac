import HollowGrid.Lib.Bytes
import Mathlib.Algebra.Group.Nat.Defs
import Mathlib.Algebra.Ring.Int.Defs
import Mathlib.Data.List.TakeWhile

/-! A reader of JSON as programs print it, without blanks and with whole numbers, and
what it makes of texts that are put together from the texts of their parts. -/
namespace HollowGrid.JsonText

inductive Value
  | null
  | bool (b : Bool)
  | num (n : Int)
  | str (b : Bytes)
  | arr (items : List Value)
  | obj (fields : List (Bytes × Value))

/-- The byte that the letter of a two-byte escape stands for. -/
def shortEscape (b : UInt8) : Option UInt8 :=
  if b = 34 then some 34
  else if b = 92 then some 92
  else if b = 47 then some 47
  else if b = 98 then some 8
  else if b = 102 then some 12
  else if b = 110 then some 10
  else if b = 114 then some 13
  else if b = 116 then some 9
  else none

def hexValue (b : UInt8) : Option UInt8 :=
  if 48 ≤ b ∧ b ≤ 57 then some (b - 48)
  else if 97 ≤ b ∧ b ≤ 102 then some (b - 87)
  else if 65 ≤ b ∧ b ≤ 70 then some (b - 55)
  else none

def codeByte (high low : UInt8) : Option UInt8 :=
  (hexValue high).bind fun h =>
    (hexValue low).bind fun l => if h < 8 then some (h * 16 + l) else none

/-- The text behind an opening quote: the string, and what follows its closing quote. -/
def readString : Bytes → Option (Bytes × Bytes)
  | [] => none
  | 34 :: rest => some ([], rest)
  | 92 :: 117 :: 48 :: 48 :: high :: low :: rest =>
    (codeByte high low).bind fun b => (readString rest).map fun p => (b :: p.1, p.2)
  | 92 :: letter :: rest =>
    (shortEscape letter).bind fun b => (readString rest).map fun p => (b :: p.1, p.2)
  | b :: rest => if b < 32 then none else (readString rest).map fun p => (b :: p.1, p.2)

def digitsValue (digits : Bytes) : Nat :=
  Nat.ofDigitChars 10 (digits.map fun b => Char.ofNat b.toNat) 0

def readNatural (text : Bytes) : Option (Nat × Bytes) :=
  let digits := text.takeWhile isDigit
  if digits = [] ∨ (digits.head? = some 48 ∧ digits ≠ [48]) then none
  else some (digitsValue digits, text.dropWhile isDigit)

def readNumber : Bytes → Option (Value × Bytes)
  | 45 :: rest => (readNatural rest).map fun p => (.num (-(p.1 : Int)), p.2)
  | text => (readNatural text).map fun p => (.num p.1, p.2)

/-- What follows an opening bracket, one thing at least. -/
def readList {α : Type} (read : Bytes → Option (α × Bytes)) (closing : UInt8) :
    Nat → Bytes → Option (List α × Bytes)
  | 0, _ => none
  | fuel + 1, text =>
    (read text).bind fun first =>
      match first.2 with
      | 44 :: rest => (readList read closing fuel rest).map fun p => (first.1 :: p.1, p.2)
      | b :: rest => if b = closing then some ([first.1], rest) else none
      | [] => none

def readMember (read : Bytes → Option (Value × Bytes)) : Bytes → Option ((Bytes × Value) × Bytes)
  | 34 :: text =>
    (readString text).bind fun key =>
      match key.2 with
      | 58 :: rest => (read rest).map fun p => ((key.1, p.1), p.2)
      | _ => none
  | _ => none

def readWord (word : Bytes) (v : Value) (text : Bytes) : Option (Value × Bytes) :=
  if word.isPrefixOf text then some (v, text.drop word.length) else none

/-- One value, of the given depth and width at most. -/
def readValue : Nat → Bytes → Option (Value × Bytes)
  | 0, _ => none
  | fuel + 1, text =>
    match text with
    | 34 :: rest => (readString rest).map fun p => (.str p.1, p.2)
    | 91 :: 93 :: rest => some (.arr [], rest)
    | 91 :: rest => (readList (readValue fuel) 93 fuel rest).map fun p => (.arr p.1, p.2)
    | 123 :: 125 :: rest => some (.obj [], rest)
    | 123 :: rest =>
      (readList (readMember (readValue fuel)) 125 fuel rest).map fun p => (.obj p.1, p.2)
    | _ =>
      (readWord (HollowGrid.str "null") .null text).orElse fun _ =>
        (readWord (HollowGrid.str "true") (.bool true) text).orElse fun _ =>
          (readWord (HollowGrid.str "false") (.bool false) text).orElse fun _ => readNumber text

/-- The whole text is one value. A text is deeper than it is long in no case. -/
def parse (text : Bytes) : Option Value :=
  match readValue (text.length + 1) text with
  | some (v, []) => some v
  | _ => none

def Stops (rest : Bytes) : Prop := ∀ b, rest.head? = some b → isDigit b = false

theorem stops_cons {b : UInt8} (rest : Bytes) (mark : isDigit b = false) : Stops (b :: rest) := by
  intro x first
  cases first
  exact mark

def Spells (inner b : Bytes) : Prop := ∀ rest, readString (inner ++ 34 :: rest) = some (b, rest)

theorem spells_nil : Spells [] [] := fun _ => by simp [readString]

/-- A byte that stands for itself in a string. -/
def plainByte (b : UInt8) : Bool := 32 ≤ b && b != 34 && b != 92

theorem read_plain {x : UInt8} (plain : plainByte x = true) (rest : Bytes) :
    readString (x :: rest) = (readString rest).map fun p => (x :: p.1, p.2) := by
  simp only [plainByte, Bool.and_eq_true, decide_eq_true_eq, bne_iff_ne] at plain
  obtain ⟨⟨visible, off_quote⟩, off_slash⟩ := plain
  have low : ¬x < 32 := UInt8.not_lt.mpr visible
  rw [readString.eq_def]
  split
  · contradiction
  · simp_all
  · simp_all
  · simp_all
  · rename_i same
    cases same
    rw [if_neg low]

theorem spells_plain {b : Bytes} (plain : ∀ x ∈ b, plainByte x = true) : Spells b b := by
  induction b with
  | nil => exact spells_nil
  | cons x b ih =>
    intro rest
    have tail := ih (fun y member => plain y (List.mem_cons_of_mem _ member)) rest
    rw [List.cons_append, read_plain (plain x List.mem_cons_self), tail]
    rfl

def Stands (escape : Bytes) (x : UInt8) : Prop := ∀ rest, readString (escape ++ rest) =
  (readString rest).map fun p => (x :: p.1, p.2)

theorem stands_plain {x : UInt8} (plain : plainByte x = true) : Stands [x] x := read_plain plain

theorem spells_escaped {escape : UInt8 → Bytes} (stands : ∀ x, Stands (escape x) x) (b : Bytes) :
    Spells (b.flatMap escape) b := by
  induction b with
  | nil => exact spells_nil
  | cons x b ih =>
    intro rest
    rw [List.flatMap_cons, List.append_assoc, stands x, ih rest]
    rfl

def Prints (n : Nat) (text : Bytes) (v : Value) : Prop :=
  ∀ fuel, n ≤ fuel → ∀ rest, Stops rest → readValue fuel (text ++ rest) = some (v, rest)

variable {n : Nat} {text inner b : Bytes} {v : Value}

theorem prints_more {m : Nat} (prints : Prints n text v) (more : n ≤ m) : Prints m text v :=
  fun fuel enough => prints fuel (more.trans enough)

theorem parse_prints (prints : Prints n text v) (short : n ≤ text.length + 1) :
    parse text = some v := by
  have read := prints (text.length + 1) short [] nofun
  rw [List.append_nil] at read
  rw [parse, read]

theorem prints_null : Prints 1 (str "null") .null := by
  intro fuel enough rest _
  obtain ⟨fuel, rfl⟩ := Nat.exists_eq_add_of_le' enough
  rfl

theorem prints_true : Prints 1 (str "true") (.bool true) := by
  intro fuel enough rest _
  obtain ⟨fuel, rfl⟩ := Nat.exists_eq_add_of_le' enough
  rfl

theorem prints_false : Prints 1 (str "false") (.bool false) := by
  intro fuel enough rest _
  obtain ⟨fuel, rfl⟩ := Nat.exists_eq_add_of_le' enough
  rfl

section Numbers

/-- A number is written without a 0 in front. -/
theorem lead_digit (n : Nat) (zero : (Nat.toDigits 10 n).head? = some '0') :
    Nat.toDigits 10 n = ['0'] := by
  induction n using Nat.strongRecOn with
  | ind n ih =>
    rw [Nat.toDigits_eq_if (by decide)] at zero ⊢
    by_cases small : n < 10
    · rw [if_pos small] at zero ⊢
      simpa using zero
    · rw [if_neg small] at zero
      have shorter : (Nat.toDigits 10 (n / 10)).head? = some '0' := by
        rwa [List.head?_append_of_ne_nil _ Nat.toDigits_ne_nil] at zero
      have digits := ih (n / 10) (by omega) shorter
      have value := congrArg (fun ds => Nat.ofDigitChars 10 ds 0) digits
      simp only [Nat.ofDigitChars_toDigits (by decide : 1 < 10) (Nat.le_refl 10)] at value
      have none_left : n / 10 = 0 := value
      omega

def natural (n : Nat) : Bytes := str (String.ofList (Nat.toDigits 10 n))

theorem digit_byte {c : Char} (digit : c.isDigit = true) :
    isDigit c.toNat.toUInt8 = true ∧ Char.ofNat c.toNat.toUInt8.toNat = c := by
  have range : 48 ≤ c.toNat ∧ c.toNat ≤ 57 := by
    simpa [Char.isDigit, UInt32.le_iff_toNat_le] using digit
  have byte : c.toNat.toUInt8.toNat = c.toNat := by
    simp
    omega
  constructor
  · simp only [isDigit, Bool.and_eq_true, decide_eq_true_eq, UInt8.le_iff_toNat_le, byte]
    exact range
  · rw [byte, Char.ofNat_toNat]

theorem natural_digits (n : Nat) : ∀ b ∈ natural n, isDigit b = true := by
  intro b member
  simp only [natural, str, String.toList_ofList, List.mem_map] at member
  obtain ⟨c, digit, rfl⟩ := member
  exact (digit_byte (Nat.isDigit_of_mem_toDigits (by decide) (by decide) digit)).1

theorem natural_value (n : Nat) : digitsValue (natural n) = n := by
  have same : (natural n).map (fun b => Char.ofNat b.toNat) = Nat.toDigits 10 n := by
    simp only [natural, str, String.toList_ofList, List.map_map]
    refine (List.map_congr_left fun c digit => ?_).trans (List.map_id _)
    exact (digit_byte (Nat.isDigit_of_mem_toDigits (by decide) (by decide) digit)).2
  rw [digitsValue, same, Nat.ofDigitChars_toDigits (by decide) (by decide)]

theorem read_natural (n : Nat) {rest : Bytes} (stops : Stops rest) :
    readNatural (natural n ++ rest) = some (n, rest) := by
  have digits : (natural n ++ rest).takeWhile isDigit = natural n := by
    rw [List.takeWhile_append_of_pos (natural_digits n)]
    cases rest with
    | nil => simp
    | cons b rest => simp [stops b rfl]
  have left_over : (natural n ++ rest).dropWhile isDigit = rest := by
    rw [List.dropWhile_append_of_pos (natural_digits n)]
    cases rest with
    | nil => simp
    | cons b rest => simp [stops b rfl]
  have some_digit : natural n ≠ [] := by simp [natural, str, Nat.toDigits_ne_nil]
  have lead : ¬((natural n).head? = some 48 ∧ natural n ≠ [48]) := by
    rintro ⟨zero, more⟩
    simp only [natural, str, String.toList_ofList, List.head?_map, Option.map_eq_some_iff] at zero
    obtain ⟨c, first, byte⟩ := zero
    have digit : c.isDigit = true :=
      Nat.isDigit_of_mem_toDigits (by decide) (by decide) (List.mem_of_mem_head? first)
    have nought : c = '0' := by
      have same := (digit_byte digit).2
      rw [byte] at same
      exact same.symm
    subst nought
    refine more ?_
    rw [natural, lead_digit n first]
    rfl
  rw [readNatural, digits, left_over, natural_value, if_neg]
  simp [some_digit, lead]

theorem read_digits {x : UInt8} (lead : isDigit x = true ∨ x = 45) (fuel : Nat) (text : Bytes) :
    readValue (fuel + 1) (x :: text) = readNumber (x :: text) := by
  have low : x ≤ 57 := by
    rcases lead with digit | rfl
    · simp only [isDigit, Bool.and_eq_true, decide_eq_true_eq] at digit
      exact digit.2
    · decide
  have off (y : UInt8) (high : 57 < y) : x ≠ y := by
    rintro rfl
    exact absurd high (UInt8.not_lt.mpr low)
  have quote : x ≠ 34 := by
    rintro rfl
    rcases lead with digit | dash
    · exact absurd digit (by decide)
    · exact absurd dash (by decide)
  have word (first : UInt8) (high : 57 < first) (rest : Bytes) :
      (first :: rest).isPrefixOf (x :: text) = false := by
    simp [List.isPrefixOf, (off first high).symm]
  rw [readValue]
  · have null : (str "null").isPrefixOf (x :: text) = false := word 110 (by decide) _
    have yes : (str "true").isPrefixOf (x :: text) = false := word 116 (by decide) _
    have no : (str "false").isPrefixOf (x :: text) = false := word 102 (by decide) _
    simp [readWord, null, yes, no]
  all_goals simp [quote, off 91 (by decide), off 123 (by decide)]

theorem prints_number (n : Int) : Prints 1 (decimal n) (.num n) := by
  intro fuel enough rest stops
  obtain ⟨fuel, rfl⟩ := Nat.exists_eq_add_of_le' enough
  cases n with
  | ofNat n =>
    have read := read_natural n stops
    have digits := natural_digits n
    change readValue (fuel + 1) (natural n ++ rest) = _
    cases shape : natural n with
    | nil => simp [natural, str, Nat.toDigits_ne_nil] at shape
    | cons x others =>
      rw [shape] at read digits
      have first := digits x List.mem_cons_self
      rw [List.cons_append] at read ⊢
      rw [read_digits (.inl first), readNumber, read]
      · rfl
      · rintro _ ⟨⟩
        exact absurd first (by decide)
  | negSucc n =>
    change readValue (fuel + 1) (45 :: (natural (n + 1) ++ rest)) = _
    rw [read_digits (.inr rfl), readNumber, read_natural (n + 1) stops]
    rfl

theorem natural_length {n k : Nat} (some_place : 0 < k) (below : n < 10 ^ k) :
    (natural n).length ≤ k := by
  simpa [natural, str] using (Nat.length_toDigits_le_iff (by decide) some_place).mpr below

/-- A number of a word of 64 bits takes 20 places at most. -/
theorem decimal_length {n : Int} (word : -2 ^ 63 ≤ n ∧ n < 2 ^ 63) : (decimal n).length ≤ 20 := by
  cases n with
  | ofNat n =>
    have value : Int.ofNat n = n := rfl
    have short : (natural n).length ≤ 19 := natural_length (by decide) (by omega)
    change (natural n).length ≤ 20
    omega
  | negSucc n =>
    have short : (natural (n + 1)).length ≤ 19 := natural_length (by decide) (by omega)
    change (natural (n + 1)).length + 1 ≤ 20
    omega

theorem decimal_visible (n : Int) : ∀ x ∈ decimal n, 32 ≤ x := by
  have digit (k : Nat) : ∀ x ∈ natural k, 32 ≤ x := by
    intro x member
    have range := natural_digits k x member
    simp only [isDigit, Bool.and_eq_true, decide_eq_true_eq] at range
    exact UInt8.le_trans (by decide) range.1
  cases n with
  | ofNat n => exact digit n
  | negSucc n =>
    intro x member
    rcases List.mem_cons.mp member with rfl | rest
    · decide
    · exact digit (n + 1) x rest

end Numbers

theorem prints_string (spells : Spells inner b) : Prints 1 (34 :: inner ++ [34]) (.str b) := by
  intro fuel enough rest _
  obtain ⟨fuel, rfl⟩ := Nat.exists_eq_add_of_le' enough
  have read := spells rest
  simp only [List.cons_append, List.append_assoc, List.nil_append, readValue, read, Option.map_some]

section Lists

variable {α : Type}

theorem read_list (read : Bytes → Option (α × Bytes)) (closing : UInt8) (parts : List (Bytes × α))
    (some_part : parts ≠ [])
    (reads : ∀ p ∈ parts, ∀ rest, Stops rest → read (p.1 ++ rest) = some (p.2, rest))
    (mark : isDigit closing = false) (off : closing ≠ 44) (fuel : Nat)
    (enough : parts.length ≤ fuel) (rest : Bytes) :
    readList read closing fuel ([44].intercalate (parts.map Prod.fst) ++ closing :: rest) =
      some (parts.map Prod.snd, rest) := by
  induction parts generalizing fuel with
  | nil => contradiction
  | cons first parts ih =>
    obtain ⟨fuel, rfl⟩ : ∃ k, fuel = k + 1 := ⟨fuel - 1, by simp at enough; omega⟩
    have head := reads first List.mem_cons_self
    cases parts with
    | nil =>
      have last := head (closing :: rest) (stops_cons rest mark)
      simp [readList, List.intercalate, last]
    | cons second parts =>
      have tail := ih (by simp) (fun p member => reads p (List.mem_cons_of_mem _ member)) fuel
        (by simpa using enough)
      have next := head
        (44 :: ([44].intercalate ((second :: parts).map Prod.fst) ++ closing :: rest))
        (stops_cons _ (by decide))
      have joined : [44].intercalate ((first :: second :: parts).map Prod.fst) ++ closing :: rest =
          first.1 ++ 44 ::
            ([44].intercalate ((second :: parts).map Prod.fst) ++ closing :: rest) := by
        simp [List.intercalate]
      rw [joined, readList, next, Option.bind_some]
      change (readList read closing fuel _).map _ = _
      rw [tail]
      rfl

end Lists

def arrayText (parts : List (Bytes × Value)) : Bytes :=
  91 :: [44].intercalate (parts.map Prod.fst) ++ [93]

theorem prints_array {x : UInt8} (off : x ≠ 93) (first : Bytes) (v : Value)
    (parts : List (Bytes × Value)) (good : ∀ p ∈ (x :: first, v) :: parts, Prints n p.1 p.2) :
    Prints (max n (parts.length + 1) + 1) (arrayText ((x :: first, v) :: parts))
      (.arr (v :: parts.map Prod.snd)) := by
  intro fuel enough rest _
  obtain ⟨fuel, rfl⟩ : ∃ k, fuel = k + 1 := ⟨fuel - 1, by omega⟩
  have listed := read_list (readValue fuel) 93 ((x :: first, v) :: parts) (by simp)
    (fun p member => good p member fuel (by omega)) (by decide) (by decide) fuel
    (by simp; omega) rest
  have opens : arrayText ((x :: first, v) :: parts) ++ rest =
      91 :: ([44].intercalate (((x :: first, v) :: parts).map Prod.fst) ++ 93 :: rest) := by
    simp [arrayText]
  obtain ⟨tail, begun⟩ : ∃ tail, [44].intercalate (((x :: first, v) :: parts).map Prod.fst) ++
      93 :: rest = x :: tail := by
    cases parts with
    | nil => exact ⟨_, by simp; rfl⟩
    | cons second parts => exact ⟨_, by simp [List.intercalate]; rfl⟩
  rw [opens, begun, readValue, ← begun, listed]
  · simp
  · rintro _ ⟨⟩
    exact off rfl

structure Member where
  key : Bytes
  text : Bytes
  value : Value

namespace Member

def body (m : Member) : Bytes := 34 :: m.key ++ 34 :: 58 :: m.text

structure Good (n : Nat) (m : Member) : Prop where
  key : ∀ x ∈ m.key, plainByte x = true
  text : Prints n m.text m.value

end Member

def objectText (members : List Member) : Bytes :=
  123 :: [44].intercalate (members.map Member.body) ++ [125]

/-- What every byte of the parts is and a comma too, every byte of the whole is. -/
theorem joined_bytes {P : UInt8 → Prop} (mark : P 44) {parts : List Bytes}
    (each : ∀ p ∈ parts, ∀ x ∈ p, P x) : ∀ x ∈ [44].intercalate parts, P x := by
  induction parts with
  | nil => simp
  | cons first parts ih =>
    cases parts with
    | nil =>
      rw [List.intercalate_singleton]
      exact each first List.mem_cons_self
    | cons second parts =>
      intro x member
      rw [List.intercalate_cons_cons, List.mem_append, List.mem_append] at member
      rcases member with (head | comma) | tail
      · exact each first List.mem_cons_self x head
      · exact List.mem_singleton.mp comma ▸ mark
      · exact ih (fun p listed => each p (List.mem_cons_of_mem _ listed)) x tail

theorem joined_length {bound : Nat} {parts : List Bytes} (each : ∀ p ∈ parts, p.length ≤ bound) :
    ([44].intercalate parts).length ≤ (bound + 1) * parts.length := by
  induction parts with
  | nil => simp
  | cons first parts ih =>
    have head := each first List.mem_cons_self
    cases parts with
    | nil =>
      rw [List.intercalate_singleton, List.length_singleton]
      omega
    | cons second parts =>
      have tail := ih fun p listed => each p (List.mem_cons_of_mem _ listed)
      rw [List.intercalate_cons_cons, List.length_append, List.length_append,
        List.length_singleton, List.length_cons, Nat.mul_succ]
      omega

theorem joined_count (parts : List Bytes) :
    parts.length ≤ (([44] : Bytes).intercalate parts).length + 1 := by
  induction parts with
  | nil => simp
  | cons first parts ih =>
    cases parts with
    | nil => simp
    | cons second parts =>
      rw [List.intercalate_cons_cons, List.length_append, List.length_append,
        List.length_singleton, List.length_cons]
      omega

theorem read_member {fuel : Nat} {m : Member} (good : m.Good n) (enough : n ≤ fuel) (rest : Bytes)
    (stops : Stops rest) :
    readMember (readValue fuel) (m.body ++ rest) = some ((m.key, m.value), rest) := by
  have key := spells_plain good.key (58 :: (m.text ++ rest))
  have value := good.text fuel enough rest stops
  simp only [Member.body, List.cons_append, List.append_assoc, readMember, key, Option.bind_some,
    value, Option.map_some]

theorem prints_object {members : List Member} (some_member : members ≠ [])
    (good : ∀ m ∈ members, m.Good n) :
    Prints (max n members.length + 1) (objectText members)
      (.obj (members.map fun m => (m.key, m.value))) := by
  intro fuel enough rest _
  obtain ⟨fuel, rfl⟩ : ∃ k, fuel = k + 1 := ⟨fuel - 1, by omega⟩
  have listed := read_list (readMember (readValue fuel)) 125
    (members.map fun m => (m.body, (m.key, m.value))) (by simpa using some_member)
    (by
      intro p member
      obtain ⟨m, there, rfl⟩ := List.mem_map.mp member
      exact read_member (good m there) (by omega))
    (by decide) (by decide) fuel (by simp; omega) rest
  simp only [List.map_map, Function.comp_def] at listed
  obtain ⟨first, members, rfl⟩ := List.exists_cons_of_ne_nil some_member
  have opens : objectText (first :: members) ++ rest =
      123 :: ([44].intercalate ((first :: members).map Member.body) ++ 125 :: rest) := by
    simp [objectText]
  obtain ⟨tail, quoted⟩ : ∃ tail, [44].intercalate ((first :: members).map Member.body) ++
      125 :: rest = 34 :: tail := by
    cases members with
    | nil => exact ⟨_, by simp [List.intercalate, Member.body]; rfl⟩
    | cons second members => exact ⟨_, by simp [List.intercalate, Member.body]; rfl⟩
  rw [opens, quoted]
  change (readList (readMember (readValue fuel)) 125 fuel (34 :: tail)).map _ = _
  rw [← quoted]
  simpa using congrArg (Option.map fun p => (Value.obj p.1, p.2)) listed

def rowsText (rows : List (List Member)) : Bytes :=
  91 :: [44].intercalate (rows.map objectText) ++ [93]

def rowsValue (rows : List (List Member)) : Value :=
  .arr (rows.map fun row => .obj (row.map fun m => (m.key, m.value)))

theorem prints_rows {wide : Nat} {rows : List (List Member)}
    (some_member : ∀ row ∈ rows, row ≠ [] ∧ row.length ≤ wide)
    (good : ∀ row ∈ rows, ∀ m ∈ row, m.Good n) :
    Prints (max (max n wide + 1) rows.length + 1) (rowsText rows) (rowsValue rows) := by
  cases rows with
  | nil =>
    intro fuel enough rest _
    obtain ⟨fuel, rfl⟩ : ∃ k, fuel = k + 1 := ⟨fuel - 1, by omega⟩
    rfl
  | cons first rows =>
    have each := prints_array (n := max n wide + 1) (x := 123) (by decide)
      ([44].intercalate (first.map Member.body) ++ [125])
      (.obj (first.map fun m => (m.key, m.value)))
      (rows.map fun row => (objectText row, .obj (row.map fun m => (m.key, m.value)))) (by
        intro p member
        have listed : p ∈ (first :: rows).map fun row =>
          (objectText row, Value.obj (row.map fun m => (m.key, m.value))) := member
        obtain ⟨row, there, rfl⟩ := List.mem_map.mp listed
        obtain ⟨filled, narrow⟩ := some_member row there
        exact prints_more (prints_object filled (good row there)) (by omega))
    rw [List.length_map] at each
    have same : arrayText ((objectText first, Value.obj (first.map fun m => (m.key, m.value))) ::
        rows.map fun row => (objectText row, .obj (row.map fun m => (m.key, m.value)))) =
        rowsText (first :: rows) := by
      simp [arrayText, rowsText, Function.comp_def]
    have value : Value.arr (Value.obj (first.map fun m => (m.key, m.value)) ::
        (rows.map fun row => (objectText row, Value.obj (row.map fun m => (m.key, m.value)))).map
          Prod.snd) = rowsValue (first :: rows) := by
      simp [rowsValue, Function.comp_def]
    rw [← same, ← value]
    exact prints_more each (by simp)

end HollowGrid.JsonText
