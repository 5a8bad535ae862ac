import HollowGrid.Callback
import HollowGrid.Lib.Heads
import HollowGrid.Lib.JsonText

/-! Which of the texts the server queues start a world.state event, and with which phase. -/
namespace HollowGrid

/-- A tick of 64 bits. -/
def TickWord (tick : Int) : Prop := -2 ^ 63 ≤ tick ∧ tick < 2 ^ 63

def headChars : List Char :=
  ['@', 'e', 'v', 'e', 'n', 't', ' ', 'w', 'o', 'r', 'l', 'd', '.', 's', 't', 'a', 't', 'e', ' ',
    '{', '"', 't', 'i', 'c', 'k', '"', ':']

def worldHead : Text := headChars.map fun c => ⟨charByte c, .server⟩

def worldTail (phase : String) : Text :=
  lit r#","phase":""# ++ lit phase ++ lit r#"","weather":"clear"}"# ++ crlf

def RightPhase (back : Text) : Prop :=
  ∀ tick phase rest, TickWord tick → 34 ∉ str phase →
    back = number tick ++ (worldTail phase ++ rest) → str phase = str (phaseOf tick)

/-- The text neither goes on with a world.state event nor starts one. -/
def Tame (t : Text) : Prop := Sealed worldHead t

def Eventless (t : Text) : Prop := Shut worldHead t

/-- No cell of the server's own is an @. -/
def Unmarked (t : Text) : Prop := Mute worldHead t

def noAt (chars : List Char) : Bool := chars.all fun c => charByte c ≠ atSign

def parts (p chars : List Char) : Bool := (p.zip chars).any fun q => charByte q.1 ≠ charByte q.2

def everyTail (p : List Char → Bool) : List Char → Bool
  | [] => true
  | c :: rest => p (c :: rest) && everyTail p rest

def standsApart (chars : List Char) : Bool :=
  everyTail (parts · chars) headChars.tail && everyTail (parts headChars) chars

theorem world_split (tick : Int) (phase : String) :
    fmtWorldState tick phase = worldHead ++ (number tick ++ worldTail phase) := by
  have head : lit r#"@event world.state {"tick":"# = worldHead := lit_chars headChars
  simp only [fmtWorldState, worldTail, head, List.append_assoc]

section Marks

variable {a b t : Text}

theorem unmarked_of (plain : ∀ cell ∈ t, cell.source = .server → cell.byte ≠ atSign) :
    Unmarked t :=
  fun cell member => ⟨⟨atSign, .server⟩, rfl, fun same => plain cell member (same ▸ rfl)
    (same ▸ rfl)⟩

theorem unmarked_nil : Unmarked [] := mute_nil

theorem unmarked_append (first : Unmarked a) (second : Unmarked b) : Unmarked (a ++ b) :=
  mute_append first second

theorem unmarked_take (n : Nat) (unmarked : Unmarked t) : Unmarked (t.take n) :=
  mute_subset unmarked fun _ => List.mem_of_mem_take

theorem unmarked_snprintf (cap : Nat) (unmarked : Unmarked t) : Unmarked (snprintf cap t) :=
  unmarked_take _ unmarked

theorem unmarked_foreign (foreign : ∀ cell ∈ t, cell.source ≠ .server) : Unmarked t :=
  unmarked_of fun cell member server => absurd server (foreign cell member)

theorem unmarked_raw (b : Bytes) : Unmarked (raw b) := by
  refine unmarked_foreign fun cell member => ?_
  obtain ⟨x, -, rfl⟩ := List.mem_map.mp member
  exact Source.noConfusion

theorem unmarked_number (n : Int) : Unmarked (number n) := by
  refine unmarked_of fun cell member _ => ?_
  obtain ⟨x, there, rfl⟩ := List.mem_map.mp member
  have digit (k : Nat) : ∀ x ∈ JsonText.natural k, x ≠ atSign := by
    rintro x there rfl
    exact absurd (JsonText.natural_digits k _ there) (by decide)
  cases n with
  | ofNat n => exact digit n x there
  | negSucc n =>
    rcases List.mem_cons.mp there with rfl | later
    · decide
    · exact digit (n + 1) x later

theorem unmarked_lit (chars : List Char) (plain : noAt chars = true) :
    Unmarked (lit (String.ofList chars)) := by
  refine unmarked_of fun cell member _ => ?_
  rw [lit_chars] at member
  obtain ⟨c, there, rfl⟩ := List.mem_map.mp member
  simpa using List.all_eq_true.mp plain c there

end Marks

section Texts

variable {a b t : Text}

theorem head_some : worldHead ≠ [] := by
  intro none
  cases none

theorem parts_differs {p chars : List Char} (part : parts p chars = true) :
    Differs (p.map fun c => (⟨charByte c, .server⟩ : Cell))
      (chars.map fun c => ⟨charByte c, .server⟩) := by
  obtain ⟨q, member, other⟩ := List.any_eq_true.mp part
  obtain ⟨n, held, rfl⟩ := List.mem_iff_getElem.mp member
  rw [List.length_zip] at held
  have left : n < p.length := by omega
  have right : n < chars.length := by omega
  refine ⟨n, ⟨charByte p[n], .server⟩, ⟨charByte chars[n], .server⟩, ?_, ?_, fun same => ?_⟩
  · rw [List.getElem?_map, List.getElem?_eq_getElem left, Option.map_some]
  · rw [List.getElem?_map, List.getElem?_eq_getElem right, Option.map_some]
  · rw [Cell.mk.injEq] at same
    simp [same.1] at other

theorem every_tail {p : List Char → Bool} {chars : List Char} {k : Nat}
    (every : everyTail p chars = true) (inside : k < chars.length) : p (chars.drop k) = true := by
  induction chars generalizing k with
  | nil => exact absurd inside (Nat.not_lt_zero k)
  | cons c rest ih =>
    rw [everyTail, Bool.and_eq_true] at every
    cases k with
    | zero => exact every.1
    | succ k => exact ih every.2 (Nat.lt_of_succ_lt_succ inside)

theorem eventless_lit (chars : List Char) (shut : everyTail (parts headChars) chars = true) :
    Eventless (lit (String.ofList chars)) := by
  intro i within
  rw [lit_chars, List.length_map] at within
  rw [lit_chars, worldHead, ← List.map_drop]
  exact parts_differs (every_tail shut within)

theorem tame_lit (chars : List Char) (tame : standsApart chars = true) :
    Tame (lit (String.ofList chars)) := by
  rw [standsApart, Bool.and_eq_true] at tame
  refine ⟨eventless_lit chars tame.2, fun k later part => ?_⟩
  obtain ⟨k, rfl⟩ := Nat.exists_eq_succ_of_ne_zero (Nat.ne_of_gt later)
  have inside : k < headChars.tail.length := Nat.lt_of_succ_lt_succ part
  have part := every_tail tame.1 inside
  rw [List.drop_tail] at part
  rw [lit_chars, worldHead, ← List.map_drop]
  exact parts_differs part

theorem tame_append (first : Tame a) (rest : Eventless b) : Tame (a ++ b) :=
  sealed_append first rest

theorem tame_eventless (tame : Tame t) : Eventless t := tame.shut

theorem head_server : ∀ cell ∈ worldHead, cell.source = .server := by
  intro cell member
  obtain ⟨c, -, rfl⟩ := List.mem_map.mp member
  rfl

theorem raw_strange (b : Bytes) : ∀ cell ∈ raw b, cell ∉ worldHead := by
  intro cell member there
  obtain ⟨x, -, rfl⟩ := List.mem_map.mp member
  cases head_server _ there

/-- Text of others may stand before a literal. -/
theorem tame_raw (b : Bytes) (text : Tame t) : Tame (raw b ++ t) :=
  sealed_behind head_some (raw_strange b) text

theorem unmarked_eventless (unmarked : Unmarked t) : Eventless t := mute_shut unmarked

theorem eventless_nil : Eventless [] := unmarked_eventless unmarked_nil

theorem eventless_append (first : Eventless a) (second : Eventless b) : Eventless (a ++ b) :=
  shut_append first second

theorem eventless_raw (b : Bytes) : Eventless (raw b) := unmarked_eventless (unmarked_raw b)

theorem eventless_number (n : Int) : Eventless (number n) := unmarked_eventless (unmarked_number n)

theorem eventless_escape {cap : Nat} {b : Bytes} (fits : jsonEscape cap b = some t) :
    Eventless t := by
  simp only [jsonEscape, Option.ite_none_right_eq_some] at fits
  obtain ⟨_, ⟨⟩⟩ := fits
  exact eventless_raw _

theorem eventless_get {found : Option Text} (each : ∀ p, found = some p → Eventless p) :
    Eventless (found.getD []) := by
  cases found with
  | some p => exact each p rfl
  | none => exact eventless_nil

theorem eventless_escaped (cap : Nat) (b : Bytes) : Eventless (escaped cap b) :=
  eventless_get fun _ fits => eventless_escape fits

theorem tame_strange {x : Cell} (strange : x ∉ worldHead) (shut : Eventless (x :: t)) :
    Tame (x :: t) := by
  refine ⟨shut, fun k _ part => ⟨0, worldHead[k], x, ?_, rfl, fun same => ?_⟩⟩
  · rw [List.getElem?_drop, Nat.add_zero, List.getElem?_eq_getElem part]
  · exact strange (same ▸ List.getElem_mem part)

/-- A blank may stand before a letter that is in no head. -/
theorem tame_blank {x : Cell} (strange : x ∉ worldHead) (shut : Eventless (x :: t)) :
    Tame (lit " " ++ x :: t) := by
  have blank : lit " " = [⟨space, .server⟩] := lit_chars [' ']
  have within : ∀ k < 27, worldHead[k]? = some ⟨space, .server⟩ → k + 1 < 27 := by decide
  refine ⟨eventless_append (eventless_lit _ rfl) shut, fun k _ part => ?_⟩
  rw [blank, List.singleton_append]
  by_cases same : worldHead[k] = ⟨space, .server⟩
  · have next : k + 1 < worldHead.length :=
      within k part (by rw [List.getElem?_eq_getElem part, same])
    refine ⟨1, worldHead[k + 1], x, ?_, rfl, fun equal => ?_⟩
    · rw [List.getElem?_drop, List.getElem?_eq_getElem next]
    · exact strange (equal ▸ List.getElem_mem next)
  · exact ⟨0, worldHead[k], _, by simp [part], rfl, same⟩

/-- What a player does, in his own words. -/
theorem tame_emote (name b : Bytes) : Tame (raw name ++ lit " " ++ raw b ++ crlf) := by
  have rest : Eventless (raw b ++ crlf) := eventless_append (eventless_raw b) (eventless_lit _ rfl)
  have behind : Eventless (lit " " ++ (raw b ++ crlf)) :=
    eventless_append (eventless_lit _ rfl) rest
  rw [List.append_assoc, List.append_assoc]
  cases name with
  | cons y name =>
    have whole : Eventless (raw (y :: name) ++ (lit " " ++ (raw b ++ crlf))) :=
      eventless_append (eventless_raw _) behind
    exact tame_strange (raw_strange (y :: name) _ List.mem_cons_self) whole
  | nil =>
    cases b with
    | cons y b => exact tame_blank (raw_strange (y :: b) _ List.mem_cons_self) rest
    | nil => exact tame_blank (by decide) rest

theorem eventless_bool (flag : Bool) : Eventless (boolText flag) := by
  unfold boolText
  split
  · exact eventless_lit _ rfl
  · exact eventless_lit _ rfl

theorem eventless_or (b : Bytes) {chars : List Char}
    (shut : everyTail (parts headChars) chars = true) :
    Eventless (orText b (String.ofList chars)) := by
  unfold orText
  split
  · exact eventless_lit chars shut
  · exact eventless_raw b

theorem eventless_gap {p : Prop} [Decidable p] (other : Eventless t) :
    Eventless (if p then [] else t) := by
  split
  · exact eventless_nil
  · exact other

theorem eventless_comma (i : Nat) : Eventless (comma i) := eventless_gap (eventless_lit _ rfl)

theorem eventless_rows {α : Type} {row : Nat → α → Text} {xs : List α} (i : Nat)
    (each : ∀ j, ∀ x ∈ xs, Eventless (row j x)) : ∀ p ∈ jsonRows row i xs, Eventless p := by
  induction xs generalizing i with
  | nil =>
    intro p member
    cases member
  | cons x rest ih =>
    intro p member
    rcases List.mem_cons.mp member with rfl | later
    · exact eventless_append (eventless_comma i) (each i x List.mem_cons_self)
    · exact ih (i + 1) (fun j y there => each j y (List.mem_cons_of_mem x there)) p later

theorem append_all_flatten {cap : Nat} {buf : Text} {pieces : List Text}
    (fits : fmtAppendAll cap buf pieces = some t) : t = buf ++ pieces.flatten := by
  induction pieces generalizing buf with
  | nil =>
    cases fits
    simp
  | cons p rest ih =>
    simp only [fmtAppendAll, fmtAppend, Option.bind_eq_some_iff,
      Option.ite_none_right_eq_some] at fits
    obtain ⟨_, ⟨_, ⟨⟩⟩, fits⟩ := fits
    rw [ih fits, List.flatten_cons, List.append_assoc]

theorem eventless_flatten {pieces : List Text} (each : ∀ p ∈ pieces, Eventless p) :
    Eventless pieces.flatten :=
  shut_flatten each

theorem eventless_json {α : Type} {cap : Nat} {row : α → Text} {xs : List α}
    (fits : fmtJson cap row xs = some t) (each : ∀ x ∈ xs, Eventless (row x)) : Eventless t := by
  rw [append_all_flatten fits, List.nil_append]
  refine eventless_flatten fun p member => ?_
  rcases List.mem_append.mp member with front | last
  · rcases List.mem_cons.mp front with rfl | rows
    · exact eventless_lit _ rfl
    · exact eventless_rows 0 (fun _ => each) p rows
  · rw [List.mem_singleton.mp last]
    exact eventless_lit _ rfl

def Adds (t : Text) : Prop :=
  ∀ n w, Settled worldHead RightPhase w → Settled worldHead RightPhase (w ++ t.take n)

theorem adds_tame (tame : Tame t) : Adds t :=
  fun n _ settled => Sealed.settled head_some tame settled n

theorem adds_nil : Adds [] := by
  intro n w settled
  rwa [List.take_nil, List.append_nil]

theorem adds_append (first : Adds a) (second : Adds b) : Adds (a ++ b) := by
  intro n w settled
  rw [List.take_append, ← List.append_assoc]
  exact second _ _ (first n w settled)

theorem adds_snprintf (cap : Nat) (adds : Adds t) : Adds (snprintf cap t) := by
  intro n w settled
  rw [snprintf, List.take_take]
  exact adds _ w settled

theorem unmarked_leaked (b : Bytes) : Unmarked (leaked b) := by
  refine unmarked_foreign fun cell member => ?_
  obtain ⟨x, -, rfl⟩ := List.mem_map.mp member
  exact Source.noConfusion

/-- What lies behind a buffer starts no event either. -/
theorem adds_overread (cap : Nat) (memory : Nat → UInt8) (adds : Adds t) :
    Adds (overread cap t memory) := by
  unfold overread
  split
  · exact adds
  refine adds_append (adds_snprintf cap adds) (adds_tame ?_)
  have shut := unmarked_eventless (unmarked_leaked (0 :: (List.range (t.length - cap)).map memory))
  refine tame_strange (fun there => ?_) shut
  cases head_server _ there

theorem adds_get {found : Option Text} (each : ∀ p, found = some p → Tame p) :
    Adds (found.getD []) := by
  cases found with
  | some p => exact adds_tame (each p rfl)
  | none => exact adds_nil

end Texts

section World

theorem decimal_comma {m n : Int} {a b : Bytes}
    (same : decimal m ++ 44 :: a = decimal n ++ 44 :: b) : m = n ∧ a = b := by
  have stops (rest : Bytes) : JsonText.Stops (44 :: rest) := by
    rintro x ⟨⟩
    decide
  have first := JsonText.prints_number m 1 (Nat.le_refl 1) (44 :: a) (stops a)
  rw [same, JsonText.prints_number n 1 (Nat.le_refl 1) (44 :: b) (stops b)] at first
  simp only [Option.some.injEq, Prod.mk.injEq, JsonText.Value.num.injEq, List.cons.injEq] at first
  exact ⟨first.1.symm, first.2.2.symm⟩

theorem no_quote (tick : Int) : 34 ∉ str (phaseOf tick) := by
  unfold phaseOf
  split <;> decide

theorem bytes_world (tick : Int) (phase : String) (rest : Text) :
    bytes (number tick ++ (worldTail phase ++ rest)) = decimal tick ++
      44 :: (str r#""phase":""# ++ (str phase ++ 34 :: (str r#","weather":"clear"}"# ++
        str "\r\n" ++ bytes rest))) := by
  have literal (s : String) : bytes (lit s) = str s := by simp [bytes, lit, Function.comp_def]
  have printed : bytes (number tick) = decimal tick := by simp [bytes, number, Function.comp_def]
  have front : str r#","phase":""# = 44 :: str r#""phase":""# := by decide
  have back : str r#"","weather":"clear"}"# = 34 :: str r#","weather":"clear"}"# := by decide
  simp only [bytes, List.map_append] at literal printed ⊢
  simp only [worldTail, List.map_append, literal, printed, front, back, List.cons_append,
    List.append_assoc]

theorem right_whole (tick : Int) (rest : Text) :
    RightPhase (number tick ++ (worldTail (phaseOf tick) ++ rest)) := by
  intro other phase more _ closed same
  have cells := congrArg bytes same
  rw [bytes_world, bytes_world] at cells
  obtain ⟨rfl, tails⟩ := decimal_comma cells
  exact (parted (no_quote tick) closed (List.append_cancel_left tails)).1.symm

theorem decimal_no_comma (n : Int) : 44 ∉ decimal n := by
  have digit (k : Nat) : 44 ∉ JsonText.natural k := fun there =>
    absurd (JsonText.natural_digits k _ there) (by decide)
  cases n with
  | ofNat n => exact digit n
  | negSucc n =>
    intro there
    rcases List.mem_cons.mp there with dash | later
    · exact absurd dash (by decide)
    · exact digit (n + 1) later

/-- Where the comma of a word's event would stand, a longer number has a digit. -/
theorem right_long {tick : Int} {n : Nat} (long : 100 < (decimal tick).length) (large : 100 < n)
    (rest : Text) : RightPhase ((number tick).take n ++ rest) := by
  intro other phase more word _ same
  have short := JsonText.decimal_length word
  have cells := congrArg (fun t => (bytes t)[(decimal other).length]?) same
  rw [bytes_world] at cells
  have printed : bytes ((number tick).take n ++ rest) = (decimal tick).take n ++ bytes rest := by
    simp [bytes, number, Function.comp_def, List.map_take]
  rw [printed, List.getElem?_append_right (Nat.le_refl _), Nat.sub_self, List.getElem?_cons_zero,
    List.getElem?_append_left (by rw [List.length_take]; omega)] at cells
  exact absurd (List.mem_of_mem_take (List.mem_of_getElem? cells)) (decimal_no_comma tick)

theorem right_cut (tick : Int) {n : Nat} (large : 140 ≤ n) (rest : Text) :
    RightPhase ((number tick ++ worldTail (phaseOf tick)).take n ++ rest) := by
  have size : (number tick).length = (decimal tick).length := List.length_map _
  have small : (worldTail (phaseOf tick)).length ≤ 40 := by
    unfold phaseOf
    split <;> decide +kernel
  by_cases long : 100 < (decimal tick).length
  · rw [List.take_append, List.append_assoc]
    exact right_long long (by omega) _
  · rw [List.take_of_length_le (by rw [List.length_append]; omega), List.append_assoc]
    exact right_whole tick rest

/-- An event with the phase of its tick may follow whatever was said. -/
theorem settled_world {w : Text} (tick : Int) {cap : Nat} (large : 168 ≤ cap)
    (settled : Settled worldHead RightPhase w) :
    Settled worldHead RightPhase (w ++ snprintf cap (fmtWorldState tick (phaseOf tick))) := by
  have size : worldHead.length = 27 := rfl
  have cut : snprintf cap (fmtWorldState tick (phaseOf tick)) =
      worldHead ++ (number tick ++ worldTail (phaseOf tick)).take (cap - 1 - 27) := by
    rw [snprintf, world_split, List.take_append, size, List.take_of_length_le (by omega)]
  have behind : Unmarked
      (worldHead.tail ++ (number tick ++ worldTail (phaseOf tick)).take (cap - 1 - 27)) := by
    refine unmarked_append ?_ (unmarked_take _ (unmarked_append (unmarked_number tick) ?_))
    · have later := unmarked_lit headChars.tail rfl
      rw [lit_chars] at later
      exact later
    · unfold worldTail phaseOf
      split <;> apply_rules [unmarked_append, unmarked_lit]
  rw [cut]
  refine settled_message (fun there => ?_) (right_cut tick (by omega)) settled
  obtain ⟨y, first, other⟩ := behind _ there
  exact other (Option.some.inj first).symm

end World

end HollowGrid
