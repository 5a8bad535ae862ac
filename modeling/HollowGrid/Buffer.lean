import Mathlib.Algebra.Order.BigOperators.Group.List
import Mathlib.Algebra.GroupWithZero.Nat
import HollowGrid.Listings
import HollowGrid.Lib.Ram

/-! asm/actions.asm: add_action and hg_actions_json_for on the bytes of the buffer. -/
namespace HollowGrid

namespace Buffer

open JsonText

section Source

-- The C string that rsi points at after a strlen, of those before it and the string till then.
variable (left : Nat → Bytes → Bytes) (buf : Nat) (cap : Int)

/-- add_action from .no_comma on, with the offset in ebx. -/
def place (offset : Nat) (frag : Bytes) (r : Ram) : Bool × Ram :=
  if cap ≤ toInt32 (offset + frag.length) then (false, r.scanned)
  else (true, r.scanned.put (buf + offset) (left r.scans frag ++ [0]))

def addAction (first : Bool) (frag : Bytes) (r : Ram) : Bool × Ram :=
  let ecx := r.memory.strlen buf % 4294967296
  let rsi := left r.scans frag
  if first then place left buf cap ecx rsi r.scanned
  else if ecx < 1 then (false, r.scanned)
  else if cap ≤ toInt32 (ecx + 1) then (false, r.scanned)
  else place left buf cap ((ecx + 1) % 4294967296) rsi
    ((r.scanned.put (buf + ecx) [44]).put (buf + ecx + 1) [0])

def addAll : Bool → List Bytes → Ram → Bool × Ram
  | _, [], r => (true, r)
  | first, frag :: rest, r =>
    let added := addAction left buf cap first frag r
    if added.1 then addAll false rest added.2 else (false, added.2)

def close (r : Ram) : Int × Ram :=
  let rax := r.memory.strlen buf
  if cap ≤ toInt32 rax then (-1, r.scanned)
  else
    let closed := (r.scanned.put (buf + rax) [93]).put (buf + rax + 1) [0]
    (toInt32 (closed.memory.strlen buf), closed.scanned)

/-- .market and .dais: the fragments that the flags choose, from the bracket on. -/
def compose (frags : List Bytes) (r : Ram) : Int × Ram :=
  let added := addAll left buf cap true frags ((r.put buf [91]).put (buf + 1) [0])
  if added.1 then close buf cap added.2 else (-1, added.2)

end Source

def hgActionsJsonFor (left : Nat → Bytes → Bytes) (rdi : Option Session) (buf cap : Nat) (r : Ram) :
    Int × Ram :=
  match rdi with
  | none => (-1, r)
  | some s =>
    if buf = 0 ∨ cap < 8 then (-1, r)
    else if s.room = roomMarket then
      compose left buf (toInt32 cap) ((marketActions s).map bytes) r
    else if s.room = roomTavern then
      if cap < (bytes actionTavern).length + 1 then (-1, r.scanned)
      else ((bytes actionTavern).length, r.scanned.put buf (bytes actionTavern ++ [0]))
    else if s.room = roomDais then
      compose left buf (toInt32 cap) ((daisActions s).map bytes) r
    else (2, (r.put buf [91, 93]).put (buf + 2) [0])

/-- An object of a verb, a label and a kind, and maybe of a valence, all of them strings. -/
def ActionObject : Value → Prop
  | .obj fields =>
    (fields.map Prod.fst = [str "verb", str "label", str "kind"] ∨
      fields.map Prod.fst = [str "verb", str "label", str "kind", str "valence"]) ∧
    ∀ field ∈ fields, ∃ b, field.2 = .str b
  | _ => False

/-- Every store was in the buffer, and either the answer is -1 or the buffer holds an array of
action objects, of the length that was answered. -/
structure Right (buf cap : Nat) (ran : Int × Ram) : Prop where
  inside : ran.2.Inside buf cap
  answer : ran.1 = -1 ∨ ∃ text items, ran.1 = text.length ∧ text.length < cap ∧
    ran.2.memory.CString buf text ∧ JsonText.parse text = some (.arr items) ∧
    ∀ v ∈ items, ActionObject v

/-- strlen leaves rsi as it was, which no convention asks of it. -/
def KeepsRsi (left : Nat → Bytes → Bytes) : Prop := ∀ scans frag, left scans frag = frag

def fragments (s : Session) : List Text :=
  if s.room = roomMarket then marketActions s else daisActions s

/-- The fragments with a byte behind each, and a byte before them. -/
def tight (s : Session) : Nat := 1 + ((fragments s).map fun frag => frag.length + 1).sum

section Texts

/-- What add_action makes of a text that it has the room for. -/
def grown (t frag : Text) : Text := if t.length = 1 then t ++ frag else t ++ lit "," ++ frag

variable {cap i : Nat} {t frag : Text} {frags : List Text}

theorem bytes_length (t : Text) : (bytes t).length = t.length := List.length_map _

theorem grown_length (t frag : Text) : (grown t frag).length =
    if t.length = 1 then 1 + frag.length else t.length + 1 + frag.length := by
  have comma : (lit ",").length = 1 := length_lit _
  unfold grown
  split_ifs with single
  · rw [List.length_append, single]
  · rw [List.length_append, List.length_append, comma]

theorem add_action_text {t' : Text} : HollowGrid.addAction cap t frag = some t' ↔
    (grown t frag).length < cap ∧ grown t frag = t' := by
  rw [grown_length]
  unfold HollowGrid.addAction grown
  split_ifs <;> simp <;> omega

theorem grows (some_byte : 0 < t.length) (filled : frag ≠ []) :
    t.length < (grown t frag).length ∧ 1 < (grown t frag).length := by
  have size := List.length_pos_of_ne_nil filled
  rw [grown_length]
  split_ifs <;> omega

theorem all_grow (some_byte : 0 < t.length) (filled : ∀ frag ∈ frags, frag ≠ []) :
    t.length ≤ (frags.foldl grown t).length := by
  induction frags generalizing t with
  | nil => exact le_rfl
  | cons frag rest ih =>
    obtain ⟨longer, more⟩ := grows some_byte (filled frag List.mem_cons_self)
    exact longer.le.trans (ih (by omega) fun other member =>
      filled other (List.mem_cons_of_mem _ member))

theorem grown_rows (some_byte : 0 < t.length) (filled : ∀ frag ∈ frags, frag ≠ [])
    (first : i = 0 ↔ t.length = 1) :
    frags.foldl grown t = t ++ (jsonRows (fun _ => id) i frags).flatten := by
  induction frags generalizing t i with
  | nil => simp [jsonRows]
  | cons frag rest ih =>
    obtain ⟨_, more⟩ := grows some_byte (filled frag List.mem_cons_self)
    rw [List.foldl_cons, ih (i := i + 1) (by omega)
      (fun other member => filled other (List.mem_cons_of_mem _ member)) (by omega), jsonRows]
    by_cases start : i = 0
    · simp [grown, comma, start, first.mp start]
    · have long : t.length ≠ 1 := fun single => start (first.mpr single)
      simp [grown, comma, start, long]

theorem add_actions_text (some_byte : 0 < t.length) (filled : ∀ frag ∈ frags, frag ≠ []) :
    addActions cap t frags = if (frags.foldl grown t).length < cap then
      some (frags.foldl grown t ++ lit "]") else none := by
  induction frags generalizing t with
  | nil =>
    rw [addActions, List.foldl_nil]
    split_ifs <;> first | rfl | omega
  | cons frag rest ih =>
    have others : ∀ other ∈ rest, other ≠ [] :=
      fun other member => filled other (List.mem_cons_of_mem _ member)
    have more := (grows some_byte (filled frag List.mem_cons_self)).2
    have longer := all_grow (t := grown t frag) (by omega) others
    rw [addActions, List.foldl_cons]
    by_cases fits : (grown t frag).length < cap
    · rw [add_action_text.mpr ⟨fits, rfl⟩, Option.bind_some, ih (by omega) others]
    · rw [if_neg (by omega)]
      refine Option.bind_eq_none_iff.mpr fun next added => ?_
      exact absurd (add_action_text.mp added).1 fits

theorem rows_length (frags : List Text) (i : Nat) (later : i ≠ 0) :
    (jsonRows (fun _ => id) i frags).flatten.length =
      (frags.map fun frag => frag.length + 1).sum := by
  induction frags generalizing i with
  | nil => rfl
  | cons frag rest ih =>
    have comma : (lit ",").length = 1 := length_lit _
    simp [jsonRows, HollowGrid.comma, later, ih, comma]
    omega

end Texts

section Runs

variable {buf cap i : Nat} {eff : Int} {t frag : Text} {frags : List Text} {r : Ram}

/-- The text stands in the buffer, and no store went past the buffer. -/
structure Holding (buf cap : Nat) (t : Text) (r : Ram) : Prop where
  string : r.memory.CString buf (bytes t)
  inside : r.Inside buf cap

theorem holding_scanned (holding : Holding buf cap t r) : Holding buf cap t r.scanned :=
  ⟨holding.string, holding.inside⟩

theorem holding_put (holding : Holding buf cap t r) (whole : 0 ∉ bytes frag)
    (room : t.length + frag.length < cap) :
    Holding buf cap (t ++ frag) (r.put (buf + t.length) (bytes frag ++ [0])) where
  string := by
    have joined := Memory.string_over holding.string whole
    rw [bytes_length] at joined
    exact (bytes_join t frag).symm ▸ joined
  inside := by
    rw [Ram.inside_put, List.length_append, List.length_singleton, bytes_length]
    exact ⟨holding.inside, by omega, by omega⟩

/-- A byte over the NUL, and a NUL behind it. -/
theorem mark_string {m : Memory} (string : m.CString buf (bytes t)) {x : UInt8} (mark : x ≠ 0) :
    ((m.store (buf + t.length) [x]).store (buf + t.length + 1) [0]).CString buf
      (bytes t ++ [x]) := by
  have joined := Memory.string_over string (c := [x]) (by simpa using mark.symm)
  rw [bytes_length, ← Memory.store_append] at joined
  exact joined

theorem holding_comma (holding : Holding buf cap t r) (room : t.length + 1 < cap) :
    Holding buf cap (t ++ lit ",")
      ((r.put (buf + t.length) [44]).put (buf + t.length + 1) [0]) where
  string := by
    have mark : bytes (lit ",") = [44] := by decide
    rw [bytes_join, mark]
    exact mark_string holding.string (by decide)
  inside := by
    simp only [Ram.inside_put, List.length_singleton]
    exact ⟨⟨holding.inside, by omega, by omega⟩, by omega, by omega⟩

theorem held_length (holding : Holding buf cap t r) (short : t.length < 2147483648) :
    r.memory.strlen buf = t.length := by
  have size := bytes_length t
  rw [Memory.strlen_string holding.string (by omega), size]

/-- How adding goes where strlen keeps rsi: the text that is meant stands in the buffer and is
shorter than the capacity, or the text that is meant is not. -/
def Added (buf cap : Nat) (eff : Int) (t : Text) (ran : Bool × Ram) : Prop :=
  (ran.1 = true ∧ Holding buf cap t ran.2 ∧ (t.length : Int) < eff) ∨
    (ran.1 = false ∧ ran.2.Inside buf cap ∧ eff ≤ t.length)

theorem place_kept (holding : Holding buf cap t r) (whole : 0 ∉ bytes frag)
    (short : (t ++ frag).length < 2147483648) (low : eff ≤ cap) :
    Added buf cap eff (t ++ frag)
      (place (fun _ b => b) buf eff t.length (bytes frag) r) := by
  rw [List.length_append] at short
  unfold place
  have word : toInt32 (t.length + (bytes frag).length) = (t.length + frag.length : Nat) := by
    rw [bytes_length, toInt32]
    omega
  rw [word]
  by_cases full : eff ≤ (t.length + frag.length : Nat)
  · rw [if_pos full]
    exact .inr ⟨rfl, holding.inside, by rw [List.length_append]; exact full⟩
  · rw [if_neg full]
    have room : t.length + frag.length < cap := by omega
    refine .inl ⟨rfl, holding_put (holding_scanned holding) whole room, ?_⟩
    rw [List.length_append]
    exact Int.not_le.mp full

theorem add_action_kept (holding : Holding buf cap t r) (some_byte : 0 < t.length)
    (whole : 0 ∉ bytes frag) (short : (grown t frag).length < 2147483648) (low : eff ≤ cap) :
    Added buf cap eff (grown t frag)
      (addAction (fun _ b => b) buf eff (t.length = 1) (bytes frag) r) := by
  have size := grown_length t frag
  have front : t.length < 2147483648 := by
    split_ifs at size <;> omega
  have word : t.length % 4294967296 = t.length := Nat.mod_eq_of_lt (by omega)
  unfold addAction grown at *
  simp only [held_length holding front, word]
  have holding := holding_scanned holding
  by_cases single : t.length = 1
  · rw [if_pos single] at short ⊢
    rw [if_pos (decide_eq_true single)]
    exact place_kept holding whole short low
  · rw [if_neg single] at short ⊢
    rw [if_neg single, if_neg single] at size
    rw [if_neg (by simpa using single), if_neg (by omega)]
    have next : toInt32 (t.length + 1) = (t.length + 1 : Nat) := by
      rw [toInt32]
      omega
    rw [next]
    by_cases full : eff ≤ (t.length + 1 : Nat)
    · rw [if_pos full]
      exact .inr ⟨rfl, holding.inside, by omega⟩
    · rw [if_neg full]
      have comma : (t ++ lit ",").length = t.length + 1 := by
        rw [List.length_append]
        exact congrArg _ (length_lit _)
      have placed := place_kept (holding_comma holding (by omega)) whole short low
      rw [comma] at placed
      rw [Nat.mod_eq_of_lt (by omega)]
      exact placed

theorem add_all_kept (holding : Holding buf cap t r) (some_byte : 0 < t.length)
    (words : ∀ frag ∈ frags, frag ≠ [] ∧ 0 ∉ bytes frag)
    (short : (frags.foldl grown t).length < 2147483648) (low : eff ≤ cap)
    (start : frags ≠ [] ∨ (t.length : Int) < eff) :
    Added buf cap eff (frags.foldl grown t)
      (addAll (fun _ b => b) buf eff (t.length = 1) (frags.map bytes) r) := by
  induction frags generalizing t r with
  | nil => exact .inl ⟨rfl, holding, start.resolve_left fun some_frag => some_frag rfl⟩
  | cons frag rest ih =>
    obtain ⟨filled, whole⟩ := words frag List.mem_cons_self
    have others : ∀ other ∈ rest, other ≠ [] ∧ 0 ∉ bytes other :=
      fun other member => words other (List.mem_cons_of_mem _ member)
    have more := (grows some_byte filled).2
    have longer : (grown t frag).length ≤ (rest.foldl grown (grown t frag)).length :=
      all_grow (by omega) fun other member => (others other member).1
    have later : decide ((grown t frag).length = 1) = false := decide_eq_false (by omega)
    rw [List.foldl_cons] at short ⊢
    rw [List.map_cons, addAll]
    rcases add_action_kept holding some_byte whole (longer.trans_lt short) low with
      ⟨added, held, fits⟩ | ⟨failed, inside, full⟩
    · have all := ih held (by omega) others short (.inr fits)
      rw [later] at all
      simp only [added, if_true]
      exact all
    · simp only [failed, Bool.false_eq_true, if_false]
      exact .inr ⟨rfl, inside, full.trans (Int.ofNat_le.mpr longer)⟩

/-- The bracket is stored in the room of the NUL, and the NUL may be stored behind the buffer. -/
theorem close_kept (holding : Holding buf cap t r) (room : (t.length : Int) < eff)
    (short : t.length + 1 < 2147483648) :
    (close buf eff r).1 = (t ++ lit "]").length ∧
      (close buf eff r).2.memory.CString buf (bytes (t ++ lit "]")) ∧
      ((close buf eff r).2.Inside buf cap ↔ t.length + 1 < cap) := by
  have mark : bytes (lit "]") = [93] := by decide
  have size : (t ++ lit "]").length = t.length + 1 := by
    rw [List.length_append]
    exact congrArg _ (length_lit _)
  have string : ((r.memory.store (buf + t.length) [93]).store (buf + t.length + 1) [0]).CString buf
      (bytes (t ++ lit "]")) := by
    rw [bytes_join, mark]
    exact mark_string holding.string (by decide)
  have again := Memory.strlen_string string (by rw [bytes_length, size]; omega)
  rw [bytes_length] at again
  have word : toInt32 t.length = t.length := by
    rw [toInt32]
    omega
  have next : toInt32 (t ++ lit "]").length = (t ++ lit "]").length := by
    rw [toInt32, size]
    omega
  unfold close
  simp only [held_length holding (by omega), word, if_neg (Int.not_le.mpr room)]
  refine ⟨?_, string, ?_⟩
  · exact (congrArg (fun n : Nat => toInt32 n) again).trans next
  · rw [Ram.inside_scanned, Ram.inside_put, Ram.inside_put, Ram.inside_scanned,
      List.length_singleton, List.length_singleton]
    have inside := holding.inside
    constructor
    · rintro ⟨_, _, last⟩
      omega
    · intro fits
      exact ⟨⟨inside, by omega, by omega⟩, by omega, by omega⟩

theorem opened_holding (m : Memory) (buf : Nat) (room : 2 ≤ cap) :
    Holding buf cap (lit "[") (((Ram.fresh m).put buf [91]).put (buf + 1) [0]) where
  string := by
    have mark : bytes (lit "[") = [91] := by decide
    rw [mark]
    change ((m.store buf [91]).store (buf + ([91] : Bytes).length) [0]).CString buf [91]
    rw [Memory.store_append]
    exact Memory.string_store m buf (by decide)
  inside := by
    simp only [Ram.inside_put, List.length_singleton]
    exact ⟨⟨Ram.inside_fresh m, by omega, by omega⟩, by omega, by omega⟩

def Listed (t : Text) : Prop :=
  ∃ items, JsonText.parse (bytes t) = some (.arr items) ∧ ∀ v ∈ items, ActionObject v

/-- Where strlen keeps rsi, the menu is in the buffer when the capacity takes it, and what its NUL
takes is not counted. -/
theorem compose_cases (m : Memory) (buf : Nat) (room : 8 ≤ cap) (some_frag : frags ≠ [])
    (words : ∀ frag ∈ frags, frag ≠ [] ∧ 0 ∉ bytes frag)
    (short : (jsonText id frags).length < 2147483648) :
    let ran := compose (fun _ b => b) buf (toInt32 cap) (frags.map bytes) (Ram.fresh m)
    (ran.1 = (jsonText id frags).length ∧ ran.2.memory.CString buf (bytes (jsonText id frags)) ∧
        (ran.2.Inside buf cap ↔ (jsonText id frags).length < cap) ∧
        (jsonText id frags).length ≤ toInt32 cap) ∨
      (ran.1 = -1 ∧ ran.2.Inside buf cap ∧ toInt32 cap < (jsonText id frags).length) := by
  have opening : (lit "[").length = 1 := length_lit _
  have ending : (lit "]").length = 1 := length_lit _
  have same : frags.foldl grown (lit "[") ++ lit "]" = jsonText id frags := by
    rw [grown_rows (i := 0) (by omega) (fun frag member => (words frag member).1) (by omega)]
    rfl
  have size : (frags.foldl grown (lit "[")).length + 1 = (jsonText id frags).length := by
    rw [← same, List.length_append, ending]
  have low : toInt32 cap ≤ cap := by
    rw [toInt32]
    omega
  have added := add_all_kept (opened_holding m buf (by omega)) (by omega) words (by omega) low
    (.inl some_frag)
  rw [decide_eq_true opening] at added
  unfold compose
  rcases added with ⟨ok, holding, fits⟩ | ⟨failed, inside, full⟩
  · obtain ⟨length, string, stores⟩ := close_kept holding fits (by omega)
    simp only [ok, if_true]
    rw [same] at length string
    rw [size] at stores
    exact .inl ⟨length, string, stores, by omega⟩
  · simp only [failed, Bool.false_eq_true, if_false]
    exact .inr ⟨trivial, inside, by omega⟩

/-- A menu is right unless it is as long as the buffer. -/
theorem compose_kept (m : Memory) (buf : Nat) (room : 8 ≤ cap) (some_frag : frags ≠ [])
    (words : ∀ frag ∈ frags, frag ≠ [] ∧ 0 ∉ bytes frag)
    (short : (jsonText id frags).length < 2147483648) (listed : Listed (jsonText id frags)) :
    Right buf cap (compose (fun _ b => b) buf (toInt32 cap) (frags.map bytes) (Ram.fresh m)) ↔
      cap ≠ (jsonText id frags).length := by
  rcases compose_cases m buf room some_frag words short with
    ⟨length, string, stores, fits⟩ | ⟨failed, inside, full⟩
  · constructor
    · intro right equal
      have inside := stores.mp right.inside
      omega
    · intro apart
      rw [toInt32] at fits
      have inside : (jsonText id frags).length < cap := by omega
      obtain ⟨items, parsed, each⟩ := listed
      exact ⟨stores.mpr inside, .inr ⟨_, items, by rw [length, bytes_length],
        by rw [bytes_length]; exact inside, string, parsed, each⟩⟩
  · refine iff_of_true ⟨inside, .inl failed⟩ fun equal => ?_
    rw [toInt32] at full
    omega

end Runs

section Menus

/-- The members of an offer: its verb, its label and its kind, and a valence when it has one. -/
def offerMembers (verb label kind : String) (valence : Option String) : List Member :=
  [stringMember "verb" (str verb), stringMember "label" (str label), stringMember "kind" (str kind)]
    ++ valence.toList.map fun text => stringMember "valence" (str text)

def PlainOffer (row : String × String × String × Option String) : Prop :=
  ∀ word ∈ row.1 :: row.2.1 :: row.2.2.1 :: row.2.2.2.toList, ∀ x ∈ str word, plainByte x = true

/-- The fragments of the market and the dais, as texts and as offers. -/
def offerTable : List (Text × String × String × String × Option String) :=
  [(actionDefend, "defend", "stand with the people the Front would erase", "moral",
      some "virtuous"),
    (actionJoinGrave, "join", "take the Front coin and help sort the living", "moral",
      some "grave"),
    (actionJoinCorrupt, "join", "take the Front coin and help sort the living", "moral",
      some "corrupt"),
    (actionSell, "sell", "sell salvage for honest coin", "trade", none),
    (actionSteal, "steal", "steal from the vendor (quick gold, corrupting)", "moral",
      some "corrupt"),
    (actionDefy, "defy", "defy the Ashmonger and defect to the free folk", "moral",
      some "virtuous"),
    (actionTalk, "talk", "face the Ashmonger", "social", none),
    (actionKneel, "join", "kneel to the Ashmonger against your own (the kapo)", "moral",
      some "grave"),
    (actionPledge, "join", "pledge yourself to the Cinder Front", "moral", some "corrupt")]

theorem table_bytes : ∀ row ∈ offerTable, bytes row.1 =
    objectText (offerMembers row.2.1 row.2.2.1 row.2.2.2.1 row.2.2.2.2) := by
  simp only [offerTable, actionDefend, actionJoinGrave, actionJoinCorrupt, actionSell, actionSteal,
    actionDefy, actionTalk, actionKneel, actionPledge, bytes_join, bytes_lit, offerMembers,
    stringMember, Option.toList_none, Option.toList_some, List.map_cons, List.map_nil,
    List.forall_mem_cons]
  and_intros
  -- each word by its characters, for the kernel
  all_goals first
    | exact List.forall_mem_nil _
    | (repeat rw [str_chars]); rfl

theorem lit_span (chars : List Char) (span : (10 ≤ chars.length && chars.length ≤ 100) = true) :
    10 ≤ (lit (String.ofList chars)).length ∧ (lit (String.ofList chars)).length ≤ 100 := by
  rw [length_lit]
  simpa using span

theorem table_lengths : ∀ row ∈ offerTable, 10 ≤ row.1.length ∧ row.1.length ≤ 200 := by
  have whole {t : Text} (one : 10 ≤ t.length ∧ t.length ≤ 100) :
      10 ≤ t.length ∧ t.length ≤ 200 := by
    omega
  have both {t u : Text} (one : 10 ≤ t.length ∧ t.length ≤ 100)
      (two : 10 ≤ u.length ∧ u.length ≤ 100) : 10 ≤ (t ++ u).length ∧ (t ++ u).length ≤ 200 := by
    rw [List.length_append]
    omega
  simp only [offerTable, List.forall_mem_cons]
  exact ⟨both (lit_span _ rfl) (lit_span _ rfl), both (lit_span _ rfl) (lit_span _ rfl),
    both (lit_span _ rfl) (lit_span _ rfl), whole (lit_span _ rfl),
    both (lit_span _ rfl) (lit_span _ rfl), both (lit_span _ rfl) (lit_span _ rfl),
    whole (lit_span _ rfl), both (lit_span _ rfl) (lit_span _ rfl),
    both (lit_span _ rfl) (lit_span _ rfl), List.forall_mem_nil _⟩

def tavernOffers : List (String × String × String × Option String) :=
  [("talk", "talk to whoever shares your room", "social", none),
    ("buy dust", "buy dust: 10 gold a packet (using it heals, but addicts and corrupts)", "moral",
      some "corrupt")]

theorem plain_chars (chars : List Char)
    (plain : (chars.all fun c => plainByte (charByte c)) = true) :
    ∀ x ∈ str (String.ofList chars), plainByte x = true := by
  intro x member
  rw [str_chars] at member
  obtain ⟨c, there, rfl⟩ := List.mem_map.mp member
  exact List.all_eq_true.mp plain c there

theorem table_plain : ∀ row ∈ tavernOffers ++ offerTable.map Prod.snd, PlainOffer row := by
  simp only [tavernOffers, offerTable, PlainOffer, List.cons_append, List.nil_append, List.map_cons,
    List.map_nil, List.forall_mem_cons, Option.toList_none, Option.toList_some]
  and_intros
  all_goals first
    | exact plain_chars _ rfl
    | exact List.forall_mem_nil _

theorem tavern_bytes : bytes actionTavern = rowsText
    (tavernOffers.map fun row => offerMembers row.1 row.2.1 row.2.2.1 row.2.2.2) := by
  simp only [actionTavern, tavernOffers, bytes_join, bytes_lit, offerMembers, stringMember,
    Option.toList_none, Option.toList_some, List.map_cons, List.map_nil]
  repeat rw [str_chars]
  rfl

variable {s : Session}

theorem offer_read {row : String × String × String × Option String} (plain : PlainOffer row) :
    let members := offerMembers row.1 row.2.1 row.2.2.1 row.2.2.2
    (members ≠ [] ∧ members.length ≤ 4) ∧ (∀ m ∈ members, Legible 1 m) ∧
      ActionObject (.obj (members.map fun m => (m.key, m.value))) := by
  obtain ⟨verb, label, kind, valence⟩ := row
  have shown (key text : String) (named : Quotable (str key))
      (member : text ∈ verb :: label :: kind :: valence.toList) :
      Legible 1 (stringMember key (str text)) :=
    ⟨⟨named.plain, prints_string (spells_plain (plain text member))⟩,
      quoted_visible (plain_visible (plain text member))⟩
  have verbs := shown "verb" verb (by decide) (by simp)
  have labels := shown "label" label (by decide) (by simp)
  have kinds := shown "kind" kind (by decide) (by simp)
  cases valence with
  | none =>
    refine ⟨⟨List.cons_ne_nil _ _, by simp [offerMembers]⟩, ?_, .inl rfl, ?_⟩
    · simpa [offerMembers] using ⟨verbs, labels, kinds⟩
    · simp [offerMembers, stringMember]
  | some text =>
    have valences := shown "valence" text (by decide) (by simp)
    refine ⟨⟨List.cons_ne_nil _ _, by simp [offerMembers]⟩, ?_, .inr rfl, ?_⟩
    · simpa [offerMembers] using ⟨verbs, labels, kinds, valences⟩
    · simp [offerMembers, stringMember]

theorem offers_listed {t : Text} (rows : List (String × String × String × Option String))
    (plain : ∀ row ∈ rows, PlainOffer row) (some_room : 5 ≤ t.length) (few : rows.length ≤ 4)
    (same : bytes t =
      rowsText (rows.map fun row => offerMembers row.1 row.2.1 row.2.2.1 row.2.2.2)) :
    Listed t ∧ 0 ∉ bytes t := by
  let printed := rows.map fun row => offerMembers row.1 row.2.1 row.2.2.1 row.2.2.2
  have filled : ∀ members ∈ printed, members ≠ [] ∧ members.length ≤ 4 := by
    intro members listed
    obtain ⟨row, there, rfl⟩ := List.mem_map.mp listed
    exact (offer_read (plain row there)).1
  have shown : ∀ members ∈ printed, ∀ m ∈ members, Legible 1 m := by
    intro members listed
    obtain ⟨row, there, rfl⟩ := List.mem_map.mp listed
    exact (offer_read (plain row there)).2.1
  have count : printed.length = rows.length := List.length_map _
  have legible : Legible 6 (rowsField "" printed) :=
    rows_legible (by decide) filled shown (by decide) (by omega)
  have parsed := parse_prints legible.good.text (by
    change 6 ≤ (rowsText _).length + 1
    rw [← same, bytes_length]
    omega)
  refine ⟨⟨_, (congrArg JsonText.parse same).trans parsed, ?_⟩, fun zero => ?_⟩
  · intro v listed
    obtain ⟨members, member, rfl⟩ := List.mem_map.mp listed
    obtain ⟨row, there, rfl⟩ := List.mem_map.mp member
    exact (offer_read (plain row there)).2.2
  · rw [same] at zero
    exact absurd (legible.visible 0 zero) (by decide)

theorem fragments_listed (s : Session) : (fragments s ≠ [] ∧ (fragments s).length ≤ 4) ∧
    ∀ frag ∈ fragments s, frag ∈ offerTable.map Prod.fst := by
  unfold fragments marketActions daisActions
  split_ifs <;> simp [offerTable]

theorem fragment_words : ∀ frag ∈ fragments s, frag ≠ [] ∧ 0 ∉ bytes frag := by
  intro frag member
  obtain ⟨row, listed, rfl⟩ := List.mem_map.mp ((fragments_listed s).2 frag member)
  have size := table_lengths row listed
  have plain := table_plain _ (List.mem_append_right _ (List.mem_map_of_mem listed))
  refine ⟨List.ne_nil_of_length_pos (by omega), fun zero => ?_⟩
  rw [table_bytes row listed] at zero
  exact absurd (object_visible (offer_read plain).2.1 0 zero) (by decide)

theorem menu_length (s : Session) : (jsonText id (fragments s)).length = tight s := by
  have opening : (lit "[").length = 1 := length_lit _
  have ending : (lit "]").length = 1 := length_lit _
  obtain ⟨first, rest, listed⟩ := List.exists_cons_of_ne_nil (fragments_listed s).1.1
  simp only [jsonText, tight, listed, jsonRows, List.flatten_cons, List.length_append, opening,
    ending, rows_length rest 1 (by decide), comma, if_true, List.length_nil, List.map_cons,
    List.sum_cons, id]
  omega

theorem tight_bounds (s : Session) : 12 ≤ tight s ∧ tight s ≤ 1000 := by
  obtain ⟨⟨some_frag, few⟩, listed⟩ := fragments_listed s
  have each : ∀ n ∈ (fragments s).map fun frag => frag.length + 1, 11 ≤ n ∧ n ≤ 201 := by
    intro n member
    obtain ⟨frag, there, rfl⟩ := List.mem_map.mp member
    obtain ⟨row, known, rfl⟩ := List.mem_map.mp (listed frag there)
    have size := table_lengths row known
    exact ⟨by omega, by omega⟩
  have low := List.card_nsmul_le_sum _ 11 fun n member => (each n member).1
  have high := List.sum_le_card_nsmul _ 201 fun n member => (each n member).2
  have some_length := List.length_pos_of_ne_nil some_frag
  rw [List.length_map, Nat.nsmul_eq_mul] at low high
  unfold tight
  omega

theorem menu_listed (s : Session) : Listed (jsonText id (fragments s)) := by
  obtain ⟨⟨_, few⟩, listed⟩ := fragments_listed s
  have known : ∀ frag ∈ fragments s, ∃ row, (frag, row) ∈ offerTable := by
    intro frag member
    obtain ⟨row, there, rfl⟩ := List.mem_map.mp (listed frag member)
    exact ⟨row.2, there⟩
  choose! rowOf there using known
  refine (offers_listed ((fragments s).map rowOf) ?_ ?_ ?_ ?_).1
  · intro row member
    obtain ⟨frag, shown, rfl⟩ := List.mem_map.mp member
    exact table_plain _ (List.mem_append_right _ (List.mem_map_of_mem (there frag shown)))
  · rw [menu_length]
    exact Nat.le_trans (by decide) (tight_bounds s).1
  · rw [List.length_map]
    exact few
  · have same : ∀ frag ∈ fragments s, bytes (id frag) = objectText (offerMembers (rowOf frag).1
        (rowOf frag).2.1 (rowOf frag).2.2.1 (rowOf frag).2.2.2) :=
      fun frag shown => table_bytes _ (there frag shown)
    rw [rows_bytes same, List.map_map]
    rfl

theorem tavern_length : (bytes actionTavern).length = 211 := by
  have sum (front mid back : List Char) :
      (lit (String.ofList front) ++ lit (String.ofList mid) ++ lit (String.ofList back)).length =
        front.length + mid.length + back.length := by
    simp only [List.length_append, length_lit]
  rw [bytes_length]
  exact sum _ _ _

theorem tavern_listed : Listed actionTavern ∧ 0 ∉ bytes actionTavern := by
  refine offers_listed tavernOffers (fun row member => table_plain row (List.mem_append_left _ member)) ?_
    (by decide) tavern_bytes
  rw [← bytes_length, tavern_length]
  decide

end Menus

section Answers

variable {left : Nat → Bytes → Bytes} {buf cap : Nat} {eff : Int} {s : Session} {r : Ram}
  {frag : Bytes} {frags : List Bytes} {store : Nat × Bytes}

/-- Rooms that compose no menu answer right, whatever strlen leaves in rsi. -/
theorem apart_right (m : Memory) (apart : s.room ≠ roomMarket ∧ s.room ≠ roomDais) :
    Right buf cap (hgActionsJsonFor left (some s) buf cap (.fresh m)) := by
  unfold hgActionsJsonFor
  simp only [if_neg apart.1, if_neg apart.2]
  split_ifs with refused _ short
  · exact ⟨Ram.inside_fresh m, .inl rfl⟩
  · exact ⟨Ram.inside_fresh m, .inl rfl⟩
  · obtain ⟨⟨items, parsed, each⟩, whole⟩ := tavern_listed
    refine ⟨?_, .inr ⟨_, items, rfl, by omega, Memory.string_store m buf whole, parsed, each⟩⟩
    rw [Ram.inside_put, List.length_append, List.length_singleton]
    exact ⟨Ram.inside_fresh m, le_rfl, by omega⟩
  · have string : ((m.store buf [91, 93]).store (buf + 2) [0]).CString buf [91, 93] := by
      have both := Memory.store_append m buf [91, 93] [0]
      exact both ▸ Memory.string_store m buf (by decide)
    refine ⟨?_, .inr ⟨[91, 93], [], rfl, by simp; omega, string, rfl, by simp⟩⟩
    simp only [Ram.inside_put, List.length_cons, List.length_nil]
    exact ⟨⟨Ram.inside_fresh m, by omega, by omega⟩, by omega, by omega⟩

theorem composed_answer (some_buf : buf ≠ 0) (room : 8 ≤ cap)
    (composes : s.room = roomMarket ∨ s.room = roomDais) (r : Ram) :
    hgActionsJsonFor left (some s) buf cap r =
      compose left buf (toInt32 cap) ((fragments s).map bytes) r := by
  have accepted : ¬(buf = 0 ∨ cap < 8) := by omega
  unfold hgActionsJsonFor fragments
  simp only [if_neg accepted]
  rcases composes with market | dais
  · rw [if_pos market, if_pos market]
  · simp only [dais, roomMarket, roomTavern, roomDais]
    rfl

theorem refused_right (m : Memory) (refused : buf = 0 ∨ cap < 8) :
    Right buf cap (hgActionsJsonFor left (some s) buf cap (.fresh m)) := by
  unfold hgActionsJsonFor
  simp only [if_pos refused]
  exact ⟨Ram.inside_fresh m, .inl rfl⟩

theorem place_stores {offset : Nat} (made : store ∈ r.stores) :
    store ∈ (place left buf eff offset frag r).2.stores := by
  unfold place
  split_ifs
  · exact made
  · exact List.mem_append_left _ made

theorem add_action_stores {first : Bool} (made : store ∈ r.stores) :
    store ∈ (addAction left buf eff first frag r).2.stores := by
  unfold addAction
  simp only
  split_ifs
  · exact place_stores made
  · exact made
  · exact made
  · exact place_stores (List.mem_append_left _ (List.mem_append_left _ made))

theorem add_all_stores {first : Bool} (made : store ∈ r.stores) :
    store ∈ (addAll left buf eff first frags r).2.stores := by
  induction frags generalizing first r with
  | nil => exact made
  | cons frag rest ih =>
    rw [addAll]
    split
    · exact ih (add_action_stores made)
    · exact add_action_stores made

theorem close_stores (made : store ∈ r.stores) : store ∈ (close buf eff r).2.stores := by
  unfold close
  simp only
  split_ifs
  · exact made
  · exact List.mem_append_left _ (List.mem_append_left _ made)

theorem compose_stores (made : store ∈
    (addAll left buf eff true frags ((r.put buf [91]).put (buf + 1) [0])).2.stores) :
    store ∈ (compose left buf eff frags r).2.stores := by
  unfold compose
  simp only
  split
  · exact close_stores made
  · exact made

section Spills

variable {long : Bytes}

/-- strlen may leave in rsi a string that is as long as it takes to wrap the sum. -/
theorem first_spills (wraps : long.length % 4294967296 = 2147483647)
    (length : r.memory.strlen buf = 1) (low : -2147483648 < eff) :
    (buf + 1, long ++ [0]) ∈ (addAction (fun _ _ => long) buf eff true frag r).2.stores := by
  have least : toInt32 ((1 : Nat) + long.length) = -2147483648 := by
    rw [toInt32]
    omega
  unfold addAction
  simp only [length, if_true]
  unfold place
  rw [if_neg (by rw [Nat.mod_eq_of_lt (by decide), least]; omega)]
  exact List.mem_append_right _ List.mem_cons_self

theorem add_all_spills {first : Bool} (start : first = true)
    (wraps : long.length % 4294967296 = 2147483647) (length : r.memory.strlen buf = 1)
    (low : -2147483648 < eff) : (buf + 1, long ++ [0]) ∈
      (addAll (fun _ _ => long) buf eff first (frag :: frags) r).2.stores := by
  have added : (buf + 1, long ++ [0]) ∈
      (addAction (fun _ _ => long) buf eff first frag r).2.stores := by
    rw [start]
    exact first_spills wraps length low
  rw [addAll]
  split
  · exact add_all_stores added
  · exact added

end Spills

/-- A capacity whose low half is the least of all takes no fragment. -/
theorem compose_refuses (m : Memory) (room : 8 ≤ cap) (odd : cap % 4294967296 = 2147483648)
    (frag : Bytes) (rest : List Bytes) :
    Right buf cap (compose left buf (toInt32 cap) (frag :: rest) (.fresh m)) := by
  have least : toInt32 cap = -2147483648 := by
    rw [toInt32]
    omega
  have below (n : Int) : toInt32 cap ≤ toInt32 n := by
    rw [least, toInt32]
    omega
  have failed : addAll left buf (toInt32 cap) true (frag :: rest)
      (((Ram.fresh m).put buf [91]).put (buf + 1) [0]) =
      (false, (((Ram.fresh m).put buf [91]).put (buf + 1) [0]).scanned.scanned) := by
    simp [addAll, addAction, place, below]
  unfold compose
  simp only [failed]
  exact ⟨(opened_holding m buf (by omega)).inside, .inl rfl⟩

end Answers

/-- Where strlen keeps rsi, the answer is the length of the text that the capacity takes. -/
theorem answers_text (s : Session) (m : Memory) (some_buf : buf ≠ 0) (int : cap < 2147483648) :
    (hgActionsJsonFor (fun _ b => b) (some s) buf cap (.fresh m)).1 =
      ((actionsJsonFor s cap).map fun t => (t.length : Int)).getD (-1) := by
  have opening : (lit "[").length = 1 := length_lit _
  have ending : (lit "]").length = 1 := length_lit _
  have composed (composes : s.room = roomMarket ∨ s.room = roomDais) (room : 8 ≤ cap) :
      (hgActionsJsonFor (fun _ b => b) (some s) buf cap (.fresh m)).1 =
        ((addActions cap (lit "[") (fragments s)).map fun t => (t.length : Int)).getD (-1) := by
    have same : (fragments s).foldl grown (lit "[") ++ lit "]" = jsonText id (fragments s) := by
      rw [grown_rows (i := 0) (by omega) (fun frag member => (fragment_words frag member).1)
        (by omega)]
      rfl
    have bounds := tight_bounds s
    have word : toInt32 cap = cap := by
      rw [toInt32]
      omega
    rw [composed_answer some_buf room composes,
      add_actions_text (by omega) fun frag member => (fragment_words frag member).1, same]
    have size := congrArg List.length same
    rw [List.length_append, ending] at size
    rcases compose_cases m buf room (fragments_listed s).1.1 fragment_words
        (by rw [menu_length]; omega) with ⟨length, _, _, fits⟩ | ⟨failed, _, full⟩
    · rw [length, if_pos (by omega)]
      rfl
    · rw [failed, if_neg (by omega)]
      rfl
  by_cases short : cap < 8
  · simp [hgActionsJsonFor, actionsJsonFor, short]
  · have room : 8 ≤ cap := Nat.le_of_not_lt short
    unfold actionsJsonFor
    rw [if_neg short]
    by_cases market : s.room = roomMarket
    · rw [if_pos market, composed (.inl market) room, fragments, if_pos market]
    · rw [if_neg market]
      by_cases dais : s.room = roomDais
      · rw [composed (.inr dais) room, fragments, if_neg market, if_pos dais]
        rw [dais, if_neg (by decide)]
      · unfold hgActionsJsonFor
        simp only [some_buf, short, or_self, if_false, if_neg market, if_neg dais, bytes_length]
        split_ifs <;> rfl

theorem answers_text_market : (hgActionsJsonFor (fun _ b => b)
      (some { newSession 1 with room := roomMarket }) 64 512 (.fresh fun _ => 0)).1 =
    ((actionsJsonFor { newSession 1 with room := roomMarket } 512).map
      fun t => (t.length : Int)).getD (-1) :=
  @answers_text 64 512 { newSession 1 with room := roomMarket } (fun _ => 0)
    (by decide) (by decide)

/-- Where strlen keeps rsi, hg_actions_json_for is right unless the menu it composes is as long as
the buffer; where it need not, the market and the dais are right only as far as they refuse. -/
theorem actions_json_right_iff (s : Session) (buf cap : Nat) (m : Memory) :
    ((∀ left, KeepsRsi left → Right buf cap (hgActionsJsonFor left (some s) buf cap (.fresh m))) ↔
      buf = 0 ∨ (s.room ≠ roomMarket ∧ s.room ≠ roomDais) ∨ cap ≠ tight s) ∧
    ((∀ left, Right buf cap (hgActionsJsonFor left (some s) buf cap (.fresh m))) ↔
      buf = 0 ∨ cap < 8 ∨ (s.room ≠ roomMarket ∧ s.room ≠ roomDais) ∨
        cap % 4294967296 = 2147483648) := by
  have bounds := tight_bounds s
  by_cases refused : buf = 0 ∨ cap < 8
  · have right : ∀ left, Right buf cap (hgActionsJsonFor left (some s) buf cap (.fresh m)) :=
      fun _ => refused_right m refused
    exact ⟨iff_of_true (fun left _ => right left) (by omega), iff_of_true right (by omega)⟩
  · by_cases apart : s.room ≠ roomMarket ∧ s.room ≠ roomDais
    · have right : ∀ left, Right buf cap (hgActionsJsonFor left (some s) buf cap (.fresh m)) :=
        fun _ => apart_right m apart
      exact ⟨iff_of_true (fun left _ => right left) (.inr (.inl apart)),
        iff_of_true right (.inr (.inr (.inl apart)))⟩
    · have some_buf : buf ≠ 0 := fun null => refused (.inl null)
      have room : 8 ≤ cap := by omega
      have composes : s.room = roomMarket ∨ s.room = roomDais := by
        by_contra neither
        exact apart ⟨fun here => neither (.inl here), fun here => neither (.inr here)⟩
      have answer : ∀ left, hgActionsJsonFor left (some s) buf cap (.fresh m) =
          compose left buf (toInt32 cap) ((fragments s).map bytes) (.fresh m) :=
        fun _ => composed_answer some_buf room composes (.fresh m)
      obtain ⟨first, rest, listed⟩ := List.exists_cons_of_ne_nil (fragments_listed s).1.1
      simp only [answer]
      constructor
      · have kept := compose_kept m buf room (fragments_listed s).1.1 fragment_words
          (by rw [menu_length]; omega) (menu_listed s)
        rw [menu_length] at kept
        have only : (∀ left, KeepsRsi left → Right buf cap (compose left buf (toInt32 cap)
            ((fragments s).map bytes) (.fresh m))) ↔ Right buf cap (compose (fun _ b => b) buf
            (toInt32 cap) ((fragments s).map bytes) (.fresh m)) := by
          constructor
          · exact fun always => always _ fun _ _ => rfl
          · intro right left keeps
            obtain rfl : left = fun _ b => b := funext fun n => funext (keeps n)
            exact right
        rw [only, kept]
        simp [some_buf, apart]
      · rw [listed, List.map_cons]
        constructor
        · intro always
          by_contra odd
          obtain ⟨long, length⟩ : ∃ long : Bytes, long.length = 2147483647 + 4294967296 * cap :=
            ⟨List.replicate _ 120, List.length_replicate⟩
          have low : -2147483648 < toInt32 cap := by
            rw [toInt32]
            omega
          have holding : Holding buf cap (lit "[")
              (((Ram.fresh m).put buf [91]).put (buf + 1) [0]) := opened_holding m buf (by omega)
          have opened := held_length holding (by decide)
          have opening : (lit "[").length = 1 := length_lit _
          rw [opening] at opened
          have inside := (always fun _ _ => long).inside _
            (compose_stores (add_all_spills rfl (by rw [length]; omega) opened low))
          rw [List.length_append, length] at inside
          omega
        · intro odd left
          exact compose_refuses m room (by omega) _ _

/-- A Front hand in the market, who is offered only to steal. -/
def frontHand : Session := { newSession 1 with room := roomMarket, faction := str "front" }

theorem menu_spills :
    ¬Right 4096 110
      (hgActionsJsonFor (fun _ b => b) (some frontHand) 4096 110 (.fresh fun _ => 0)) := by
  have front : isFront frontHand = true := beq_self_eq_true (str "front")
  have alone : fragments frontHand = [actionSteal] := by
    have here : frontHand.room = roomMarket := rfl
    rw [fragments, if_pos here, marketActions, front]
    rfl
  have size : actionSteal.length = 108 := by
    rw [actionSteal, List.length_append]
    exact congrArg₂ (· + ·) (length_lit _) (length_lit _)
  have long : tight frontHand = 110 := by
    rw [tight, alone, List.map_singleton, List.sum_singleton, size]
  rw [composed_answer (by decide) (by decide) (.inl rfl), compose_kept _ _ (by decide)
    (fragments_listed _).1.1 fragment_words (by rw [menu_length, long]; decide) (menu_listed _),
    menu_length, long]
  exact fun apart => apart rfl

end Buffer

end HollowGrid
