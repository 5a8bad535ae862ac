import HollowGrid.Counts
import HollowGrid.Panels

/-! The event lines that the assembly composes of escaped parts in slots of its own. -/
namespace HollowGrid

open JsonText

section Escapes

/-- The bytes that a string takes once it is escaped. -/
def escapeSize (b : Bytes) : Nat := (b.flatMap escapeByte).length

theorem hex_stands {x : UInt8} (control : x < 32) : Stands (hexText x) x := by
  have table : ∀ n : Fin 32,
      codeByte (hexDigit (UInt8.ofNat n / 16)) (hexDigit (UInt8.ofNat n % 16)) =
      some (UInt8.ofNat n) := by decide +kernel
  have code := table ⟨x.toNat, UInt8.lt_iff_toNat_lt.mp control⟩
  simp only [UInt8.ofNat_toNat] at code
  intro rest
  have opens : hexText x ++ rest =
      92 :: 117 :: 48 :: 48 :: hexDigit (x / 16) :: hexDigit (x % 16) :: rest := rfl
  rw [opens, readString, code]
  rfl

theorem escape_stands (x : UInt8) : Stands (escapeByte x) x := by
  unfold escapeByte
  split
  · rename_i same
    subst same
    exact fun rest => rfl
  split
  · rename_i same
    subst same
    exact fun rest => rfl
  split
  · rename_i same
    subst same
    exact fun rest => rfl
  split
  · rename_i same
    subst same
    exact fun rest => rfl
  split
  · rename_i same
    subst same
    exact fun rest => rfl
  split
  · rename_i same
    subst same
    exact fun rest => rfl
  split
  · rename_i same
    subst same
    exact fun rest => rfl
  split
  · rename_i control
    exact hex_stands control
  · rename_i quote slash _ _ _ _ _ high
    refine stands_plain ?_
    simp [plainByte, quote, slash, UInt8.not_lt.mp high]

theorem escape_visible (x : UInt8) : ∀ y ∈ escapeByte x, 32 ≤ y := by
  have table : ∀ n : Fin 32, ∀ y ∈ escapeByte (UInt8.ofNat n), 32 ≤ y := by decide +kernel
  by_cases control : x < 32
  · have low := table ⟨x.toNat, UInt8.lt_iff_toNat_lt.mp control⟩
    simpa only [UInt8.ofNat_toNat] using low
  by_cases quote : x = 34
  · subst quote
    decide +kernel
  by_cases slash : x = 92
  · subst slash
    decide +kernel
  have high := UInt8.not_lt.mp control
  have off (y : UInt8) (low : y < 32) : x ≠ y := by
    rintro rfl
    exact control low
  have itself : escapeByte x = [x] := by
    simp [escapeByte, quote, slash, control, off 8 (by decide), off 12 (by decide),
      off 10 (by decide), off 13 (by decide), off 9 (by decide)]
  rw [itself]
  simpa using high

theorem escaped_visible (b : Bytes) : ∀ y ∈ b.flatMap escapeByte, 32 ≤ y := by
  intro y member
  obtain ⟨x, _, there⟩ := List.mem_flatMap.mp member
  exact escape_visible x y there

theorem escaped_spells (b : Bytes) : Spells (b.flatMap escapeByte) b :=
  spells_escaped escape_stands b

end Escapes

def slotString (cap : Nat) (b : Bytes) : Bytes := if escapeSize b + 1 ≤ cap then b else []

theorem escaped_bytes (cap : Nat) (b : Bytes) :
    bytes (escaped cap b) = (slotString cap b).flatMap escapeByte := by
  have size : (escapeText b).length = escapeSize b := by simp [escapeText, raw, escapeSize]
  simp only [escaped, jsonEscape, slotString, size]
  split
  · exact bytes_raw _
  · rfl

theorem slot_string_iff {cap : Nat} (room : 0 < cap) (b : Bytes) :
    slotString cap b = b ↔ escapeSize b + 1 ≤ cap := by
  unfold slotString
  split
  · rename_i fits
    exact iff_of_true rfl fits
  · rename_i beyond
    refine iff_of_false (fun empty => ?_) beyond
    subst empty
    exact beyond room

section Composing

variable {n : Nat}

def slotField (key : String) (cap : Nat) (b : Bytes) : Member :=
  ⟨str key, 34 :: (slotString cap b).flatMap escapeByte ++ [34], .str (slotString cap b)⟩

theorem quoted_visible {b : Bytes} (visible : ∀ x ∈ b, 32 ≤ x) :
    ∀ x ∈ (34 :: b ++ [34] : Bytes), 32 ≤ x := by
  intro x member
  simp only [List.cons_append, List.mem_cons, List.mem_append, List.not_mem_nil, or_false] at member
  rcases member with rfl | inner | rfl
  · decide
  · exact visible x inner
  · decide

theorem slot_legible {key : String} (named : Quotable (str key)) (cap : Nat) (b : Bytes)
    (deep : 1 ≤ n) : Legible n (slotField key cap b) where
  good := ⟨named.plain, prints_more (prints_string (escaped_spells _)) deep⟩
  visible := quoted_visible (escaped_visible _)

theorem shown_legible {m : Member} (shown : Shown m) (deep : 1 ≤ n) : Legible n m where
  good := ⟨shown.good.key, prints_more shown.good.text deep⟩
  visible := shown.visible

end Composing

/-- A line that the assembly composes, with what it is composed of. -/
inductive AsmEvent
  | pit (name : Bytes)
  | cells (name : Bytes)
  | redemption (name title : Bytes)
  | read (t : Session)
  | reckoning (l : Ledger) (s : Session)
  | remembrance (row : Fallen)

namespace AsmEvent

def event : AsmEvent → String
  | pit _ | cells _ => "grid.rescued"
  | redemption _ _ => "grid.redemption"
  | read _ => "player.read"
  | reckoning _ _ => "char.reckoning"
  | remembrance _ => "grid.remembrance"

/-- The line as its command queues it. -/
def line : AsmEvent → Text
  | pit name => snprintf 80 (rescuedOne name "Mira")
  | cells name => snprintf 160 (rescuedTwo name "Rook" "Sable")
  | redemption name title => snprintf 96 (gridRedemption name title)
  | read t => snprintf 168 (lookEvt t)
  | reckoning l s => reckoningEvent l s
  | remembrance row => snprintf 280 (remembranceEvt row)

/-- What the line is to say. -/
def fields : AsmEvent → List (Bytes × Value)
  | pit name => [(str "savedBy", .str name), (str "freed", .arr [.str (str "Mira")])]
  | cells name =>
    [(str "savedBy", .str name), (str "freed", .arr [.str (str "Rook"), .str (str "Sable")])]
  | redemption name title => [(str "name", .str name), (str "title", .str title)]
  | read t =>
    [(str "name", .str t.name), (str "title", .str t.title), (str "faction", .str t.faction),
      (str "ashsworn", .bool t.ashsworn), (str "regard", .str (regardOf t))]
  | reckoning l s =>
    [(str "morality", .num s.morality), (str "standing", .str (orDefault s.faction "none")),
      (str "ashsworn", .bool s.ashsworn), (str "strayed", .bool s.strayed),
      (str "redeemed", .bool s.redeemed),
      (str "deeds", .obj (Deed.all.map fun kind => (str kind.name, .num (reckoned l s.name kind))))]
  | remembrance row =>
    [(str "fallen", .str row.name), (str "world", .str row.world), (str "room", .str row.third)]

/-- The escaped parts fit their slots, and the whole fits its own. -/
def Fits : AsmEvent → Prop
  | pit name => escapeSize name ≤ 26
  | cells name => escapeSize name ≤ 79
  | redemption name title => escapeSize name + escapeSize title ≤ 48
  | read t => escapeSize t.faction ≤ 39 ∧
      escapeSize t.name + escapeSize t.title + escapeSize t.faction + (regardOf t).length +
        (if t.ashsworn then 4 else 5) ≤ 87
  | reckoning _ s => escapeSize (orDefault s.faction "none") ≤ 47
  | remembrance row => escapeSize row.name ≤ 39 ∧ escapeSize row.world ≤ 47 ∧
      escapeSize row.third ≤ 39

end AsmEvent

section Events

def wordsField (key first : String) (others : List String) : Member :=
  ⟨str key, arrayText ((first :: others).map fun word => (34 :: str word ++ [34], .str (str word))),
    .arr ((first :: others).map fun word => .str (str word))⟩

theorem words_legible {n : Nat} {key first : String} {others : List String}
    (named : Quotable (str key)) (words : ∀ word ∈ first :: others, Quotable (str word))
    (deep : others.length + 2 ≤ n) : Legible n (wordsField key first others) where
  good := by
    refine ⟨named.plain, ?_⟩
    have each := prints_array (n := 1) (x := 34) (by decide) (str first ++ [34]) (.str (str first))
      (others.map fun word => (34 :: str word ++ [34], .str (str word))) (by
        intro p member
        have listed : p ∈ (first :: others).map fun word =>
          (34 :: str word ++ [34], Value.str (str word)) := member
        obtain ⟨word, there, rfl⟩ := List.mem_map.mp listed
        exact prints_string (spells_plain (words word there).plain))
    rw [List.length_map] at each
    have whole := prints_more each (m := n) (by omega)
    simpa [wordsField, Function.comp_def] using whole
  visible := by
    intro x member
    simp only [wordsField, arrayText, List.cons_append, List.mem_cons, List.mem_append,
      List.not_mem_nil, or_false] at member
    rcases member with rfl | joined | rfl
    · decide
    · refine joined_bytes (P := (32 ≤ ·)) (by decide) (fun p listed => ?_) x joined
      simp only [List.map_map, List.mem_map, Function.comp_apply] at listed
      obtain ⟨word, there, rfl⟩ := listed
      exact quoted_visible (plain_visible (words word there).plain)
    · decide

theorem escaped_length (cap : Nat) (b : Bytes) :
    (escaped cap b).length = escapeSize (slotString cap b) := by
  have sizes := congrArg List.length (escaped_bytes cap b)
  simpa [bytes, escapeSize] using sizes

theorem slot_whole {cap : Nat} {b : Bytes} (fits : escapeSize b + 1 ≤ cap) : slotString cap b = b :=
  if_pos fits

def pitMembers (name : Bytes) : List Member :=
  [slotField "savedBy" 80 name, wordsField "freed" "Mira" []]

theorem pit_iff (name : Bytes) :
    EventLine "grid.rescued" (AsmEvent.pit name).line (AsmEvent.pit name).fields ↔
      (AsmEvent.pit name).Fits := by
  have mira : bytes (escaped 80 (str "Mira")) = str "Mira" := by decide
  have same : bytes (rescuedOne name "Mira") =
      str "@event " ++ str "grid.rescued" ++ [32] ++ objectText (pitMembers name) ++ [13, 10] := by
    unfold rescuedOne
    simp only [bytes_join, bytes_lit, mira, escaped_bytes]
    simp [str, objectText, pitMembers, Member.body, slotField, wordsField, arrayText]
  have size : (rescuedOne name "Mira").length = 53 + escapeSize (slotString 80 name) := by
    have keys : (lit r#"@event grid.rescued {"savedBy":""#).length = 32 ∧
      (lit r#"","freed":[""#).length = 12 ∧ (escaped 80 (str "Mira")).length = 4 ∧
      (lit r#""]}"#).length = 3 ∧ (lit "\r\n").length = 2 :=
      ⟨length_lit _, length_lit _, by decide, length_lit _, length_lit _⟩
    simp only [rescuedOne, crlf, List.length_append, escaped_length 80 name, keys]
    omega
  have legible : ∀ m ∈ pitMembers name, Legible 2 m := by
    simp only [pitMembers, List.forall_mem_cons, List.not_mem_nil, false_implies, implies_true,
      and_true]
    exact ⟨slot_legible (by decide) 80 name (by decide),
      words_legible (by decide) (by decide) (by decide)⟩
  have line := composed_iff 80 (AsmEvent.pit name).fields (by decide)
    (by simp [pitMembers]) legible same (by simp [pitMembers, objectText]; omega)
  refine line.trans ?_
  have read : (pitMembers name).map (fun m => (m.key, m.value)) = (AsmEvent.pit name).fields ↔
      slotString 80 name = name := by
    simp [pitMembers, AsmEvent.fields, slotField, wordsField]
  rw [read, slot_string_iff (by decide), size]
  constructor
  · rintro ⟨short, fits⟩
    rw [slot_whole fits] at short
    change _ ≤ 26
    omega
  · intro fits
    change _ ≤ 26 at fits
    rw [slot_whole (by omega)]
    omega

def cellsMembers (name : Bytes) : List Member :=
  [slotField "savedBy" 80 name, wordsField "freed" "Rook" ["Sable"]]

theorem cells_iff (name : Bytes) :
    EventLine "grid.rescued" (AsmEvent.cells name).line (AsmEvent.cells name).fields ↔
      (AsmEvent.cells name).Fits := by
  have same : bytes (rescuedTwo name "Rook" "Sable") =
      str "@event " ++ str "grid.rescued" ++ [32] ++ objectText (cellsMembers name) ++
        [13, 10] := by
    unfold rescuedTwo
    simp only [bytes_join, bytes_lit, escaped_bytes]
    simp [str, objectText, cellsMembers, Member.body, slotField, wordsField, arrayText]
  have size : (rescuedTwo name "Rook" "Sable").length = 61 + escapeSize (slotString 80 name) := by
    have keys : (lit r#"@event grid.rescued {"savedBy":""#).length = 32 ∧
      (lit r#"","freed":[""#).length = 12 ∧ (lit "Rook").length = 4 ∧
      (lit r#"",""#).length = 3 ∧ (lit "Sable").length = 5 ∧ (lit r#""]}"#).length = 3 ∧
      (lit "\r\n").length = 2 :=
      ⟨length_lit _, length_lit _, length_lit _, length_lit _, length_lit _, length_lit _,
        length_lit _⟩
    simp only [rescuedTwo, crlf, List.length_append, escaped_length, keys]
    omega
  have legible : ∀ m ∈ cellsMembers name, Legible 3 m := by
    simp only [cellsMembers, List.forall_mem_cons, List.not_mem_nil, false_implies, implies_true,
      and_true]
    exact ⟨slot_legible (by decide) 80 name (by decide),
      words_legible (by decide) (by decide) (by decide)⟩
  have line := composed_iff 160 (AsmEvent.cells name).fields (by decide)
    (by simp [cellsMembers]) legible same (by simp [cellsMembers, objectText]; omega)
  refine line.trans ?_
  have read : (cellsMembers name).map (fun m => (m.key, m.value)) = (AsmEvent.cells name).fields ↔
      slotString 80 name = name := by
    simp [cellsMembers, AsmEvent.fields, slotField, wordsField]
  rw [read, slot_string_iff (by decide), size]
  change _ ↔ escapeSize name ≤ 79
  constructor
  · rintro ⟨_, fits⟩
    omega
  · intro fits
    rw [slot_whole (by omega)]
    omega

def redemptionMembers (name title : Bytes) : List Member :=
  [slotField "name" 80 name, slotField "title" 80 title]

theorem redemption_iff (name title : Bytes) :
    EventLine "grid.redemption" (AsmEvent.redemption name title).line
        (AsmEvent.redemption name title).fields ↔
      (AsmEvent.redemption name title).Fits := by
  have same : bytes (gridRedemption name title) = str "@event " ++ str "grid.redemption" ++ [32] ++
      objectText (redemptionMembers name title) ++ [13, 10] := by
    unfold gridRedemption
    simp only [bytes_join, bytes_lit, escaped_bytes]
    simp [str, objectText, redemptionMembers, Member.body, slotField]
  have size : (gridRedemption name title).length =
      47 + escapeSize (slotString 80 name) + escapeSize (slotString 80 title) := by
    have keys : (lit r#"@event grid.redemption {"name":""#).length = 32 ∧
      (lit r#"","title":""#).length = 11 ∧ (lit r#""}"#).length = 2 ∧
      (lit "\r\n").length = 2 := ⟨length_lit _, length_lit _, length_lit _, length_lit _⟩
    simp only [gridRedemption, crlf, List.length_append, escaped_length, keys]
    omega
  have legible : ∀ m ∈ redemptionMembers name title, Legible 1 m := by
    simp only [redemptionMembers, List.forall_mem_cons, List.not_mem_nil, false_implies,
      implies_true, and_true]
    exact ⟨slot_legible (by decide) 80 name (by decide),
      slot_legible (by decide) 80 title (by decide)⟩
  have line := composed_iff 96 (AsmEvent.redemption name title).fields
    (by decide) (by simp [redemptionMembers]) legible same
    (by simp [redemptionMembers, objectText]; omega)
  refine line.trans ?_
  have read : (redemptionMembers name title).map (fun m => (m.key, m.value)) =
        (AsmEvent.redemption name title).fields ↔
      slotString 80 name = name ∧ slotString 80 title = title := by
    simp [redemptionMembers, AsmEvent.fields, slotField]
  rw [read, slot_string_iff (by decide), slot_string_iff (by decide), size]
  change _ ↔ escapeSize name + escapeSize title ≤ 48
  constructor
  · rintro ⟨short, named, titled⟩
    rw [slot_whole named, slot_whole titled] at short
    omega
  · intro fits
    rw [slot_whole (by omega), slot_whole (by omega)]
    omega

def remembranceMembers (row : Fallen) : List Member :=
  [slotField "fallen" 40 row.name, slotField "world" 48 row.world, slotField "room" 40 row.third]

theorem remembrance_iff (row : Fallen) :
    EventLine "grid.remembrance" (AsmEvent.remembrance row).line
        (AsmEvent.remembrance row).fields ↔
      (AsmEvent.remembrance row).Fits := by
  have same : bytes (remembranceEvt row) = str "@event " ++ str "grid.remembrance" ++ [32] ++
      objectText (remembranceMembers row) ++ [13, 10] := by
    unfold remembranceEvt
    simp only [bytes_join, bytes_lit, escaped_bytes]
    simp [str, objectText, remembranceMembers, Member.body, slotField]
  have size : (remembranceEvt row).length = 60 + escapeSize (slotString 40 row.name) +
      escapeSize (slotString 48 row.world) + escapeSize (slotString 40 row.third) := by
    have keys : (lit r#"@event grid.remembrance {"fallen":""#).length = 35 ∧
      (lit r#"","world":""#).length = 11 ∧ (lit r#"","room":""#).length = 10 ∧
      (lit r#""}"#).length = 2 ∧ (lit "\r\n").length = 2 :=
      ⟨length_lit _, length_lit _, length_lit _, length_lit _, length_lit _⟩
    simp only [remembranceEvt, crlf, List.length_append, escaped_length, keys]
    omega
  have legible : ∀ m ∈ remembranceMembers row, Legible 1 m := by
    simp only [remembranceMembers, List.forall_mem_cons, List.not_mem_nil, false_implies,
      implies_true, and_true]
    exact ⟨slot_legible (by decide) 40 row.name (by decide),
      slot_legible (by decide) 48 row.world (by decide),
      slot_legible (by decide) 40 row.third (by decide)⟩
  have line := composed_iff 280 (AsmEvent.remembrance row).fields
    (by decide) (by simp [remembranceMembers]) legible same
    (by simp [remembranceMembers, objectText]; omega)
  refine line.trans ?_
  have read : (remembranceMembers row).map (fun m => (m.key, m.value)) =
        (AsmEvent.remembrance row).fields ↔
      slotString 40 row.name = row.name ∧ slotString 48 row.world = row.world ∧
        slotString 40 row.third = row.third := by
    simp [remembranceMembers, AsmEvent.fields, slotField]
  rw [read, slot_string_iff (by decide), slot_string_iff (by decide), slot_string_iff (by decide),
    size]
  change _ ↔ escapeSize row.name ≤ 39 ∧ escapeSize row.world ≤ 47 ∧ escapeSize row.third ≤ 39
  constructor
  · rintro ⟨_, named, world, place⟩
    omega
  · intro fits
    rw [slot_whole (by omega), slot_whole (by omega), slot_whole (by omega)]
    omega

def readMembers (t : Session) : List Member :=
  [slotField "name" 80 t.name, slotField "title" 80 t.title, slotField "faction" 40 t.faction,
    boolMember "ashsworn" t.ashsworn, slotField "regard" 40 (regardOf t)]

theorem regard_whole (t : Session) : slotString 40 (regardOf t) = regardOf t ∧
    escapeSize (regardOf t) = (regardOf t).length ∧ 5 ≤ (regardOf t).length := by
  unfold regardOf
  repeat' split
  all_goals decide

theorem read_iff (t : Session) :
    EventLine "player.read" (AsmEvent.read t).line (AsmEvent.read t).fields ↔
      (AsmEvent.read t).Fits := by
  obtain ⟨regard, regard_size, regard_long⟩ := regard_whole t
  have same : bytes (lookEvt t) = str "@event " ++ str "player.read" ++ [32] ++
      objectText (readMembers t) ++ [13, 10] := by
    unfold lookEvt
    simp only [bytes_join, bytes_lit, escaped_bytes, bytes_bool]
    simp [str, objectText, readMembers, Member.body, slotField, boolMember]
  have flag : (boolText t.ashsworn).length = if t.ashsworn then 4 else 5 := by
    cases t.ashsworn <;> rfl
  have size : (lookEvt t).length = 80 + escapeSize (slotString 80 t.name) +
      escapeSize (slotString 80 t.title) + escapeSize (slotString 40 t.faction) +
      (if t.ashsworn then 4 else 5) + (regardOf t).length := by
    have keys : (lit r#"@event player.read {"name":""#).length = 28 ∧
      (lit r#"","title":""#).length = 11 ∧ (lit r#"","faction":""#).length = 13 ∧
      (lit r#"","ashsworn":"#).length = 13 ∧ (lit r#","regard":""#).length = 11 ∧
      (lit r#""}"#).length = 2 ∧ (lit "\r\n").length = 2 :=
      ⟨length_lit _, length_lit _, length_lit _, length_lit _, length_lit _, length_lit _,
        length_lit _⟩
    simp only [lookEvt, crlf, List.length_append, escaped_length, keys, flag, regard, regard_size]
    omega
  have legible : ∀ m ∈ readMembers t, Legible 1 m := by
    simp only [readMembers, List.forall_mem_cons, List.not_mem_nil, false_implies,
      implies_true, and_true]
    exact ⟨slot_legible (by decide) 80 t.name (by decide),
      slot_legible (by decide) 80 t.title (by decide),
      slot_legible (by decide) 40 t.faction (by decide),
      shown_legible (bool_shown (by decide) t.ashsworn) (by decide),
      slot_legible (by decide) 40 (regardOf t) (by decide)⟩
  have line := composed_iff 168 (AsmEvent.read t).fields
    (by decide) (by simp [readMembers]) legible same (by simp [readMembers, objectText]; omega)
  refine line.trans ?_
  have read : (readMembers t).map (fun m => (m.key, m.value)) = (AsmEvent.read t).fields ↔
      slotString 80 t.name = t.name ∧ slotString 80 t.title = t.title ∧
        slotString 40 t.faction = t.faction := by
    simp [readMembers, AsmEvent.fields, slotField, boolMember, regard]
  rw [read, slot_string_iff (by decide), slot_string_iff (by decide), slot_string_iff (by decide),
    size]
  change _ ↔ escapeSize t.faction ≤ 39 ∧
      escapeSize t.name + escapeSize t.title + escapeSize t.faction + (regardOf t).length +
        (if t.ashsworn then 4 else 5) ≤ 87
  constructor
  · rintro ⟨short, named, titled, side⟩
    rw [slot_whole named, slot_whole titled, slot_whole side] at short
    omega
  · rintro ⟨side, fits⟩
    have flagged : 4 ≤ if t.ashsworn then 4 else 5 := by split <;> decide
    rw [slot_whole (by omega), slot_whole (by omega), slot_whole (by omega)]
    omega

/-- The counts as they are written, from the i-th on. -/
def deedText : Nat → List (Deed × Int) → Text
  | _, [] => []
  | i, row :: rest => deedKv i row.1 row.2 ++ deedText (i + 1) rest

theorem deeds_whole (rows : List (Deed × Int)) (i : Nat) (buf : Text)
    (fits : buf.length + (deedText i rows).length ≤ 620) :
    deedsJson buf i rows = buf ++ deedText i rows ++ lit "\x7d" := by
  induction rows generalizing i buf with
  | nil => simp [deedsJson, deedText]
  | cons row rest ih =>
    obtain ⟨kind, n⟩ := row
    rw [deedText, List.length_append] at fits
    dsimp only at fits
    have kept : (buf ++ deedKv i kind n).take 620 = buf ++ deedKv i kind n :=
      List.take_of_length_le (by rw [List.length_append]; omega)
    rw [deedsJson, kept, ih (i + 1) _ (by rw [List.length_append]; omega), deedText]
    simp

def deedMember (row : Deed × Int) : Member := numberMember row.1.name row.2

theorem kv_bytes (i : Nat) (row : Deed × Int) :
    bytes (deedKv i row.1 row.2) = bytes (comma i) ++ (deedMember row).body := by
  have colon : str "\":" = [34, 58] := by decide
  have quote : str "\"" = [34] := by decide
  simp only [deedKv, bytes_join, bytes_lit, bytes_number, colon, quote]
  simp [Member.body, deedMember, numberMember]

theorem later_deeds (i : Nat) (rows : List (Deed × Int)) :
    bytes (deedText (i + 1) rows) = rows.flatMap fun row => 44 :: (deedMember row).body := by
  induction rows generalizing i with
  | nil => rfl
  | cons row rest ih =>
    have mark : bytes (comma (i + 1)) = [44] := by simp [comma, lit, bytes, str]
    rw [deedText, bytes_join, kv_bytes, mark, ih (i + 1), List.flatMap_cons]
    rfl

theorem joined_cons (first : Bytes) (rest : List Bytes) :
    ([44] : Bytes).intercalate (first :: rest) = first ++ rest.flatMap fun part => 44 :: part := by
  induction rest generalizing first with
  | nil => simp
  | cons second rest ih => simp [List.intercalate_cons_cons, ih second]

theorem deed_bytes (rows : List (Deed × Int)) :
    bytes (deedText 0 rows) =
      ([44] : Bytes).intercalate (rows.map fun row => (deedMember row).body) := by
  cases rows with
  | nil => rfl
  | cons row rest =>
    rw [deedText, bytes_join, kv_bytes, later_deeds, List.map_cons, joined_cons, List.flatMap_map]
    rfl

theorem deed_name (kind : Deed) : Quotable (str kind.name) := by
  cases kind <;> decide

theorem deeds_length (i : Nat) (rows : List (Deed × Int))
    (words : ∀ row ∈ rows, -2 ^ 63 ≤ row.2 ∧ row.2 < 2 ^ 63) :
    (deedText i rows).length ≤ 40 * rows.length := by
  induction rows generalizing i with
  | nil => exact Nat.zero_le _
  | cons row rest ih =>
    have tail := ih (i + 1) fun later member => words later (List.mem_cons_of_mem _ member)
    have digits := decimal_length (words row List.mem_cons_self)
    have named := (deed_name row.1).short
    have marks : (comma i).length ≤ 1 := by
      unfold comma
      split
      · exact Nat.zero_le 1
      · decide
    have key : (lit row.1.name).length = (str row.1.name).length := List.length_map _
    have count : (number row.2).length = (decimal row.2).length := List.length_map _
    have quotes : (lit "\"").length = 1 ∧ (lit "\":").length = 2 := ⟨length_lit _, length_lit _⟩
    simp only [deedText, deedKv, List.length_append, List.length_cons, quotes, key, count]
    omega

def reckoningRows (l : Ledger) (name : Bytes) : List (Deed × Int) :=
  Deed.all.map fun kind => (kind, reckoned l name kind)

theorem reckoned_words (l : Ledger) (name : Bytes) :
    ∀ row ∈ reckoningRows l name, -2 ^ 63 ≤ row.2 ∧ row.2 < 2 ^ 63 := by
  intro row member
  obtain ⟨kind, _, rfl⟩ := List.mem_map.mp member
  dsimp only [reckoned, toInt32]
  omega

def reckoningMembers (l : Ledger) (s : Session) : List Member :=
  [numberMember "morality" s.morality, slotField "standing" 48 (orDefault s.faction "none"),
    boolMember "ashsworn" s.ashsworn, boolMember "strayed" s.strayed,
    boolMember "redeemed" s.redeemed,
    ⟨str "deeds", objectText ((reckoningRows l s.name).map deedMember),
      .obj (((reckoningRows l s.name).map deedMember).map fun m => (m.key, m.value))⟩]

theorem deeds_legible (l : Ledger) (name : Bytes) :
    Legible 14 ⟨str "deeds", objectText ((reckoningRows l name).map deedMember),
      .obj (((reckoningRows l name).map deedMember).map fun m => (m.key, m.value))⟩ := by
  have each : ∀ m ∈ (reckoningRows l name).map deedMember, Legible 1 m := by
    intro m member
    obtain ⟨row, there, rfl⟩ := List.mem_map.mp member
    have shown : Shown (deedMember row) :=
      number_shown (deed_name row.1) (reckoned_words l name row there)
    exact shown_legible shown (Nat.le_refl 1)
  have size : ((reckoningRows l name).map deedMember).length = 13 := by
    rw [List.length_map, reckoningRows, List.length_map]
    rfl
  have some_row : (reckoningRows l name).map deedMember ≠ [] := by
    intro none_left
    rw [none_left] at size
    cases size
  have prints := prints_object some_row fun m member => (each m member).good
  rw [size] at prints
  exact ⟨⟨(by decide : Quotable (str "deeds")).plain, prints⟩, object_visible each⟩

theorem body_long (m : Member) {k : Nat} (key : k ≤ m.key.length + 3) : k ≤ m.body.length := by
  simp only [Member.body, List.length_append, List.length_cons]
  omega

theorem reckoning_iff (l : Ledger) (s : Session)
    (word : -2 ^ 63 ≤ s.morality ∧ s.morality < 2 ^ 63) :
    EventLine "char.reckoning" (AsmEvent.reckoning l s).line (AsmEvent.reckoning l s).fields ↔
      (AsmEvent.reckoning l s).Fits := by
  have rows : (reckoningRows l s.name).length = 13 := by
    rw [reckoningRows, List.length_map]
    rfl
  have room := deeds_length 0 _ (reckoned_words l s.name)
  rw [rows] at room
  have whole : deedsJson (lit "\x7b") 0 (reckoningRows l s.name) =
      lit "\x7b" ++ deedText 0 (reckoningRows l s.name) ++ lit "\x7d" := by
    refine deeds_whole _ 0 _ ?_
    have brace : (lit "\x7b").length = 1 := length_lit _
    omega
  have text : (AsmEvent.reckoning l s).line = snprintf 800 (reckoningEvt s
      (lit "\x7b" ++ deedText 0 (reckoningRows l s.name) ++ lit "\x7d")) := by
    rw [← whole]
    rfl
  have deeds : bytes (lit "\x7b" ++ deedText 0 (reckoningRows l s.name) ++ lit "\x7d") =
      objectText ((reckoningRows l s.name).map deedMember) := by
    rw [bytes_join, bytes_join, deed_bytes, objectText, List.map_map]
    rfl
  have standing : (if s.faction = [] then str "none" else s.faction) =
    orDefault s.faction "none" := rfl
  have same : bytes (reckoningEvt s
      (lit "\x7b" ++ deedText 0 (reckoningRows l s.name) ++ lit "\x7d")) =
      str "@event " ++ str "char.reckoning" ++ [32] ++ objectText (reckoningMembers l s) ++
        [13, 10] := by
    generalize lit "\x7b" ++ deedText 0 (reckoningRows l s.name) ++ lit "\x7d" = counts at deeds ⊢
    unfold reckoningEvt
    rw [standing]
    simp only [bytes_join, bytes_lit, bytes_number, bytes_bool, escaped_bytes, deeds]
    unfold reckoningMembers
    generalize objectText ((reckoningRows l s.name).map deedMember) = written
    simp [str, objectText, Member.body, numberMember, slotField, boolMember]
  have size : (reckoningEvt s
      (lit "\x7b" ++ deedText 0 (reckoningRows l s.name) ++ lit "\x7d")).length ≤
        660 + escapeSize (slotString 48 (orDefault s.faction "none")) := by
    have keys : (lit r#"@event char.reckoning {"morality":"#).length = 34 ∧
      (lit r#","standing":""#).length = 13 ∧ (lit r#"","ashsworn":"#).length = 13 ∧
      (lit r#","strayed":"#).length = 11 ∧ (lit r#","redeemed":"#).length = 12 ∧
      (lit r#","deeds":"#).length = 9 ∧ (lit "\x7b").length = 1 ∧ (lit "\x7d").length = 1 ∧
      (lit "\r\n").length = 2 :=
      ⟨length_lit _, length_lit _, length_lit _, length_lit _, length_lit _, length_lit _,
        length_lit _, length_lit _, length_lit _⟩
    have flag (b : Bool) : (boolText b).length ≤ 5 := by cases b <;> decide
    have ash := flag s.ashsworn
    have strayed := flag s.strayed
    have redeemed := flag s.redeemed
    have digits := decimal_length word
    have count : (number s.morality).length = (decimal s.morality).length := List.length_map _
    rw [reckoningEvt, standing]
    simp only [crlf, List.length_append, escaped_length, count, keys]
    omega
  have legible : ∀ m ∈ reckoningMembers l s, Legible 14 m := by
    simp only [reckoningMembers, List.forall_mem_cons, List.not_mem_nil, false_implies,
      implies_true, and_true]
    exact ⟨shown_legible (number_shown (by decide) word) (by decide),
      slot_legible (by decide) 48 _ (by decide),
      shown_legible (bool_shown (by decide) s.ashsworn) (by decide),
      shown_legible (bool_shown (by decide) s.strayed) (by decide),
      shown_legible (bool_shown (by decide) s.redeemed) (by decide), deeds_legible l s.name⟩
  have first : 11 ≤ (numberMember "morality" s.morality).body.length :=
    body_long _ (by decide : 11 ≤ (str "morality").length + 3)
  have second : 11 ≤ (slotField "standing" 48 (orDefault s.faction "none")).body.length :=
    body_long _ (by decide : 11 ≤ (str "standing").length + 3)
  have line := composed_iff 800 (AsmEvent.reckoning l s).fields
    (by decide) (by simp [reckoningMembers]) legible same
    (by simp [reckoningMembers, objectText]; omega)
  rw [text]
  refine line.trans ?_
  have read : (reckoningMembers l s).map (fun m => (m.key, m.value)) =
        (AsmEvent.reckoning l s).fields ↔
      slotString 48 (orDefault s.faction "none") = orDefault s.faction "none" := by
    simp [reckoningMembers, AsmEvent.fields, slotField, boolMember, numberMember, reckoningRows,
      deedMember, Function.comp_def]
  rw [read, slot_string_iff (by decide)]
  change _ ↔ escapeSize (orDefault s.faction "none") ≤ 47
  constructor
  · rintro ⟨_, fits⟩
    omega
  · intro fits
    rw [slot_whole (by omega)] at size
    omega

/-- The one number that a line prints as it is fits its word. -/
def AsmEvent.Word : AsmEvent → Prop
  | .reckoning _ s => -2 ^ 63 ≤ s.morality ∧ s.morality < 2 ^ 63
  | _ => True

/-- A composed line is a whole event that is read as what it stands for exactly when its parts
fit. -/
theorem composed_lines_iff (e : AsmEvent) (word : e.Word) :
    EventLine e.event e.line e.fields ↔ e.Fits := by
  cases e with
  | pit name => exact pit_iff name
  | cells name => exact cells_iff name
  | redemption name title => exact redemption_iff name title
  | read t => exact read_iff t
  | reckoning l s => exact reckoning_iff l s word
  | remembrance row => exact remembrance_iff row

theorem composed_lines_iff_ada : (AsmEvent.reckoning {} { name := str "ada" }).Word ∧
    EventLine "char.reckoning" (AsmEvent.reckoning {} { name := str "ada" }).line
      (AsmEvent.reckoning {} { name := str "ada" }).fields := by
  have word : (AsmEvent.reckoning {} { name := str "ada" }).Word := by
    change -2 ^ 63 ≤ (0 : Int) ∧ (0 : Int) < 2 ^ 63
    decide
  refine ⟨word, (composed_lines_iff (.reckoning {} { name := str "ada" }) word).mpr ?_⟩
  change escapeSize (orDefault [] "none") ≤ 47
  decide

/-- A survivor of a name of 32 letters frees the captive of the pit, and the event of it has no
end. -/
theorem long_savior_cut : ¬ ∀ name, validName name = true →
    EventLine "grid.rescued" (AsmEvent.pit name).line (AsmEvent.pit name).fields := by
  intro always
  have event := always (List.replicate 32 97) (by decide)
  have feeds := event_feeds event (by decide)
  have none_left : (bytes (AsmEvent.pit (List.replicate 32 97)).line).count 10 = 0 := by
    decide +kernel
  rw [none_left] at feeds
  cases feeds

end Events

end HollowGrid
