import HollowGrid.Frames
import HollowGrid.Lib.JsonText

/-! The lines of char.vitals, char.affects and char.equipment: what they are read as, and where
the strings they print come from. -/
namespace HollowGrid

open Machine JsonText

/-- A string that may stand between quotes as it is, in a field of 16 bytes. -/
structure Quotable (b : Bytes) : Prop where
  short : b.length ≤ 15
  plain : ∀ x ∈ b, plainByte x = true

instance (b : Bytes) : Decidable (Quotable b) :=
  decidable_of_iff (b.length ≤ 15 ∧ b.all plainByte = true)
    ⟨fun both => ⟨both.1, List.all_eq_true.mp both.2⟩,
      fun quotable => ⟨quotable.short, List.all_eq_true.mpr quotable.plain⟩⟩

theorem quotable_nil : Quotable [] := ⟨Nat.zero_le 15, nofun⟩

/-- The strings that the three lines print. -/
structure Character.Printable (ch : Character) : Prop where
  race : Quotable ch.race
  faction : Quotable ch.faction
  position : Quotable ch.position
  weapon : Quotable ch.weapon
  head : Quotable ch.head
  body : Quotable ch.body
  hands : Quotable ch.hands
  feet : Quotable ch.feet

def AllPrintable (g : Server) : Prop := ∀ d, (g.blocks d).Printable

/-- The strings of a character file that the lines print, cut to their fields. -/
def PlainFile (root : Json) : Prop :=
  ∀ key ∈ ["race", "faction", "position", "weapon"], ∀ text,
    (root.item (str key)).bind Json.stringValue = some text →
      ∀ x ∈ (cstr text).take 15, plainByte x = true

/-- The strings of a hub's record that the lines print, cut to their fields. -/
def PlainRow (row : CharacterRow) : Prop := ∀ x ∈ row.race ++ row.faction, plainByte x = true

structure PlainLoads (env : Env) (g : Server) (c : Block) (name : Bytes) : Prop where
  file : ∀ root, Stored env g.disk { g.blocks c with name := name } root → PlainFile root
  row : ∀ row, HubRow env name row → PlainRow row

/-- The characters that the step loads are plain. -/
def LoadsPlain (env : Env) (g : Server) (e : Event) : Prop :=
  ∀ c text, e = .message c text → (g.blocks c).state ≠ .play →
    PlainLoads env g c (trimmed text) ∧ PlainLoads env g c (g.blocks c).name

section Strings

variable {ch : Character} {s : Session}

theorem loaded_quotable {root : Json} {key : String} {old : Bytes}
    (listed : key ∈ ["race", "faction", "position", "weapon"]) (plain : PlainFile root)
    (quotable : Quotable old) : Quotable (jsonString root (str key) old 16) := by
  unfold jsonString
  split
  · rename_i text found
    exact ⟨List.length_take_le _ _, plain key listed text found⟩
  · exact quotable

theorem loaded_printable {root : Json} (plain : PlainFile root) (old : ch.Printable) :
    (loadCharacter root ch).Printable where
  race := loaded_quotable (by simp) plain old.race
  faction := loaded_quotable (by simp) plain old.faction
  position := loaded_quotable (by simp) plain old.position
  weapon := loaded_quotable (by simp) plain old.weapon
  head := old.head
  body := old.body
  hands := old.hands
  feet := old.feet

theorem row_short {env : Env} {name : Bytes} {row : CharacterRow} (held : HubRow env name row) :
    row.race.length ≤ 15 ∧ row.faction.length ≤ 15 := by
  obtain ⟨n, result, _, rfl, _⟩ := held
  exact ⟨List.length_take_le _ _, List.length_take_le _ _⟩

theorem fetched_printable {env : Env} {name : Bytes} {row : CharacterRow}
    (held : HubRow env name row) (plain : PlainRow row) (old : s.Printable) :
    (s.fetched row).Printable := by
  obtain ⟨race, faction⟩ := row_short held
  have lines : Quotable row.race ∧ Quotable row.faction :=
    ⟨⟨race, fun x member => plain x (List.mem_append_left _ member)⟩,
      ⟨faction, fun x member => plain x (List.mem_append_right _ member)⟩⟩
  have side : Quotable (s.fetched row).faction := by
    change Quotable (if _ then _ else _)
    split
    · exact old.faction
    · exact lines.2
  exact { old with race := lines.1, faction := side }

theorem load_printable {env : Env} {s' : Session} {disk disk' : Disk}
    (load : Load env s disk s' disk') (old : s.Printable)
    (file : ∀ root, Stored env disk s root → PlainFile root)
    (rows : ∀ row, HubRow env s.name row → PlainRow row) : s'.Printable := by
  cases load with
  | unreadable => exact old
  | own stored => exact loaded_printable (file _ stored) old
  | merged stored held =>
    have recalled : (s.recalled _).Printable := loaded_printable (file _ stored) old
    exact fetched_printable held (rows _ held) recalled
  | adopted _ held _ => exact fetched_printable held (rows _ held) old
  | fresh _ => exact old

theorem race_quotable {line : Bytes} {race : String} (chosen : raceChosen line = some race) :
    Quotable (str race) := by
  have listed : race ∈ raceTable := by
    unfold raceChosen at chosen
    split at chosen
    · split at chosen
      · exact List.mem_of_getElem? chosen
      · exact List.mem_of_find?_eq_some chosen
    · exact List.mem_of_find?_eq_some chosen
  have table : ∀ race ∈ raceTable, Quotable (str race) := by decide
  exact table race listed

theorem login_printable {env : Env} {g : Server} {c : Block} {text : Bytes} {s' : Session}
    {disk' : Disk} (old : (g.blocks c).Printable) (named : PlainLoads env g c (trimmed text))
    (own : PlainLoads env g c (g.blocks c).name)
    (move : LoginMove env (trimmed text) (g.blocks c) g.disk s' disk') : s'.Printable := by
  cases move with
  | refused => exact old
  | keeper => exact old
  | named _ _ _ load => exact load_printable load old named.file named.row
  | trusted _ _ load => exact load_printable load old own.file own.row
  | raced _ chosen => exact { old with race := race_quotable chosen }
  | entered _ enters _ => cases enters <;> exact old

end Strings

section Commands

variable {env : Env} {c : Block} {g g' : Server}

theorem framed_printable {may : Block → Part → Prop} {free : Table → Prop}
    (framed : Framed may free g g') {d : Block} (birth : ¬may d .birth) (side : ¬may d .side)
    (stance : ¬may d .stance) (gear : ¬may d .gear) (old : (g.blocks d).Printable) :
    (g'.blocks d).Printable := by
  have race := congrArg Character.race (framed.parts d .birth birth)
  have faction := congrArg Character.faction (framed.parts d .side side)
  have position := framed.position stance
  have slots := framed.parts d .gear gear
  have weapon := congrArg Character.weapon slots
  have head := congrArg Character.head slots
  have body := congrArg Character.body slots
  have hands := congrArg Character.hands slots
  have feet := congrArg Character.feet slots
  simp only [Part.of] at race faction weapon head body hands feet
  constructor
  · exact race ▸ old.race
  · exact faction ▸ old.faction
  · exact position ▸ old.position
  · exact weapon ▸ old.weapon
  · exact head ▸ old.head
  · exact body ▸ old.body
  · exact hands ▸ old.hands
  · exact feet ▸ old.feet

def Part.printed : Part → Bool
  | .birth | .side | .stance | .gear => true
  | _ => false

/-- Every write but those to the printed parts keeps the strings. -/
theorem printable_last (env : Env) :
    Permits False env (fun _ => True) (fun _ => True) (fun _ q => q.printed = false)
      (fun _ => True) AllPrintable :=
  lasting_permits env fun _ _ framed old d =>
    framed_printable framed (by simp [Part.printed]) (by simp [Part.printed])
      (by simp [Part.printed]) (by simp [Part.printed]) (old d)

theorem printable_updated {f : Character → Character}
    (keeps : ∀ ch : Character, ch.Printable → (f ch).Printable) :
    Keeps AllPrintable (fun _ => True) (update c f) Any := by
  refine Keeps.modify fun g old d => ?_
  by_cases own : d = c
  · subst own
    rw [Server.updated, Server.setBlock_own]
    exact keeps _ (old d)
  · rw [Server.updated, Server.setBlock_other _ _ own]
    exact old d

theorem printable_said (c : Block) (t : Text) :
    Keeps AllPrintable (fun _ => True) (queue c t) Any :=
  ((printable_last quietNode).reports (d := c) trivial).said (sound_lax id)

theorem printable_line (c : Block) (t : Text) :
    Keeps AllPrintable (fun _ => True) (queueLine c t) Any :=
  ((printable_last quietNode).reports (d := c) trivial).line (sound_lax id)

/-- To stand or to rest is to be in a position of a plain name. -/
theorem printable_position {position : String} (known : Quotable (str position)) :
    Keeps AllPrintable (fun _ => True)
      (update c fun ch => { ch with position := str position }) Any :=
  printable_updated fun _ old => { old with position := known }

theorem wield_printable (arg : Ptr) :
    Keeps AllPrintable (fun _ => True) (cmdWield c arg) Any := by
  have r := (printable_last quietNode).reports (d := c) trivial
  refine Keeps.branch (Keeps.seq ?_ (Keeps.seq (printable_said c _) r.equipment))
    (printable_said c _)
  exact printable_updated fun _ old => { old with weapon := (by decide : Quotable (str "shiv")) }

theorem remove_printable (arg : Ptr) :
    Keeps AllPrintable (fun _ => True) (cmdRemove c arg) Any := by
  have p := printable_last quietNode
  refine Keeps.bind (p.reads c) fun s _ => Keeps.branch (printable_said c _) ?_
  refine Keeps.branch (printable_said c _) (Keeps.seq ?_ (Keeps.seq (printable_said c _) ?_))
  · exact printable_updated fun _ old => { old with weapon := (by decide : Quotable []) }
  · exact (p.reports trivial).equipment

theorem attack_printable (arg : Ptr) :
    Keeps AllPrintable (fun _ => True) (cmdAttack env c arg) Any := by
  have p := printable_last env
  have r := p.reports (d := c) trivial
  refine Keeps.bind (p.reads c) fun s _ => Keeps.bind keeps_world fun w _ => ?_
  refine Keeps.branch (printable_said c _) (Keeps.branch ?_ (printable_said c _))
  refine Keeps.bind (p.reads c) fun s _ => Keeps.seq (p.fights trivial rfl _) ?_
  refine Keeps.seq (printable_position (by decide)) (Keeps.seq (printable_said c _) ?_)
  refine Keeps.seq (printable_said c _) (Keeps.seq r.vitals ?_)
  exact Keeps.bind p.times fun now _ => Keeps.bind (p.reads c) fun s _ => p.fights trivial rfl _

theorem rest_printable : Keeps AllPrintable (fun _ => True) (cmdRest c) Any := by
  have p := printable_last quietNode
  refine Keeps.bind (p.reads c) fun s _ => Keeps.branch (printable_said c _) ?_
  refine Keeps.seq (printable_position (by decide)) (Keeps.seq ?_ ?_)
  · exact p.on_world _ fun _ shut => absurd trivial shut
  · exact Keeps.seq (printable_said c _) (p.reports trivial).vitals

theorem stand_printable : Keeps AllPrintable (fun _ => True) (cmdStand c) Any :=
  Keeps.seq (printable_position (by decide))
    (Keeps.seq (printable_said c _) ((printable_last quietNode).reports trivial).vitals)

theorem sleep_printable : Keeps AllPrintable (fun _ => True) (cmdSleep c) Any := by
  have p := printable_last quietNode
  have r := p.reports (d := c) trivial
  refine Keeps.bind (p.reads c) fun s _ => Keeps.branch (printable_said c _) ?_
  refine Keeps.seq (printable_position (by decide)) (Keeps.seq (printable_said c _) ?_)
  exact Keeps.seq r.dream_now r.vitals

theorem recall_printable : Keeps AllPrintable (fun _ => True) (cmdRecall c) Any :=
  Keeps.seq
    (printable_updated fun _ old =>
      { old with position := (by decide : Quotable (str "standing")) })
    ((printable_last quietNode).reports trivial).scene_now

theorem front_printable {ch : Character} (old : ch.Printable) (ash : Bool) (morality : Int) :
    ({ ch with faction := str "front", ashsworn := ash, morality := morality } :
      Character).Printable :=
  { old with faction := (by decide : Quotable (str "front")) }

theorem ally_printable {ch : Character} (old : ch.Printable) (morality : Int) :
    ({ ch with faction := str "ally", morality := morality } : Character).Printable :=
  { old with faction := (by decide : Quotable (str "ally")) }

theorem swear_printable (s : Session) {ch : Character} (old : ch.Printable) :
    (swear ch s).Printable := by
  unfold swear
  split
  · exact front_printable old true _
  · exact front_printable old ch.ashsworn _

theorem coin_printable (s : Session) {ch : Character} (old : ch.Printable) :
    (takeCoin s ch).Printable := by
  unfold takeCoin
  split
  · exact { front_printable old true (ch.morality - 40) with }
  · exact { front_printable old ch.ashsworn (ch.morality - 15) with }

theorem added_printable (item : Bytes) {ch : Character} (old : ch.Printable) :
    (invAdd item ch).Printable := by
  unfold invAdd
  split
  · exact old
  · exact { old with }

theorem pledge_printable : Keeps AllPrintable (fun _ => True) (daisPledge env c) Any := by
  have p := printable_last env
  have r := p.reports (d := c) trivial
  refine Keeps.bind (p.reads c) fun s _ => Keeps.branch (printable_line c _) ?_
  refine Keeps.bind (p.asks_any _) fun unsworn _ => Keeps.branch (printable_line c _) ?_
  refine Keeps.seq (printable_updated fun _ old => swear_printable s old) ?_
  refine Keeps.seq (Keeps.branch (printable_said c _) (printable_line c _)) ?_
  refine Keeps.seq (p.on_ledger _ fun _ shut => absurd trivial shut) (Keeps.seq (p.shifts _) ?_)
  refine Keeps.seq ?_ (Keeps.seq (p.saves trivial) (Keeps.seq ?_ ?_))
  · exact p.echoes (clean_lax _) (clean_lax _) (clean_lax _)
  · exact p.delivers_room _ _ (sound_lax id)
  · refine Keeps.seq (p.arc_kept trivial rfl) (Keeps.seq r.affects_now ?_)
    exact Keeps.seq r.vitals_now r.room_actions_now

theorem join_printable : Keeps AllPrintable (fun _ => True) (cmdJoin env c) Any := by
  have p := printable_last env
  have r := p.reports (d := c) trivial
  refine Keeps.bind (p.reads c) fun s _ =>
    Keeps.branch pledge_printable (Keeps.branch (printable_said c _) ?_)
  refine Keeps.seq (printable_updated fun _ old => coin_printable s old) ?_
  refine Keeps.seq (printable_said c _) (Keeps.seq r.affects (Keeps.seq r.vitals ?_))
  refine Keeps.seq (p.oath_kept trivial) (Keeps.seq (p.shifts _) ?_)
  exact Keeps.seq (p.arc_kept trivial rfl) (p.saves trivial)

theorem defend_printable : Keeps AllPrintable (fun _ => True) (cmdDefend env c) Any := by
  have p := printable_last env
  have r := p.reports (d := c) trivial
  refine Keeps.bind (p.reads c) fun s _ => Keeps.branch (printable_said c _) ?_
  refine Keeps.seq (printable_updated fun ch old => added_printable _ ?_) ?_
  · exact { ally_printable old (ch.morality + 25) with }
  refine Keeps.seq (printable_said c _) (Keeps.seq r.affects (Keeps.seq r.vitals ?_))
  exact Keeps.seq (p.shifts _) (p.saves trivial)

theorem defy_printable : Keeps AllPrintable (fun _ => True) (cmdDefy env c) Any := by
  have p := printable_last env
  have r := p.reports (d := c) trivial
  refine Keeps.bind (p.reads c) fun s _ => Keeps.branch (printable_line c _) ?_
  refine Keeps.bind (p.asks_any _) fun sworn _ => Keeps.branch (printable_line c _) ?_
  refine Keeps.seq (printable_updated fun ch old => ally_printable old (ch.morality + 30)) ?_
  refine Keeps.seq (printable_said c _) ?_
  refine Keeps.seq (p.on_ledger _ fun _ shut => absurd trivial shut) (Keeps.seq (p.shifts _) ?_)
  refine Keeps.seq ?_ (Keeps.seq (p.saves trivial) (Keeps.seq ?_ (Keeps.seq ?_ ?_)))
  · exact p.echoes (clean_lax _) (clean_lax _) (clean_lax _)
  · exact p.delivers_room _ _ (sound_lax id)
  · exact Keeps.branch (p.return_kept trivial rfl) (p.arc_kept trivial rfl)
  · exact Keeps.seq r.affects_now (Keeps.seq r.vitals_now r.room_actions_now)

theorem exec_printable (arm : Arm) (arg : Ptr) :
    Keeps AllPrintable (fun _ => True) (exec env c arg arm) Any := by
  have others (free : ∀ q ∈ arm.writes, q.printed = false)
      (reached : ∀ q ∈ arm.reaches, q.printed = false) :
      Keeps AllPrintable (fun _ => True) (exec env c arg arm) Any :=
    (printable_last env).exec_kept trivial
      ⟨free, fun q there d _ => reached q there, fun _ _ => trivial⟩
      (fun b _ => clean_lax b) False.elim False.elim fun _ _ => trivial
  cases arm with
  | wield => exact wield_printable arg
  | remove => exact remove_printable arg
  | attack => exact attack_printable arg
  | rest => exact rest_printable
  | stand => exact stand_printable
  | sleep => exact sleep_printable
  | «recall» => exact recall_printable
  | join => exact join_printable
  | defend => exact defend_printable
  | defy => exact defy_printable
  | _ => exact others (by decide) (by decide)

end Commands

section Lines

/-- The line is an event of the name, with one object, which is read as the fields. -/
def EventLine (name : String) (line : Text) (fields : List (Bytes × Value)) : Prop :=
  ∃ body, bytes line = str "@event " ++ str name ++ [32] ++ body ++ [13, 10] ∧
    JsonText.parse body = some (.obj fields) ∧ ∀ b ∈ body, isBreak b = false

/-- The seven numbers fit their words. -/
structure Worded (s : Session) : Prop where
  hp : -2 ^ 63 ≤ s.hp ∧ s.hp < 2 ^ 63
  maxHp : -2 ^ 63 ≤ s.maxHp ∧ s.maxHp < 2 ^ 63
  level : -2 ^ 63 ≤ s.level ∧ s.level < 2 ^ 63
  xp : -2 ^ 63 ≤ s.xp ∧ s.xp < 2 ^ 63
  gold : -2 ^ 63 ≤ s.gold ∧ s.gold < 2 ^ 63
  morality : -2 ^ 63 ≤ s.morality ∧ s.morality < 2 ^ 63
  addiction : -2 ^ 63 ≤ s.addiction ∧ s.addiction < 2 ^ 63

instance (s : Session) : Decidable (Worded s) :=
  decidable_of_iff ((-2 ^ 63 ≤ s.hp ∧ s.hp < 2 ^ 63) ∧ (-2 ^ 63 ≤ s.maxHp ∧ s.maxHp < 2 ^ 63) ∧
      (-2 ^ 63 ≤ s.level ∧ s.level < 2 ^ 63) ∧ (-2 ^ 63 ≤ s.xp ∧ s.xp < 2 ^ 63) ∧
      (-2 ^ 63 ≤ s.gold ∧ s.gold < 2 ^ 63) ∧ (-2 ^ 63 ≤ s.morality ∧ s.morality < 2 ^ 63) ∧
      (-2 ^ 63 ≤ s.addiction ∧ s.addiction < 2 ^ 63))
    ⟨fun ⟨hp, maxHp, level, xp, gold, morality, addiction⟩ =>
        ⟨hp, maxHp, level, xp, gold, morality, addiction⟩,
      fun w => ⟨w.hp, w.maxHp, w.level, w.xp, w.gold, w.morality, w.addiction⟩⟩

def orDefault (b : Bytes) (fallback : String) : Bytes := if b = [] then str fallback else b

def vitalsFields (s : Session) : List (Bytes × Value) :=
  [(str "hp", .num s.hp), (str "maxHp", .num s.maxHp), (str "level", .num s.level),
    (str "xp", .num s.xp), (str "gold", .num s.gold),
    (str "room", .str (str ((roomId s.room).getD "nexus"))), (str "inCombat", .bool s.inCombat),
    (str "poisoned", .bool s.poisoned), (str "position", .str (orDefault s.position "standing"))]

def affectsFields (s : Session) : List (Bytes × Value) :=
  [(str "morality", .num s.morality), (str "addiction", .num s.addiction),
    (str "faction", .str (orDefault s.faction "none")), (str "resisted", .bool s.resisted),
    (str "race", .str (orDefault s.race "human")), (str "ashsworn", .bool s.ashsworn)]

def slotValue (slot : Bytes) : Value := if slot = [] then .null else .str slot

def equipmentFields (s : Session) : List (Bytes × Value) :=
  [(str "weapon", slotValue s.weapon), (str "head", slotValue s.head),
    (str "body", slotValue s.body),
    (str "hands", slotValue s.hands), (str "feet", slotValue s.feet)]

/-- The three lines of a session, in any buffer that an emitter has. -/
structure PanelsRight (s : Session) : Prop where
  vitals : ∀ cap, 500 ≤ cap →
    EventLine "char.vitals" (snprintf cap (fmtVitals s (roomId s.room))) (vitalsFields s)
  affects : ∀ cap, 500 ≤ cap →
    EventLine "char.affects" (snprintf cap (fmtAffects s)) (affectsFields s)
  equipment : ∀ cap, 500 ≤ cap →
    EventLine "char.equipment" (snprintf cap (fmtEquipment s)) (equipmentFields s)

def numberMember (key : String) (n : Int) : Member := ⟨str key, decimal n, .num n⟩
def boolMember (key : String) (b : Bool) : Member :=
  ⟨str key, if b then str "true" else str "false", .bool b⟩
def stringMember (key : String) (b : Bytes) : Member := ⟨str key, 34 :: b ++ [34], .str b⟩
def slotMember (key : String) (slot : Bytes) : Member :=
  ⟨str key, if slot = [] then str "null" else 34 :: slot ++ [34], slotValue slot⟩

def vitalsMembers (s : Session) : List Member :=
  [numberMember "hp" s.hp, numberMember "maxHp" s.maxHp, numberMember "level" s.level,
    numberMember "xp" s.xp, numberMember "gold" s.gold,
    stringMember "room" (str ((roomId s.room).getD "nexus")), boolMember "inCombat" s.inCombat,
    boolMember "poisoned" s.poisoned, stringMember "position" (orDefault s.position "standing")]

theorem bytes_join (a b : Text) : bytes (a ++ b) = bytes a ++ bytes b := List.map_append

theorem bytes_lit (s : String) : bytes (lit s) = str s := by simp [bytes, lit, Function.comp_def]

theorem bytes_raw (b : Bytes) : bytes (raw b) = b := by simp [bytes, raw, Function.comp_def]

theorem bytes_number (n : Int) : bytes (number n) = decimal n := by
  simp [bytes, number, Function.comp_def]

theorem bytes_or (b : Bytes) (fallback : String) :
    bytes (orText b fallback) = orDefault b fallback := by
  unfold orText orDefault
  split
  · exact bytes_lit fallback
  · exact bytes_raw b

theorem bytes_bool (b : Bool) : bytes (boolText b) = if b then str "true" else str "false" := by
  cases b <;> rfl

structure Legible (n : Nat) (m : Member) : Prop where
  good : m.Good n
  visible : ∀ x ∈ m.text, 32 ≤ x

structure Shown (m : Member) : Prop extends Legible 1 m where
  short : m.body.length ≤ 40

section Shows

variable {key : String}

theorem plain_visible {b : Bytes} (plain : ∀ x ∈ b, plainByte x = true) : ∀ x ∈ b, 32 ≤ x := by
  intro x member
  have byte := plain x member
  simp only [plainByte, Bool.and_eq_true, decide_eq_true_eq] at byte
  exact byte.1.1

theorem shown_text {text : Bytes} {v : Value} (named : Quotable (str key))
    (prints : Prints 1 text v)
    (visible : ∀ x ∈ text, 32 ≤ x) (short : text.length ≤ 22) : Shown ⟨str key, text, v⟩ where
  good := ⟨named.plain, prints⟩
  visible := visible
  short := by
    have key_short := named.short
    simp only [Member.body, List.length_append, List.length_cons]
    omega

theorem number_shown (named : Quotable (str key)) {n : Int} (word : -2 ^ 63 ≤ n ∧ n < 2 ^ 63) :
    Shown (numberMember key n) :=
  shown_text named (prints_number n) (decimal_visible n) ((decimal_length word).trans (by decide))

theorem bool_shown (named : Quotable (str key)) (b : Bool) : Shown (boolMember key b) := by
  cases b with
  | true => exact shown_text named prints_true (by decide +kernel) (by decide)
  | false => exact shown_text named prints_false (by decide +kernel) (by decide)

theorem string_shown (named : Quotable (str key)) {b : Bytes} (quotable : Quotable b) :
    Shown (stringMember key b) := by
  have short := quotable.short
  refine shown_text named (prints_string (spells_plain quotable.plain)) ?_ (by simp; omega)
  intro x member
  simp only [List.cons_append, List.mem_cons, List.mem_append, List.not_mem_nil, or_false] at member
  rcases member with rfl | inner | rfl
  · decide
  · exact plain_visible quotable.plain x inner
  · decide

theorem default_quotable {b : Bytes} {fallback : String} (known : Quotable (str fallback))
    (quotable : Quotable b) : Quotable (orDefault b fallback) := by
  unfold orDefault
  split
  · exact known
  · exact quotable

theorem slot_shown (named : Quotable (str key)) {slot : Bytes} (quotable : Quotable slot) :
    Shown (slotMember key slot) := by
  unfold slotMember slotValue
  split
  · exact shown_text named prints_null (by decide +kernel) (by decide)
  · exact string_shown named quotable

theorem slot_bytes (key : String) {slot : Bytes} (quotable : Quotable slot) :
    bytes (slotText slot) = (slotMember key slot).text := by
  unfold slotText slotMember
  split
  · exact bytes_lit "null"
  · have short := quotable.short
    have whole : (lit "\"" ++ raw slot ++ lit "\"").length ≤ 31 := by
      simp [lit, raw, str]
      omega
    rw [snprintf, List.take_of_length_le whole, bytes_join, bytes_join, bytes_lit, bytes_raw]
    rfl

end Shows

theorem visible_unbroken {x : UInt8} (visible : 32 ≤ x) : isBreak x = false := by
  have off (y : UInt8) (low : y < 32) : x ≠ y := by
    rintro rfl
    exact absurd low (UInt8.not_lt.mpr visible)
  simp [isBreak, off carriageReturn (by decide), off lineFeed (by decide)]

theorem event_feeds {name : String} {line : Text} {fields : List (Bytes × Value)}
    (event : EventLine name line fields) (named : (str name).count 10 = 0) :
    (bytes line).count 10 = 1 := by
  obtain ⟨body, same, _, unbroken⟩ := event
  have inner : body.count 10 = 0 := by
    refine List.count_eq_zero.mpr fun member => ?_
    have broken := unbroken 10 member
    exact absurd broken (by decide)
  have opening : (str "@event ").count 10 = 0 := by decide
  rw [same]
  simp only [List.count_append, opening, named, inner]
  decide

section Composing

variable {n : Nat}

theorem legible_body {m : Member} (legible : Legible n m) : ∀ x ∈ m.body, 32 ≤ x := by
  intro x member
  simp only [Member.body, List.cons_append, List.mem_cons, List.mem_append] at member
  rcases member with rfl | keyed | rfl | rfl | valued
  · decide
  · exact plain_visible legible.good.key x keyed
  · decide
  · decide
  · exact legible.visible x valued

theorem object_visible {members : List Member} (legible : ∀ m ∈ members, Legible n m) :
    ∀ x ∈ objectText members, 32 ≤ x := by
  intro x member
  simp only [objectText, List.cons_append, List.mem_cons, List.mem_append, List.not_mem_nil,
    or_false] at member
  rcases member with rfl | joined | rfl
  · decide
  · refine joined_bytes (P := (32 ≤ ·)) (by decide) (fun p listed => ?_) x joined
    obtain ⟨m, there, rfl⟩ := List.mem_map.mp listed
    exact legible_body (legible m there)
  · decide

theorem cut_feeds {cap : Nat} {line : Text} {front : Bytes} (same : bytes line = front ++ [13, 10])
    (still : front.count 10 = 0) (beyond : cap ≤ line.length) :
    (bytes (snprintf cap line)).count 10 = 0 := by
  have size : line.length = front.length + 2 := by
    have sizes := congrArg List.length same
    simpa [bytes] using sizes
  have cut : bytes (snprintf cap line) = (front ++ [13]).take (cap - 1) := by
    have apart : front ++ [13, 10] = front ++ [13] ++ [10] := by simp
    have taken : bytes (snprintf cap line) = (bytes line).take (cap - 1) := List.map_take
    rw [taken, same, apart, List.take_append_of_le_length (by simp; omega)]
  have whole : (front ++ [13]).count 10 = 0 := by
    rw [List.count_append, still]
    decide
  rw [cut]
  refine List.count_eq_zero.mpr fun member => ?_
  exact List.count_eq_zero.mp whole (List.mem_of_mem_take member)

/-- A line composed of members is an event of the fields when it fits its slot and the members
stand for the fields. -/
theorem composed_iff {name : String} {line : Text} {members : List Member} (cap : Nat)
    (fields : List (Bytes × Value)) (named : (str name).count 10 = 0)
    (some_member : members ≠ []) (legible : ∀ m ∈ members, Legible n m)
    (same : bytes line = str "@event " ++ str name ++ [32] ++ objectText members ++ [13, 10])
    (long : max n members.length ≤ (objectText members).length) :
    EventLine name (snprintf cap line) fields ↔
      line.length < cap ∧ members.map (fun m => (m.key, m.value)) = fields := by
  have unbroken : ∀ x ∈ objectText members, isBreak x = false := fun x member =>
    visible_unbroken (object_visible legible x member)
  have parsed := parse_prints (prints_object some_member fun m member => (legible m member).good)
    (Nat.succ_le_succ long)
  have front : (str "@event " ++ str name ++ [32] ++ objectText members).count 10 = 0 := by
    have inner : (objectText members).count 10 = 0 := by
      refine List.count_eq_zero.mpr fun member => ?_
      exact absurd (unbroken 10 member) (by decide)
    have opening : (str "@event ").count 10 = 0 := by decide
    rw [List.count_append, List.count_append, List.count_append, opening, named, inner]
    decide
  constructor
  · intro event
    have fits : line.length < cap := by
      by_contra beyond
      have feeds := event_feeds event named
      rw [cut_feeds same front (Nat.le_of_not_lt beyond)] at feeds
      cases feeds
    refine ⟨fits, ?_⟩
    obtain ⟨body, cut, read, _⟩ := event
    rw [snprintf, List.take_of_length_le (Nat.le_sub_one_of_lt fits), same] at cut
    have body_same := List.append_cancel_left (List.append_cancel_right cut)
    rw [← body_same, parsed] at read
    cases read
    rfl
  · rintro ⟨fits, rfl⟩
    refine ⟨objectText members, ?_, parsed, unbroken⟩
    rw [snprintf, List.take_of_length_le (Nat.le_sub_one_of_lt fits), same]

end Composing

theorem event_line {name : String} {line : Text} {members : List Member} {cap : Nat}
    (same : bytes line = str "@event " ++ str name ++ [32] ++ objectText members ++ [13, 10])
    (some_member : members ≠ []) (few : members.length ≤ 10) (brief : (str name).length ≤ 20)
    (named : (str name).count 10 = 0) (shown : ∀ m ∈ members, Shown m) (room : 500 ≤ cap) :
    EventLine name (snprintf cap line) (members.map fun m => (m.key, m.value)) := by
  have inner :
      (([44] : Bytes).intercalate (members.map Member.body)).length ≤ 41 * members.length := by
    have each : ∀ p ∈ members.map Member.body, p.length ≤ 40 := by
      intro p listed
      obtain ⟨m, member, rfl⟩ := List.mem_map.mp listed
      exact (shown m member).short
    simpa using joined_length each
  have whole : line.length < cap := by
    have sizes := congrArg List.length same
    have opening : (str "@event ").length = 7 := by decide
    simp only [bytes, objectText, List.length_map, List.length_append, List.length_cons,
      List.length_nil, opening] at sizes
    omega
  have long := joined_count (members.map Member.body)
  rw [List.length_map] at long
  refine (composed_iff cap _ named some_member (fun m member => (shown m member).toLegible) same
    ?_).mpr ⟨whole, rfl⟩
  simp only [objectText, List.length_append, List.length_cons, List.length_nil]
  omega

theorem vitals_bytes (s : Session) : bytes (fmtVitals s (roomId s.room)) =
    str "@event " ++ str "char.vitals" ++ [32] ++ objectText (vitalsMembers s) ++ [13, 10] := by
  unfold fmtVitals
  simp only [bytes_join, bytes_lit, bytes_number, bytes_bool, bytes_or]
  simp [str, objectText, vitalsMembers, Member.body, numberMember, boolMember, stringMember,
    List.intercalate]

def affectsMembers (s : Session) : List Member :=
  [numberMember "morality" s.morality, numberMember "addiction" s.addiction,
    stringMember "faction" (orDefault s.faction "none"), boolMember "resisted" s.resisted,
    stringMember "race" (orDefault s.race "human"), boolMember "ashsworn" s.ashsworn]

theorem affects_bytes (s : Session) : bytes (fmtAffects s) =
    str "@event " ++ str "char.affects" ++ [32] ++ objectText (affectsMembers s) ++ [13, 10] := by
  unfold fmtAffects
  simp only [bytes_join, bytes_lit, bytes_number, bytes_bool, bytes_or]
  simp [str, objectText, affectsMembers, Member.body, numberMember, boolMember, stringMember,
    List.intercalate]

def equipmentMembers (s : Session) : List Member :=
  [slotMember "weapon" s.weapon, slotMember "head" s.head, slotMember "body" s.body,
    slotMember "hands" s.hands, slotMember "feet" s.feet]

theorem equipment_bytes {s : Session} (old : s.Printable) : bytes (fmtEquipment s) =
    str "@event " ++ str "char.equipment" ++ [32] ++ objectText (equipmentMembers s) ++
      [13, 10] := by
  unfold fmtEquipment
  simp only [bytes_join, bytes_lit, slot_bytes "weapon" old.weapon, slot_bytes "head" old.head,
    slot_bytes "body" old.body, slot_bytes "hands" old.hands, slot_bytes "feet" old.feet]
  simp [str, objectText, equipmentMembers, Member.body, slotMember, List.intercalate]

theorem room_quotable (room : Int) : Quotable (str ((roomId room).getD "nexus")) := by
  have table : ∀ r ∈ rooms, Quotable (str r.id) := by decide +kernel
  unfold roomId room?
  split
  · cases found : rooms[room.toNat]? with
    | none => exact (by decide : Quotable (str "nexus"))
    | some r => exact table r (List.mem_of_getElem? found)
  · exact (by decide : Quotable (str "nexus"))

theorem vitals_shown {s : Session} (old : s.Printable) (words : Worded s) :
    ∀ m ∈ vitalsMembers s, Shown m := by
  simp only [vitalsMembers, List.forall_mem_cons, List.not_mem_nil, false_implies, implies_true,
    and_true]
  have position := default_quotable (by decide : Quotable (str "standing")) old.position
  exact ⟨number_shown (by decide) words.hp, number_shown (by decide) words.maxHp,
    number_shown (by decide) words.level, number_shown (by decide) words.xp,
    number_shown (by decide) words.gold, string_shown (by decide) (room_quotable s.room),
    bool_shown (by decide) s.inCombat, bool_shown (by decide) s.poisoned,
    string_shown (by decide) position⟩

theorem affects_shown {s : Session} (old : s.Printable) (words : Worded s) :
    ∀ m ∈ affectsMembers s, Shown m := by
  simp only [affectsMembers, List.forall_mem_cons, List.not_mem_nil, false_implies, implies_true,
    and_true]
  have faction := default_quotable (by decide : Quotable (str "none")) old.faction
  have race := default_quotable (by decide : Quotable (str "human")) old.race
  exact ⟨number_shown (by decide) words.morality, number_shown (by decide) words.addiction,
    string_shown (by decide) faction, bool_shown (by decide) s.resisted,
    string_shown (by decide) race, bool_shown (by decide) s.ashsworn⟩

theorem equipment_shown {s : Session} (old : s.Printable) : ∀ m ∈ equipmentMembers s, Shown m := by
  simp only [equipmentMembers, List.forall_mem_cons, List.not_mem_nil, false_implies, implies_true,
    and_true]
  exact ⟨slot_shown (by decide) old.weapon, slot_shown (by decide) old.head,
    slot_shown (by decide) old.body, slot_shown (by decide) old.hands,
    slot_shown (by decide) old.feet⟩

theorem panels_right {s : Session} (old : s.Printable) (words : Worded s) : PanelsRight s where
  vitals := fun _ room => event_line (vitals_bytes s) (by simp [vitalsMembers])
    (by simp [vitalsMembers]) (by decide) (by decide) (vitals_shown old words) room
  affects := fun _ room => event_line (affects_bytes s) (by simp [affectsMembers])
    (by simp [affectsMembers]) (by decide) (by decide) (affects_shown old words) room
  equipment := fun _ room => event_line (equipment_bytes old) (by simp [equipmentMembers])
    (by simp [equipmentMembers]) (by decide) (by decide) (equipment_shown old) room

end Lines

section Runs

variable {env : Env} {g g' : Server} {e : Event}

theorem printable_step (old : AllPrintable g) (plain : LoadsPlain env g e)
    (taken : step env g e = .ok g') : AllPrintable g' := by
  cases step_course taken with
  | @fresh c wsi _ _ same =>
    intro d
    by_cases own : d = c
    · subst own
      have like := opened_own g d wsi
      have first : (newSession wsi).Printable :=
        ⟨quotable_nil, (by decide : Quotable (str "none")), (by decide : Quotable (str "standing")),
          quotable_nil, quotable_nil, quotable_nil, quotable_nil, quotable_nil⟩
      rw [same, like.character]
      exact first
    · rw [same, opened_other g wsi own]
      exact old d
  | @login c text s' disk' arrived _ away move like others =>
    obtain ⟨named, kept⟩ := plain c text arrived away
    intro d
    by_cases own : d = c
    · subst own
      rw [like.character]
      exact login_printable (old d) named kept move
    · rw [others d own]
      exact old d
  | @command c line wsi m given _ said ended =>
    have heard : Idle g (g.setWsi c wsi) := idle_block rfl rfl rfl rfl
    have before : AllPrintable (g.setWsi c wsi) := fun d => by
      rw [heard.character d]
      exact old d
    cases said with
    | shows quiet =>
      have kept := quiet AllPrintable (fun _ => True) ((printable_last env).reports trivial)
      exact (kept.result before ended).1
    | @walks room _ =>
      have kept : Keeps AllPrintable (fun _ => True) (moveTo c room) Any :=
        (printable_last env).move_kept trivial rfl room
      exact (kept.result before ended).1
    | @runs arm arg _ parsed => exact ((exec_printable arm arg).result before ended).1
  | beat _ _ ended =>
    intro d
    have kept : Keeps (Framed (fun _ q => q.beaten = true) (fun _ => True) g) (fun _ => True)
        (tickService env) Any :=
      beat_framed (fun _ => rfl) (fun _ => rfl) (fun _ => rfl) trivial trivial
    have framed := (kept.result (framed_start _ _ g) ended).1
    exact framed_printable framed (by decide) (by decide) (by decide) (by decide) (old d)
  | quiet idle =>
    intro d
    rw [idle.character d]
    exact old d

theorem printable_run {disk : Disk} {events : List Event}
    (reached : Reaches (step env) (boot env disk) events g)
    (met : Meets (step env) (LoadsPlain env) (boot env disk) events) : AllPrintable g := by
  refine invariant_run (step env) (LoadsPlain env) AllPrintable (boot env disk) (fun _ => ?_)
    (fun _ _ _ old plain taken => printable_step old plain taken) events met g reached
  exact ⟨quotable_nil, quotable_nil, quotable_nil, quotable_nil, quotable_nil, quotable_nil,
    quotable_nil, quotable_nil⟩

/-- In a run that loads plain characters only, the three lines of every session are right. -/
theorem loaded_panels_right (env : Env) (disk : Disk) (events : List Event) (g : Server)
    (reached : Reaches (step env) (boot env disk) events g)
    (met : Meets (step env) (LoadsPlain env) (boot env disk) events) (c : Block)
    (words : Worded (g.blocks c)) : PanelsRight (g.blocks c) :=
  panels_right (printable_run reached met c) words

def plainFile (root : Json) : Bool :=
  ["race", "faction", "position", "weapon"].all fun key =>
    ((root.item (str key)).bind Json.stringValue).all fun text =>
      ((cstr text).take 15).all plainByte

/-- The condition as a test of one event, on a node of its own whose reads are whole. -/
def loadsPlain (g : Server) : Event → Bool
  | .message c text =>
    decide ((g.blocks c).state = .play) || [trimmed text, (g.blocks c).name].all fun name =>
      match (characterPath name).bind g.disk with
      | some (.json root) => plainFile root
      | _ => true
  | _ => true

theorem loads_plain_tested (g : Server) (e : Event) (passed : loadsPlain g e = true) :
    LoadsPlain quietNode g e := by
  rintro c text rfl away
  simp only [loadsPlain, away, decide_false, Bool.false_or] at passed
  have tests (name : Bytes) (member : name ∈ [trimmed text, (g.blocks c).name]) :
      PlainLoads quietNode g c name := by
    have test := List.all_eq_true.mp passed name member
    constructor
    · intro root stored key listed found there
      obtain ⟨path, file, named, read, whole | ⟨n, short⟩⟩ := stored
      · change characterPath name = some path at named
        subst whole
        rw [named, Option.bind_some, read] at test
        have field := List.all_eq_true.mp test key listed
        rw [there] at field
        exact List.all_eq_true.mp field
      · cases short
    · rintro row ⟨n, result, answered, _⟩
      cases answered
  exact ⟨tests _ (by simp), tests _ (by simp)⟩

/-- A disk on which every character is of the faction. -/
def factionDisk (faction : Bytes) : Disk := fun _ =>
  some (.json (.obj [(str "secretHash", .str (bcryptLike (str "password") oneSalt)),
    (str "faction", .str faction)]))

theorem loaded_panels_right_ada : ∃ g,
    Reaches (step quietNode) (boot quietNode (factionDisk (str "ally"))) (returns 0 (str "ada")) g ∧
      (g.blocks 0).faction = str "ally" ∧ PanelsRight (g.blocks 0) := by
  obtain ⟨g, reached, shown⟩ := ends_reaches (step quietNode)
    (boot quietNode (factionDisk (str "ally"))) (returns 0 (str "ada"))
    (fun g => decide ((g.blocks 0).faction = str "ally" ∧ Worded (g.blocks 0))) (by decide +kernel)
  obtain ⟨side, words⟩ := of_decide_eq_true shown
  have met := meets_passed (step quietNode) loadsPlain (LoadsPlain quietNode) loads_plain_tested
    (boot quietNode (factionDisk (str "ally"))) (returns 0 (str "ada")) (by decide +kernel)
  exact ⟨g, reached, side, loaded_panels_right quietNode _ _ g reached met 0 words⟩

/-- A faction with a line feed in it, read from a character file, breaks the line of
char.affects in two. -/
theorem broken_faction : ¬ ∀ (env : Env) (disk : Disk) (events : List Event) (g : Server)
    (c : Block),
    Reaches (step env) (boot env disk) events g → Worded (g.blocks c) →
      PanelsRight (g.blocks c) := by
  intro always
  obtain ⟨g, reached, shown⟩ := ends_reaches (step quietNode)
    (boot quietNode (factionDisk [97, 10, 98])) (returns 0 (str "ada"))
    (fun g => decide (Worded (g.blocks 0) ∧
      (bytes (snprintf 500 (fmtAffects (g.blocks 0)))).count 10 = 2)) (by decide +kernel)
  obtain ⟨words, feeds⟩ := of_decide_eq_true shown
  have right := always quietNode _ _ g 0 reached words
  have one := event_feeds (right.affects 500 (by decide)) (by decide)
  rw [feeds] at one
  cases one

end Runs

end HollowGrid
