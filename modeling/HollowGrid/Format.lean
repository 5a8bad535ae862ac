import HollowGrid.Hub

/-! ffi/format.c: the prose and event lines as whole texts. A formatter here gives
the text before the bound of its buffer; the caller cuts it with snprintf and reads
the length of the whole as the source does. -/
namespace HollowGrid

abbrev crlf : Text := lit "\r\n"

def hexText (b : UInt8) : Bytes := str "\\u00" ++ [hexDigit (b / 16), hexDigit (b % 16)]

def escapeByte (b : UInt8) : Bytes :=
  if b = 34 then str "\\\""
  else if b = 92 then str "\\\\"
  else if b = 8 then str "\\b"
  else if b = 12 then str "\\f"
  else if b = 10 then str "\\n"
  else if b = 13 then str "\\r"
  else if b = 9 then str "\\t"
  else if b < 32 then hexText b
  else [b]

def escapeText (b : Bytes) : Text := raw (b.flatMap escapeByte)

/-- hg_json_escape(dst, cap, src): none is -1, which leaves dst empty. -/
def jsonEscape (cap : Nat) (b : Bytes) : Option Text :=
  let text := escapeText b
  if text.length + 1 ≤ cap then some text else none

/-- What dst holds when the caller does not look at the result. -/
def escaped (cap : Nat) (b : Bytes) : Text := (jsonEscape cap b).getD []

def boolText (b : Bool) : Text := if b then lit "true" else lit "false"

def orText (b : Bytes) (fallback : String) : Text := if b = [] then lit fallback else raw b

def fmtVitals (s : Session) (room : Option String) : Text :=
  lit r#"@event char.vitals {"hp":"# ++ number s.hp ++ lit r#","maxHp":"# ++ number s.maxHp ++
  lit r#","level":"# ++ number s.level ++ lit r#","xp":"# ++ number s.xp ++
  lit r#","gold":"# ++ number s.gold ++ lit r#","room":""# ++ lit (room.getD "nexus") ++
  lit r#"","inCombat":"# ++ boolText s.inCombat ++ lit r#","poisoned":"# ++
  boolText s.poisoned ++ lit r#","position":""# ++ orText s.position "standing" ++
  lit r#""}"# ++ crlf

def fmtAffects (s : Session) : Text :=
  lit r#"@event char.affects {"morality":"# ++ number s.morality ++ lit r#","addiction":"# ++
  number s.addiction ++ lit r#","faction":""# ++ orText s.faction "none" ++
  lit r#"","resisted":"# ++ boolText s.resisted ++ lit r#","race":""# ++
  orText s.race "human" ++ lit r#"","ashsworn":"# ++ boolText s.ashsworn ++ lit "\x7d" ++ crlf

def slotText (slot : Bytes) : Text :=
  if slot = [] then lit "null" else snprintf 32 (lit "\"" ++ raw slot ++ lit "\"")

def fmtEquipment (s : Session) : Text :=
  lit r#"@event char.equipment {"weapon":"# ++ slotText s.weapon ++ lit r#","head":"# ++
  slotText s.head ++ lit r#","body":"# ++ slotText s.body ++ lit r#","hands":"# ++
  slotText s.hands ++ lit r#","feet":"# ++ slotText s.feet ++ lit "\x7d" ++ crlf

def fmtDream (s : Session) : Option Text := do
  let (text, subject) ← dreamCompose s 512 40
  let esc ← jsonEscape 640 (bytes text)
  match subject with
  | some freed =>
    let subj ← jsonEscape 80 freed
    return lit r#"@event char.dream {"text":""# ++ esc ++
      lit r#"","personal":true,"subject":""# ++ subj ++ lit r#""}"# ++ crlf
  | none =>
    return lit r#"@event char.dream {"text":""# ++ esc ++ lit r#"","personal":false}"# ++ crlf

def fmtWorldState (tick : Int) (phase : String) : Text :=
  lit r#"@event world.state {"tick":"# ++ number tick ++ lit r#","phase":""# ++ lit phase ++
  lit r#"","weather":"clear"}"# ++ crlf

def fmtCombatStart (mob name : String) : Option Text := do
  let id ← jsonEscape 64 (str mob)
  let named ← jsonEscape 128 (str name)
  return lit r#"@event combat.start {"mob":""# ++ id ++ lit r#"","name":""# ++ named ++
    lit r#""}"# ++ crlf

def fmtCombatRound (mob : String) (mobHp mobMax playerDmg mobDmg hp : Int) : Text :=
  lit r#"@event combat.round {"mob":""# ++ lit mob ++ lit r#"","mobHp":"# ++ number mobHp ++
  lit r#","mobMaxHp":"# ++ number mobMax ++ lit r#","playerDmg":"# ++ number playerDmg ++
  lit r#","mobDmg":"# ++ number mobDmg ++ lit r#","hp":"# ++ number hp ++ lit "\x7d" ++ crlf

def fmtCombatEnd (mob result : String) : Text :=
  lit r#"@event combat.end {"mob":""# ++ lit mob ++ lit r#"","result":""# ++ lit result ++
  lit r#""}"# ++ crlf

def fmtRoomInfo (room : Int) (mobs : Option Text) (players : Text) : Text :=
  lit r#"@event room.info {"id":""# ++ lit ((roomId room).getD "") ++ lit r#"","name":""# ++
  lit ((roomName room).getD "") ++ lit r#"","exits":"# ++ lit ((roomExits room).getD "[]") ++
  lit r#","mobs":"# ++ mobs.getD (lit "[]") ++ lit r#","items":[],"players":"# ++ players ++
  lit "\x7d" ++ crlf

def fmtRoomActions (actions : Text) : Text :=
  lit r#"@event room.actions {"actions":"# ++ actions ++ lit "\x7d" ++ crlf

/-- A null or empty target reads "that"; the suggestion is there or not. -/
def fmtAttackMiss (target : Ptr) (suggestion : Option String) : Text :=
  match suggestion with
  | some s =>
    lit "There's nothing like " ++ orText (target.getD []) "that" ++
    lit " to fight here. You could try: " ++ lit s ++ lit "." ++ crlf
  | none => lit "There's nothing like that here to attack." ++ crlf

/-- The fields of hg_char_identity_fields. -/
def fmtCharIdentity (name : Bytes) (i : Identity) : Text :=
  lit "The Grid reads you back: " ++ raw name ++ lit ", level " ++ number i.level ++ lit " " ++
  orText i.race "human" ++ (if i.title = [] then [] else lit " ") ++ raw i.title ++ lit ", " ++
  orText i.faction "unaligned" ++ lit " standing, morality " ++ number i.morality ++ lit "." ++
  crlf ++
  lit r#"@event char.identity {"name":""# ++ escaped 40 name ++ lit r#"","level":"# ++
  number i.level ++ lit r#","xp":"# ++ number i.xp ++ lit r#","gold":"# ++ number i.gold ++
  lit r#","faction":""# ++ escaped 24 (if i.faction = [] then str "none" else i.faction) ++
  lit r#"","morality":"# ++ number i.morality ++ lit r#","title":""# ++ escaped 64 i.title ++
  lit r#"","race":""# ++ escaped 24 (if i.race = [] then str "human" else i.race) ++
  lit r#"","ashsworn":"# ++ boolText i.ashsworn ++ lit "\x7d" ++ crlf

def fmtGridTravelUnreachable : Text :=
  lit "The Grid won't answer; travel is impossible right now." ++ crlf

def fmtGridTravelMissing (target : Bytes) : Text :=
  lit "No world called \"" ++ raw target ++ lit "\" answers on the Grid. (try 'worlds')" ++ crlf

def fmtGridTravelHere (world : Bytes) : Text := lit "You're already in " ++ raw world ++ lit "." ++ crlf

/-- id and url as texts of their own: travel may read them behind a clobbered
register. -/
def fmtGridTravelHandoff (id url : Text) (idesc udesc : Text) : Text :=
  lit "The Grid routes you toward " ++ id ++ lit ". Reconnect there and your " ++
  lit "canonical character follows:" ++ crlf ++ lit "    " ++ url ++ crlf ++
  lit r#"@event grid.travel {"to":""# ++ idesc ++ lit r#"","url":""# ++ udesc ++ lit r#""}"# ++
  crlf

/-- fmt_append: the piece goes in whole or the call fails. -/
def fmtAppend (cap : Nat) (buf piece : Text) : Option Text :=
  if buf.length + piece.length < cap then some (buf ++ piece) else none

def fmtAppendAll (cap : Nat) : Text → List Text → Option Text
  | buf, [] => some buf
  | buf, piece :: rest => (fmtAppend cap buf piece).bind fun next => fmtAppendAll cap next rest

def comma (i : Nat) : Text := if i = 0 then [] else lit ","

def jsonRows {α : Type} (row : Nat → α → Text) : Nat → List α → List Text
  | _, [] => []
  | i, x :: rest => (comma i ++ row i x) :: jsonRows row (i + 1) rest

/-- "[" rows "]" appended piece by piece. -/
def fmtJson {α : Type} (cap : Nat) (row : α → Text) (xs : List α) : Option Text :=
  fmtAppendAll cap [] (lit "[" :: jsonRows (fun _ => row) 0 xs ++ [lit "]"])

def fmtGridWorldsUnreachable : Text :=
  lit "The Grid is silent; the registry is out of reach." ++ crlf

structure WorldTags where
  row : WorldRow
  reachable : Bool
  active : Bool
  here : Bool

def worldTag (w : WorldTags) : String :=
  if w.here then "you are here"
  else if w.reachable && w.active then "reachable, active now"
  else if w.reachable then "reachable, quiet"
  else "seeded (not yet live)"

def worldJson (w : WorldTags) : Text :=
  lit r#"{"id":""# ++ escaped 64 w.row.id ++ lit r#"","reachable":"# ++ boolText w.reachable ++
  lit r#","active":"# ++ boolText w.active ++ lit r#","lastSeen":"# ++ number w.row.lastSeen ++
  lit r#","here":"# ++ boolText w.here ++ lit "\x7d"

def fmtGridWorlds (cap : Nat) (worlds : List WorldTags) : Option Text := do
  let json ← fmtJson 1024 worldJson worlds
  fmtAppendAll cap []
    ((lit "Worlds linked on the Grid (say 'travel <world>'):" ++ crlf) ::
      worlds.map (fun w => lit "  " ++ raw w.row.id ++ lit "  [" ++ lit (worldTag w) ++ lit "]" ++ crlf) ++
      [lit r#"@event grid.worlds {"worlds":"# ++ json ++ lit "\x7d" ++ crlf])

def listenHead : Text :=
  lit "You go still and tune the dead frequencies. The static " ++
  lit "thins, and the network plays something back -- a memory it " ++
  lit "never let go of:" ++ crlf ++ lit "  >> "

def transmission (kind : String) (esc : Text) : Text :=
  lit r#"@event grid.transmission {"kind":""# ++ lit kind ++ lit r#"","text":""# ++ esc ++
  lit r#""}"# ++ crlf

def fmtGridListenEcho (text : Bytes) : Text :=
  listenHead ++ raw text ++ lit " <<" ++ crlf ++ transmission "echo" (escaped 220 text)

def fmtGridListenTrace (cap : Nat) (text world selfWorld : Bytes) : Option Text :=
  fmtAppendAll cap []
    ([listenHead ++ raw text ++ lit " <<" ++ crlf] ++
      (if world ≠ [] ∧ world ≠ selfWorld then
        [lit "  (...the signal carries from somewhere called " ++ raw world ++ lit ")" ++ crlf]
       else []) ++
      [transmission "echo" (escaped 220 text)])

def fmtGridListenEmpty : Text :=
  lit "You go still and tune the dead frequencies. Only static " ++
  lit "answers; the deep memory here is empty." ++ crlf ++ transmission "empty" []

def echoJson (t : Trace) : Text :=
  lit r#"{"kind":""# ++ escaped 32 t.kind ++ lit r#"","text":""# ++ escaped 220 t.text ++
  lit r#"","at":"# ++ number t.at_ms ++ lit "\x7d"

def fmtGridPingEcho (cap : Nat) (room : Option String) (echoes : List Trace) : Option Text := do
  let json ← fmtJson 1536 echoJson echoes
  fmtAppendAll cap []
    ((if echoes = [] then
        [lit "You key into the dead Grid. Static, a cold hum... but this " ++
          lit "node remembers nothing. Not yet. (try 'ping all')" ++ crlf]
      else
        (lit "You key into the dead Grid. Static, then it remembers:" ++ crlf) ::
          echoes.map (fun t => lit "  - " ++ raw t.text ++ crlf) ++
          [lit "  (say 'ping all' to hear the whole network)" ++ crlf]) ++
      [lit r#"@event grid.echo {"node":""# ++ escaped 80 (str (room.getD "")) ++
        lit r#"","traces":"# ++ json ++ lit "\x7d" ++ crlf])

def traceJson (t : Trace) : Text :=
  lit r#"{"world":""# ++ escaped 64 t.world ++ lit r#"","node":""# ++ escaped 80 t.node ++
  lit r#"","kind":""# ++ escaped 32 t.kind ++ lit r#"","text":""# ++ escaped 220 t.text ++
  lit r#"","at":"# ++ number t.at_ms ++ lit "\x7d"

def fmtGridPingAll (cap : Nat) (traces : List Trace) : Option Text :=
  if traces = [] then
    some (lit "The deep Grid hums, vast and empty. Nothing echoes back from " ++
      lit "the other nodes -- yet." ++ crlf ++ lit r#"@event grid.federation {"traces":[]}"# ++ crlf)
  else do
    let json ← fmtJson 2048 traceJson traces
    fmtAppendAll cap []
      ((lit "You key past your own node, into the whole dead network. It " ++
          lit "remembers, from across the Grid:" ++ crlf) ::
        traces.map (fun t => lit "  - [" ++ raw t.world ++ lit "] " ++ raw t.text ++ crlf) ++
        [lit r#"@event grid.federation {"traces":"# ++ json ++ lit "\x7d" ++ crlf])

def fmtAbilityRecharging (name : String) (seconds : Int) : Text :=
  lit name ++ lit " is still recharging. (" ++ number seconds ++ lit "s)" ++ crlf

def fmtCharDied (room : String) (hp maxHp : Int) : Text :=
  lit r#"@event char.died {"respawnRoom":""# ++ lit room ++ lit r#"","hp":"# ++ number hp ++
  lit r#","maxHp":"# ++ number maxHp ++ lit "\x7d" ++ crlf

end HollowGrid
