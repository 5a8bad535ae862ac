import HollowGrid.Format
import HollowGrid.Hub

/-! What a session is told: the queue of asm/session.asm and ffi/format.c, the
events of asm/event.asm and the emitters of ffi/format.c. -/
namespace HollowGrid

namespace Server

/-- hg_session_queue: what fits behind OUT_LEN is copied, the rest is dropped. -/
def queued (g : Server) (c : Block) (t : Text) : Server :=
  let s := g.blocks c
  g.setBlock c { s with outbox := s.outbox ++ t.take (outCap - s.outbox.length) }

end Server

def queue (c : Block) (t : Text) : Act Unit := modify fun g => g.queued c t

/-- hg_queue_line: a line too long for its buffer is not queued at all. -/
def queueLine (c : Block) (t : Text) : Act Unit :=
  when (t.length + 3 ≤ 4096) (queue c (t ++ crlf))

/-- hg_session_at over all slots, in slot order. -/
def listed : Act (List (Block × Session)) := do
  let g ← get
  return (g.sessionTable.filterMap id).map fun d => (d, g.blocks d)

def excepted (s : Session) (except : Bytes) : Bool := except ≠ [] && sameFold s.name except

def deliverRoom (room : Int) (t : Text) (except : Bytes) : Act Unit := do
  let sessions ← listed
  sessions.forM fun d => when (d.2.room = room ∧ excepted d.2 except = false) (queue d.1 t)

def deliverAll (t : Text) (except : Bytes) : Act Unit := do
  let sessions ← listed
  sessions.forM fun d => when (excepted d.2 except = false) (queue d.1 t)

def emitVitals (c : Block) : Act Unit := do
  let s ← session c
  queue c (snprintf 500 (fmtVitals s (roomId s.room)))

def emitAffects (c : Block) : Act Unit := do
  let s ← session c
  queue c (snprintf 500 (fmtAffects s))

def emitEquipment (c : Block) : Act Unit := do
  let s ← session c
  queue c (snprintf 500 (fmtEquipment s))

/-- The emitters of format.c share a scratch buffer of 4096 bytes. -/
def emitVitalsNow (c : Block) : Act Unit := do
  let s ← session c
  queue c (snprintf 4096 (fmtVitals s (roomId s.room)))

def emitAffectsNow (c : Block) : Act Unit := do
  let s ← session c
  queue c (snprintf 4096 (fmtAffects s))

def emitDreamNow (c : Block) : Act Unit := do
  let s ← session c
  queue c (snprintf 4096 ((fmtDream s).getD []))

def phaseOf (tick : Int) : String :=
  match tick % 4 with
  | 0 => "day"
  | 1 => "dusk"
  | 2 => "night"
  | _ => "dawn"

def emitWorldState (c : Block) : Act Unit := do
  let w ← getWorld
  queue c (snprintf 240 (fmtWorldState w.tick (phaseOf w.tick)))

def playerRow (s : Session) : Option Text := do
  let name ← jsonEscape 80 s.name
  let standing ← jsonEscape 80 (brandStanding s)
  return lit r#"{"name":""# ++ name ++ lit r#"","standing":""# ++ standing ++ lit r#""}"#

/-- hg_players_json: "[]" where the source returns -1. -/
def playersJson (sessions : List Session) (room : Int) (except : Bytes) (cap : Nat) : Text :=
  let here := sessions.filter fun s =>
    s.room = room && s.name ≠ [] && !sameFold s.name except
  (fmtJson cap id (here.filterMap playerRow)).getD (lit "[]")

def ratLiveMobs : Text := lit r#"[{"id":"rat","name":"a glow-rat"}]"#

def roomLiveMobs (w : World) (room : Int) : Option Text :=
  if room = roomTunnels ∧ w.ratAlive then some ratLiveMobs else roomMobs room

/-- The menu of a session, or the static one of its room when the menu is shorter
than three bytes. -/
def menuJson (s : Session) : Text :=
  match actionsJsonFor s 1200 with
  | some menu => if menu.length < 3 then (roomActions s.room).getD (lit "[]") else menu
  | none => (roomActions s.room).getD (lit "[]")

def cacheAnnounce (gold : Int) : Text :=
  lit "Someone has cached aid here: " ++ number gold ++
  lit " gold, left for whoever comes next. (gather)"

def cacheEvt (gold : Int) : Text :=
  lit r#"@event node.cache {"gold":"# ++ number gold ++ lit "\x7d" ++ crlf

def announceCacheNow (c : Block) : Act Unit := do
  let s ← session c
  let l ← getLedger
  let gold := cachePeek l s.room
  if gold ≤ 0 then pure ()
  else do
    queueLine c (snprintf 160 (cacheAnnounce gold))
    queue c (snprintf 80 (cacheEvt gold))

def sceneProse (room : Int) : Text :=
  lit ((roomName room).getD "") ++ crlf ++ (roomDesc room).getD [] ++ crlf

def emitSceneNow (c : Block) : Act Unit := do
  let s ← session c
  queue c (snprintf 1024 (sceneProse s.room))
  let sessions ← listed
  let w ← getWorld
  let players := playersJson (sessions.map Prod.snd) s.room s.name 900
  queue c (snprintf 4096 (fmtRoomInfo s.room (roomLiveMobs w s.room) players))
  emitVitalsNow c
  emitAffectsNow c
  queue c (snprintf 4096 (fmtRoomActions (menuJson s)))
  queue c (snprintf 4096 (fmtWorldState w.tick "day"))
  announceCacheNow c

def emitRoomActionsNow (c : Block) : Act Unit := do
  let s ← session c
  queue c (snprintf 1400 (fmtRoomActions (menuJson s)))

/-- The first flag of hg_emit_grid_who_now is set while nothing follows the bracket. -/
def whoAppend (cap : Nat) : Text → List Text → Text
  | buf, [] => buf
  | buf, row :: rest =>
    let piece := (if buf.length = 1 then [] else lit ",") ++ row
    if buf.length + piece.length < cap then whoAppend cap (buf ++ piece) rest else buf

def whoJson (here : Bool) (world name regard title : Text) : Text :=
  lit r#"{"world":""# ++ world ++ lit r#"","name":""# ++ name ++ lit r#"","regard":""# ++
  regard ++ lit r#"","here":"# ++ boolText here ++ lit r#","title":""# ++ title ++ lit r#""}"#

def whoLocal (env : Env) (s : Session) : Option Text :=
  if s.name = [] then none
  else do
    let name ← jsonEscape 80 s.name
    let title ← jsonEscape 80 s.title
    let regard ← jsonEscape 40 (regardOf s)
    let world ← jsonEscape 40 (gridWorldName env)
    return whoJson true world name regard title

def whoRemote (env : Env) (row : PresenceRow) : Option Text :=
  if row.name = [] ∨ row.world = gridWorldName env then none
  else do
    let name ← jsonEscape 80 row.name
    let title ← jsonEscape 80 row.title
    let regard ← jsonEscape 80 row.regard
    let world ← jsonEscape 80 row.world
    return whoJson false world name regard title

def emitGridWhoNow (env : Env) (c : Block) : Act Unit := do
  let sessions ← listed
  let near := whoAppend 2048 (lit "[") (sessions.filterMap fun d => whoLocal env d.2)
  let answer ← gridPresence env 30000 32
  let far := whoAppend 2048 near ((answer.getD []).filterMap (whoRemote env))
  let json := if far.length + 2 < 2048 then far ++ lit "]" else lit "[]"
  queue c (snprintf 2200 (lit r#"@event grid.who {"players":"# ++ json ++ lit "\x7d" ++ crlf))
  if far.length = 1 then queueLine c (lit "No one else walks the wastes right now.")
  else queueLine c (lit "Online: survivors walk the wastes.")

def commGridcast (env : Env) (self text : Bytes) : Text :=
  lit r#"@event comm.gridcast {"world":""# ++ escaped 48 (gridWorldName env) ++
  lit r#"","from":""# ++ escaped 80 self ++ lit r#"","text":""# ++ escaped 200 text ++
  lit r#""}"# ++ crlf

def emitCommGridcastNow (env : Env) (c : Block) (text : Bytes) : Act Unit := do
  let s ← session c
  queueLine c (snprintf 280
    (lit "You cast your voice into the dead Grid, out across every node: \"" ++ raw text ++
      lit "\""))
  deliverAll (snprintf 400 (commGridcast env s.name text)) []

/-- Rows put into a buffer with no check on the space left. -/
def rollJson (cap : Nat) (rows : List Text) : Act Text :=
  let buf := lit "[" ++ rows.flatten
  if buf.length + 2 ≤ cap then pure (buf ++ lit "]") else throw .outOfBounds

def rescuedJson (row : Fallen) : Text :=
  lit r#"{"world":""# ++ escaped 48 row.world ++ lit r#"","name":""# ++ escaped 40 row.name ++
  lit r#"","savedBy":""# ++ escaped 40 row.third ++ lit r#"","at":"# ++ number row.at_ms ++
  lit "\x7d"

def emitSavedRollNow (env : Env) (c : Block) : Act Unit := do
  let answer ← gridRecentRescued env 12 12
  let rows := answer.getD []
  if rows = [] then
    queueLine c (lit "No one has been pulled from the cages yet, or the Grid has forgotten. " ++
      lit "Find the Front's cages and change that.")
  else do
    queueLine c (lit "The Grid keeps these, pulled back out of the cages:")
    rows.forM fun row => queueLine c (snprintf 160
      (lit "  - " ++ raw row.name ++ lit ", freed by " ++ raw row.third))
    let json ← rollJson 1200 (jsonRows (fun _ => rescuedJson) 0 rows)
    queue c (snprintf 1400
      (lit r#"@event grid.rescued_roll {"rescued":"# ++ json ++ lit "\x7d" ++ crlf))

def fallenJson (row : Fallen) : Text :=
  lit r#"{"name":""# ++ escaped 40 row.name ++ lit r#"","world":""# ++ escaped 48 row.world ++
  lit r#"","room":""# ++ escaped 40 row.third ++ lit r#"","at":"# ++ number row.at_ms ++ lit "\x7d"

def fallenLines (c : Block) (rows : List Fallen) : Act Unit :=
  if rows = [] then
    queueLine c (lit "The roll is empty for now. No one the Grid remembers has fallen lately; " ++
      lit "may it stay that way.")
  else do
    queueLine c (lit "The Grid remembers these fallen. Speak a name to keep them:  " ++
      lit "(witness <name>)")
    rows.forM fun row => queueLine c (snprintf 160
      (lit "  " ++ raw row.name ++ lit "  -- fell at " ++ raw row.third))

def emitFallenRollNow (env : Env) (c : Block) : Act Unit := do
  let answer ← gridRecentFallen env 12 12
  let rows := answer.getD []
  fallenLines c rows
  let json ← rollJson 1200 (jsonRows (fun _ => fallenJson) 0 rows)
  queue c (snprintf 1400 (lit r#"@event grid.fallen {"fallen":"# ++ json ++ lit "\x7d" ++ crlf))

def kindJson (row : Bytes × Int) : Text :=
  lit r#"{"kind":""# ++ escaped 40 row.1 ++ lit r#"","count":"# ++ number row.2 ++ lit "\x7d"

/-- The int sum of the counts. -/
def kindTotal (rows : List (Bytes × Int)) : Int := toInt32 (rows.map Prod.snd).sum

/-- "  %-10.32s %d" -/
def kindLine (row : Bytes × Int) : Text :=
  lit "  " ++ raw (row.1.take 32) ++ List.replicate (10 - (row.1.take 32).length) ⟨space, .server⟩ ++
  lit " " ++ number row.2

def emitGridstatsCmdNow (env : Env) (c : Block) : Act Unit := do
  let answer ← gridLedgerStats env 32
  match answer with
  | none => queueLine c (lit "The hub is unreachable; the deep memory cannot be read.")
  | some rows => do
    let json ← rollJson 800 (jsonRows (fun _ => kindJson) 0 rows)
    queue c (snprintf 900
      (lit r#"@event grid.ledger_stats {"total":"# ++ number (kindTotal rows) ++
        lit r#","kinds":"# ++ json ++ lit "\x7d" ++ crlf))
    queueLine c (snprintf 160
      (lit "The Grid ledger holds " ++ number (kindTotal rows) ++ lit " trace(s):"))
    rows.forM fun row => queueLine c (snprintf 160 (kindLine row))

def gridpruneFail : Text := lit "The hub is unreachable; the deep memory cannot be tended."

def emitGridpruneCmdNow (env : Env) (c : Block) : Act Unit := do
  let first ← gridLedgerStats env 32
  match first with
  | none => queueLine c gridpruneFail
  | some old => do
    let pruned ← gridPruneLedger env
    match pruned with
    | none => queueLine c gridpruneFail
    | some removed => do
      let second ← gridLedgerStats env 32
      let rows := second.getD []
      let json ← rollJson 800 (jsonRows (fun _ => kindJson) 0 rows)
      queue c (snprintf 960
        (lit r#"@event grid.ledger_pruned {"removed":"# ++ number removed ++
          lit r#","before":"# ++ number (kindTotal old) ++ lit r#","after":"# ++
          number (kindTotal rows) ++ lit r#","kinds":"# ++ json ++ lit "\x7d" ++ crlf))
      queueLine c (snprintf 160
        (lit "Pruned " ++ number removed ++ lit " ambient trace(s) (ghost, passage, recall)."))
      queueLine c (snprintf 160
        (lit "The ledger went from " ++ number (kindTotal old) ++ lit " to " ++
          number (kindTotal rows) ++ lit " trace(s); only meaningful memory remains."))

def charForgiven (by_name : Bytes) (ashsworn redeemed : Bool) : Text :=
  lit r#"@event char.forgiven {"by":""# ++ escaped 80 by_name ++ lit r#"","ashsworn":"# ++
  boolText ashsworn ++ lit r#","redeemed":"# ++ boolText redeemed ++ lit "\x7d" ++ crlf

def gridRedemption (name title : Bytes) : Text :=
  lit r#"@event grid.redemption {"name":""# ++ escaped 80 name ++ lit r#"","title":""# ++
  escaped 80 title ++ lit r#""}"# ++ crlf

/-- hg_emit_forgiven_target_now(target, forgiver, ashsworn, redeemed_path) -/
def emitForgivenTargetNow (target : Block) (self : Bytes) (ashsworn redeemedPath : Bool) :
    Act Unit := do
  queue target (snprintf 280 (raw self ++ lit " looks at you and chooses to forgive you." ++ crlf))
  if ashsworn then do
    queue target (lit "It reaches something in you. But the ash does not lift; it never " ++
      lit "will. You carry the mark and the mercy both. Some things are not " ++
      lit "forgotten, even when they are forgiven." ++ crlf)
    queue target (snprintf 240 (charForgiven self true false))
  else if redeemedPath then pure ()
  else do
    queue target (snprintf 240 (charForgiven self false false))
    queue target (lit "It lands, and it stays with you. The road is still yours to walk, " ++
      lit "but you are not walking it unseen." ++ crlf)

def emitForgivenRedeemedNow (target : Block) (self : Bytes) : Act Unit := do
  let t ← session target
  queue target (snprintf 240 (charForgiven self false true))
  queue target (snprintf 240 (gridRedemption t.name t.title))
  queue target (lit "Something you had been carrying alone, you are not carrying alone " ++
    lit "anymore. You found your way back, and someone met you on the road. " ++
    lit "(you are the Returned)" ++ crlf)
  emitAffectsNow target

/-- The loop of hg_emit_inventory over its buffer of 512 bytes. -/
def inventoryLoop : Text → Bool → List Bytes → Text
  | buf, _, [] => buf
  | buf, first, item :: rest =>
    if 512 - 21 ≤ buf.length then buf
    else inventoryLoop (buf ++ (if first then [] else lit ", ") ++ raw item) false rest

def inventoryText (items : List Bytes) : Text :=
  let buf := inventoryLoop (lit "You carry: ") true items
  if 512 - 4 ≤ buf.length then buf else buf ++ lit "." ++ crlf

def emitInventory (c : Block) : Act Unit := do
  let s ← session c
  if s.inventory = [] then queue c (lit "You carry nothing." ++ crlf)
  else queue c (inventoryText (s.inventory.take invSlots))

/-- The seconds until ready, at least one: a 64-bit division read as an int. -/
def secondsLeft (ready now : Int) : Int :=
  let seconds := toInt32 (u64 (ready - now + 999) / 1000)
  if seconds = 0 then 1 else seconds

def emitAbility (env : Env) (c : Block) : Act Unit := do
  let now ← nowMs env
  let s ← session c
  if s.traitReady ≠ 0 ∧ u64 now < u64 s.traitReady then
    queue c (snprintf 500 (fmtAbilityRecharging "Requisition" (secondsLeft s.traitReady now)))
  else do
    update c fun ch => { ch with gold := ch.gold + 15, traitReady := now + 180000 }
    queue c (lit "You flash credentials nobody bothers to check. The registry still " ++
      lit "provides for its own. (+15 gold)" ++ crlf)
    emitVitals c

end HollowGrid
