import HollowGrid.Ledger

/-! asm/grid_local.asm and ffi/grid_hub.c: the LocalHub store, the RPCs of the
RemoteHub, and the identity merge of asm/grid_policy.asm. Every call is fail-open. -/
namespace HollowGrid

def safeCopy (cap : Nat) (b : Bytes) : Bytes := (cstr b).take (cap - 1)

def maxTraces : Nat := 200
def maxEcho : Nat := 128

namespace LocalHub

/-- hg_grid_local_record: trace_shift makes room in front, the oldest row falls off. -/
def record (h : LocalHub) (world node kind text : Bytes) (at_ms : Int) : LocalHub :=
  { h with traces :=
      (⟨safeCopy 48 world, safeCopy 64 node, safeCopy 24 kind, safeCopy 200 text, at_ms⟩ ::
        h.traces).take maxTraces }

def recordEcho (h : LocalHub) (node kind text : Bytes) (at_ms : Int) : LocalHub :=
  { h with echo :=
      (⟨[], safeCopy 64 node, safeCopy 24 kind, safeCopy 200 text, at_ms⟩ :: h.echo).take maxEcho }

def recordFallen (h : LocalHub) (world name room : Bytes) (at_ms : Int) : LocalHub :=
  { h with fallen :=
      (⟨safeCopy 48 world, safeCopy 40 name, safeCopy 32 room, at_ms⟩ :: h.fallen).take 200 }

def recordRescued (h : LocalHub) (world name savedBy : Bytes) (at_ms : Int) : LocalHub :=
  let row : Fallen := ⟨safeCopy 48 world, safeCopy 40 name, safeCopy 40 savedBy, at_ms⟩
  record { h with rescued := (row :: h.rescued).take 200 } world (str "rescued") (str "rescue")
    (safeCopy 256 (name ++ str " freed by " ++ savedBy)) at_ms

def clampTide (tide : Int) : Int := if tide < -100 then -100 else if 100 < tide then 100 else tide

def shiftTide (h : LocalHub) (delta : Int) : LocalHub :=
  { h with tide := clampTide (h.tide + delta) }

/-- Ids start at 1, and id i goes to slot (i - 1) mod 200. -/
def gridcast (h : LocalHub) (world sender text : Bytes) : LocalHub :=
  let cast : Cast := ⟨h.nextCast + 1, safeCopy 48 world, safeCopy 33 sender, safeCopy 240 text⟩
  let slot := h.nextCast % 200
  { h with
    nextCast := h.nextCast + 1
    casts := if slot < h.casts.length then h.casts.set slot cast else h.casts ++ [cast] }

def prune (h : LocalHub) : LocalHub :=
  { h with traces := h.traces.filter fun t => !pruneKindAmbient t.kind }

/-- The first rows of a store: at most cap, and at most limit when that is positive. -/
def recent (limit : Int) (cap : Nat) (rows : List Fallen) : List Fallen :=
  (rows.take cap).take (if 0 < limit then limit.toNat else rows.length)

/-- One row for each kind in order of first appearance, while there is room. -/
def ledgerRows (cap : Nat) (rows : List (Bytes × Int)) : List Trace → List (Bytes × Int)
  | [] => rows
  | t :: rest =>
    if rows.any fun row => row.1 = t.kind then
      ledgerRows cap (rows.map fun row => if row.1 = t.kind then (row.1, row.2 + 1) else row) rest
    else if cap ≤ rows.length then ledgerRows cap rows rest
    else ledgerRows cap (rows ++ [(safeCopy 32 t.kind, 1)]) rest

end LocalHub

/- The names a world goes by: g.world_name, and what hg_grid_world_name makes of it. -/

def bootName (env : Env) : Bytes := safeCopy 64 env.worldName

def gridWorldName (env : Env) : Bytes :=
  match bootName env with
  | [] => str "Basalt Relay"
  | name => name

/-- The traces hg_grid_local_boot starts from, oldest first. -/
def seeds : List (String × String × String × String) :=
  [("Dustfall", "the long market", "slain",
      "a trader put down a chrome-jackal with a length of pipe."),
    ("the Ninth Server", "cell block C", "oath", "someone swore off the dust for the ninth time."),
    ("Saltreach", "the drowned pier", "death", "a runner called Mox bled out, cursing the tide."),
    ("Basalt Relay", "nexus", "ghost", "a faint cursor blinks once and is gone."),
    ("Basalt Relay", "market", "passage", "someone passed through without leaving a name."),
    ("Basalt Relay", "roof", "recall", "a half-remembered transmission dissolves into static.")]

def plant (env : Env) (h : LocalHub) (seed : (String × String × String × String) × Nat) :
    LocalHub :=
  h.record (str seed.1.1) (str seed.1.2.1) (str seed.1.2.2.1) (str seed.1.2.2.2) (env.now seed.2)

def gridBoot (env : Env) : LocalHub :=
  if env.remote then {} else seeds.zipIdx.foldl (plant env) {}

def jsonStr (row : Json) (key : String) : Bytes :=
  ((row.item (str key)).bind Json.stringValue).getD []

/-- json_ll and json_num: a number, or the fallback for anything else. -/
def jsonNum (row : Json) (key : String) (fallback : Int) : Int :=
  match row.item (str key) with
  | some (.num n) => truncate n
  | _ => fallback

/-- (int) of a 64-bit value. -/
def toInt32 (n : Int) : Int := (n + 2147483648) % 4294967296 - 2147483648

def ignore {α : Type} (m : Act α) : Act Unit := do
  let _ ← m
  pure ()

def nowMs (env : Env) : Act Int := ask env.now

/-- rpc_call: none when the server is not remote or the hub cannot be reached. -/
def rpcCall (env : Env) (method : String) (params : List Json) : Act (Option Json) :=
  if env.remote then ask fun n => env.rpc n (str method) params else pure none

def rpcRows (answer : Option Json) : Option (List Json) :=
  match answer with
  | some (.arr rows) => some rows
  | _ => none

def gridRecord (env : Env) (world node kind text : Bytes) (at_ms : Int) : Act Unit :=
  if env.remote then
    ignore (rpcCall env "record"
      [.str world, .str node, .str kind, .str text, .num (toDouble at_ms)])
  else onGrid fun h => h.record world node kind text at_ms

def gridRecordLocalEcho (env : Env) (node kind text : Bytes) : Act Unit := do
  let at_ms ← nowMs env
  onGrid fun h => h.recordEcho node kind text at_ms

def gridInscribe (env : Env) (node name msg : Bytes) : Act Unit :=
  if msg = [] then pure ()
  else do
    let text := safeCopy 240 (name ++ str ": \"" ++ msg ++ str "\"")
    gridRecordLocalEcho env node (str "mark") text
    let at_ms ← nowMs env
    gridRecord env (bootName env) node (str "mark") text at_ms

def gridRecordFallen (env : Env) (world name room : Bytes) (at_ms : Int) : Act Unit :=
  if env.remote then
    ignore (rpcCall env "recordFallen" [.str world, .str name, .str room, .num (toDouble at_ms)])
  else onGrid fun h => h.recordFallen world name room at_ms

def gridRecordRescued (env : Env) (world name savedBy : Bytes) (at_ms : Int) : Act Unit :=
  if env.remote then
    ignore (rpcCall env "recordRescued"
      [.str world, .str name, .str savedBy, .num (toDouble at_ms)])
  else onGrid fun h => h.recordRescued world name savedBy at_ms

def gridOnKill (env : Env) (room slayer mob : Bytes) : Act Unit := do
  let text := safeCopy 256 (slayer ++ str " slew " ++ mob ++ str " here.")
  let at_ms ← nowMs env
  gridRecord env (bootName env) room (str "slain") text at_ms
  gridRecordLocalEcho env room (str "slain") text

def gridOnDeath (env : Env) (room name : Bytes) : Act Unit := do
  let at_ms ← nowMs env
  gridRecordFallen env (bootName env) name room at_ms

def federationTickMs : Int := 10000

def tickTime (env : Env) (tickNow : Int) : Act Int :=
  if tickNow = 0 then nowMs env else pure tickNow

/-- hg_grid_federation_tick, with the registration it makes in remote mode. -/
def gridFederationTick (env : Env) (tickNow : Int) : Act Unit := do
  let now ← tickTime env tickNow
  let w ← getWorld
  if w.lastFederationTick ≠ 0 ∧ now - w.lastFederationTick < federationTickMs then pure ()
  else do
    onWorld fun w => { w with lastFederationTick := now }
    when env.remote
      (ignore (rpcCall env "register" [.str (bootName env), .str (safeCopy 160 env.worldUrl)]))

structure WorldRow where
  id : Bytes
  url : Bytes
  lastSeen : Int
  deriving DecidableEq, Repr

def worldRow (row : Json) : WorldRow :=
  ⟨safeCopy 48 (jsonStr row "id"), safeCopy 160 (jsonStr row "url"), jsonNum row "last_seen" 0⟩

/-- At most eight rows, or none where the source returns -1. -/
def gridListWorlds (env : Env) : Act (Option (List WorldRow)) :=
  if env.remote then do
    let answer ← rpcCall env "listWorlds" []
    return (rpcRows answer).map fun rows => (rows.take 8).map worldRow
  else do
    let first ← nowMs env
    let second ← nowMs env
    return some
      [⟨str "Saltreach", str "wss://saltreach.example/ws", 0⟩,
        ⟨str "Dustfall", str "wss://dustfall.skyphusion.org/ws", first⟩,
        ⟨safeCopy 48 (bootName env), safeCopy 160 env.worldUrl, second⟩]

structure CharacterRow where
  level : Int := 0
  xp : Int := 0
  gold : Int := 0
  faction : Bytes := []
  morality : Int := 0
  title : Bytes := []
  race : Bytes := []
  ashsworn : Bool := false
  present : Bool := false
  deriving DecidableEq, Repr

def characterRow (result : Json) : CharacterRow where
  present := true
  level := jsonNum result "level" 1
  xp := jsonNum result "xp" 0
  gold := jsonNum result "gold" 20
  morality := jsonNum result "morality" 0
  faction := safeCopy 16 (jsonStr result "faction")
  title := safeCopy 48 (jsonStr result "title")
  race := safeCopy 16 (jsonStr result "race")
  ashsworn := ((result.item (str "ashsworn")).map Json.isTrue).getD false

/-- none where the source returns -1: no answer, or no object in it. -/
def gridFetchCharacter (env : Env) (name : Bytes) : Act (Option CharacterRow) :=
  if env.remote then do
    let answer ← rpcCall env "loadCharacter" [.str name]
    return match answer with
      | some result => if result.isObject then some (characterRow result) else none
      | none => none
  else pure (some {})

def traceRow (row : Json) : Trace :=
  ⟨safeCopy 48 (jsonStr row "world"), safeCopy 64 (jsonStr row "node"),
    safeCopy 24 (jsonStr row "kind"), safeCopy 200 (jsonStr row "text"), jsonNum row "at" 0⟩

def traceRows (answer : Option Json) (cap : Nat) : Option (List Trace) :=
  (rpcRows answer).map fun rows => ((rows.filter Json.isObject).take cap).map traceRow

def gridFetchRecent (env : Env) (limit cap : Nat) : Act (Option (List Trace)) :=
  if env.remote then do
    let answer ← rpcCall env "recent" [.num limit]
    return traceRows answer cap
  else pure (some [])

def pageSize : Nat := 4096

def storeTraces (out : Nat) (rows : Option (List Trace)) : Act (Option (List Trace)) :=
  if rows.getD [] ≠ [] ∧ out < pageSize then throw .outOfBounds else pure rows

def gridFetchRecentAcross (env : Env) (limit : Int) (out cap : Nat) : Act (Option (List Trace)) :=
  if out = 0 ∨ cap = 0 then pure none
  else if env.remote then do
    let answer ← rpcCall env "recentAcross" [.str (bootName env), .num limit]
    storeTraces out (traceRows answer cap)
  else pure (some [])

/-- hg_grid_tide, or none where the source returns -1. -/
def gridTide (env : Env) : Act (Option Int) :=
  if env.remote then do
    let answer ← rpcCall env "tide" []
    return answer.map fun result =>
      match result with
      | .num n => if -2147483648 ≤ n ∧ n ≤ 2147483647 then n else -2147483648
      | _ => 0
  else do
    let h ← getGrid
    return some h.tide

/-- hg_grid_shift_tide. No caller reads the new tide. -/
def gridShiftTide (env : Env) (delta : Int) : Act Unit :=
  if env.remote then ignore (rpcCall env "shiftTide" [.num delta])
  else onGrid fun h => h.shiftTide delta

/-- True where the source returns 0. -/
def gridGridcast (env : Env) (sender text : Bytes) : Act Bool :=
  if env.remote then do
    let answer ← rpcCall env "gridcast" [.str (bootName env), .str sender, .str text]
    return answer.isSome
  else do
    onGrid fun h => h.gridcast (bootName env) sender text
    return true

structure PresenceRow where
  world : Bytes
  name : Bytes
  regard : Bytes
  title : Bytes
  at_ms : Int
  deriving DecidableEq, Repr

def presenceRow (row : Json) : PresenceRow :=
  ⟨safeCopy 48 (jsonStr row "world"), safeCopy 33 (jsonStr row "name"),
    safeCopy 48 (jsonStr row "regard"), safeCopy 48 (jsonStr row "title"), jsonNum row "at" 0⟩

def gridPresence (env : Env) (maxAge : Int) (cap : Nat) : Act (Option (List PresenceRow)) :=
  if env.remote then do
    let answer ← rpcCall env "presence" [.num maxAge]
    return (rpcRows answer).map fun rows => (rows.take cap).map presenceRow
  else pure (some [])

/-- Rows of recentFallen and recentRescued, whose third field goes by its own key. -/
def fallenRow (key : String) (cap : Nat) (row : Json) : Fallen :=
  ⟨safeCopy 48 (jsonStr row "world"), safeCopy 33 (jsonStr row "name"),
    safeCopy cap (jsonStr row key), jsonNum row "at" 0⟩

/-- copy_cap into the C row of a LocalHub row. -/
def copyRow (cap : Nat) (row : Fallen) : Fallen :=
  { row with name := safeCopy 33 row.name, third := safeCopy cap row.third }

def gridRecentRescued (env : Env) (limit : Int) (cap : Nat) : Act (Option (List Fallen)) :=
  if env.remote then do
    let answer ← rpcCall env "recentRescued" [.num limit]
    return (rpcRows answer).map fun rows => (rows.take cap).map (fallenRow "savedBy" 33)
  else do
    let h ← getGrid
    return some ((LocalHub.recent limit cap h.rescued).map (copyRow 33))

def gridRecentFallen (env : Env) (limit : Int) (cap : Nat) : Act (Option (List Fallen)) :=
  if env.remote then do
    let answer ← rpcCall env "recentFallen" [.num limit]
    return (rpcRows answer).map fun rows => (rows.take cap).map (fallenRow "room" 32)
  else do
    let h ← getGrid
    return some ((LocalHub.recent limit cap h.fallen).map (copyRow 32))

def gridLedgerStats (env : Env) (cap : Nat) : Act (Option (List (Bytes × Int))) :=
  if env.remote then do
    let answer ← rpcCall env "ledgerStats" []
    return (rpcRows answer).map fun rows =>
      (rows.take cap).map fun row =>
        (safeCopy 32 (jsonStr row "kind"), toInt32 (jsonNum row "count" 0))
  else do
    let h ← getGrid
    return some (LocalHub.ledgerRows cap [] h.traces)

/-- The number of rows removed, or none where the source returns -1. -/
def gridPruneLedger (env : Env) : Act (Option Int) :=
  if env.remote then do
    let answer ← rpcCall env "pruneLedgerKinds" [.arr (pruneKinds.map Json.str)]
    return answer.map fun result =>
      if result.isObject then toInt32 (jsonNum result "removed" 0) else 0
  else do
    let h ← getGrid
    onGrid LocalHub.prune
    return some (h.traces.length - h.prune.traces.length)

def commitParams (s : Session) : List Json :=
  [.str s.name,
    .obj
      [(str "level", .num (toDouble s.level)), (str "xp", .num (toDouble s.xp)),
        (str "gold", .num (toDouble s.gold)), (str "faction", .str s.faction),
        (str "morality", .num (toDouble s.morality)), (str "title", .str s.title),
        (str "race", .str s.race), (str "ashsworn", .bool s.ashsworn)]]

/-- hg_grid_commit_session: false where commitCharacter failed. -/
def gridCommitSession (env : Env) (c : Block) : Act Bool :=
  if env.remote then do
    let s ← session c
    let answer ← rpcCall env "commitCharacter" (commitParams s)
    return answer.isSome
  else pure true

structure Identity where
  level : Int
  xp : Int
  gold : Int
  faction : Bytes
  morality : Int
  title : Bytes
  race : Bytes
  ashsworn : Bool
  deriving DecidableEq, Repr

def identityLoadLocal (s : Session) : Identity :=
  ⟨s.level, s.xp, s.gold, s.faction, s.morality, s.title, s.race, s.ashsworn⟩

/-- Numbers, race and the brand come from the hub. A side already taken and a title
already worn stay. -/
def identityMergeHub (i : Identity) (row : CharacterRow) : Identity :=
  { level := row.level
    xp := row.xp
    gold := row.gold
    morality := row.morality
    race := row.race
    faction := if i.faction = str "ally" ∨ i.faction = str "front" then i.faction else row.faction
    title := if i.title = [] then row.title else i.title
    ashsworn := row.ashsworn }

def identityApply (ch : Character) (i : Identity) : Character :=
  { ch with
    level := i.level
    xp := i.xp
    gold := i.gold
    morality := i.morality
    ashsworn := i.ashsworn
    faction := i.faction
    title := i.title
    race := i.race }

def hubCharCanonical (row : CharacterRow) : Bool :=
  row.present &&
    (row.race ≠ [] || row.level > 1 || row.xp > 0 || row.faction ≠ [] || row.morality ≠ 0)

/-- What hg_grid_load_session returns: -1, 0 or 1. -/
inductive Loaded
  | failed
  | nothing
  | applied
  deriving DecidableEq, Repr

def gridLoadSession (env : Env) (c : Block) : Act Loaded := do
  let s ← session c
  if env.remote = false ∨ s.name = [] then pure .nothing
  else do
    let fetched ← gridFetchCharacter env s.name
    match fetched with
    | none => pure .failed
    | some row =>
      if row.race = [] then pure .nothing
      else do
        update c fun ch => identityApply ch (identityMergeHub (identityLoadLocal s) row)
        pure .applied

end HollowGrid
