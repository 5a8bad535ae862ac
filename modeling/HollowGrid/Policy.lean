import HollowGrid.Rescue

/-! asm/grid_policy.asm: the commands that ask the network. -/
namespace HollowGrid

def cmdWhoami (env : Env) (c : Block) : Act Unit := do
  let s ← session c
  let local_self := identityLoadLocal s
  if env.remote = false then queue c (snprintf 4096 (fmtCharIdentity s.name local_self))
  else do
    let fetched ← gridFetchCharacter env s.name
    match fetched with
    | none => do
      queue c (lit "(the Grid is unreachable; showing your local self)" ++ crlf)
      queue c (snprintf 4096 (fmtCharIdentity s.name local_self))
    | some row =>
      queue c (snprintf 4096 (fmtCharIdentity s.name
        (if hubCharCanonical row then identityMergeHub local_self row else local_self)))

/-- tolower(int) in the C locale. -/
def tolower (n : Int) : Int := if 65 ≤ n ∧ n ≤ 90 then n + 32 else n

/-- grid_lower_inplace hands tolower its argument in esi, so what comes back is made
of edi, the low half of the address. -/
def gridLowerInplace (address : Nat) (b : Bytes) : Bytes :=
  b.mapIdx fun i _ => (tolower (toInt32 ((address + i : Nat) : Int)) % 256).toNat.toUInt8

/-- The strstr of grid_match_world over its two scratch buffers. -/
def scratchMatch (address : Nat) (id target : Bytes) : Bool :=
  contains (cstr (gridLowerInplace (address + 64) (target.take 63)))
    (cstr (gridLowerInplace address (id.take 63)))

def gridMatchWorld (address : Nat) (rows : List WorldRow) (target : Bytes) : Option Nat :=
  if target = [] then none
  else
    match rows.findIdx? fun row => sameFold row.id target with
    | some i => some i
    | none => rows.findIdx? fun row => scratchMatch address row.id target

def overread (cap : Nat) (t : Text) (memory : Nat → UInt8) : Text :=
  if t.length < cap then t
  else t.take (cap - 1) ++ leaked (0 :: (List.range (t.length - cap)).map memory)

/-- A string found at an address nobody set, as far as a buffer of 512 bytes reaches. -/
def staleString (memory : Nat → UInt8) : Text := leaked (cstr ((List.range 512).map memory))

/-- The id and the url of the row are addressed through r8 after a strcmp. -/
def travelHandoff (env : Env) (row : WorldRow) : Act Text := do
  let moved ← ask env.clobbers
  if moved then do
    let first ← ask env.stale
    let second ← ask env.stale
    return fmtGridTravelHandoff (staleString first) (staleString second)
      (escaped 64 (bytes (staleString first))) (escaped 176 (bytes (staleString second)))
  else
    return fmtGridTravelHandoff (raw row.id) (raw row.url) (escaped 64 row.id) (escaped 176 row.url)

def queueTravel (env : Env) (c : Block) (t : Text) : Act Unit := do
  let memory ← ask env.stale
  queue c (overread 512 t memory)

/-- hg_cmd_worlds. Whether a row is this world hangs on the flag strcmp leaves. -/
def worldTags (env : Env) (now : Int) : List WorldRow → Act (List WorldTags)
  | [] => pure []
  | row :: rest => do
    let here ← ask env.zeroFlag
    let more ← worldTags env now rest
    return ⟨row, 0 < row.lastSeen, 0 < row.lastSeen && now - 60000 < row.lastSeen, here⟩ :: more

def cmdWorlds (env : Env) (c : Block) : Act Unit := do
  let answer ← gridListWorlds env
  match answer with
  | none => queue c fmtGridWorldsUnreachable
  | some rows => do
    let now ← nowMs env
    let tags ← worldTags env now rows
    queue c ((fmtGridWorlds 3072 tags).getD [])

def travelTo (env : Env) (c : Block) (target : Bytes) : Act Unit := do
  let answer ← gridListWorlds env
  match answer with
  | none => queueTravel env c fmtGridTravelUnreachable
  | some rows => do
    let address ← ask env.scratch
    match (gridMatchWorld address rows target).bind fun i => rows[i]? with
    | none => queueTravel env c (fmtGridTravelMissing target)
    | some row =>
      if row.id = gridWorldName env then queueTravel env c (fmtGridTravelHere (gridWorldName env))
      else do
        let handoff ← travelHandoff env row
        queueTravel env c handoff
        setClose c

def cmdTravel (env : Env) (c : Block) (arg : Ptr) : Act Unit :=
  match arg with
  | none => cmdWorlds env c
  | some target => if target = [] then cmdWorlds env c else travelTo env c target

/-- rand() modulo the number of rows. -/
def pick {α : Type} (env : Env) (rows : List α) : Act (Option α) := do
  let r ← ask env.rand
  return rows[r % rows.length]?

def pickAny {α : Type} (env : Env) (rows : List α) : Act (Option α) :=
  if rows.isEmpty then pure none else pick env rows

def listenTrace (env : Env) (c : Block) (rows : List Trace) : Act Unit := do
  let chosen ← pickAny env rows
  match chosen with
  | none => queue c fmtGridListenEmpty
  | some t => queue c ((fmtGridListenTrace 3072 t.text t.world (gridWorldName env)).getD [])

def cmdListen (env : Env) (c : Block) : Act Unit := do
  let h ← getGrid
  if h.echo ≠ [] then do
    let chosen ← pick env h.echo
    match chosen with
    | none => pure ()
    | some t => queue c (fmtGridListenEcho t.text)
  else if env.remote then do
    let answer ← gridFetchRecent env 20 20
    listenTrace env c (answer.getD [])
  else listenTrace env c h.traces

/-- The test for an empty world reads through rdi after a strcmp. -/
def pingAllLocal (env : Env) : Nat → List Trace → Act (List Trace)
  | 0, _ => pure []
  | _, [] => pure []
  | n + 1, t :: rest =>
    if t.world = gridWorldName env then pingAllLocal env (n + 1) rest
    else do
      let moved ← ask env.clobbers
      let memory ← ask env.stale
      if (if moved then memory 0 = 0 else t.world = []) then pingAllLocal env (n + 1) rest
      else do
        let more ← pingAllLocal env n rest
        return t :: more

/-- The remote path leaves out the limit: the buffer of the rows goes in as the limit, and
the limit as the address of the rows. -/
def pingAll (env : Env) : Act (List Trace) :=
  if env.remote then do
    let answer ← gridFetchRecentAcross env env.pingAllBuf 8 8
    return answer.getD []
  else do
    let h ← getGrid
    pingAllLocal env 8 h.traces

def cmdPing (env : Env) (c : Block) (arg : Ptr) : Act Unit :=
  if arg.any fun word => sameFold word (str "all") then do
    let traces ← pingAll env
    queue c ((fmtGridPingAll 3072 traces).getD [])
  else do
    let s ← session c
    let h ← getGrid
    let echoes := h.echo.filter fun t => (roomId s.room).any fun id => t.node = str id
    queue c ((fmtGridPingEcho 3072 (roomId s.room) (echoes.take 6)).getD [])

end HollowGrid
