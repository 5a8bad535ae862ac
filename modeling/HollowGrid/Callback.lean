import HollowGrid.World
import HollowGrid.Lib.Machine

/-! asm/session.asm and ffi/lws_shim.c: the callback of one connection, the timer, and
the runs of the whole server. -/
namespace HollowGrid

/-- valid_name -/
def nameByte (b : UInt8) : Bool :=
  (48 ≤ b && b ≤ 57) || (65 ≤ b && b ≤ 90) || (97 ≤ b && b ≤ 122) || b == 45 || b == 95

def validName (name : Bytes) : Bool :=
  2 ≤ name.length && name.length ≤ 32 && name.all nameByte

def isTrail (b : UInt8) : Bool :=
  b == space || b == tab || b == lineFeed || b == carriageReturn

/-- The first 255 bytes, trimmed at both ends. Interior bytes stay as they are. -/
def trimmed (input : Bytes) : Bytes := skipWhile isBlank (trimTail isTrail (input.take 255))

def raceTable : List String :=
  ["human", "elf", "revenant", "ghoul", "chromed", "dustkin", "vatborn"]

/-- A digit from 1 to 7, or a name in any case. -/
def raceChosen (line : Bytes) : Option String :=
  match line with
  | [b] =>
    if 49 ≤ b ∧ b ≤ 55 then raceTable[(b - 49).toNat]?
    else raceTable.find? fun race => sameFold (cstr line) (str race)
  | _ => raceTable.find? fun race => sameFold (cstr line) (str race)

def setState (c : Block) (state : Login) : Act Unit :=
  modify fun g => g.setBlock c { g.blocks c with state := state }

def setName (c : Block) (name : Bytes) : Act Unit :=
  modify fun g => g.setBlock c { g.blocks c with name := name }

def setHash (c : Block) (hash : Bytes) : Act Unit :=
  modify fun g => g.setBlock c { g.blocks c with secretHash := hash }

def setResume (c : Block) (resume : Bool) : Act Unit :=
  modify fun g => g.setBlock c { g.blocks c with resume := resume }

def setAuthed (c : Block) : Act Unit :=
  modify fun g => g.setBlock c { g.blocks c with keeperAuthed := true }

def register (c : Block) : Act Unit :=
  modify fun g => g.registered c ((g.socket c).getD 0)

/-- What .connected leaves in a block. -/
def newSession (wsi : Wsi) : Session :=
  { wsi := wsi, room := roomNexus, hp := 30, maxHp := 30, level := 1, gold := 20,
    faction := str "none", position := str "standing", inventory := [str "shiv"] }

def banner : Text :=
  [⟨27, .server⟩] ++ lit "[38;5;240mB A S A L T   R E L A Y" ++ [⟨27, .server⟩] ++ lit "[0m" ++
  crlf ++ lit "A custody node on the dead network." ++ crlf ++
  lit "By what name are you known, wanderer?" ++ crlf

def raceMenu : Text :=
  lit "Choose what the Relay carried here:" ++ crlf ++ lit "  1) Human" ++ crlf ++
  lit "  2) Elf" ++ crlf ++ lit "  3) Revenant" ++ crlf ++ lit "  4) Ghoul" ++ crlf ++
  lit "  5) Chromed" ++ crlf ++ lit "  6) Dustkin" ++ crlf ++ lit "  7) Vatborn" ++ crlf ++
  lit r#"@event char.create {"races":["Human","Elf","Revenant","Ghoul","Chromed","Dustkin","# ++
  lit r#""Vatborn"],"prompt":"race"}"# ++ crlf

def beginPassphrase (c : Block) : Act Unit := do
  setState c .passphrase
  let s ← session c
  if s.secretHash = [] then
    queue c (lit "Choose a secret phrase only you will know. The Grid will ask for it when " ++
      lit "you return." ++ crlf)
  else queue c (lit "By what secret phrase do you prove yourself?" ++ crlf)

def resumeToPassphrase (c : Block) : Act Unit := do
  setResume c true
  beginPassphrase c

def resumeLocal (env : Env) (c : Block) : Act Unit := do
  let hub ← gridLoadSession env c
  when (hub = .nothing) (ignore (gridCommitSession env c))
  resumeToPassphrase c

/-- No file: the hub may still know the name. -/
def notOnDisk (env : Env) (c : Block) : Act Unit := do
  let hub ← gridLoadSession env c
  if hub = .applied then do
    storeSave env c
    resumeToPassphrase c
  else do
    setState c .race
    queue c raceMenu

def afterAdminCheck (env : Env) (c : Block) : Act Unit := do
  let stored ← storeLoad env c
  match stored with
  | .applied => resumeLocal env c
  | .failed => queue c (lit "The custody ledger could not be read. Try again." ++ crlf)
  | .nothing => notOnDisk env c

/-- .name -/
def receiveName (env : Env) (c : Block) (line : Bytes) : Act Unit :=
  if validName line then do
    setName c line
    if isAdmin env line then do
      setState c .token
      queue c (lit "The Grid remembers keepers. Speak the keeper's token:" ++ crlf)
    else afterAdminCheck env c
  else
    queue c (lit "Names are 2 to 32 letters, numbers, hyphens, or underscores." ++ crlf)

/-- .token -/
def receiveToken (env : Env) (c : Block) (msg : Bytes) : Act Unit :=
  if verifyAdminToken env msg then do
    setAuthed c
    afterAdminCheck env c
  else do
    queue c (lit "The Grid does not recognize you as keeper." ++ crlf)
    setClose c

def enterPlay (c : Block) (greeting : Text) : Act Unit := do
  queue c greeting
  emitSceneNow c
  register c

def passphraseOk (env : Env) (c : Block) : Act Unit := do
  let s ← session c
  if s.resume then do
    setState c .play
    storeSave env c
    enterPlay c (lit "The custody ledger returns your prior record." ++ crlf)
  else do
    storeSave env c
    ignore (gridCommitSession env c)
    setState c .play
    enterPlay c (lit "Your name enters the custody ledger. Type help if the route is unclear." ++
      crlf)

def passphraseTooShort (c : Block) : Act Unit := do
  queue c (lit "That phrase will not do. Choose one at least eight characters long." ++ crlf)
  setClose c

def passphraseSetNew (env : Env) (c : Block) (msg : Bytes) : Act Unit := do
  let hashed ← hashPassphrase env msg
  match hashed with
  | none => passphraseTooShort c
  | some hash => do
    setHash c hash
    passphraseOk env c

/-- .passphrase -/
def receivePassphrase (env : Env) (c : Block) (msg : Bytes) : Act Unit := do
  let s ← session c
  if s.secretHash = [] then passphraseSetNew env c msg
  else if verifyPassphrase env msg s.secretHash then passphraseOk env c
  else do
    queue c (lit "The Grid does not recognize that phrase for this name." ++ crlf)
    setClose c

/-- .race -/
def receiveRace (c : Block) (line : Bytes) : Act Unit :=
  match raceChosen line with
  | some race => do
    update c fun ch => { ch with race := str race }
    setResume c false
    beginPassphrase c
  | none => do
    queue c (lit "Choose a race by number from 1 to 7." ++ crlf)
    queue c raceMenu

/-- .dispatch. The flag SESSION_CLOSE is not looked at. -/
def dispatch (env : Env) (c : Block) (line : Bytes) : Act Unit := do
  let s ← session c
  match s.state with
  | .name => receiveName env c line
  | .token => receiveToken env c (cstr line)
  | .passphrase => receivePassphrase env c (cstr line)
  | .race => receiveRace c line
  | .play => worldCommand env c (cstr line)

/-- HG_EVT_RECEIVE -/
def receive (env : Env) (c : Block) (input : Bytes) : Act Unit := do
  modify fun g => g.setWsi c ((g.socket c).getD 0)
  dispatch env c (trimmed input)

/-- HG_EVT_CONNECTED -/
def connected (c : Block) (wsi : Wsi) : Act Unit := do
  modify fun g =>
    { g.setBlock c (newSession wsi) with connections := (c, wsi) :: g.connections }
  queue c banner

def setOutbox (c : Block) (outbox : Text) : Act Unit :=
  modify fun g => g.setBlock c { g.blocks c with outbox := outbox }

/-- hg_ws_write: 0 when lws took the whole buffer, -1 on an error, 1 on a short write. -/
def wsWrite (env : Env) (len : Nat) : Act Int := do
  let n ← ask fun i => env.lwsWrite i len
  return if n < 0 then -1 else if n < len then 1 else 0

def drop (c : Block) : Act Unit :=
  modify fun g => { g with dropped := Function.update g.dropped c true }

def maybeClose (c : Block) : Act Unit := do
  let s ← session c
  when s.close (drop c)

/-- HG_EVT_WRITABLE -/
def writable (env : Env) (c : Block) : Act Unit := do
  let s ← session c
  if s.outbox = [] then maybeClose c
  else do
    let wrote ← wsWrite env s.outbox.length
    when (wrote = 0) (setOutbox c [])
    maybeClose c

/-- lws frees the block once the callback has seen the close. -/
def release (c : Block) : Act Unit :=
  modify fun g =>
    { g with
      connections := g.connections.filter fun open_one => open_one.1 ≠ c
      dropped := Function.update g.dropped c false }

def leavePlay (env : Env) (c : Block) : Act Unit := do
  ignore (gridCommitSession env c)
  storeSave env c
  modify fun g => g.unregistered c

/-- HG_EVT_CLOSED -/
def closed (env : Env) (c : Block) : Act Unit := do
  let s ← session c
  when (s.state = .play) (leavePlay env c)
  setOutbox c []
  release c

def tickService (env : Env) : Act Unit := do
  let now ← nowMs env
  heartbeat env now
  gridFederationTick env now

inductive Event
  | connect (c : Block) (wsi : Wsi)
  | message (c : Block) (text : Bytes)
  | writable (c : Block)
  | close (c : Block)
  | tick
  deriving DecidableEq, Repr

/-- What lws can raise: a block is opened once, with a socket no open block has, and a
dropped connection is only closed. -/
def Event.valid (g : Server) : Event → Bool
  | .connect c wsi => g.socket c = none && wsi ≠ 0 && g.connections.all fun other => other.2 ≠ wsi
  | .message c text => g.socket c ≠ none && !g.dropped c && text ≠ []
  | .writable c => g.socket c ≠ none && !g.dropped c
  | .close c => g.socket c ≠ none
  | .tick => true

/-- LWS_CALLBACK_RECEIVE at the end of a text message: one over 255 bytes is answered
and not delivered. -/
def message (env : Env) (c : Block) (text : Bytes) : Act Unit :=
  if 255 < text.length then
    queue c (lit "Input too long (255 bytes max). Command ignored." ++ crlf)
  else receive env c text

def handle (env : Env) : Event → Act Unit
  | .connect c wsi => connected c wsi
  | .message c text => message env c text
  | .writable c => writable env c
  | .close c => closed env c
  | .tick => tickService env

/-- One event of the server. What lws cannot raise changes nothing. -/
def step (env : Env) (g : Server) (e : Event) : Except Fault Server :=
  if e.valid g then (handle env e g).map Prod.snd else .ok g

/-- hg_world_boot and hg_grid_boot over the characters on disk. -/
def boot (env : Env) (disk : Bytes → Option File) : Server :=
  { disk := disk, grid := gridBoot env, asked := if env.remote then 0 else seeds.length }

/-- Text of the form of a bcrypt hash: the setting, then 31 bytes made of the phrase. -/
def bcryptLike (phrase setting : Bytes) : Bytes :=
  setting.take 29 ++ (phrase ++ List.replicate 31 46).take 31

def oneSalt : Bytes := str "$2b$10$R9h/cIPz0gi.URNNX3kh2O"

/-- A node of its own on which every call goes well. -/
def quietNode : Env where
  worldName := str "Basalt Relay"
  worldUrl := str "wss://basalt.example/ws"
  remote := false
  admins := some (str "keeper")
  adminToken := some (str "token")
  now := fun _ => 0
  rand := fun _ => 0
  rpc := fun _ _ _ => none
  reading := fun _ => .whole
  writing := fun _ => .whole
  crypt := fun phrase setting => some (bcryptLike phrase setting)
  salt := fun _ => some oneSalt
  lwsWrite := fun _ len => len
  zeroFlag := fun _ => false
  clobbers := fun _ => false
  stale := fun _ _ => 0
  scratch := fun _ => 0
  pingAllBuf := 4096

/-- A disk on which every name has a file with one hash. -/
def sharedDisk : Bytes → Option File := fun _ =>
  some (.json (.obj [(str "secretHash", .str (bcryptLike (str "password") oneSalt))]))

/-- A connection that returns to a character of the shared disk. -/
def returns (c : Block) (name : Bytes) : List Event :=
  [.connect c (c + 1), .message c name, .message c (str "password")]

end HollowGrid
