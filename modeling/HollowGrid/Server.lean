import HollowGrid.Json
import HollowGrid.Lib.Keeps
import HollowGrid.Lib.Text
import Mathlib.Logic.Function.Basic

/-! The state of one server process, and what it asks of the world outside it.
Definitions follow include/state.inc; SESSION_OUT is the outbox, the receive
buffer of the socket shim is not part of the block. -/
namespace HollowGrid

/-- The address of a session block. lws allocates one for each connection. -/
abbrev Block := Nat

/-- A socket pointer. 0 is NULL. -/
abbrev Wsi := Nat

/-- A string argument of a handler. none is the null pointer of a bare command. -/
abbrev Ptr := Option Bytes

inductive Login
  | name
  | race
  | play
  | token
  | passphrase
  deriving DecidableEq, Repr

/-- The fields of a session block that play reads and writes. -/
structure Character where
  race : Bytes := []
  room : Int := 0
  hp : Int := 0
  maxHp : Int := 0
  level : Int := 0
  xp : Int := 0
  gold : Int := 0
  morality : Int := 0
  addiction : Int := 0
  ashsworn : Bool := false
  strayed : Bool := false
  redeemed : Bool := false
  resisted : Bool := false
  poisoned : Bool := false
  faction : Bytes := []
  position : Bytes := []
  title : Bytes := []
  weapon : Bytes := []
  head : Bytes := []
  body : Bytes := []
  hands : Bytes := []
  feet : Bytes := []
  inventory : List Bytes := []
  traitReady : Int := 0
  treatReady : Int := 0
  replyTo : Bytes := []
  mktResolved : Int := 0
  lastGridcastId : Int := 0
  lastFreed : Bytes := []
  deriving DecidableEq, Repr

structure Fight where
  target : Int := 0
  inCombat : Bool := false
  lastTick : Int := 0
  deriving DecidableEq, Repr

structure Session extends Character, Fight where
  state : Login := .name
  name : Bytes := []
  wsi : Wsi := 0
  outbox : Text := []
  close : Bool := false
  secretHash : Bytes := []
  keeperAuthed : Bool := false
  /-- PASS_MODE: true for a resumed character. -/
  resume : Bool := false
  deriving DecidableEq, Repr

/-- A 64-bit word as an unsigned compare reads it. -/
def u64 (n : Int) : Int := n % 18446744073709551616

/-- A 64-bit word as a signed compare reads it. -/
def s64 (n : Int) : Int := n.bmod 18446744073709551616

theorem s64_small {n : Int} (low : -2 ^ 63 ≤ n) (high : n < 2 ^ 63) : s64 n = n :=
  Int.bmod_eq_of_le (by omega) (by omega)

def outCap : Nat := 16384
def invSlots : Nat := 16
def maxSessions : Nat := 32

/-- The bytes of a character file. Text that cJSON_Parse refuses, or of a size the
loader refuses, is unreadable. -/
inductive File
  | unreadable
  | json (root : Json)

/-- What fopen, fread and the calls between them do to one load. -/
inductive Reading
  | whole
  | openFails
  | readFails
  | short (seen : File)

/-- What the system calls between open and rename do to one save. After a short
write the loop goes on from whatever the call left in rsi, and the renamed file
holds what that wrote. -/
inductive Writing
  | whole
  | fails
  | torn (left : File)

/-- Everything a run depends on beside the events. Answers are indexed by the number
of questions asked before, so that no two calls need agree. -/
structure Env where
  worldName : Bytes
  worldUrl : Bytes
  remote : Bool
  admins : Option Bytes
  adminToken : Option Bytes
  now : Nat → Int
  rand : Nat → Nat
  /-- The "result" member of the hub's answer. none is a failed call. -/
  rpc : Nat → Bytes → List Json → Option Json
  reading : Nat → Reading
  writing : Nat → Writing
  /-- crypt_r(phrase, setting) -/
  crypt : Bytes → Bytes → Option Bytes
  salt : Nat → Option Bytes
  /-- What lws_write returns for a buffer of the given length. -/
  lwsWrite : Nat → Nat → Int
  /-- ZF as a called C function leaves it. -/
  zeroFlag : Nat → Bool
  /-- Whether a called C function changed the caller-saved register read after it. -/
  clobbers : Nat → Bool
  /-- The memory behind an address that a called C function left in a register, or
  past the end of a formatted text. -/
  stale : Nat → Nat → UInt8
  /-- The stack address of the buffers a call works in. -/
  scratch : Nat → Nat
  /-- The low word of the address of policy_ping_all. -/
  pingAllBuf : Int

structure World where
  tick : Int := 0
  lastHeartbeat : Int := 0
  ratHp : Int := 12
  ratAlive : Bool := true
  ratDiedAt : Int := 0
  lastFederationTick : Int := 0
  deriving DecidableEq, Repr

/-- A row of gl_traces and of gl_echo, whose world is empty. -/
structure Trace where
  world : Bytes
  node : Bytes
  kind : Bytes
  text : Bytes
  at_ms : Int
  deriving DecidableEq, Repr

/-- A row of gl_fallen and of gl_rescued: third is the room or the rescuer. -/
structure Fallen where
  world : Bytes
  name : Bytes
  third : Bytes
  at_ms : Int
  deriving DecidableEq, Repr

structure Cast where
  id : Nat
  world : Bytes
  sender : Bytes
  text : Bytes
  deriving DecidableEq, Repr

structure LocalHub where
  tide : Int := 0
  traces : List Trace := []
  echo : List Trace := []
  rescued : List Fallen := []
  fallen : List Fallen := []
  casts : List Cast := []
  nextCast : Nat := 0
  deriving DecidableEq, Repr

/-- The tables of social_ledger.asm. A deed row counts the thirteen kinds in order. -/
structure Ledger where
  forgiven : List (Bytes × Bytes) := []
  kept : List (Bytes × Bytes) := []
  deeds : List (Bytes × List Int) := []
  cacheGold : Nat → Int := fun _ => 0
  cellsReadyAt : Int := 0
  transitReadyAt : Int := 0

inductive Fault
  /-- A read through a null argument pointer. -/
  | nullRead
  /-- A read or a store outside the object it is meant for. -/
  | outOfBounds
  deriving DecidableEq, Repr

/-- The process: every session block by its address, the open connections of lws,
those it has been told to drop, and the tables of the assembly modules. -/
structure Server where
  blocks : Block → Session := fun _ => {}
  connections : List (Block × Wsi) := []
  dropped : Block → Bool := fun _ => false
  sessionTable : List (Option Block) := List.replicate maxSessions none
  sessionWsiTable : List Wsi := List.replicate maxSessions 0
  sessionCount : Int := 0
  world : World := {}
  ledger : Ledger := {}
  grid : LocalHub := {}
  disk : Bytes → Option File
  /-- Questions asked of the environment so far. -/
  asked : Nat := 0

abbrev Act := StateT Server (Except Fault)

namespace Server

/-- The socket of an open connection. -/
def socket (g : Server) (c : Block) : Option Wsi := g.connections.lookup c

def setBlock (g : Server) (c : Block) (s : Session) : Server :=
  { g with blocks := Function.update g.blocks c s }

/-- A write to the fields of a session block that play owns. -/
def updated (g : Server) (c : Block) (f : Character → Character) : Server :=
  g.setBlock c { g.blocks c with toCharacter := f (g.blocks c).toCharacter }

def fought (g : Server) (c : Block) (fight : Fight) : Server :=
  g.setBlock c { g.blocks c with toFight := fight }

def closing (g : Server) (c : Block) : Server := g.setBlock c { g.blocks c with close := true }

@[simp]
theorem setBlock_own (g : Server) (c : Block) (s : Session) : (g.setBlock c s).blocks c = s :=
  Function.update_self ..

theorem setBlock_other (g : Server) {c d : Block} (s : Session) (other : d ≠ c) :
    (g.setBlock c s).blocks d = g.blocks d :=
  Function.update_of_ne other ..

end Server

/-- The session block at an address. -/
def session (c : Block) : Act Session := do
  let g ← get
  return g.blocks c

def update (c : Block) (f : Character → Character) : Act Unit := modify fun g => g.updated c f

def setFight (c : Block) (fight : Fight) : Act Unit := modify fun g => g.fought c fight

def setClose (c : Block) : Act Unit := modify fun g => g.closing c

def getWorld : Act World := do
  let g ← get
  return g.world

def onWorld (f : World → World) : Act Unit :=
  modify fun g => { g with world := f g.world }

def getLedger : Act Ledger := do
  let g ← get
  return g.ledger

def onLedger (f : Ledger → Ledger) : Act Unit :=
  modify fun g => { g with ledger := f g.ledger }

def getGrid : Act LocalHub := do
  let g ← get
  return g.grid

def onGrid (f : LocalHub → LocalHub) : Act Unit :=
  modify fun g => { g with grid := f g.grid }

def ask {α : Type} (answers : Nat → α) : Act α := do
  let g ← get
  set { g with asked := g.asked + 1 }
  return answers g.asked

/-- A statement under a condition, with nothing to do otherwise. -/
def when (p : Prop) [Decidable p] (m : Act Unit) : Act Unit := if p then m else pure ()

end HollowGrid
