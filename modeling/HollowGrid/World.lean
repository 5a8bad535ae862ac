import HollowGrid.Combat

/-! asm/world.asm: the dispatch of one message of a player. -/
namespace HollowGrid

inductive Arm
  | wield | remove | attack | consider | exits | sleep | stand | rest | talk | buy | wall | tell
  | reply | yell | emote | mend | give | gridcast | list | war | shelter | saved | cache | gather
  | treat | sell | steal | sense | forgive | join | defend | defy | witness | reckoning
  | gridstats | gridprune | ping | world | listen | whoami | worlds | travel | title | who | free
  | recall | affects | inscribe | down | up | help | inventory | equipment | ability | quit
  deriving DecidableEq, Repr

/-- A word of the dispatch. With no offset the whole message must be the word and the
argument is null; with one the message starts with the word and the argument starts
at the offset. -/
structure Command where
  word : String
  offset : Option Nat
  arm : Arm
  deriving DecidableEq, Repr

def bare (arm : Arm) (word : String) : Command := ⟨word, none, arm⟩

def withArg (arm : Arm) (word : String) (offset : Nat) : Command := ⟨word, some offset, arm⟩

/-- In the order of the source. The argument of "unwield " starts at its space. -/
def commands : List Command :=
  [bare .wield "wield", withArg .wield "wield " 6,
    bare .remove "remove", withArg .remove "remove " 7,
    bare .remove "unwield", withArg .remove "unwield " 7,
    bare .attack "attack", withArg .attack "attack " 7,
    bare .attack "kill", withArg .attack "kill " 5,
    bare .attack "k", withArg .attack "k " 2,
    bare .consider "consider", withArg .consider "consider " 9,
    bare .consider "con", withArg .consider "con " 4,
    bare .exits "exits", bare .exits "exit", bare .sleep "sleep",
    bare .stand "stand", bare .stand "wake", bare .rest "rest",
    bare .talk "talk", bare .talk "ask",
    bare .buy "buy", withArg .buy "buy " 4,
    bare .wall "wall", withArg .wall "wall " 5,
    bare .tell "tell", withArg .tell "tell " 5,
    bare .reply "reply", withArg .reply "reply " 6,
    bare .yell "yell", withArg .yell "yell " 5,
    bare .emote "emote", withArg .emote "emote " 6,
    bare .mend "mend", withArg .mend "mend " 5,
    bare .give "give", withArg .give "give " 5,
    bare .gridcast "gridcast", withArg .gridcast "gridcast " 9,
    bare .gridcast "gc", withArg .gridcast "gc " 3,
    bare .list "list", bare .war "war", bare .shelter "shelter", bare .saved "saved",
    bare .cache "cache", withArg .cache "cache " 6,
    bare .gather "gather", bare .treat "treat",
    bare .sell "sell", withArg .sell "sell " 5,
    bare .steal "steal", bare .sense "sense", bare .sense "actions",
    bare .forgive "forgive", withArg .forgive "forgive " 8,
    bare .forgive "absolve", withArg .forgive "absolve " 8,
    bare .forgive "pardon", withArg .forgive "pardon " 7,
    bare .join "join", bare .defend "defend", bare .defend "oppose",
    bare .defy "defy", bare .defy "defect",
    bare .witness "witness", withArg .witness "witness " 8,
    bare .witness "remember", withArg .witness "remember " 9,
    bare .witness "mourn", withArg .witness "mourn " 6,
    bare .reckoning "reckoning", bare .reckoning "conscience", bare .reckoning "record",
    bare .gridstats "gridstats", bare .gridprune "gridprune",
    bare .ping "ping", withArg .ping "ping " 5,
    bare .world "world", bare .world "weather", bare .world "time",
    bare .listen "listen", bare .listen "tune",
    bare .whoami "whoami", bare .whoami "identity", bare .worlds "worlds",
    bare .travel "travel", withArg .travel "travel " 7, bare .travel "gate",
    bare .title "title", withArg .title "title " 6, bare .who "who",
    bare .free "free", bare .free "rescue", bare .free "release", bare .free "unlock",
    bare .free "liberate", bare .free "unchain", bare .free "unshackle", bare .free "untie",
    bare .recall "recall", bare .recall "home", bare .affects "affects",
    bare .inscribe "inscribe", withArg .inscribe "inscribe " 9,
    bare .down "down", bare .down "d", bare .up "up", bare .up "u",
    bare .help "help", bare .help "?",
    bare .inventory "inventory", bare .inventory "inv", bare .inventory "i",
    bare .equipment "equipment", bare .equipment "eq",
    bare .ability "ability", bare .ability "trait", bare .quit "quit"]

def Command.fits (command : Command) (msg : Bytes) : Bool :=
  match command.offset with
  | none => sameFold msg (str command.word)
  | some _ => startsFold (str command.word) msg

def parse (msg : Bytes) : Option (Arm × Ptr) :=
  (commands.find? fun command => command.fits msg).map fun command =>
    (command.arm, command.offset.map fun n => msg.drop n)

def cantMove (c : Block) : Act Unit := queue c (lit "The declared ways do not lead there." ++ crlf)

def moveTo (c : Block) (room : Int) : Act Unit := do
  update c fun ch => { ch with room := room }
  emitSceneNow c

/-- .down and .up -/
def stairs (c : Block) (here there : Int) : Act Unit := do
  let s ← session c
  if s.room = here then moveTo c there else cantMove c

def cmdRecall (c : Block) : Act Unit := do
  update c fun ch => { ch with room := roomNexus, position := str "standing" }
  emitSceneNow c

def cmdHelp (c : Block) : Act Unit :=
  queue c (lit "Commands: look, exits, north/south/east/west/up/down, go <dir>, inventory, " ++
    lit "equipment, wield, remove, attack, consider, rest, stand, sleep, join, defend, " ++
    lit "ping [all], listen, whoami, worlds, travel <world>, gate, world, ability, help, quit" ++
    crlf)

def cmdQuit (c : Block) : Act Unit := do
  setClose c
  queue c (lit "The Relay records the handoff. Connection closed." ++ crlf)

def exec (env : Env) (c : Block) (arg : Ptr) : Arm → Act Unit
  | .wield => cmdWield c arg
  | .remove => cmdRemove c arg
  | .attack => cmdAttack env c arg
  | .consider => cmdConsider c arg
  | .exits => cmdExits c
  | .sleep => cmdSleep c
  | .stand => cmdStand c
  | .rest => cmdRest c
  | .talk => cmdTalk env c
  | .buy => cmdBuy env c arg
  | .wall => cmdWall env c arg
  | .tell => cmdTell c arg
  | .reply => cmdReply c arg
  | .yell => cmdYell env c arg
  | .emote => cmdEmote c arg
  | .mend => cmdMend c arg
  | .give => cmdGive env c arg
  | .gridcast => cmdGridcast env c arg
  | .list => cmdList c
  | .war => cmdWar env c
  | .shelter => cmdShelter env c
  | .saved => cmdSaved env c
  | .cache => cmdCache env c arg
  | .gather => cmdGather env c
  | .treat => cmdTreat env c
  | .sell => cmdSell c arg
  | .steal => cmdSteal env c
  | .sense => cmdSense c
  | .forgive => cmdForgive env c arg
  | .join => cmdJoin env c
  | .defend => cmdDefend env c
  | .defy => cmdDefy env c
  | .witness => cmdWitness env c arg
  | .reckoning => cmdReckoning c
  | .gridstats => cmdGridstats env c
  | .gridprune => cmdGridprune env c
  | .ping => cmdPing env c arg
  | .world => cmdWorld c
  | .listen => cmdListen env c
  | .whoami => cmdWhoami env c
  | .worlds => cmdWorlds env c
  | .travel => cmdTravel env c arg
  | .title => cmdTitle env c arg
  | .who => cmdWho env c
  | .free => cmdFree env c
  | .recall => cmdRecall c
  | .affects => cmdAffects c
  | .inscribe => cmdInscribe env c arg
  | .down => stairs c roomNexus roomTunnels
  | .up => stairs c roomTunnels roomNexus
  | .help => cmdHelp c
  | .inventory => emitInventory c
  | .equipment => emitEquipment c
  | .ability => emitAbility env c
  | .quit => cmdQuit c

def unknownCommand (c : Block) : Act Unit :=
  queue c (lit "The Relay has no instruction by that name. Type help." ++ crlf)

def lookAt (c : Block) (arg : Ptr) : Act Unit := do
  let shown ← cmdLookPlayer c arg
  if shown then pure () else cmdLookMob c arg

def heading (msg : Bytes) : Bytes := if startsFold (str "go ") msg then msg.drop 3 else msg

def notMovement (env : Env) (c : Block) (msg : Bytes) : Act Unit :=
  match parse msg with
  | some (arm, arg) => exec env c arg arm
  | none => unknownCommand c

def worldCommand (env : Env) (c : Block) (msg : Bytes) : Act Unit :=
  if sameFold msg (str "look") ∨ sameFold msg (str "l") then emitSceneNow c
  else if startsFold (str "look ") msg then lookAt c (some (msg.drop 5))
  else do
    let s ← session c
    match roomMove s.room (heading msg) with
    | .there room => moveTo c room
    | .noExit => cantMove c
    | .unknown => notMovement env c msg

end HollowGrid
