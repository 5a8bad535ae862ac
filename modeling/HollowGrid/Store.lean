import HollowGrid.Emit

/-! asm/store.asm and ffi/auth.c: the character file of a name, and the secrets that
guard it. -/
namespace HollowGrid

/-- character_path: the names of one file are those with one lowered form. -/
def characterPath (name : Bytes) : Option Bytes :=
  if name = [] ∨ 32 < name.length then none else some (lower name)

/-- The strings among the first children, while there are slots. -/
def loadInventory (root : Json) : List Bytes :=
  match root.item (str "inventory") with
  | some value =>
    ((value.children.filterMap Json.stringValue).take invSlots).map fun text => (cstr text).take 15
  | none => []

def loadCharacter (root : Json) (ch : Character) : Character :=
  { ch with
    race := jsonString root (str "race") ch.race 16
    faction := jsonString root (str "faction") ch.faction 16
    position := jsonString root (str "position") ch.position 16
    title := jsonString root (str "title") ch.title 48
    weapon := jsonString root (str "weapon") ch.weapon 16
    room := jsonNumber root (str "roomIndex") ch.room
    hp := jsonNumber root (str "hp") ch.hp
    maxHp := jsonNumber root (str "maxHp") ch.maxHp
    level := jsonNumber root (str "level") ch.level
    xp := jsonNumber root (str "xp") ch.xp
    gold := jsonNumber root (str "gold") ch.gold
    morality := jsonNumber root (str "morality") ch.morality
    addiction := jsonNumber root (str "addiction") ch.addiction
    ashsworn := jsonBool root (str "ashsworn") ch.ashsworn
    strayed := jsonBool root (str "strayed") ch.strayed
    redeemed := jsonBool root (str "redeemed") ch.redeemed
    resisted := jsonBool root (str "resisted") ch.resisted
    inventory := loadInventory root }

def loadHash (root : Json) : Bytes := jsonString root (str "secretHash") [] 72

namespace Server

def loaded (g : Server) (c : Block) (root : Json) : Server :=
  let s := g.blocks c
  g.setBlock c
    { s with toCharacter := loadCharacter root s.toCharacter, secretHash := loadHash root }

def onDisk (g : Server) (key : Bytes) (file : File) : Server :=
  { g with disk := Function.update g.disk key (some file) }

end Server

def loadFile (c : Block) : File → Act Loaded
  | .unreadable => pure .failed
  | .json root => do
    modify fun g => g.loaded c root
    pure .applied

/-- hg_store_load. A file that cannot be opened counts as missing. -/
def storeLoad (env : Env) (c : Block) : Act Loaded := do
  let s ← session c
  match characterPath s.name with
  | none => pure .failed
  | some key => do
    let reading ← ask env.reading
    let g ← get
    match g.disk key, reading with
    | none, _ => pure .nothing
    | some _, .openFails => pure .nothing
    | some _, .readFails => pure .failed
    | some file, .whole => loadFile c file
    | some _, .short seen => loadFile c seen

/-- The JSON of hg_store_save. An empty slot is left out of the array. -/
def characterRecord (s : Session) : Json :=
  .obj
    [(str "name", .str s.name), (str "race", .str s.race), (str "faction", .str s.faction),
      (str "position", .str s.position), (str "title", .str s.title),
      (str "weapon", .str s.weapon), (str "roomIndex", .num (toDouble s.room)),
      (str "hp", .num (toDouble s.hp)), (str "maxHp", .num (toDouble s.maxHp)),
      (str "level", .num (toDouble s.level)), (str "xp", .num (toDouble s.xp)),
      (str "gold", .num (toDouble s.gold)), (str "morality", .num (toDouble s.morality)),
      (str "addiction", .num (toDouble s.addiction)), (str "ashsworn", .bool s.ashsworn),
      (str "strayed", .bool s.strayed), (str "redeemed", .bool s.redeemed),
      (str "resisted", .bool s.resisted), (str "secretHash", .str s.secretHash),
      (str "inventory", .arr (((s.inventory.take invSlots).filter (· ≠ [])).map Json.str))]

/-- hg_store_save. No caller looks at its result. -/
def storeSave (env : Env) (c : Block) : Act Unit := do
  let s ← session c
  match characterPath s.name with
  | none => pure ()
  | some key => do
    let writing ← ask env.writing
    match writing with
    | .whole => modify fun g => g.onDisk key (.json (characterRecord s))
    | .fails => pure ()
    | .torn left => modify fun g => g.onDisk key left

def isspace (b : UInt8) : Bool := b == space || (9 ≤ b && b ≤ 13)

/-- hg_auth_verify_admin_token -/
def verifyAdminToken (env : Env) (token : Bytes) : Bool :=
  let trimmed := trimTail isspace (skipWhile isspace token)
  match env.adminToken with
  | none => false
  | some expected => cstr expected ≠ [] && trimmed = cstr expected

def phraseOk (phrase : Bytes) : Bool := 8 ≤ phrase.length && phrase.length ≤ 128

/-- A crypt_r result that is no failure token. -/
def cryptHash (env : Env) (phrase setting : Bytes) : Option Bytes :=
  match env.crypt phrase setting with
  | some hash => if hash.head? = some 42 then none else some (cstr hash)
  | none => none

/-- hg_auth_hash_passphrase(phrase, out, 72) -/
def hashPassphrase (env : Env) (phrase : Bytes) : Act (Option Bytes) :=
  if phraseOk phrase then do
    let salt ← ask env.salt
    return (salt.bind (cryptHash env phrase)).bind fun hash =>
      if 72 ≤ hash.length then none else some hash
  else pure none

/-- hg_auth_verify_passphrase: the comparison runs over the bytes of the stored hash. -/
def verifyPassphrase (env : Env) (phrase hash : Bytes) : Bool :=
  phraseOk phrase && (str "$2").isPrefixOf hash &&
    match cryptHash env phrase hash with
    | some got => hash.isPrefixOf got
    | none => false

end HollowGrid
