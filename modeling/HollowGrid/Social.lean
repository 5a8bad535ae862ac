import HollowGrid.Store

/-! asm/social.asm: finding players and items, and the commands of one room. -/
namespace HollowGrid

def skipSpaces (b : Bytes) : Bytes := skipWhile (· == space) b

/-- The argument of a handler that takes a null pointer for the empty string. -/
def argument (arg : Ptr) : Bytes := skipSpaces (arg.getD [])

def roomIdBytes (room : Int) : Bytes := str ((roomId room).getD "")

def mayMatch (room : Int) (word : Bytes) (except : Ptr) (s : Session) : Bool :=
  (room < 0 || s.room = room) && s.name ≠ [] &&
    !(except.any fun name => sameFold s.name name) && startsFold word s.name

/-- find_player_prefix: nobody when the prefix fits two. A negative room is any room. -/
def findPlayerPrefix (room : Int) (word : Bytes) (except : Ptr) : Act (Option Block) :=
  if word = [] then pure none
  else do
    let sessions ← listed
    match sessions.filter fun d => mayMatch room word except d.2 with
    | [d] => pure (some d.1)
    | _ => pure none

def findSessionName (name : Bytes) : Act (Option Block) :=
  if name = [] then pure none
  else do
    let sessions ← listed
    return (sessions.find? fun d => sameFold d.2.name name).map Prod.fst

/-- inv_add_internal: nothing when all slots are taken. -/
def invAdd (item : Bytes) (ch : Character) : Character :=
  if item = [] ∨ invSlots ≤ ch.inventory.length then ch
  else { ch with inventory := ch.inventory ++ [item.take 15] }

/-- inv_find_slot. The address of the prefix compare is built from a register that
strcasecmp and strlen need not preserve. -/
def invFindSlot (env : Env) (word : Bytes) : Nat → List Bytes → Act (Option Nat)
  | _, [] => pure none
  | i, item :: rest =>
    if word = [] then pure none
    else if sameFold item word then pure (some i)
    else do
      let elsewhere ← ask env.clobbers
      let chance ← ask env.zeroFlag
      if (if elsewhere then chance else startsFold word item) then pure (some i)
      else invFindSlot env word (i + 1) rest

def invRemove (slot : Nat) (ch : Character) : Character :=
  { ch with inventory := ch.inventory.eraseIdx slot }

def cmdSense (c : Block) : Act Unit := emitRoomActionsNow c

def cmdList (c : Block) : Act Unit := do
  let s ← session c
  if s.room = roomWorkshop then
    queue c (lit "The tinker's wares, laid out on an oily cloth:" ++ crlf ++
      lit "  helm (14 gold)" ++ crlf ++ lit "  plating (18 gold)" ++ crlf ++
      lit "  rebar (20 gold)" ++ crlf)
  else queueLine c (lit "There is nothing listed for sale here.")

def cmdSell (c : Block) (arg : Ptr) : Act Unit := do
  let s ← session c
  if s.room ≠ roomMarket then queueLine c (lit "You can't do that here.")
  else if isFront s then
    queueLine c (lit "The vendor drone's optic flares red. \"" ++
      lit "Cinder Front. We remember Scrap Market. We don't trade with your kind.\"" ++
      lit " It turns its back on you, and the stalls nearby go quiet.")
  else if arg.getD [] = [] then queueLine c (lit "Sell what?")
  else
    queueLine c (snprintf 160 (lit "You aren't carrying \"" ++ raw (arg.getD []) ++ lit "\"."))

def talkWayFront : Text :=
  lit "The free folk look at your Front brand and go quiet. There " ++
  lit "is no welcome here for your kind."

def talkWayAlly : Text :=
  lit "A medic nods: \"The free folk hold. Rest if you need it (treat).\""

def talkWayNeutral : Text :=
  lit "A refugee looks you over: \"Pick a side before you ask us for shelter. " ++
  lit "The free folk or the Front -- the road doesn't care, but we do.\"" ++ crlf

def talkDaisFront : Text :=
  lit "The Ashmonger claps a heavy hand on your shoulder. \"" ++
  lit "You came far for the cause. Kneel and take your place at my right hand -- or find " ++
  lit "your spine and 'defy' me, here and now. Choose what you are.\"" ++ crlf

def talkDaisAlly : Text :=
  lit "The Ashmonger laughs, low and delighted. \"" ++
  lit "The elf-lover walked right into my house. Bold. I am going to wear you as a banner.\" " ++
  lit "There is no talking your way out of this -- only steel." ++ crlf

def talkDaisNeutral : Text :=
  lit "The Ashmonger spits. \"" ++
  lit "Pledge to the Front or get off my dais. I have no patience for fence-sitters.\"" ++ crlf

/-- The jz after a strcmp tests the flag the call left, not its result. -/
def cmdTalk (env : Env) (c : Block) : Act Unit := do
  let s ← session c
  if s.room = roomTavern then
    queue c (lit "The dealer rolls a packet of dust between his fingers: \"" ++
      lit "First taste eases any pain, friend. Just say buy dust.\"" ++ crlf ++
      lit "(You could buy/use dust, carouse, or resist.)" ++ crlf)
  else if s.room = roomFloodgate then
    queue c (lit "A stranded operator looks up from a dead console: \"" ++
      lit "I can't leave until this node is restored, and the Custodian dragged the core " ++
      lit "shard down into the Core Lab. Kill it, bring me the shard, and I'll give you " ++
      lit "everything I have.\"" ++ crlf)
  else if s.room = roomWaystation then do
    let front ← ask env.zeroFlag
    if front then queueLine c talkWayFront
    else do
      let ally ← ask env.zeroFlag
      if ally then queueLine c talkWayAlly else queue c talkWayNeutral
  else if s.room = roomDais then
    if s.ashsworn then queue c talkDaisFront
    else do
      let front ← ask env.zeroFlag
      if front then queue c talkDaisFront
      else do
        let ally ← ask env.zeroFlag
        if ally then queue c talkDaisAlly else queue c talkDaisNeutral
  else queueLine c (lit "There's no one here to talk to.")

/-- .pay of buy_workshop -/
def pay (env : Env) (c : Block) (price : Int) (item pretty : String) : Act Unit := do
  let s ← session c
  if s.gold < price then
    queueLine c (snprintf 160 (lit "You can't afford that -- it is " ++ number price ++
      lit " gold and you have " ++ number s.gold ++ lit "."))
  else do
    update c fun ch => invAdd (str item) { ch with gold := ch.gold - price }
    storeSave env c
    queueLine c
      (snprintf 160 (lit "The tinker hands you " ++ lit pretty ++ lit " and pockets your coin."))
    emitVitalsNow c

def buyWorkshop (env : Env) (c : Block) (arg : Ptr) : Act Unit :=
  let word := argument arg
  if sameFold (str "helm") word then pay env c 14 "helm" "a dented scrap helm"
  else if sameFold (str "plating") word then pay env c 18 "plating" "makeshift plating"
  else if sameFold (str "rebar") word then pay env c 20 "rebar" "a length of rebar"
  else queueLine c (lit "The tinker doesn't sell that.")

/-- strstr takes "dust" as the text to search and the argument as the part to find. -/
def cmdBuy (env : Env) (c : Block) (arg : Ptr) : Act Unit := do
  let s ← session c
  if s.room = roomTavern then
    if arg.any fun word => contains word (str "dust") then
      if s.gold < 10 then
        queueLine c (lit "The dealer sneers. \"10 gold, no credit.\" You're short.")
      else do
        update c fun ch => invAdd (str "dust") { ch with gold := ch.gold - 10 }
        storeSave env c
        queueLine c (snprintf 160
          (lit "The dealer slips you a packet of dust. (-10 gold, gold: " ++
            number (s.gold - 10) ++ lit ")"))
        emitVitalsNow c
    else queueLine c (lit "The dealer only deals one thing: dust. (\"buy dust\")")
  else if s.room = roomWorkshop then buyWorkshop env c arg
  else queueLine c (lit "There is nothing to buy here.")

def cmdEmote (c : Block) (arg : Ptr) : Act Unit := do
  let s ← session c
  if argument arg = [] then queueLine c (lit "Emote what?  (emote <action>)")
  else
    deliverRoom s.room (snprintf 280 (raw s.name ++ lit " " ++ raw (argument arg) ++ crlf)) []

/-- The four bytes of a stack slot as an int. -/
def staleInt (memory : Nat → UInt8) : Int :=
  toInt32 ((memory 0).toNat + 256 * (memory 1).toNat + 65536 * (memory 2).toNat +
    16777216 * (memory 3).toNat)

/-- "%+d" -/
def signed (n : Int) : Text := (if n < 0 then [] else lit "+") ++ number n

/-- The tide slot on the stack is read whether or not hg_grid_tide filled it. -/
def cmdWar (env : Env) (c : Block) : Act Unit := do
  let answer ← gridTide env
  let slot ← ask env.stale
  let tide := answer.getD (staleInt slot)
  queueLine c (snprintf 120
    (lit "Across the whole Grid, the war for the wastes hangs in the balance (tide " ++
      signed tide ++ lit ")."))
  queue c (snprintf 80 (lit r#"@event world.war {"tide":"# ++ number tide ++ lit "\x7d" ++ crlf))

def treatBranded : Text :=
  lit "The waystation medic looks at your brand and turns their " ++
  lit "back. There is no care to be had here for your kind."

def treatDone : Text :=
  lit "The medic waves you onto the cot. With the free folk holding, the " ++
  lit "waystation has supplies to spare -- they clean and bind your wounds " ++
  lit "without a word about payment. You stand whole again." ++ crlf

def treatEvt (amount : Int) : Text :=
  lit r#"@event char.treated {"amount":"# ++ number amount ++
  lit r#","mood":"rising","tide":0}"# ++ crlf

def cmdTreat (env : Env) (c : Block) : Act Unit := do
  let s ← session c
  if s.room ≠ roomWaystation then
    queueLine c (lit "There's no medic here. The free folk keep their triage cot " ++
      lit "at the waystation, off the Scorch Road.")
  else if s.inCombat then queueLine c (lit "Not in the middle of a fight.")
  else do
    let front ← ask env.zeroFlag
    if front ∨ s.ashsworn then queueLine c treatBranded
    else if s.maxHp ≤ s.hp then do
      queue c (lit "The medic looks you over and waves you off. \"" ++
        lit "You're whole. Save the cot for someone who isn't.\"" ++ crlf)
      queue c (treatEvt 0)
    else do
      update c fun ch => { ch with hp := ch.maxHp }
      storeSave env c
      queue c treatDone
      queue c (snprintf 160 (treatEvt (s.maxHp - s.hp)))
      emitVitalsNow c

def cmdMend (c : Block) (arg : Ptr) : Act Unit := do
  let s ← session c
  let found ← findPlayerPrefix s.room (argument arg) (some s.name)
  match found with
  | none => queueLine c (lit "There's no one like that here to mend.")
  | some d => do
    let t ← session d
    if t.maxHp ≤ t.hp then
      queueLine c (snprintf 160 (raw t.name ++ lit " is already whole."))
    else if s.hp ≤ 5 then queueLine c (lit "You don't have enough life left to spare.")
    else do
      update c fun ch => { ch with hp := ch.hp - 5 }
      update d fun ch => { ch with hp := min (ch.hp + 10) ch.maxHp }
      queueLine c
        (snprintf 160 (lit "You spend a little of yourself to mend " ++ raw t.name ++ lit "."))
      queue d (snprintf 160 (raw s.name ++ lit " tends your wounds." ++ crlf))
      emitVitalsNow c

def isBlank (b : UInt8) : Bool := b == space || b == tab

/-- The words of a line, read while there is fuel. -/
def words : Nat → Bytes → List Bytes
  | 0, _ => []
  | fuel + 1, text =>
    match skipWhile isBlank text with
    | [] => []
    | start => start.takeWhile (fun b => !isBlank b) ::
        words fuel (skipWhile (fun b => !isBlank b) start)

def joinItem : Bytes → List Bytes → Bytes
  | buf, [] => buf
  | buf, word :: rest =>
    if 62 ≤ buf.length then buf else joinItem ((buf ++ [space] ++ word).take 63) rest

def itemPhrase : List Bytes → Bytes
  | [] => []
  | word :: rest => joinItem (word.take 63) rest

/-- Up to 16 tokens: the last names the player, a "to" before it is dropped, the
others name the item. The first token starts at once, blank or not. -/
def giveTokens (line : Bytes) : Option (Bytes × Bytes) :=
  let text := line.take 199
  let first := text.takeWhile fun b => !isBlank b
  let tokens := first :: words 16 (text.drop first.length)
  if tokens.length < 2 ∨ 16 < tokens.length then none
  else
    let target := (tokens.getLastD []).take 39
    let front := tokens.dropLast
    let items := if sameFold (front.getLastD []) (str "to") then front.dropLast else front
    if items = [] then none else some (itemPhrase items, target)

def cmdGive (env : Env) (c : Block) (arg : Ptr) : Act Unit := do
  let s ← session c
  match giveTokens (argument arg) with
  | none => queueLine c (lit "Give what to whom?  (give <item> <player>)")
  | some (phrase, target) => do
    let slot ← invFindSlot env phrase 0 s.inventory
    match slot with
    | none =>
      queueLine c (snprintf 160 (lit "You aren't carrying \"" ++ raw phrase ++ lit "\"."))
    | some i => do
      let found ← findPlayerPrefix s.room target (some s.name)
      match found with
      | none =>
        queueLine c (snprintf 160
          (lit "There's no one called \"" ++ raw target ++ lit "\" here to give it to."))
      | some d => do
        let t ← session d
        let item := s.inventory.getD i []
        update c (invRemove i)
        update d (invAdd item)
        storeSave env c
        storeSave env d
        queueLine c (snprintf 160
          (lit "You give " ++ raw item ++ lit " to " ++ raw t.name ++ lit "."))
        queue d (snprintf 160 (raw s.name ++ lit " gives you " ++ raw item ++ lit "." ++ crlf))

def tellEvt (kind : String) (name text : Text) : Text :=
  lit "@event " ++ lit kind ++ lit r#" {"from":""# ++ name ++ lit r#"","text":""# ++ text ++
  lit r#""}"# ++ crlf

def tellParts (line : Bytes) : Bytes × Bytes :=
  let target := (line.takeWhile (· ≠ space)).take 39
  (target, skipSpaces (line.drop target.length))

/-- A whole name first, then a prefix of one name only. -/
def findTold (target : Bytes) : Act (Option Block) := do
  let named ← findSessionName target
  match named with
  | some d => pure (some d)
  | none => do
    let sessions ← listed
    match sessions.filter fun d => startsFold target d.2.name with
    | [d] => pure (some d.1)
    | _ => pure none

/-- tell_impl. REPLY_TO is set before the texts are known to fit. -/
def tellImpl (c : Block) (line : Bytes) : Act Unit := do
  let s ← session c
  let (target, msg) := tellParts (skipSpaces line)
  if target = [] ∨ msg = [] then
    queueLine c (lit "Tell whom what?  (tell <player> <message>)")
  else do
    let found ← findTold target
    match found with
    | none => queueLine c (lit "No one by that name is connected.")
    | some d => do
      let t ← session d
      update d fun ch => { ch with replyTo := s.name }
      match jsonEscape 80 s.name, jsonEscape 80 msg with
      | some name, some text => do
        queue d (snprintf 280 (raw s.name ++ lit " tells you, \"" ++ raw msg ++ lit "\"" ++ crlf) ++
          snprintf 320 (tellEvt "comm.tell" name text))
        queueLine c
          (snprintf 120 (lit "You tell " ++ raw t.name ++ lit ", \"" ++ raw msg ++ lit "\""))
      | _, _ => pure ()

def cmdTell (c : Block) (arg : Ptr) : Act Unit := tellImpl c (arg.getD [])

def cmdReply (c : Block) (arg : Ptr) : Act Unit := do
  let s ← session c
  if s.replyTo = [] then queueLine c (lit "No one has told you anything lately.")
  else tellImpl c ((s.replyTo ++ [space] ++ argument arg).take 279)

/-- Which of the two lines a listener gets hangs on a flag strcasecmp leaves. -/
def yellTo (env : Env) (self msg : Bytes) (evt : Text) (d : Block × Session) : Act Unit :=
  if d.2.name = [] then pure ()
  else do
    let you ← ask env.zeroFlag
    let line :=
      if you then lit "You yell, \"" ++ raw msg ++ lit "\"" ++ crlf
      else raw self ++ lit " yells, \"" ++ raw msg ++ lit "\"" ++ crlf
    queue d.1 (snprintf 280 line ++ evt)

def cmdYell (env : Env) (c : Block) (arg : Ptr) : Act Unit := do
  let s ← session c
  let msg := argument arg
  if msg = [] then queueLine c (lit "Yell what?  (yell <message>)")
  else
    match jsonEscape 80 s.name, jsonEscape 200 msg with
    | some name, some text => do
      let sessions ← listed
      sessions.forM (yellTo env s.name msg (snprintf 320 (tellEvt "comm.yell" name text)))
    | _, _ => pure ()

/-- The gate of wall, gridstats and gridprune. -/
def keeper (env : Env) (s : Session) : Bool := isAdmin env s.name && s.keeperAuthed

def cmdWall (env : Env) (c : Block) (arg : Ptr) : Act Unit := do
  let s ← session c
  let msg := argument arg
  if keeper env s = false then
    queueLine c (lit "Only a keeper of the Grid can broadcast across the wastes.")
  else if msg = [] then queueLine c (lit "Announce what?  (wall <message>)")
  else
    match jsonEscape 80 s.name, jsonEscape 240 msg with
    | some name, some text =>
      deliverAll (snprintf 320 (lit "*** GRID BROADCAST ***  " ++ raw msg ++ crlf) ++
        snprintf 400 (tellEvt "server.announce" name text)) []
    | _, _ => pure ()

end HollowGrid
