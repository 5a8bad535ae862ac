import HollowGrid.Deeds

/-! asm/social_grid.asm: captives, the network's voice, forgiveness, vigils and the
oaths of the dais. -/
namespace HollowGrid

def basaltRelay : Bytes := str "Basalt Relay"
def hourMs : Int := 3600000

def rescuedTwo (name : Bytes) (first second : String) : Text :=
  lit r#"@event grid.rescued {"savedBy":""# ++ escaped 80 name ++ lit r#"","freed":[""# ++
  lit first ++ lit r#"",""# ++ lit second ++ lit r#""]}"# ++ crlf

def rescuedOne (name : Bytes) (freed : String) : Text :=
  lit r#"@event grid.rescued {"savedBy":""# ++ escaped 80 name ++ lit r#"","freed":[""# ++
  escaped 80 (str freed) ++ lit r#""]}"# ++ crlf

def rememberFreed (name : String) (ch : Character) : Character :=
  { ch with lastFreed := if ch.lastFreed = [] then str name else ch.lastFreed }

/-- .pit of hg_cmd_free -/
def freePit (env : Env) (c : Block) : Act Unit := do
  let s ← session c
  let slot ← invFindSlot env (str "antidote") 0 s.inventory
  if slot.isSome then
    queueLine c (lit "The maiden smiles weakly. \"You already carry my vial. Use it well.\"")
  else do
    update c fun ch => rememberFreed "Mira"
      { invAdd (str "antidote") ch with morality := ch.morality + 12 }
    onLedger fun l => addDeed l s.name .freed
    let now ← nowMs env
    gridRecordRescued env basaltRelay (str "Mira") s.name now
    queueLine c (snprintf 320
      (lit "You strike the chains free. The captive presses a vial into your hands:" ++ crlf ++
        lit "  \"Antivenom, for the poison that haunts these wastes. My name is Mira. " ++
        lit "I won't forget yours.\""))
    queue c (snprintf 80 (rescuedOne s.name "Mira"))
    gridShiftTide env 0
    emitAffectsNow c
    storeSave env c

/-- What .cells of hg_cmd_free and hg_cmd_shelter share once the hour is up. -/
def freeTwo (env : Env) (c : Block) (now : Int) (deed : Deed) (first second : String)
    (prose : Text) : Act Unit := do
  let s ← session c
  update c (rememberFreed first)
  onLedger fun l => addDeed l s.name deed
  gridRecordRescued env basaltRelay (str first) s.name now
  gridRecordRescued env basaltRelay (str second) s.name now
  update c fun ch => { ch with morality := ch.morality + 15 }
  queue c prose
  queue c (snprintf 160 (rescuedTwo s.name first second))
  emitAffectsNow c
  storeSave env c

def freeCells (env : Env) (c : Block) : Act Unit := do
  let now ← nowMs env
  let l ← getLedger
  if now < l.cellsReadyAt then
    queueLine c (lit "The cages stand open and empty; someone already cut them loose. The Front " ++
      lit "will round up more soon enough -- it always does -- but not yet.")
  else do
    onLedger fun l => { l with cellsReadyAt := now + hourMs }
    freeTwo env c now .freed "Rook" "Sable"
      (lit "You wrench the cages open. Rook and Sable stumble out into the dark, some pausing " ++
        lit "only to grip your hand on the way past. Whatever else you are, whatever else " ++
        lit "you've done -- you did this." ++ crlf)

def cmdFree (env : Env) (c : Block) : Act Unit := do
  let s ← session c
  if s.room = roomHoldingPit then freePit env c
  else if s.room = roomCells then freeCells env c
  else queueLine c (lit "There is no one here to free.")

def cmdShelter (env : Env) (c : Block) : Act Unit := do
  let s ← session c
  if s.room ≠ roomTransitHub then
    queueLine c (lit "There's no one here to shelter. The distress call comes from the old " ++
      lit "transit hub, south off the Scorch Road.")
  else do
    let now ← nowMs env
    let l ← getLedger
    if now < l.transitReadyAt then
      queueLine c (lit "The platform is empty now. Whoever called, you got them moving -- toward " ++
        lit "the free camp, you have to believe. The Front will strand others here soon " ++
        lit "enough; it always does, and the call will go out again.")
    else do
      onLedger fun l => { l with transitReadyAt := now + hourMs }
      freeTwo env c now .sheltered "Tess" "Jon"
        (lit "You answer the call. You get Tess and Jon up and moving -- bottles filled at the " ++
          lit "tap, the youngest carried -- and stand watch on the cracked platform while they " ++
          lit "slip out the far side, toward the free camp and whatever the free folk can " ++
          lit "spare. The hand-radio goes quiet at last. Someone came." ++ crlf)

/-- The argument goes to skip_spaces as it is, null or not. -/
def cmdGridcast (env : Env) (c : Block) (arg : Ptr) : Act Unit := do
  let s ← session c
  match arg with
  | none => throw .nullRead
  | some line =>
    if skipSpaces line = [] then
      queueLine c (lit "Gridcast what? (gridcast <message> -- the dead network carries it to " ++
        lit "every world)")
    else do
      let carried ← gridGridcast env s.name (skipSpaces line)
      if carried then emitCommGridcastNow env c (skipSpaces line)
      else queueLine c (lit "The Grid swallows your words; the network is unreachable.")

def cmdSaved (env : Env) (c : Block) : Act Unit := emitSavedRollNow env c

def statsDeny : Text := lit "Only a keeper of the Grid can read its deep memory."
def pruneDeny : Text := lit "Only a keeper of the Grid can tend its deep memory."

def cmdGridstats (env : Env) (c : Block) : Act Unit := do
  let s ← session c
  if keeper env s then emitGridstatsCmdNow env c else queueLine c statsDeny

def cmdGridprune (env : Env) (c : Block) : Act Unit := do
  let s ← session c
  if keeper env s then emitGridpruneCmdNow env c else queueLine c pruneDeny

def firstWord (arg : Ptr) : Bytes := ((argument arg).takeWhile (· ≠ space)).take 38

def marked (t : Session) : Bool := t.ashsworn || t.strayed || isFront t || t.morality ≤ -50

/-- .ash_path, .plain_path and the redemption between them. -/
def forgivenPath (env : Env) (d : Block) (self : Bytes) (t : Session) : Act Unit :=
  if t.ashsworn then emitForgivenTargetNow d self true false
  else if t.strayed = false ∨ t.redeemed ∨ isFront t then emitForgivenTargetNow d self false false
  else do
    update d returnTo
    storeSave env d
    emitForgivenRedeemedNow d self

/-- .marked of hg_cmd_forgive -/
def forgive (env : Env) (c d : Block) : Act Unit := do
  let s ← session c
  let t ← session d
  onLedger fun l => addDeed (forgivenMark l s.name t.name) s.name .forgave
  update d fun ch => { ch with morality := ch.morality + 5 }
  update c fun ch => { ch with morality := ch.morality + 2 }
  gridRecordLocalEcho env (nodeOr s.room "market") (str "grace")
    ((s.name ++ str " forgave " ++ t.name ++ str " here.").take 159)
  forgivenPath env d s.name t
  deliverRoom s.room
    (snprintf 160 (raw s.name ++ lit " forgives " ++ raw t.name ++ lit "." ++ crlf)) s.name
  queueLine c (snprintf 160 (lit "You choose to forgive " ++ raw t.name ++
    lit ". Out here that is not nothing; it may be everything."))
  emitAffectsNow c

def cmdForgive (env : Env) (c : Block) (arg : Ptr) : Act Unit := do
  let s ← session c
  let word := firstWord arg
  if word = [] then
    queueLine c (lit "Forgive whom?  (forgive <player> -- choose to let someone marked back in)")
  else if sameFold word s.name then
    queueLine c (lit "You cannot forgive yourself here; that is a longer road, and a lonelier one.")
  else do
    let found ← findPlayerPrefix s.room word none
    match found with
    | none =>
      queueLine c
        (snprintf 120 (lit "There's no one called \"" ++ raw word ++ lit "\" here to forgive."))
    | some d => do
      let t ← session d
      let l ← getLedger
      if forgivenHas l s.name t.name then
        queueLine c (snprintf 160 (lit "You have already forgiven " ++ raw t.name ++
          lit ". It was true the first time; it does not need saying twice."))
      else if marked t then forgive env c d
      else
        queueLine c (snprintf 160 (raw t.name ++ lit " carries nothing that needs your " ++
          lit "forgiveness. Keep the words for someone who does."))

def remembranceEvt (row : Fallen) : Text :=
  lit r#"@event grid.remembrance {"fallen":""# ++ escaped 40 row.name ++ lit r#"","world":""# ++
  escaped 48 row.world ++ lit r#"","room":""# ++ escaped 40 row.third ++ lit r#""}"# ++ crlf

def keepName (env : Env) (c : Block) (row : Fallen) : Act Unit := do
  let s ← session c
  onLedger fun l => addDeed (keptMark l s.name row.name) s.name .kept
  update c fun ch => { ch with morality := ch.morality + 2 }
  storeSave env c
  gridRecordLocalEcho env (nodeOr s.room "waystation") (str "vigil")
    ((s.name ++ str " kept the memory of " ++ row.name ++
      str ", whom the wastes tried to forget.").take 159)
  queueLine c (snprintf 160 (lit "You speak " ++ raw row.name ++
    lit " into the hum and hold it there a moment. The Grid keeps the name; so do you."))
  queue c (snprintf 280 (remembranceEvt row))
  emitAffectsNow c

def cmdWitness (env : Env) (c : Block) (arg : Ptr) : Act Unit := do
  let s ← session c
  let word := firstWord arg
  let answer ← gridRecentFallen env 12 12
  if word = [] then emitFallenRollNow env c
  else if sameFold word s.name then
    queueLine c (lit "You cannot hold a vigil for yourself. Someone else will have to remember you.")
  else
    match (answer.getD []).find? fun row => sameFold row.name word with
    | none =>
      queueLine c (snprintf 160 (lit "The Grid holds no recent memory of anyone called \"" ++
        raw word ++ lit "\".  (try 'witness' to read the roll)"))
    | some row => do
      let l ← getLedger
      if keptHas l s.name row.name then
        queueLine c (snprintf 160 (lit "You have already kept " ++ raw row.name ++
          lit "'s memory. It does not fade, and does not need keeping twice."))
      else keepName env c row

def swear (ch : Character) (s : Session) : Character :=
  if hunted s then
    { ch with faction := str "front", ashsworn := true, morality := ch.morality - 40 }
  else { ch with faction := str "front", morality := ch.morality - 25 }

def daisAsh : Text :=
  lit "You kneel before the Ashmonger -- an elf, at the feet of the man who cages elves." ++ crlf ++
  lit "He laughs, delighted, and burns the ash-and-flame into your shoulder with his own hand." ++
  crlf ++
  lit "\"The best dogs are the ones who hate themselves. You'll do the work my men won't.\"" ++
  crlf ++ lit "You are ash-sworn now. There is no one left to belong to." ++ crlf

def kneel (c : Block) (s : Session) : Act Unit :=
  if hunted s then queue c daisAsh
  else
    queueLine c (lit "You kneel and swear yourself to the Front. The Ashmonger's hand closes " ++
      lit "on your shoulder like a trap. \"Good. The wastes will be ours.\"")

/-- hg_dais_pledge. The jnz after strcmp tests the flag the call left. -/
def daisPledge (env : Env) (c : Block) : Act Unit := do
  let s ← session c
  if s.room ≠ roomDais then queueLine c (lit "There is no one here to swear to.")
  else do
    let unsworn ← ask env.zeroFlag
    if unsworn = false then
      queueLine c (lit "The Ashmonger only laughs. There's nothing here to decide that your " ++
        lit "blood hasn't already settled.")
    else do
      update c fun ch => swear ch s
      kneel c s
      onLedger fun l => addDeed l s.name .pledged
      gridShiftTide env (-10)
      gridRecordLocalEcho env (str "dais") (str "oath")
        ((s.name ++ str " swore themselves to the Cinder Front at the Ashmonger's dais.").take 159)
      storeSave env c
      deliverRoom roomDais (snprintf 160 (raw s.name ++
        lit " swore themselves to the Cinder Front at the Ashmonger's dais." ++ crlf)) s.name
      moralArc env c
      emitAffectsNow c
      emitVitalsNow c
      emitRoomActionsNow c

def defyAsh : Text :=
  lit "You spit at the Ashmonger's boots. \"I'm done being your dog.\" The stronghold turns on " ++
  lit "you at once." ++ crlf ++
  lit "You stand with the free folk now -- but the brand on your shoulder stays. For once you " ++
  lit "wear it turning the right way." ++ crlf ++
  lit "Whether the people you helped cage can ever look at you again is not a thing the wastes " ++
  lit "will settle tonight, or maybe ever. You turned. It has to be enough to start." ++ crlf

def defyPlain : Text :=
  lit "You spit at the Ashmonger's boots. \"I'm done being your dog.\" Every soldier in the " ++
  lit "stronghold turns on you at once -- but you stand with the free folk now, and the wastes " ++
  lit "will remember THIS above all." ++ crlf

/-- The way back is asked for once here and again in the moral arc. -/
def defyArc (env : Env) (c : Block) (s : Session) : Act Unit :=
  if s.strayed ∧ s.redeemed = false ∧ s.ashsworn = false ∧ redeemCeil ≤ s.morality + 30 then
    resolveReturn env c
  else moralArc env c

def cmdDefy (env : Env) (c : Block) : Act Unit := do
  let s ← session c
  if s.room ≠ roomDais then queueLine c (lit "There's no oath here to break.")
  else do
    let sworn ← ask env.zeroFlag
    if sworn = false then queueLine c (lit "There's no oath here to break.")
    else do
      update c fun ch => { ch with faction := str "ally", morality := ch.morality + 30 }
      queue c (if s.ashsworn then defyAsh else defyPlain)
      onLedger fun l => addDeed l s.name .defected
      gridShiftTide env 10
      gridRecordLocalEcho env (str "dais") (str "oath")
        ((s.name ++ str " turned on the Cinder Front at the Ashmonger's own dais.").take 159)
      storeSave env c
      deliverRoom roomDais (snprintf 160
        (raw s.name ++ lit " has turned against the Cinder Front!" ++ crlf)) s.name
      defyArc env c s
      emitAffectsNow c
      emitVitalsNow c
      emitRoomActionsNow c

end HollowGrid
