import HollowGrid.Social

/-! asm/social_ledger.asm: the moral arc, caches and thefts, looking at a player and
the reckoning. -/
namespace HollowGrid

def strayFloor : Int := -20
def redeemCeil : Int := 5

def nodeOr (room : Int) (fallback : String) : Bytes := str ((roomId room).getD fallback)

def returnTo (ch : Character) : Character :=
  { ch with
    redeemed := true
    title := if ch.title = [] then str "the Returned" else ch.title }

def resolveReturn (env : Env) (c : Block) : Act Unit := do
  update c returnTo
  storeSave env c
  let s ← session c
  queue c (snprintf 96 (gridRedemption s.name s.title))
  gridRecordLocalEcho env (nodeOr s.room "dais") (str "redemption")
    ((s.name ++ str " found their way back from the cinders.").take 159)

def moralArc (env : Env) (c : Block) : Act Unit := do
  let s ← session c
  if s.name = [] then pure ()
  else if s.strayed = false then
    when (s.morality ≤ strayFloor) do
      update c fun ch => { ch with strayed := true }
      storeSave env c
      queueLine c (lit "Something in you has gone cold and quiet. You have strayed a long way " ++
        lit "toward the cinders. (the Grid marks it, and so do you)")
  else if s.redeemed ∨ s.morality < redeemCeil ∨ isFront s then pure ()
  else if s.ashsworn then do
    update c fun ch => { ch with redeemed := true }
    storeSave env c
    queueLine c (lit "You have clawed back to something good, and it is real. But the ash does " ++
      lit "not wash off; it never will. That is the cost. Carry it, and keep doing good anyway.")
  else do
    resolveReturn env c
    queueLine c (lit "The hollow you carried has filled with something else. The free folk have " ++
      lit "started to meet your eyes again. You found your way back. (you are the Returned)")

def joinRecordOath (env : Env) (c : Block) : Act Unit := do
  let s ← session c
  let oath :=
    if s.ashsworn then str " swore to the Cinder Front as ash-sworn."
    else str " swore to the Cinder Front."
  gridRecordLocalEcho env (nodeOr s.room "market") (str "oath") ((s.name ++ oath).take 159)
  emitRoomActionsNow c

def cmdSteal (env : Env) (c : Block) : Act Unit := do
  let s ← session c
  if s.room ≠ roomMarket then queueLine c (lit "You can't do that here.")
  else do
    update c fun ch => { ch with morality := ch.morality - 8, gold := ch.gold + 12 }
    onLedger fun l => addDeed l s.name .stolen
    storeSave env c
    deliverRoom s.room
      (snprintf 120 (raw s.name ++ lit " is caught with a hand in the till!" ++ crlf)) s.name
    queueLine c (lit "You snag a fistful of coin while the vendor drone's back is turned. " ++
      lit "Your hands shake anyway.")
    emitVitalsNow c
    emitAffectsNow c
    moralArc env c

def lookLine (t : Session) : Text :=
  let brand := brandStanding t
  if brand = [] then raw t.name ++ lit " stands before you, looking steady."
  else if t.title = [] then
    raw t.name ++ lit " (" ++ raw brand ++ lit ") stands before you, looking steady."
  else
    raw t.name ++ lit ", " ++ raw t.title ++ lit " (" ++ raw brand ++
      lit ") stands before you, looking steady."

def lookEvt (t : Session) : Text :=
  lit r#"@event player.read {"name":""# ++ escaped 80 t.name ++ lit r#"","title":""# ++
  escaped 80 t.title ++ lit r#"","faction":""# ++ escaped 40 t.faction ++
  lit r#"","ashsworn":"# ++ boolText t.ashsworn ++ lit r#","regard":""# ++
  escaped 40 (regardOf t) ++ lit r#""}"# ++ crlf

/-- False where the source returns 0, with nothing said. -/
def cmdLookPlayer (c : Block) (arg : Ptr) : Act Bool := do
  let s ← session c
  let found ← findPlayerPrefix s.room (argument arg) (some s.name)
  match found with
  | none => pure false
  | some d => do
    let t ← session d
    queueLine c (snprintf 240 (lookLine t))
    queue c (snprintf 168 (lookEvt t))
    pure true

def cmdWho (env : Env) (c : Block) : Act Unit := emitGridWhoNow env c

def deedKv (i : Nat) (kind : Deed) (n : Int) : Text :=
  comma i ++ lit "\"" ++ lit kind.name ++ lit "\":" ++ number n

/-- The object of deed counts. The write position never passes 620. -/
def deedsJson : Text → Nat → List (Deed × Int) → Text
  | buf, _, [] => buf ++ lit "\x7d"
  | buf, i, (kind, n) :: rest => deedsJson ((buf ++ deedKv i kind n).take 620) (i + 1) rest

def standingLine (s : Session) : Text :=
  lit "  standing: " ++
  lit (if isFront s then "Cinder Front" else if isAlly s then "Free Folk ally" else "unaligned") ++
  lit "   (morality " ++ number s.morality ++ lit ")" ++
  (if s.ashsworn then lit "   ASH-SWORN" else [])

def reckoningEvt (s : Session) (deeds : Text) : Text :=
  lit r#"@event char.reckoning {"morality":"# ++ number s.morality ++ lit r#","standing":""# ++
  escaped 48 (if s.faction = [] then str "none" else s.faction) ++ lit r#"","ashsworn":"# ++
  boolText s.ashsworn ++ lit r#","strayed":"# ++ boolText s.strayed ++ lit r#","redeemed":"# ++
  boolText s.redeemed ++ lit r#","deeds":"# ++ deeds ++ lit "\x7d" ++ crlf

def reckoningArc (s : Session) : Option Text :=
  if s.redeemed then
    if s.ashsworn then
      some (lit "  ash-marked, and good anyway -- the brand stays; you keep choosing well " ++
        lit "regardless.")
    else
      some (lit "  the Returned -- you strayed toward the cinders and found your way back.")
  else if s.strayed then
    some (lit "  strayed -- you have gone a long way toward the cinders. (the way back is not " ++
      lit "closed)")
  else none

def cmdReckoning (c : Block) : Act Unit := do
  let s ← session c
  let l ← getLedger
  queueLine c (lit "The Grid has kept count. This is the sum of you so far:")
  queueLine c (snprintf 160 (standingLine s))
  (reckoningArc s).toList.forM (queueLine c)
  let counts := Deed.all.map fun kind => (kind, toInt32 (deedCount l s.name kind))
  let done := counts.filter fun row => 0 < row.2
  done.forM fun row => queueLine c (snprintf 128 (lit row.1.label ++ number row.2))
  when (done = []) (queueLine c
    (lit "  Nothing yet weighs on either side. The wastes are still waiting to see who you are."))
  queue c (snprintf 800 (reckoningEvt s (deedsJson (lit "\x7b") 0 counts)))

def digitsValue (b : Bytes) : Int :=
  (b.takeWhile isDigit).foldl (fun n d => 10 * n + (d.toNat - 48 : Nat)) 0

def atoll (b : Bytes) : Int :=
  match skipWhile isspace b with
  | 45 :: rest => max int64Min (-digitsValue rest)
  | 43 :: rest => min int64Max (digitsValue rest)
  | rest => min int64Max (digitsValue rest)

/-- Outside the 64 cells nothing is said at all. -/
def cmdCache (env : Env) (c : Block) (arg : Ptr) : Act Unit := do
  let s ← session c
  let gold := atoll (argument arg)
  if gold ≤ 0 then
    queueLine c (lit "Cache how much?  (cache <gold> -- leave it here for whoever comes next)")
  else if s.gold < gold then
    queueLine c (snprintf 120 (lit "You don't have " ++ number gold ++
      lit " gold to give. (you have " ++ number s.gold ++ lit ")"))
  else
    match cacheCell s.room with
    | none => pure ()
    | some cell => do
      update c fun ch => { ch with gold := ch.gold - gold, morality := ch.morality + 2 }
      onLedger fun l => cacheAdd l cell gold
      storeSave env c
      gridRecordLocalEcho env (nodeOr s.room "nexus") (str "aid")
        ((s.name ++ str " left aid here for whoever comes next.").take 159)
      queueLine c (snprintf 120 (lit "You tuck " ++ number gold ++
        lit " gold into a hollow where the next traveler will find it. They'll never know " ++
        lit "your name. You do it anyway."))
      emitVitalsNow c
      emitAffectsNow c

def gather (env : Env) (c : Block) (cell : Nat) (gold : Int) : Act Unit := do
  onLedger fun l => cacheTake l cell
  update c fun ch => { ch with gold := ch.gold + gold }
  storeSave env c
  let s ← session c
  queueLine c (snprintf 200 (lit "You find " ++ number gold ++
    lit " gold someone cached here. Wherever they are, they meant it for a stranger; " ++
    lit "tonight that's you. (gold: " ++ number s.gold ++ lit ")"))
  emitVitalsNow c

def cmdGather (env : Env) (c : Block) : Act Unit := do
  let s ← session c
  let l ← getLedger
  let gold := cachePeek l s.room
  match cacheCell s.room with
  | some cell =>
    if 0 < gold then gather env c cell gold
    else
      queueLine c (lit "There's nothing cached here. If you have something to spare, you could " ++
        lit "change that. (cache <gold>)")
  | none =>
    queueLine c (lit "There's nothing cached here. If you have something to spare, you could " ++
      lit "change that. (cache <gold>)")

end HollowGrid
