import HollowGrid.Policy

/-! asm/combat.asm: the session table, the glow-rat, the heartbeat, and the commands
of the module. -/
namespace HollowGrid

def combatMs : Int := 2000
def heartbeatMs : Int := 2000
def respawnMs : Int := 20000

namespace Server

/-- The slot a scan for the first empty or own entry stops at. -/
def slotFor (g : Server) (c : Block) : Option Nat :=
  g.sessionTable.findIdx? fun entry => entry = none || entry = some c

def setWsi (g : Server) (c : Block) (wsi : Wsi) : Server :=
  g.setBlock c { g.blocks c with wsi := wsi }

/-- hg_session_register. With no slot left nothing is told to the caller. -/
def registered (g : Server) (c : Block) (wsi : Wsi) : Server :=
  let told := g.setWsi c wsi
  match g.slotFor c with
  | none => told
  | some i =>
    { told with
      sessionTable := g.sessionTable.set i (some c)
      sessionWsiTable := g.sessionWsiTable.set i wsi
      sessionCount :=
        if g.sessionTable[i]? = some none then g.sessionCount + 1 else g.sessionCount }

/-- hg_session_unregister -/
def unregistered (g : Server) (c : Block) : Server :=
  let told := g.setWsi c 0
  match g.sessionTable.idxOf? (some c) with
  | none => told
  | some i =>
    { told with
      sessionTable := g.sessionTable.set i none
      sessionWsiTable := g.sessionWsiTable.set i 0
      sessionCount := g.sessionCount - 1 }

/-- The socket a pulse or a tick works with: the session's own, else the one in its
table slot. -/
def socketOf (g : Server) (c : Block) : Option Wsi :=
  if (g.blocks c).wsi ≠ 0 then some (g.blocks c).wsi
  else
    match g.sessionTable.idxOf? (some c) with
    | none => none
    | some i =>
      match g.sessionWsiTable[i]? with
      | some 0 => none
      | other => other

end Server

def playerDamage (s : Session) : Int := if s.weapon = str "shiv" then 8 else 5

def calm (c : Block) : Act Unit := do
  let s ← session c
  setFight c { s.toFight with target := 0, inCombat := false }

def playerDied (env : Env) (c : Block) : Act Unit := do
  let s ← session c
  gridOnDeath env (roomIdBytes s.room) s.name
  update c fun ch => { ch with hp := ch.maxHp, room := roomNexus, poisoned := false }
  calm c
  queue c (lit "The dark takes you -- and the Grid, stubborn, reknits you at the Cracked Nexus." ++
    crlf ++ crlf)
  queue c (fmtCharDied "nexus" s.maxHp s.maxHp)
  queue c (fmtCombatEnd "rat" "died")
  emitVitals c
  emitSceneNow c

/-- .killed of hg_combat_round -/
def ratKilled (env : Env) (c : Block) : Act Unit := do
  let s ← session c
  onWorld fun w => { w with ratAlive := false }
  let died ← nowMs env
  onWorld fun w => { w with ratDiedAt := died }
  calm c
  update c fun ch => { ch with xp := ch.xp + 8 }
  queue c (snprintf 500 (fmtCombatEnd "rat" "killed"))
  queue c (lit "You have slain a glow-rat!  (+8 xp)" ++ crlf)
  gridOnKill env (roomIdBytes s.room) s.name (str "a glow-rat")
  emitVitals c
  storeSave env c

/-- .fight of hg_combat_round -/
def exchange (env : Env) (c : Block) : Act Unit := do
  let s ← session c
  let w ← getWorld
  let dealt := playerDamage s
  let left := max 0 (w.ratHp - dealt)
  let taken := if 0 < left then 4 else 0
  onWorld fun w => { w with ratHp := left }
  update c fun ch => { ch with hp := ch.hp - taken }
  queue c (snprintf 500 (fmtCombatRound "rat" left 12 dealt taken (s.hp - taken)))
  if left ≤ 0 then ratKilled env c
  else if s.hp - taken ≤ 0 then playerDied env c
  else emitVitals c

def combatRound (env : Env) (c : Block) : Act Unit := do
  let s ← session c
  let w ← getWorld
  if s.target = 0 then pure ()
  else if w.ratAlive then exchange env c
  else do
    calm c
    queue c (snprintf 500 (fmtCombatEnd "rat" "gone"))
    emitVitals c

def armAt (c : Block) (at_ms : Int) : Act Unit := do
  let s ← session c
  setFight c { s.toFight with lastTick := at_ms }

/-- hg_session_pulse of a session in combat whose socket is known. -/
def pulseWith (env : Env) (c : Block) (wsi : Wsi) (now : Int) : Act Unit := do
  modify fun g => g.setWsi c wsi
  let s ← session c
  if s.lastTick = 0 then armAt c (now + combatMs)
  else if u64 now < u64 s.lastTick then pure ()
  else do
    armAt c (now + combatMs)
    combatRound env c

def sessionPulse (env : Env) (c : Block) (now : Int) : Act Unit := do
  let g ← get
  if (g.blocks c).inCombat = false then pure ()
  else
    match g.socketOf c with
    | none => pure ()
    | some wsi => pulseWith env c wsi now

/-- .rest_check of tick_session -/
def regen (c : Block) : Act Unit := do
  let s ← session c
  if s.position = str "resting" ∧ s.hp < s.maxHp then do
    update c fun ch => { ch with hp := min (ch.hp + 2) ch.maxHp }
    emitVitals c
  else pure ()

def tickSession (c : Block) : Act Unit := do
  let g ← get
  match g.socketOf c with
  | none => pure ()
  | some wsi => do
    modify fun g => g.setWsi c wsi
    if (g.blocks c).inCombat then pure ()
    else do
      emitWorldState c
      regen c

def inTable : Act (List Block) := do
  let g ← get
  return g.sessionTable.filterMap id

def worldGate (now : Int) : Act Unit := do
  let w ← getWorld
  if u64 now < u64 (w.lastHeartbeat + heartbeatMs) then pure ()
  else do
    onWorld fun w => { w with lastHeartbeat := now, tick := w.tick + 1 }
    let blocks ← inTable
    blocks.forM tickSession

def respawn (now : Int) : Act Unit :=
  onWorld fun w =>
    if w.ratAlive = false ∧ w.ratDiedAt ≠ 0 ∧ u64 (w.ratDiedAt + respawnMs) ≤ u64 now then
      { w with ratHp := 12, ratAlive := true, ratDiedAt := 0 }
    else w

/-- hg_heartbeat. A pulse or a tick never touches the table it walks. -/
def heartbeat (env : Env) (now : Int) : Act Unit := do
  let blocks ← inTable
  blocks.forM fun c => sessionPulse env c now
  worldGate now
  respawn now

def readyShiv : Text := lit "You ready shiv." ++ crlf ++ crlf
def nothingToWear : Text := lit "You have nothing like that to wear." ++ crlf ++ crlf

/-- A bare command, or the shiv by name. -/
def namesShiv (arg : Ptr) : Bool := arg.all fun word => sameFold word (str "shiv")

def cmdWield (c : Block) (arg : Ptr) : Act Unit :=
  if namesShiv arg then do
    update c fun ch => { ch with weapon := str "shiv" }
    queue c readyShiv
    emitEquipment c
  else queue c nothingToWear

def cmdRemove (c : Block) (arg : Ptr) : Act Unit := do
  let s ← session c
  if namesShiv arg = false then queue c nothingToWear
  else if s.weapon = [] then queue c (lit "You are not wearing that." ++ crlf ++ crlf)
  else do
    update c fun ch => { ch with weapon := [] }
    queue c (lit "You stow shiv." ++ crlf ++ crlf)
    emitEquipment c

def namesRat (word : Bytes) : Bool :=
  sameFold word (str "rat") || sameFold word (str "a glow-rat") || sameFold word (str "glow-rat")

def ratHere (s : Session) (w : World) : Bool := s.room = roomTunnels && w.ratAlive

def startFight (env : Env) (c : Block) : Act Unit := do
  let s ← session c
  setFight c { s.toFight with inCombat := true, target := 1 }
  update c fun ch => { ch with position := str "standing" }
  queue c (snprintf 500 ((fmtCombatStart "rat" "a glow-rat").getD []))
  queue c (lit "You throw yourself at a glow-rat." ++ crlf)
  emitVitals c
  let now ← nowMs env
  armAt c (now + combatMs)

def cmdAttack (env : Env) (c : Block) (arg : Ptr) : Act Unit := do
  let s ← session c
  let w ← getWorld
  if s.inCombat then queue c (lit "You're already locked in this fight." ++ crlf ++ crlf)
  else if ratHere s w && arg.any namesRat then startFight env c
  else
    queue c (snprintf 500 (fmtAttackMiss arg (if ratHere s w then some "a glow-rat" else none)))

def dontSee : Text := lit "You don't see that here." ++ crlf ++ crlf

/-- With the rat there the argument goes to strcasecmp, null or not. -/
def cmdConsider (c : Block) (arg : Ptr) : Act Unit := do
  let s ← session c
  let w ← getWorld
  if ratHere s w = false then queue c dontSee
  else
    match arg with
    | none => throw .nullRead
    | some word =>
      if sameFold word (str "rat") then
        queue c (lit "You could put a glow-rat down without breaking a sweat." ++ crlf ++ crlf)
      else queue c dontSee

def cmdLookMob (c : Block) (arg : Ptr) : Act Unit := do
  let s ← session c
  let w ← getWorld
  if ratHere s w && arg.any namesRat then
    queue c (lit "A bloated rodent, fur matted and faintly luminous with absorbed rads." ++ crlf)
  else queue c dontSee

def cmdExits (c : Block) : Act Unit := do
  let s ← session c
  queue c (snprintf 240 (lit "Exits: " ++ lit ((roomExits s.room).getD "(null)") ++ crlf))

def fightBlock : Text := lit "Not while you're fighting for your life." ++ crlf ++ crlf

def cmdRest (c : Block) : Act Unit := do
  let s ← session c
  if s.inCombat then queue c fightBlock
  else do
    update c fun ch => { ch with position := str "resting" }
    onWorld fun w => { w with lastHeartbeat := 0 }
    queue c (lit "You settle against the cold metal and let your breath slow." ++ crlf ++ crlf)
    emitVitals c

def cmdStand (c : Block) : Act Unit := do
  update c fun ch => { ch with position := str "standing" }
  queue c (lit "You get to your feet." ++ crlf ++ crlf)
  emitVitals c

def cmdSleep (c : Block) : Act Unit := do
  let s ← session c
  if s.inCombat then queue c fightBlock
  else do
    update c fun ch => { ch with position := str "resting" }
    queue c (lit "You close your eyes, and the dead network leans close and shows you something." ++
      crlf ++ crlf)
    emitDreamNow c
    emitVitals c

def joinAsh : Text :=
  lit "You take the Front's coin. The recruiter sees what you are -- one of the hunted -- and " ++
  lit "grins, because there is no one they prize more than a traitor to his own. They burn the " ++
  lit "mark into you: ash-sworn. A kapo. One of your people's hunters now. It does not wash " ++
  lit "off, in this life or in the Grid's long memory." ++ crlf ++ crlf

def joinPlain : Text :=
  lit "You take the Front's coin. It is warm, which is worse. You are Cinder Front now, and the " ++
  lit "wastes will remember which side you chose when choosing was easy." ++ crlf ++ crlf

def takeCoin (s : Session) (ch : Character) : Character :=
  if hunted s then
    { ch with mktResolved := 1, faction := str "front", ashsworn := true,
              morality := ch.morality - 40 }
  else { ch with mktResolved := 1, faction := str "front", morality := ch.morality - 15 }

def cmdJoin (env : Env) (c : Block) : Act Unit := do
  let s ← session c
  if s.room = roomDais then daisPledge env c
  else if s.room ≠ roomMarket ∨ s.mktResolved ≠ 0 then
    queue c (lit "There is no one here to swear to." ++ crlf ++ crlf)
  else do
    update c (takeCoin s)
    queue c (if hunted s then joinAsh else joinPlain)
    emitAffects c
    emitVitals c
    joinRecordOath env c
    gridShiftTide env (-10)
    moralArc env c
    storeSave env c

def cmdDefend (env : Env) (c : Block) : Act Unit := do
  let s ← session c
  if s.room ≠ roomMarket ∨ s.mktResolved ≠ 0 then
    queue c (lit "There is no stand to take here." ++ crlf ++ crlf)
  else do
    update c fun ch => invAdd (str "charm")
      { ch with mktResolved := 2, faction := str "ally", morality := ch.morality + 25 }
    queue c (lit "You step between the recruiter and the refugees. The recruiter spits and " ++
      lit "storms off." ++ crlf ++ crlf)
    emitAffects c
    emitVitals c
    gridShiftTide env 10
    storeSave env c

def cmdWorld (c : Block) : Act Unit := do
  let w ← getWorld
  queue c (snprintf 240 (lit "The sky: " ++ lit (phaseOf w.tick) ++ lit ", clear." ++ crlf))
  emitWorldState c

def cmdTitle (env : Env) (c : Block) (arg : Ptr) : Act Unit :=
  let title := (arg.getD []).take 47
  if title = [] then do
    update c fun ch => { ch with title := [] }
    queue c (lit "Your title is cleared." ++ crlf ++ crlf)
    storeSave env c
  else do
    update c fun ch => { ch with title := title }
    queue c (snprintf 240 (lit "Your title is now: " ++ raw title ++ lit "." ++ crlf))
    storeSave env c

def cmdAffects (c : Block) : Act Unit := do
  emitAffects c
  queue c (lit "You stand clear: no afflictions hold you." ++ crlf ++ crlf)

/-- hg_grid_inscribe refuses a null node. -/
def inscribeAt (env : Env) (room : Int) (name msg : Bytes) : Act Unit :=
  match roomId room with
  | some id => gridInscribe env (str id) name msg
  | none => pure ()

/-- The quote is queued by the length of the whole text, not of the 120 bytes. -/
def cmdInscribe (env : Env) (c : Block) (arg : Ptr) : Act Unit := do
  let s ← session c
  let msg := argument arg
  if msg = [] then
    queue c (lit "Carve what into the Grid? (inscribe <a few words for whoever comes next>)" ++
      crlf ++ crlf)
  else do
    inscribeAt env s.room s.name msg
    queue c (lit "You press your words into the dead network, where they will outlast you:" ++ crlf)
    let memory ← ask env.stale
    queue c (overread 120 (lit "  \"" ++ raw msg ++ lit "\"" ++ crlf) memory)
    queue c (lit "The Grid takes them. Someone will key into this node, long after you are gone, " ++
      lit "and hear you. (try ping)" ++ crlf ++ crlf)

end HollowGrid
