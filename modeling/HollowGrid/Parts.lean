import HollowGrid.Combat

/-! The parts of a session and the tables of the process, and what it means that a write
leaves a part alone. -/
namespace HollowGrid

/-- What of a session a command may be allowed to write. -/
inductive Part
  | birth | morals | side | arc | purse | pack | place | stance | market | trait | life | gear
  | reply | fight
  deriving DecidableEq, Repr

/-- The fields of a part. The fight is not in the character. -/
def Part.of : Part → Character → Character
  | birth, ch => { race := ch.race }
  | morals, ch => { morality := ch.morality }
  | side, ch => { faction := ch.faction }
  | arc, ch => { strayed := ch.strayed, redeemed := ch.redeemed, ashsworn := ch.ashsworn }
  | purse, ch => { gold := ch.gold }
  | pack, ch => { inventory := ch.inventory }
  | place, ch => { room := ch.room }
  | stance, ch => { position := ch.position }
  | market, ch => { mktResolved := ch.mktResolved }
  | trait, ch => { traitReady := ch.traitReady }
  | life, ch => { hp := ch.hp, maxHp := ch.maxHp }
  | gear, ch =>
    { weapon := ch.weapon, head := ch.head, body := ch.body, hands := ch.hands, feet := ch.feet }
  | reply, ch => { replyTo := ch.replyTo }
  | fight, _ => {}

def Spares (may : Part → Prop) (f : Character → Character) : Prop :=
  ∀ q, ¬may q → ∀ ch, q.of (f ch) = q.of ch

inductive Table
  | rat | clock | forgiven | kept | deeds | caches | hours
  deriving DecidableEq, Repr

def Table.ofWorld : Table → World → World
  | rat, w => { ratHp := w.ratHp, ratAlive := w.ratAlive, ratDiedAt := w.ratDiedAt }
  | clock, w => { tick := w.tick, lastHeartbeat := w.lastHeartbeat }
  | _, _ => {}

def Table.ofLedger : Table → Ledger → Ledger
  | forgiven, l => { forgiven := l.forgiven }
  | kept, l => { kept := l.kept }
  | deeds, l => { deeds := l.deeds }
  | caches, l => { cacheGold := l.cacheGold }
  | hours, l => { cellsReadyAt := l.cellsReadyAt, transitReadyAt := l.transitReadyAt }
  | _, _ => {}

def SparesWorld (free : Table → Prop) (f : World → World) : Prop :=
  ∀ t, ¬free t → ∀ w, t.ofWorld (f w) = t.ofWorld w

def SparesLedger (free : Table → Prop) (f : Ledger → Ledger) : Prop :=
  ∀ t, ¬free t → ∀ l, t.ofLedger (f l) = t.ofLedger l

section Updates

variable {may : Part → Prop} {free : Table → Prop}

theorem spares_comp {f h : Character → Character} (first : Spares may f) (second : Spares may h) :
    Spares may fun ch => h (f ch) := by
  intro q shut ch
  rw [second q shut, first q shut]

theorem spares_purse (purse : may .purse) (gold : Character → Int) :
    Spares may fun ch => { ch with gold := gold ch } := by
  intro q shut ch
  cases q <;> first | rfl | contradiction

theorem spares_inv_add (pack : may .pack) (item : Bytes) : Spares may (invAdd item) := by
  intro q shut ch
  unfold invAdd
  split
  · rfl
  · cases q <;> first | rfl | contradiction

theorem spares_swear (morals : may .morals) (side : may .side) (arc : may .arc) (s : Session) :
    Spares may fun ch => swear ch s := by
  intro q shut ch
  unfold swear
  split <;> cases q <;> first | rfl | contradiction

theorem spares_coin (morals : may .morals) (side : may .side) (arc : may .arc)
    (market : may .market) (s : Session) : Spares may (takeCoin s) := by
  intro q shut ch
  unfold takeCoin
  split <;> cases q <;> first | rfl | contradiction

theorem spares_forgiven (pairs : free .forgiven) (a b : Bytes) :
    SparesLedger free fun l => forgivenMark l a b := by
  intro t shut l
  cases t <;> first | rfl | contradiction

theorem spares_kept (pairs : free .kept) (a b : Bytes) :
    SparesLedger free fun l => keptMark l a b := by
  intro t shut l
  cases t <;> first | rfl | contradiction

theorem spares_deed (deeds : free .deeds) (player : Bytes) (kind : Deed) :
    SparesLedger free fun l => addDeed l player kind := by
  intro t shut l
  unfold addDeed
  split
  · rfl
  · cases t <;> first | rfl | contradiction

theorem spares_ledger_comp {f h : Ledger → Ledger} (first : SparesLedger free f)
    (second : SparesLedger free h) : SparesLedger free fun l => h (f l) := by
  intro t shut l
  rw [second t shut, first t shut]

end Updates

end HollowGrid
