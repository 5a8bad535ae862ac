import Mathlib.Tactic.IntervalCases
import HollowGrid.Tally

/-! The moral verbs of the room.actions event against the branches the commands take. -/
namespace HollowGrid

inductive Moral
  | join | defend | defy | steal
  deriving DecidableEq, Repr

namespace Moral

def all : List Moral := [join, defend, defy, steal]

def word : Moral → String
  | join => "join"
  | defend => "defend"
  | defy => "defy"
  | steal => "steal"

def run (env : Env) (c : Block) : Moral → Act Unit
  | join => cmdJoin env c
  | defend => cmdDefend env c
  | defy => cmdDefy env c
  | steal => cmdSteal env c

end Moral

/-- The event of hg_emit_room_actions_now. -/
def menuEvent (s : Session) : Text := snprintf 1400 (fmtRoomActions (menuJson s))

theorem menu_emitted (c : Block) (g : Server) :
    emitRoomActionsNow c g = queue c (menuEvent (g.blocks c)) g := rfl

/-- The event offers the verb. -/
def offers (s : Session) (v : Moral) : Bool :=
  contains (str ("\"verb\":\"" ++ v.word ++ "\"")) (bytes (menuEvent s))

/-- The branch the command takes, the strcmp of the dais answered by the flag it leaves. -/
def accepts (env : Env) (g : Server) (s : Session) : Moral → Bool
  | .join =>
    if s.room = roomDais then env.zeroFlag g.asked
    else decide (s.room = roomMarket ∧ s.mktResolved = 0)
  | .defend => decide (s.room = roomMarket ∧ s.mktResolved = 0)
  | .defy => decide (s.room = roomDais) && env.zeroFlag g.asked
  | .steal => decide (s.room = roomMarket)

section Menus

def sample (room : Int) (faction race : String) (ash resolved : Bool) : Session :=
  { room := room, faction := str faction, race := str race, ashsworn := ash
    mktResolved := if resolved then 1 else 0 }

def factionKind (s : Session) : String :=
  if isFront s then "front" else if isAlly s then "ally" else "none"

def raceKind (s : Session) : String := if hunted s then "elf" else "human"

theorem sample_front (s : Session) (room : Int) (race : String) (ash resolved : Bool) :
    isFront (sample room (factionKind s) race ash resolved) = isFront s := by
  have kinds : (str "front" == str "front") = true ∧ (str "ally" == str "front") = false ∧
      (str "none" == str "front") = false := by decide
  change (str (factionKind s) == str "front") = _
  unfold factionKind
  cases isFront s with
  | true => exact kinds.1
  | false =>
    cases isAlly s with
    | true => exact kinds.2.1
    | false => exact kinds.2.2

theorem front_no_ally {s : Session} (front : isFront s = true) : isAlly s = false := by
  have faction : s.faction = str "front" := eq_of_beq front
  rw [isAlly, faction]
  decide

theorem sample_ally (s : Session) (room : Int) (race : String) (ash resolved : Bool) :
    isAlly (sample room (factionKind s) race ash resolved) = isAlly s := by
  have kinds : (str "front" == str "ally") = false ∧ (str "ally" == str "ally") = true ∧
      (str "none" == str "ally") = false := by decide
  change (str (factionKind s) == str "ally") = _
  unfold factionKind
  cases front : isFront s with
  | true =>
    rw [front_no_ally front]
    exact kinds.1
  | false =>
    cases isAlly s with
    | true => exact kinds.2.1
    | false => exact kinds.2.2

theorem sample_hunted (s : Session) (room : Int) (faction : String) (ash resolved : Bool) :
    hunted (sample room faction (raceKind s) ash resolved) = hunted s := by
  have kinds : (sameFold (str "elf") (str "elf") || sameFold (str "elf") (str "dustkin")) = true ∧
      (sameFold (str "human") (str "elf") || sameFold (str "human") (str "dustkin")) = false := by
    decide
  change (sameFold (str (raceKind s)) (str "elf") || sameFold (str (raceKind s)) (str "dustkin")) = _
  unfold raceKind
  cases hunted s with
  | true => exact kinds.1
  | false => exact kinds.2

theorem menu_sample (s : Session) : menuJson s =
    menuJson (sample s.room (factionKind s) (raceKind s) s.ashsworn (decide (s.mktResolved ≠ 0))) := by
  have settled : decide ((sample s.room (factionKind s) (raceKind s) s.ashsworn
      (decide (s.mktResolved ≠ 0))).mktResolved ≠ 0) = decide (s.mktResolved ≠ 0) := by
    cases decide (s.mktResolved ≠ 0) with
    | true => exact (by decide : decide ((1 : Int) ≠ 0) = true)
    | false => exact (by decide : decide ((0 : Int) ≠ 0) = false)
  have room : (sample s.room (factionKind s) (raceKind s) s.ashsworn
      (decide (s.mktResolved ≠ 0))).room = s.room := rfl
  have ash : (sample s.room (factionKind s) (raceKind s) s.ashsworn
      (decide (s.mktResolved ≠ 0))).ashsworn = s.ashsworn := rfl
  simp only [menuJson, actionsJsonFor, marketActions, daisActions, sample_front, sample_ally,
    sample_hunted, settled, room, ash]

theorem offers_sample (s : Session) (v : Moral) : offers s v =
    offers (sample s.room (factionKind s) (raceKind s) s.ashsworn (decide (s.mktResolved ≠ 0))) v := by
  rw [offers, menuEvent, menu_sample]
  rfl

theorem market_offers : ∀ faction ∈ ["front", "ally", "none"], ∀ race ∈ ["elf", "human"],
    ∀ ash resolved : Bool, ∀ v ∈ Moral.all,
    offers (sample roomMarket faction race ash resolved) v =
      match v with
      | .join => faction == "none" && !resolved
      | .defend => faction == "none" && !resolved
      | .defy => false
      | .steal => true := by
  unfold offers menuEvent menuJson actionsJsonFor marketActions fmtRoomActions actionDefend
    actionJoinGrave actionJoinCorrupt actionSell actionSteal
  repeat rw [lit_chars]
  decide +kernel

theorem dais_offers : ∀ faction ∈ ["front", "ally", "none"], ∀ race ∈ ["elf", "human"],
    ∀ v ∈ Moral.all, offers (sample roomDais faction race false false) v =
      match v with
      | .join => faction == "none"
      | .defy => faction == "front"
      | _ => false := by
  unfold offers menuEvent menuJson actionsJsonFor daisActions fmtRoomActions actionDefy actionTalk
    actionKneel actionPledge
  repeat rw [lit_chars]
  decide +kernel

/-- The static menus with no moral verb in them. -/
def plainMenus : List Text :=
  [actionsNexus, actionTavern, actionsTunnels, actionsRepeater, emptyActions, lit "[]"]

theorem plain_menus : ∀ menu ∈ plainMenus, ∀ v ∈ Moral.all,
    contains (str ("\"verb\":\"" ++ v.word ++ "\"")) (bytes (snprintf 1400 (fmtRoomActions menu))) =
      false := by
  unfold plainMenus fmtRoomActions actionsNexus actionTavern actionsTunnels actionsRepeater
    emptyActions
  repeat rw [lit_chars]
  decide +kernel

theorem room_menus : rooms.map Room.actions =
    [actionsNexus, actionsTavern, actionsMarket, emptyActions, emptyActions, emptyActions,
      actionsTunnels, emptyActions, emptyActions, emptyActions, emptyActions, emptyActions,
      emptyActions, emptyActions, emptyActions, emptyActions, emptyActions, emptyActions,
      emptyActions, emptyActions, emptyActions, emptyActions, emptyActions, emptyActions,
      emptyActions, emptyActions, actionsLock, actionsRepeater] := rfl

theorem static_menu (room : Int) (market : room ≠ roomMarket) (tavern : room ≠ roomTavern)
    (lock : room ≠ roomCustodyLock) : (roomActions room).getD (lit "[]") ∈ plainMenus := by
  by_cases tabled : 0 ≤ room
  · have slot : roomActions room = (rooms.map Room.actions)[room.toNat]? := by
      rw [roomActions, room?, if_pos tabled, List.getElem?_map]
    obtain ⟨i, rfl⟩ := Int.eq_ofNat_of_zero_le tabled
    rw [slot, room_menus, Int.toNat_natCast]
    by_cases inside : i < 28
    · interval_cases i <;> first
        | exact absurd rfl market
        | exact absurd rfl tavern
        | exact absurd rfl lock
        | simp [plainMenus]
    · rw [List.getElem?_eq_none_iff.mpr (Nat.le_of_not_lt inside)]
      simp [plainMenus]
  · rw [roomActions, room?, if_neg tabled]
    simp [plainMenus]

theorem custody_offers : offers (sample roomCustodyLock "none" "human" false false) .join = true := by
  decide +kernel

end Menus

section Branches

variable {c : Block} {g : Server}

/-- A morality outlasts everything that does not write it. -/
theorem morals_last (env : Env) (c : Block) (n : Int) :
    Permits False env (fun _ => True) (fun _ => True) (fun _ q => q ≠ .morals) (fun _ => True)
      fun g => (g.blocks c).morality = n :=
  lasting_permits env fun g g' framed held => by
    have same := congrArg Character.morality (framed.parts c .morals (by simp))
    change (g'.blocks c).morality = (g.blocks c).morality at same
    rw [same]
    exact held

theorem weighs_nothing {m : Act Unit}
    (kept : Keeps (fun g' => (g'.blocks c).morality = (g.blocks c).morality) (fun _ => True) m Any) :
    Leads (· = g) (fun _ => True) m fun _ g' => (g'.blocks c).morality = (g.blocks c).morality :=
  Leads.start (P := fun g' => (g'.blocks c).morality = (g.blocks c).morality) rfl (Leads.stays kept)

theorem weighs_some {m : Act Unit} {f : Character → Character} {n : Int}
    (changed : (f (g.blocks c).toCharacter).morality = n) (other : n ≠ (g.blocks c).morality)
    (kept : Keeps (fun g' => (g'.blocks c).morality = n) (fun _ => True) m Any) :
    Leads (· = g) (fun _ => True) (update c f >>= fun _ => m) fun _ g' =>
      (g'.blocks c).morality ≠ (g.blocks c).morality := by
  apply Leads.seq (M := fun g' => (g'.blocks c).morality = n)
  · apply Leads.modify
    rintro _ rfl
    rw [Server.updated, Server.setBlock_own]
    exact changed
  · apply Leads.weaken (Leads.stays kept)
    intro _ g' same
    rw [same]
    exact other

end Branches

section Takes

variable {env : Env} {c : Block} {g : Server}

abbrev Weighs (c : Block) (g : Server) (taken : Bool) (m : Act Unit) : Prop :=
  Leads (· = g) (fun _ => True) m fun _ g' =>
    (g'.blocks c).morality ≠ (g.blocks c).morality ↔ taken = true

theorem weighs_refused {m : Act Unit}
    (kept : Keeps (fun g' => (g'.blocks c).morality = (g.blocks c).morality) (fun _ => True) m Any) :
    Weighs c g false m := by
  apply Leads.weaken (weighs_nothing kept)
  intro _ g' same
  simp [same]

theorem weighs_taken {m : Act Unit} {f : Character → Character} (n : Int)
    (changed : (f (g.blocks c).toCharacter).morality = (g.blocks c).morality + n) (some_change : n ≠ 0)
    (kept : Keeps (fun g' => (g'.blocks c).morality = (g.blocks c).morality + n) (fun _ => True) m
      Any) : Weighs c g true (update c f >>= fun _ => m) := by
  apply Leads.weaken (weighs_some changed (by omega) kept)
  intro _ g' moved
  simp [moved]

/-- The flag a strcmp leaves is read before anything is written. -/
theorem weighs_asked {env : Env} {f : Bool → Act Unit} {taken : Bool}
    (rest : Weighs c { g with asked := g.asked + 1 } taken (f (env.zeroFlag g.asked))) :
    Weighs c g taken (ask env.zeroFlag >>= f) := by
  rintro _ rfl
  exact rest _ rfl

theorem steal_weighs : Weighs c g (accepts env g (g.blocks c) .steal) (cmdSteal env c) := by
  apply Leads.reads (rfl : session c g = .ok (g.blocks c, g))
  apply Leads.ite
  · intro away
    rw [accepts, decide_eq_false away]
    exact weighs_refused (((morals_last env c _).reports trivial).line nofun)
  · intro here
    rw [accepts, decide_eq_true (not_not.mp here)]
    have p := morals_last env c ((g.blocks c).morality + -8)
    have r := p.reports (d := c) trivial
    apply weighs_taken (-8) rfl (by omega)
    apply Keeps.seq (p.on_ledger _ (spares_deed trivial _ _))
    apply Keeps.seq (p.saves trivial)
    apply Keeps.seq (p.delivers_room _ _ nofun)
    apply Keeps.seq (r.line nofun)
    apply Keeps.seq r.vitals_now
    exact Keeps.seq r.affects_now (p.arc_kept trivial (by simp))

theorem defend_weighs : Weighs c g (accepts env g (g.blocks c) .defend) (cmdDefend env c) := by
  apply Leads.reads (rfl : session c g = .ok (g.blocks c, g))
  apply Leads.ite
  · intro refused
    have shut : ¬((g.blocks c).room = roomMarket ∧ (g.blocks c).mktResolved = 0) := by
      rintro ⟨here, unmade⟩
      rcases refused with away | made
      · exact away here
      · exact made unmade
    rw [accepts, decide_eq_false shut]
    exact weighs_refused (((morals_last env c _).reports trivial).said nofun)
  · intro allowed
    have open_choice : (g.blocks c).room = roomMarket ∧ (g.blocks c).mktResolved = 0 := by
      simpa using allowed
    rw [accepts, decide_eq_true open_choice]
    have p := morals_last env c ((g.blocks c).morality + 25)
    have r := p.reports (d := c) trivial
    apply weighs_taken 25 ?_ (by omega)
    · apply Keeps.seq (r.said nofun)
      apply Keeps.seq r.affects
      apply Keeps.seq r.vitals
      exact Keeps.seq (p.shifts _) (p.saves trivial)
    · unfold invAdd
      split <;> rfl

theorem defy_weighs : Weighs c g (accepts env g (g.blocks c) .defy) (cmdDefy env c) := by
  apply Leads.reads (rfl : session c g = .ok (g.blocks c, g))
  apply Leads.ite
  · intro away
    rw [accepts, decide_eq_false away, Bool.false_and]
    exact weighs_refused (((morals_last env c _).reports trivial).line nofun)
  intro here
  rw [accepts, decide_eq_true (not_not.mp here), Bool.true_and]
  apply weighs_asked
  cases env.zeroFlag g.asked with
  | false =>
    exact weighs_refused (((morals_last env c (g.blocks c).morality).reports (d := c) trivial).line nofun)
  | true =>
    have p := morals_last env c ((g.blocks c).morality + 30)
    have r := p.reports (d := c) trivial
    apply weighs_taken 30 rfl (by omega)
    apply Keeps.seq (r.said nofun)
    apply Keeps.seq (p.on_ledger _ (spares_deed trivial _ _))
    apply Keeps.seq (p.shifts _)
    apply Keeps.seq (p.echoes (clean_lax _) (clean_lax _) (clean_lax _))
    apply Keeps.seq (p.saves trivial)
    apply Keeps.seq (p.delivers_room _ _ nofun)
    apply Keeps.seq
    · exact Keeps.branch (p.return_kept trivial (by simp)) (p.arc_kept trivial (by simp))
    exact Keeps.seq r.affects_now (Keeps.seq r.vitals_now r.room_actions_now)

theorem pledge_weighs (here : (g.blocks c).room = roomDais) :
    Weighs c g (env.zeroFlag g.asked) (daisPledge env c) := by
  apply Leads.reads (rfl : session c g = .ok (g.blocks c, g))
  rw [if_neg (not_not.mpr here)]
  apply weighs_asked
  cases env.zeroFlag g.asked with
  | false =>
    exact weighs_refused (((morals_last env c (g.blocks c).morality).reports (d := c) trivial).line nofun)
  | true =>
    have lost : (swear (g.blocks c).toCharacter (g.blocks c)).morality =
        (g.blocks c).morality + if hunted (g.blocks c) then -40 else -25 := by
      unfold swear
      split <;> rfl
    have p := morals_last env c
      ((g.blocks c).morality + if hunted (g.blocks c) then -40 else -25)
    have r := p.reports (d := c) trivial
    apply weighs_taken _ lost (by split <;> decide)
    apply Keeps.seq (Keeps.branch (r.said nofun) (r.line nofun))
    apply Keeps.seq (p.on_ledger _ (spares_deed trivial _ _))
    apply Keeps.seq (p.shifts _)
    apply Keeps.seq (p.echoes (clean_lax _) (clean_lax _) (clean_lax _))
    apply Keeps.seq (p.saves trivial)
    apply Keeps.seq (p.delivers_room _ _ nofun)
    apply Keeps.seq (p.arc_kept trivial (by simp))
    exact Keeps.seq r.affects_now (Keeps.seq r.vitals_now r.room_actions_now)

theorem join_weighs : Weighs c g (accepts env g (g.blocks c) .join) (cmdJoin env c) := by
  apply Leads.reads (rfl : session c g = .ok (g.blocks c, g))
  apply Leads.ite
  · intro dais
    rw [accepts, if_pos dais]
    exact pledge_weighs dais
  intro away
  rw [accepts, if_neg away]
  apply Leads.ite
  · intro refused
    have shut : ¬((g.blocks c).room = roomMarket ∧ (g.blocks c).mktResolved = 0) := by
      rintro ⟨here, unmade⟩
      rcases refused with elsewhere | made
      · exact elsewhere here
      · exact made unmade
    rw [decide_eq_false shut]
    exact weighs_refused (((morals_last env c _).reports trivial).said nofun)
  · intro allowed
    have open_choice : (g.blocks c).room = roomMarket ∧ (g.blocks c).mktResolved = 0 := by
      simpa using allowed
    rw [decide_eq_true open_choice]
    have lost : (takeCoin (g.blocks c) (g.blocks c).toCharacter).morality =
        (g.blocks c).morality + if hunted (g.blocks c) then -40 else -15 := by
      unfold takeCoin
      split <;> rfl
    have p := morals_last env c
      ((g.blocks c).morality + if hunted (g.blocks c) then -40 else -15)
    have r := p.reports (d := c) trivial
    apply weighs_taken _ lost (by split <;> decide)
    apply Keeps.seq (r.said nofun)
    apply Keeps.seq r.affects
    apply Keeps.seq r.vitals
    apply Keeps.seq (p.oath_kept trivial)
    apply Keeps.seq (p.shifts _)
    exact Keeps.seq (p.arc_kept trivial (by simp)) (p.saves trivial)

theorem moral_weighs (v : Moral) :
    Weighs c g (accepts env g (g.blocks c) v) (v.run env c) := by
  cases v with
  | join => exact join_weighs
  | defend => exact defend_weighs
  | defy => exact defy_weighs
  | steal => exact steal_weighs

end Takes
section Agreement

variable {s : Session}

theorem faction_kind_mem (s : Session) : factionKind s ∈ ["front", "ally", "none"] := by
  unfold factionKind
  split
  · simp
  · split <;> simp

theorem race_kind_mem (s : Session) : raceKind s ∈ ["elf", "human"] := by
  unfold raceKind
  split <;> simp

theorem faction_kind_none (s : Session) :
    (factionKind s == "none") = (!isFront s && !isAlly s) := by
  unfold factionKind
  cases isFront s <;> cases isAlly s <;> rfl

theorem faction_kind_front (s : Session) : (factionKind s == "front") = isFront s := by
  unfold factionKind
  cases isFront s <;> cases isAlly s <;> rfl

theorem moral_mem (v : Moral) : v ∈ Moral.all := by
  cases v <;> decide

theorem offers_market (here : s.room = roomMarket) (v : Moral) : offers s v =
    match v with
    | .join => (!isFront s && !isAlly s) && !decide (s.mktResolved ≠ 0)
    | .defend => (!isFront s && !isAlly s) && !decide (s.mktResolved ≠ 0)
    | .defy => false
    | .steal => true := by
  rw [offers_sample, here, market_offers _ (faction_kind_mem s) _ (race_kind_mem s) _ _ v (moral_mem v),
    faction_kind_none]

theorem dais_sample (faction race : String) (ash resolved : Bool) (v : Moral) :
    offers (sample roomDais faction race ash resolved) v =
      offers (sample roomDais faction race false false) v := rfl

theorem offers_dais (here : s.room = roomDais) (v : Moral) : offers s v =
    match v with
    | .join => !isFront s && !isAlly s
    | .defy => isFront s
    | _ => false := by
  rw [offers_sample, here, dais_sample,
    dais_offers _ (faction_kind_mem s) _ (race_kind_mem s) v (moral_mem v), faction_kind_none,
    faction_kind_front]

theorem offers_elsewhere (away : s.room ≠ roomMarket) (out : s.room ≠ roomDais) (v : Moral) :
    offers s v = offers (sample s.room "none" "human" false false) v := by
  have same : menuJson s = menuJson (sample s.room "none" "human" false false) := by
    have room : (sample s.room "none" "human" false false).room = s.room := rfl
    simp only [menuJson, actionsJsonFor, room, if_neg away, if_neg out]
  rw [offers, menuEvent, same]
  rfl

theorem offers_quiet (away : s.room ≠ roomMarket) (out : s.room ≠ roomDais)
    (free : s.room ≠ roomCustodyLock) (v : Moral) : offers s v = false := by
  have menu : menuJson s ∈ plainMenus := by
    have small : ¬((1200 : Nat) < 8) := by decide
    by_cases tavern : s.room = roomTavern
    · have short : ¬((1200 : Nat) < actionTavern.length + 1) := by decide +kernel
      have long : ¬(actionTavern.length < 3) := by decide +kernel
      simp only [menuJson, actionsJsonFor, if_neg small, if_neg away, if_pos tavern, if_neg short,
        if_neg long]
      exact .tail _ (.head _)
    · have short : (lit "[]").length < 3 := by decide
      simp only [menuJson, actionsJsonFor, if_neg small, if_neg away, if_neg tavern, if_neg out,
        if_pos short]
      exact static_menu s.room away tavern free
  exact plain_menus _ menu v (moral_mem v)

end Agreement

/-- Where the menu and the commands agree: not behind the custody lock, in the market only
for a choice that is made or a player of no side, on the dais only where the flags that the
two strcmp calls leave are those of the faction. -/
def MenuHolds (env : Moral → Env) (g : Server) (s : Session) : Prop :=
  s.room ≠ roomCustodyLock ∧
  (s.room = roomMarket → s.mktResolved ≠ 0 ∨ isFront s = false ∧ isAlly s = false) ∧
  (s.room = roomDais → (env .join).zeroFlag g.asked = (!isFront s && !isAlly s) ∧
    (env .defy).zeroFlag g.asked = isFront s)

theorem menu_agrees_iff (env : Moral → Env) (g : Server) (s : Session) :
    (∀ v, offers s v = true ↔ accepts (env v) g s v = true) ↔ MenuHolds env g s := by
  have market_dais : roomMarket ≠ roomDais := by decide
  have market_lock : roomMarket ≠ roomCustodyLock := by decide
  have dais_lock : roomDais ≠ roomCustodyLock := by decide
  by_cases market : s.room = roomMarket
  · have offered := offers_market market
    have off_dais : s.room ≠ roomDais := market ▸ market_dais
    constructor
    · intro agree
      refine ⟨market ▸ market_lock, fun _ => ?_, fun dais => absurd dais off_dais⟩
      by_contra split
      obtain ⟨unmade, sided⟩ := not_or.mp split
      have zero : s.mktResolved = 0 := by simpa using unmade
      have join := agree .join
      rw [offered, accepts, if_neg off_dais] at join
      have plain := join.mpr (decide_eq_true ⟨market, zero⟩)
      simp only [Bool.and_eq_true, Bool.not_eq_true'] at plain
      exact sided plain.1
    · rintro ⟨_, settled, _⟩ v
      have choice : ((!isFront s && !isAlly s) && !decide (s.mktResolved ≠ 0)) =
          decide (s.room = roomMarket ∧ s.mktResolved = 0) := by
        rcases settled market with made | ⟨front, ally⟩
        · simp [made]
        · simp [front, ally, market]
      rw [offered]
      cases v with
      | join => rw [accepts, if_neg off_dais, ← choice]
      | defend => rw [accepts, ← choice]
      | defy => simp [accepts, off_dais]
      | steal => simp [accepts, market]
  by_cases dais : s.room = roomDais
  · have offered := offers_dais dais
    constructor
    · intro agree
      refine ⟨dais ▸ dais_lock, fun here => absurd here market, fun _ => ⟨?_, ?_⟩⟩
      · have join := agree .join
        rw [offered, accepts, if_pos dais] at join
        exact Bool.eq_iff_iff.mpr join.symm
      · have defy := agree .defy
        rw [offered, accepts, decide_eq_true dais, Bool.true_and] at defy
        exact Bool.eq_iff_iff.mpr defy.symm
    · rintro ⟨_, _, flags⟩ v
      obtain ⟨join, defy⟩ := flags dais
      rw [offered]
      cases v with
      | join => rw [accepts, if_pos dais, join]
      | defend => simp [accepts, market]
      | defy => rw [accepts, decide_eq_true dais, Bool.true_and, defy]
      | steal => simp [accepts, market]
  · constructor
    · intro agree
      refine ⟨fun lock => ?_, fun here => absurd here market, fun here => absurd here dais⟩
      have join := agree .join
      rw [offers_elsewhere market dais, lock, custody_offers, accepts, if_neg dais] at join
      have accepted := join.mp rfl
      exact market (of_decide_eq_true accepted).1
    · rintro ⟨free, _, _⟩ v
      rw [offers_quiet market dais free]
      cases v <;> simp [accepts, market, dais]

/-- The menu of a session against what the commands do, each issued in the same state. -/
theorem menu_agrees (env : Moral → Env) (g : Server) (c : Block) :
    ((∀ v, offers (g.blocks c) v = true ↔ accepts (env v) g (g.blocks c) v = true) ↔
      MenuHolds env g (g.blocks c)) ∧
    ∀ v g', v.run (env v) c g = .ok ((), g') →
      ((g'.blocks c).morality ≠ (g.blocks c).morality ↔
        accepts (env v) g (g.blocks c) v = true) :=
  ⟨menu_agrees_iff env g (g.blocks c), fun v _ ended => (moral_weighs v).result rfl ended⟩

theorem menu_agrees_nexus :
    offers ((boot quietNode sharedDisk).blocks 0) .steal = true ↔
      accepts quietNode (boot quietNode sharedDisk) ((boot quietNode sharedDisk).blocks 0) .steal =
        true :=
  (menu_agrees (fun _ => quietNode) (boot quietNode sharedDisk) 0).1.mpr
    ⟨by decide, fun market => absurd market (by decide), fun dais => absurd dais (by decide)⟩ .steal

/-- A player the hub or the disk knows as an ally of the free folk. -/
def alliedDisk : Bytes → Option File := fun _ =>
  some (.json (.obj [(str "secretHash", .str (bcryptLike (str "password") oneSalt)),
    (str "faction", .str (str "ally"))]))

/-- The market takes the oath of an ally to whom its menu does not offer it. -/
theorem menu_hides_join : ¬ ∀ events g,
    Machine.Reaches (step quietNode) (boot quietNode alliedDisk) events g →
    ∀ c, g.socket c ≠ none → (g.blocks c).state = .play →
      ∀ v, offers (g.blocks c) v = true ↔ accepts quietNode g (g.blocks c) v = true := by
  intro agree
  obtain ⟨g, reached, shown⟩ := Machine.ends_reaches (step quietNode) (boot quietNode alliedDisk)
    (returns 0 (str "ada") ++ [.message 0 (str "north")])
    (fun g => decide (g.socket 0 ≠ none ∧ (g.blocks 0).state = .play ∧
      accepts quietNode g (g.blocks 0) .join = true ∧ offers (g.blocks 0) .join = false))
    (by decide +kernel)
  obtain ⟨there, seated, accepted, hidden⟩ := of_decide_eq_true shown
  have offered := (agree _ g reached 0 there seated .join).mpr accepted
  exact absurd (offered.symm.trans hidden) nofun

end HollowGrid
