import HollowGrid.Clockwork
import HollowGrid.Engaged

/-! The schedule of the fights: LAST_TICK is armed by an attack and by every round, and holds the
next round of the session off for two seconds. -/
namespace HollowGrid

def lineFor (g : Server) (c : Block) : Event → Option Bytes
  | .message d text =>
    if d = c ∧ (Event.message d text).valid g = true ∧ text.length ≤ 255 ∧
      (g.blocks c).state = .play then some (cstr (trimmed text)) else none
  | _ => none

def armRun (g : Server) (c : Block) (line : Bytes) : Option (Arm × Ptr) :=
  if (sameFold line (str "look") || sameFold line (str "l") ||
        startsFold (str "look ") line) = true ∨
    roomMove (g.blocks c).room (heading line) ≠ .unknown then none
  else parse line

def startsFight (g : Server) (c : Block) (e : Event) : Bool :=
  match (lineFor g c e).bind (armRun g c) with
  | some (.attack, arg) =>
    !(g.blocks c).inCombat && (ratHere (g.blocks c) g.world && arg.any namesRat)
  | _ => false

def strikes (g : Server) (c : Block) (now : Int) : Bool :=
  (g.blocks c).inCombat && (g.socketOf c).isSome && decide ((g.blocks c).lastTick ≠ 0) &&
    decide (u64 (g.blocks c).lastTick ≤ u64 now)

/-- The sessions that make a round in the pulses of one beat, in the order of the table. -/
def strikesIn (env : Env) (now : Int) : List Block → Server → List Block
  | [], _ => []
  | c :: rest, g =>
    (if strikes g c now then [c] else []) ++
      match sessionPulse env c now g with
      | .ok (_, next) => strikesIn env now rest next
      | .error _ => []

/-- The time of a beat, which is read before its pulses. -/
def beatAt (env : Env) (g : Server) : Int := env.now g.asked

def beatStrikes (env : Env) (g : Server) : List Block :=
  strikesIn env (beatAt env g) (g.sessionTable.filterMap id) { g with asked := g.asked + 1 }

/-- What the log of the fights of one session has. -/
inductive Mark
  | attack (at_ms : Int)
  | round (at_ms : Int)
  deriving DecidableEq, Repr

def Mark.at_ms : Mark → Int
  | attack at_ms => at_ms
  | round at_ms => at_ms

/-- The player at c had a round of its fight in the event that made g' of g. At a beat it is hurt
by one, and in a line of its own the rat is; else it is the fight that is over with it. -/
def hadRound (c : Block) (g g' : Server) : Event → Bool
  | .message d _ => decide (d = c) &&
      (decide (g'.world.ratHp ≠ g.world.ratHp) || decide (g'.world.ratAlive ≠ g.world.ratAlive) ||
        ((g.blocks c).inCombat && !(g'.blocks c).inCombat))
  | .tick => (g.blocks c).inCombat &&
      (decide ((g'.blocks c).hp ≠ (g.blocks c).hp) || !(g'.blocks c).inCombat)
  | _ => false

/-- What the event that made g' of g adds to the log: whether a fight of c is on that was not, and
whether there was a round of it. -/
def marksLeft (c : Block) (at_ms : Int) (g g' : Server) (e : Event) : List Mark :=
  (if !(g.blocks c).inCombat && (g'.blocks c).inCombat then [.attack at_ms] else []) ++
    if hadRound c g g' e then [.round at_ms] else []

def marks (env : Env) (c : Block) (g : Server) (e : Event) : List Mark :=
  (step env g e).toOption.elim [] fun g' => marksLeft c (env.now g.asked) g g' e

/-- A round comes two seconds after what is before it. -/
def HoldsOff (before after : Mark) : Prop :=
  ∀ at_ms, after = .round at_ms → before.at_ms + 2000 ≤ at_ms

/-- What b was the time of is past, and a round of c is two seconds from it. -/
structure Due (env : Env) (c : Block) (b : Int) (g : Server) : Prop where
  past : ∀ n, g.asked ≤ n → b ≤ env.now n
  armed : (g.blocks c).inCombat = true →
    b + 2000 ≤ (g.blocks c).lastTick ∧ (g.blocks c).lastTick < 2 ^ 64

def AtPeace (c : Block) (g : Server) : Prop := (g.blocks c).inCombat = false

theorem peace_permits (env : Env) (c : Block) :
    Permits False env (fun _ => True) (fun _ => True) (fun d q => d ≠ c ∨ q ≠ .fight)
      (fun _ => True) (AtPeace c) :=
  lasting_permits env fun g g' framed calm => by
    have fight := framed.fights c (by simp)
    exact (congrArg Fight.inCombat fight).trans calm

/-- From one state to the other there were up to n rounds of c, of four points each if the fight
is still on. -/
structure Blows (c : Block) (n : Nat) (g g' : Server) : Prop where
  hurt : (g'.blocks c).inCombat = true → (g.blocks c).inCombat = true ∧
    ∃ k : Nat, k ≤ n ∧ (g'.blocks c).hp = (g.blocks c).hp - 4 * k
  spared : n = 0 → (g.blocks c).inCombat = true → (g'.blocks c).inCombat = true

section Lines

variable {g : Server} {e : Event} {c : Block} {line : Bytes}

theorem line_for_iff : lineFor g c e = some line ↔ Delivered g e c line := by
  constructor
  · intro given
    cases e with
    | message d text =>
      simp only [lineFor, Option.ite_none_right_eq_some, Option.some.injEq] at given
      obtain ⟨⟨rfl, raised, short, playing⟩, rfl⟩ := given
      exact ⟨text, rfl, raised, short, playing, rfl⟩
    | connect => cases given
    | writable => cases given
    | close => cases given
    | tick => cases given
  · rintro ⟨text, rfl, raised, short, playing, rfl⟩
    exact if_pos ⟨rfl, raised, short, playing⟩

theorem arm_run_iff {arm : Arm} {arg : Ptr} :
    armRun g c line = some (arm, arg) ↔ RunsArm g c line arm arg := by
  unfold armRun
  rw [Option.ite_none_left_eq_some]
  constructor
  · rintro ⟨stays, parsed⟩
    simp only [Bool.or_eq_true, not_or, Decidable.not_not] at stays
    obtain ⟨⟨⟨look, short⟩, at_one⟩, unknown⟩ := stays
    exact ⟨fun either => either.elim look short, by simpa using at_one, unknown, parsed⟩
  · rintro ⟨looks, at_one, unknown, parsed⟩
    refine ⟨?_, parsed⟩
    rintro (looked | moved)
    · simp only [Bool.or_eq_true, at_one, Bool.false_eq_true, or_false] at looked
      exact looks looked
    · exact moved unknown

theorem starts_fight_line (starts : startsFight g c e = true) : ∃ line arg,
    Delivered g e c line ∧ RunsArm g c line .attack arg ∧ (g.blocks c).inCombat = false ∧
      (ratHere (g.blocks c) g.world && arg.any namesRat) = true := by
  unfold startsFight at starts
  split at starts
  · rename_i arg found
    obtain ⟨line, given, runs⟩ := Option.bind_eq_some_iff.mp found
    rw [Bool.and_eq_true, Bool.not_eq_true'] at starts
    exact ⟨line, arg, line_for_iff.mp given, arm_run_iff.mp runs, starts⟩
  · cases starts

end Lines

section Dues

variable {env : Env} {g g' : Server} {c d : Block} {b now : Int}

theorem due_same (due : Due env c b g) (fight : (g'.blocks c).toFight = (g.blocks c).toFight)
    (later : g.asked ≤ g'.asked) : Due env c b g' where
  past := fun n after => due.past n (later.trans after)
  armed := by
    intro fights
    have same : (g'.blocks c).inCombat = (g.blocks c).inCombat := congrArg Fight.inCombat fight
    have tick : (g'.blocks c).lastTick = (g.blocks c).lastTick := congrArg Fight.lastTick fight
    rw [tick]
    exact due.armed (same.symm.trans fights)

theorem due_idle (due : Due env c b g) (idle : Idle g g') (later : g.asked ≤ g'.asked) :
    Due env c b g' :=
  due_same due (idle.fight c) later

theorem due_permits (env : Env) (c : Block) (b : Int) :
    Permits False env (fun _ => True) (fun _ => True) (fun d q => d ≠ c ∨ q ≠ .fight)
      (fun _ => True) (Due env c b) where
  bounds := trivial
  outside := outside_lax env
  tidy := fun g _ => tidy_lax g
  asked := fun _ due => due_same due rfl (Nat.le_succ _)
  peers := fun _ _ _ _ => trivial
  say := fun _ _ _ due _ _ => due_idle due (idle_block rfl rfl rfl rfl) (Nat.le_refl _)
  close := fun _ _ due _ => due_idle due (idle_block rfl rfl rfl rfl) (Nat.le_refl _)
  change := fun g d f due _ _ _ => by
    have fight : ((g.updated d f).blocks c).toFight = (g.blocks c).toFight := by
      by_cases own : c = d
      · subst own
        rw [Server.updated, Server.setBlock_own]
      · rw [Server.updated, Server.setBlock_other _ _ own]
    exact due_same due fight (Nat.le_refl _)
  fight := fun g d f due _ allowed => by
    have other : c ≠ d := fun own => allowed.elim (fun apart => apart own.symm) fun q => q rfl
    have fight : ((g.fought d f).blocks c).toFight = (g.blocks c).toFight := by
      rw [Server.fought, Server.setBlock_other _ _ other]
    exact due_same due fight (Nat.le_refl _)
  socket := fun _ _ _ due _ => due_idle due (idle_block rfl rfl rfl rfl) (Nat.le_refl _)
  save := fun g d due _ => by
    have asks := saved_later env d g
    obtain ⟨disk', asked, _, same⟩ := saved_disk env d g
    rw [same] at asks ⊢
    exact due_same due rfl asks
  world := fun _ _ due _ => due_same due rfl (Nat.le_refl _)
  ledger := fun _ _ due _ => due_same due rfl (Nat.le_refl _)
  grid := fun _ _ due _ => due_same due rfl (Nat.le_refl _)

theorem start_leads (env : Env) (c : Block) (g : Server) :
    Leads (· = g) (fun _ => True) (startFight env c) fun _ g' => ∃ m, g.asked ≤ m ∧ m < g'.asked ∧
      (g'.blocks c).lastTick = env.now m + combatMs := by
  have p := later_permits env g.asked
  have r := p.reports (d := c) trivial
  apply Leads.reads (rfl : session c g = .ok (g.blocks c, g))
  apply Leads.start (P := Later g.asked) (Nat.le_refl _)
  apply Leads.seq (Leads.stays (p.fights trivial trivial _))
  refine Leads.seq (Leads.stays (later_set fun _ => rfl)) ?_
  apply Leads.seq (Leads.stays (r.said (sound_lax id)))
  apply Leads.seq (Leads.stays (r.said (sound_lax id)))
  apply Leads.seq (Leads.stays r.vitals)
  apply Leads.bind (R := fun now g' => ∃ m, g.asked ≤ m ∧ m < g'.asked ∧ now = env.now m)
  · intro g₁ later
    exact ⟨g₁.asked, later, Nat.lt_succ_self _, rfl⟩
  · rintro now g₁ ⟨m, first, read, rfl⟩
    refine ⟨m, first, read, ?_⟩
    change ((g₁.fought c { (g₁.blocks c).toFight with lastTick := _ }).blocks c).lastTick = _
    rw [Server.fought, Server.setBlock_own]

theorem armed_due (clock : Clock env) {m : Nat} (past : ∀ n, g.asked ≤ n → b ≤ env.now n)
    (first : g.asked ≤ m) (read : m < g'.asked)
    (tick : (g'.blocks c).lastTick = env.now m + combatMs) : Due env c b g' where
  past := fun n after => past n (by omega)
  armed := by
    intro _
    have reached := past m first
    have fits := (clock m).2
    have two : combatMs = 2000 := rfl
    rw [tick]
    omega

theorem attack_due (clock : Clock env) (arg : Ptr) :
    Keeps (Due env c b) (fun _ => True) (cmdAttack env c arg) Any := by
  have p := due_permits env c b
  have r := p.reports (d := c) trivial
  apply Keeps.bind (p.reads c)
  intro s _
  apply Keeps.bind keeps_world
  intro w _
  apply Keeps.branch (r.said (sound_lax id))
  apply Keeps.branch _ (r.said (sound_lax id))
  apply Leads.kept
  intro g due
  have armed : Leads (· = g) (fun _ => True) (startFight env c) fun _ => Due env c b := by
    apply Leads.weaken (start_leads env c g)
    rintro _ g' ⟨m, first, read, tick⟩
    exact armed_due clock due.past first read tick
  exact armed g rfl

theorem spoken_due (clock : Clock env) {line : Bytes} {m : Act Unit}
    (said : Spoken env d line g m) :
    Keeps (Due env c b) (fun _ => True) m Any := by
  have p := due_permits env c b
  cases said with
  | shows quiet => exact quiet _ _ (p.reports trivial)
  | walks => exact p.move_kept trivial (.inr (by decide)) _
  | @runs arm arg _ _ =>
    by_cases attacks : arm = .attack ∧ d = c
    · obtain ⟨rfl, rfl⟩ := attacks
      exact attack_due clock arg
    · have within : arm.Within d (fun _ => True) (fun d q => d ≠ c ∨ q ≠ .fight) fun _ => True := by
        constructor
        · intro q written
          by_cases own : d = c
          · right
            rintro rfl
            have other : arm ≠ .attack := fun same => attacks ⟨same, own⟩
            cases arm <;> first | exact other rfl | exact absurd written (by decide)
          · exact .inl own
        · intro q reached e _
          right
          rintro rfl
          have shared := reaches_shared arm .fight reached
          cases shared
        · exact fun _ _ => trivial
      exact p.exec_kept trivial within (fun b _ => clean_lax b) nofun nofun fun _ _ => trivial

theorem round_fight {v v' : Scene} {n last : Nat} {ended : Option RoundEnd}
    (round : Round env d v n last ended v') :
    v'.fight = v.fight ∨ v'.fight = (v.calmed d).fight := by
  cases round with
  | idle => exact .inl rfl
  | hit => exact .inl rfl
  | died => exact .inr rfl
  | gone => exact .inr rfl
  | killed => exact .inr rfl

theorem scene_told (c : Block) {v : Scene} (same : g'.scene.fight = v.fight) :
    (g'.blocks c).toFight = v.fight c :=
  congrFun same c

theorem pulse_fight (pulse : Pulse env d now g g') :
    (g'.blocks c).toFight = (g.blocks c).toFight ∨
      (g'.blocks c).lastTick = now + combatMs := by
  have other {v : Scene} (apart : c ≠ d) (at_ms : Int) : (v.armed d at_ms).fight c = v.fight c :=
    v.fought_other _ apart
  by_cases own : c = d
  · subst own
    cases pulse with
    | rests _ _ same => exact .inl (scene_told c (congrArg Scene.fight same))
    | arms _ _ _ same =>
      right
      have fight := scene_told c (congrArg Scene.fight same)
      rw [Scene.armed, Scene.fought_own] at fight
      exact congrArg Fight.lastTick fight
    | swings _ round =>
      right
      rcases round_fight round with same | same
      · have fight := scene_told c same
        rw [Scene.armed, Scene.fought_own] at fight
        exact congrArg Fight.lastTick fight
      · have fight := scene_told c same
        rw [Scene.armed_calmed, Scene.fought_own] at fight
        exact congrArg Fight.lastTick fight
  · left
    cases pulse with
    | rests _ _ same => exact scene_told c (congrArg Scene.fight same)
    | arms _ _ _ same => exact (scene_told c (congrArg Scene.fight same)).trans (other own _)
    | swings _ round =>
      rcases round_fight round with same | same
      · exact (scene_told c same).trans (other own _)
      · exact (scene_told c same).trans (((Scene.fought_other _ _ own)).trans (other own _))

theorem strike_arms (pulse : Pulse env c now g g') (struck : strikes g c now = true) :
    (g'.blocks c).lastTick = now + combatMs := by
  simp only [strikes, Bool.and_eq_true, decide_eq_true_eq] at struck
  obtain ⟨⟨⟨fights, there⟩, armed⟩, reached⟩ := struck
  cases pulse with
  | rests why =>
    rcases why with calm | lost | early
    · exact absurd (fights.symm.trans calm) nofun
    · rw [lost] at there
      cases there
    · omega
  | arms _ unarmed => exact absurd unarmed armed
  | swings _ round =>
    rcases round_fight round with same | same
    · have fight := scene_told c same
      rw [Scene.armed, Scene.fought_own] at fight
      exact congrArg Fight.lastTick fight
    · have fight := scene_told c same
      rw [Scene.armed_calmed, Scene.fought_own] at fight
      exact congrArg Fight.lastTick fight

theorem pulse_due (due : Due env c b g) (later : g.asked ≤ g'.asked) (reached : b ≤ now)
    (fits : now < 2 ^ 63) (pulse : Pulse env d now g g') : Due env c b g' := by
  rcases pulse_fight (c := c) pulse with same | armed
  · exact due_same due same later
  · refine ⟨fun n after => due.past n (later.trans after), fun _ => ?_⟩
    have two : combatMs = 2000 := rfl
    rw [armed]
    omega

theorem strike_waits (due : Due env c b g) (positive : 0 ≤ b) (struck : strikes g c now = true)
    (moment : 0 ≤ now ∧ now < 2 ^ 63) : b + 2000 ≤ now := by
  simp only [strikes, Bool.and_eq_true, decide_eq_true_eq] at struck
  obtain ⟨⟨⟨fights, _⟩, _⟩, reached⟩ := struck
  obtain ⟨later, fits⟩ := due.armed fights
  rw [u64_small (by omega) fits, u64_small moment.1 (by omega)] at reached
  omega

/-- The pulses of one beat: a round that comes was due, there is at most one of each session,
and the next is held off. -/
structure Pulses (env : Env) (c : Block) (now : Int) (struck : List Block)
    (g g' : Server) : Prop where
  later : g.asked ≤ g'.asked
  stays : ∀ b, Due env c b g → b ≤ now → Due env c b g'
  waits : ∀ b, Due env c b g → 0 ≤ b → b ≤ now → c ∈ struck → b + 2000 ≤ now
  arms : c ∈ struck → Due env c now g'
  once : (struck.filter (· = c)).length ≤ 1

theorem pulses_none (now : Int) (g : Server) : Pulses env c now [] g g :=
  ⟨Nat.le_refl _, fun _ due _ => due, nofun, nofun, Nat.zero_le 1⟩

theorem pulses_trans {first second : List Block} {g₁ : Server} (moment : 0 ≤ now)
    (before : Pulses env c now first g g₁) (after : Pulses env c now second g₁ g') :
    Pulses env c now (first ++ second) g g' where
  later := before.later.trans after.later
  stays := fun b due reached => after.stays b (before.stays b due reached) reached
  waits := by
    intro b due positive reached member
    rcases List.mem_append.mp member with here | there
    · exact before.waits b due positive reached here
    · exact after.waits b (before.stays b due reached) positive reached there
  arms := by
    intro member
    rcases List.mem_append.mp member with here | there
    · exact after.stays now (before.arms here) (Int.le_refl now)
    · exact after.arms there
  once := by
    rw [List.filter_append, List.length_append]
    by_cases here : c ∈ first
    · have silent : second.filter (· = c) = [] := by
        rw [List.filter_eq_nil_iff]
        intro b member same
        have again : c ∈ second := of_decide_eq_true same ▸ member
        have waits := after.waits now (before.arms here) moment (Int.le_refl now) again
        omega
      rw [silent]
      exact before.once
    · have silent : first.filter (· = c) = [] := by
        rw [List.filter_eq_nil_iff]
        intro b member same
        exact here (of_decide_eq_true same ▸ member)
      rw [silent]
      simpa using after.once

theorem pulse_once (moment : 0 ≤ now ∧ now < 2 ^ 63) (later : g.asked ≤ g'.asked)
    (coming : ∀ n, g.asked ≤ n → now ≤ env.now n) (pulse : Pulse env d now g g') :
    Pulses env c now (if strikes g d now then [d] else []) g g' := by
  have stays (b : Int) (due : Due env c b g) (reached : b ≤ now) : Due env c b g' :=
    pulse_due due later reached moment.2 pulse
  by_cases struck : strikes g d now = true
  · rw [if_pos struck]
    refine ⟨later, stays, fun b due positive _ member => ?_, fun member => ?_, ?_⟩
    · cases List.mem_singleton.mp member
      exact strike_waits due positive struck moment
    · cases List.mem_singleton.mp member
      have tick := strike_arms pulse struck
      have two : combatMs = 2000 := rfl
      refine ⟨fun n after => coming n (later.trans after), fun _ => ?_⟩
      rw [tick]
      omega
    · exact List.length_filter_le _ _
  · rw [if_neg struck]
    exact ⟨later, stays, nofun, nofun, Nat.zero_le 1⟩

theorem pulses_due (moment : 0 ≤ now ∧ now < 2 ^ 63) (blocks : List Block) (g : Server)
    (coming : ∀ n, g.asked ≤ n → now ≤ env.now n) :
    Leads (· = g) (fun _ => True) (blocks.forM fun d => sessionPulse env d now) fun _ g' =>
      Pulses env c now (strikesIn env now blocks g) g g' := by
  induction blocks generalizing g with
  | nil =>
    rintro _ rfl
    exact pulses_none now _
  | cons d rest ih =>
    apply Leads.bind (Leads.runs (sessionPulse env d now) g)
    intro _ g₁ ended
    obtain ⟨later, pulse⟩ := (pulse_leads env d now g).result rfl ended
    have one := pulse_once (c := c) moment later coming pulse
    have coming₁ : ∀ n, g₁.asked ≤ n → now ≤ env.now n :=
      fun n after => coming n (later.trans after)
    have split : strikesIn env now (d :: rest) g =
        (if strikes g d now then [d] else []) ++ strikesIn env now rest g₁ := by
      rw [strikesIn, ended]
    have others : Leads (· = g₁) (fun _ => True) (rest.forM fun d => sessionPulse env d now)
        fun _ g' => Pulses env c now (strikesIn env now (d :: rest) g) g g' := by
      apply Leads.weaken (ih g₁ coming₁)
      intro _ g' others
      rw [split]
      exact pulses_trans moment.1 one others
    exact others g₁ rfl

theorem pulses_rest {m : Act Unit} {struck : List Block}
    (asks : ∀ n, Keeps (Later n) (fun _ => True) m Any)
    (dues : ∀ b, Keeps (Due env c b) (fun _ => True) m Any) :
    Leads (Pulses env c now struck g) (fun _ => True) m fun _ => Pulses env c now struck g := by
  intro g₂ pulses
  cases ended : m g₂ with
  | error fault => trivial
  | ok r =>
    have later := ((asks g₂.asked).result (Nat.le_refl _) ended).1
    have stays (b : Int) (due : Due env c b g₂) : Due env c b r.2 := ((dues b).result due ended).1
    exact ⟨pulses.later.trans later, fun b due reached => stays b (pulses.stays b due reached),
      pulses.waits, fun member => stays now (pulses.arms member), pulses.once⟩

theorem beat_due (clock : Clock env) (forward : ∀ m n, m ≤ n → env.now m ≤ env.now n) (g : Server) :
    Leads (· = g) (fun _ => True) (tickService env) fun _ g' =>
      Pulses env c (beatAt env g) (beatStrikes env g) { g with asked := g.asked + 1 } g' := by
  have p (b : Int) := due_permits env c b
  have q (n : Nat) := later_permits env n
  apply Leads.bind (R := fun now g' => now = beatAt env g ∧
    g' = ({ g with asked := g.asked + 1 } : Server))
  · rintro _ rfl
    exact ⟨rfl, rfl⟩
  intro now
  apply Leads.given
  rintro rfl
  apply Leads.seq (M := Pulses env c (beatAt env g) (beatStrikes env g)
    { g with asked := g.asked + 1 })
  · apply Leads.reads (rfl : inTable { g with asked := g.asked + 1 } =
      .ok (g.sessionTable.filterMap id, { g with asked := g.asked + 1 }))
    apply Leads.seq
      (pulses_due (clock g.asked) _ _ fun n after => forward _ _ (Nat.le_of_succ_le after))
    apply Leads.seq
    · exact pulses_rest (fun n => (q n).gate_kept (fun _ _ => trivial) trivial _) fun b =>
        (p b).gate_kept (fun _ _ => .inr (by decide)) trivial _
    · exact pulses_rest (fun n => (q n).on_world _ fun _ shut => absurd trivial shut) fun b =>
        (p b).on_world _ fun _ shut => absurd trivial shut
  · exact pulses_rest (fun n => (q n).federation_kept _) fun b => (p b).federation_kept _

theorem step_due (clock : Clock env) (forward : ∀ m n, m ≤ n → env.now m ≤ env.now n) {e : Event}
    (due : Due env c b g) (taken : step env g e = .ok g') : Due env c b g' := by
  have later := step_later taken
  have calm (idle : (g'.blocks c).inCombat = false) : Due env c b g' :=
    ⟨fun n after => due.past n (later.trans after),
      fun fights => absurd (fights.symm.trans idle) nofun⟩
  cases step_course taken with
  | @fresh d wsi _ _ same =>
    by_cases own : c = d
    · subst own
      apply calm
      obtain ⟨_, _, _, told, _⟩ := opened_own g c wsi
      rw [same, told]
      rfl
    · refine due_same due ?_ later
      rw [same, opened_other g wsi own]
  | @login d text s' disk' _ _ _ move like others =>
    by_cases own : c = d
    · subst own
      obtain ⟨_, _, _, told, _⟩ := like
      refine due_same due ?_ later
      have fight := login_fight move
      rw [told]
      exact fight
    · refine due_same due ?_ later
      rw [others c own]
  | @command d line wsi m _ _ said ended =>
    have heard : Due env c b (g.setWsi d wsi) :=
      due_idle due (idle_block rfl rfl rfl rfl) (Nat.le_refl _)
    exact ((spoken_due clock said).result heard ended).1
  | beat _ _ ended =>
    have pulses := (beat_due (c := c) clock forward g).result rfl ended
    have asking : Due env c b { g with asked := g.asked + 1 } := due_same due rfl (Nat.le_succ _)
    exact pulses.stays b asking (due.past g.asked (Nat.le_refl _))
  | quiet idle => exact due_idle due idle later

theorem fight_owed (clock : Clock env) (forward : ∀ m n, m ≤ n → env.now m ≤ env.now n) {e : Event}
    (starts : startsFight g c e = true) (taken : step env g e = .ok g') :
    Due env c (env.now g.asked) g' := by
  obtain ⟨line, arg, given, runs, calm, here⟩ := starts_fight_line starts
  obtain ⟨wsi, ended⟩ := runs_step given runs taken
  have own : (g.setWsi c wsi).blocks c = { g.blocks c with wsi := wsi } := g.setBlock_own ..
  have started : cmdAttack env c arg (g.setWsi c wsi) = startFight env c (g.setWsi c wsi) := by
    unfold cmdAttack
    rw [bind_ok (rfl : session c (g.setWsi c wsi) = .ok ((g.setWsi c wsi).blocks c, _)),
      bind_ok (rfl : getWorld (g.setWsi c wsi) = .ok (g.world, _)), own]
    simp only [calm, Bool.false_eq_true, if_false]
    exact congrFun (if_pos here) _
  obtain ⟨m, first, read, tick⟩ :=
    (start_leads env c (g.setWsi c wsi)).result rfl (started.symm.trans ended)
  exact armed_due clock (fun n after => forward _ _ after) first read tick

theorem line_kept {I : Server → Prop} {may : Block → Part → Prop} {free : Table → Prop}
    (p : Permits False env (fun _ => True) (fun _ => True) may free I) (place : may c .place)
    (holds : I g) {line : Bytes} (arms : ∀ arm arg, RunsArm g c line arm arg →
      Leads (· = g) (fun _ => True) (exec env c arg arm) fun _ => I) :
    Leads (· = g) (fun _ => True) (worldCommand env c line) fun _ => I := by
  have r := p.reports (d := c) trivial
  have quiet {m : Act Unit} (kept : Keeps I (fun _ => True) m Any) :
      Leads (· = g) (fun _ => True) m fun _ => I := Leads.start holds (Leads.stays kept)
  apply Leads.ite
  · exact fun _ => quiet r.scene_now
  intro looks
  apply Leads.ite
  · exact fun _ => quiet (r.look_kept _)
  intro at_one
  apply Leads.reads (rfl : session c g = .ok (g.blocks c, g))
  cases moved : roomMove (g.blocks c).room (heading line) with
  | there room => exact quiet (p.move_kept trivial place room)
  | noExit => exact quiet r.cant_move_kept
  | unknown =>
    simp only [notMovement]
    cases parsed : parse line with
    | none => exact quiet r.unknown_kept
    | some found => exact arms _ _ ⟨looks, by simpa using at_one, moved, parsed⟩

/-- A command other than an attack leaves every fight alone. -/
theorem spares_fight {arm : Arm} (attacks : arm ≠ .attack) : arm.Within c (fun _ => True)
    (fun d q => d ≠ c ∨ q ≠ .fight) fun _ => True := by
  constructor
  · intro q written
    right
    rintro rfl
    cases arm <;> first | exact attacks rfl | exact absurd written (by decide)
  · intro q reached d _
    right
    rintro rfl
    cases reaches_shared arm .fight reached
  · exact fun _ _ => trivial

/-- A line that starts no fight of its player leaves him at peace. -/
theorem line_peace {line : Bytes} (calm : AtPeace c g)
    (idle : ∀ arg, RunsArm g c line .attack arg →
      (ratHere (g.blocks c) g.world && arg.any namesRat) = false) :
    Leads (· = g) (fun _ => True) (worldCommand env c line) fun _ => AtPeace c := by
  have p := peace_permits env c
  have r := p.reports (d := c) trivial
  have quiet {m : Act Unit} (kept : Keeps (AtPeace c) (fun _ => True) m Any) :
      Leads (· = g) (fun _ => True) m fun _ => AtPeace c :=
    Leads.start calm (Leads.stays kept)
  apply line_kept p (.inr (by decide)) calm
  intro arm arg runs
  by_cases attacks : arm = .attack
  · subst attacks
    apply Leads.reads (rfl : session c g = .ok (g.blocks c, g))
    apply Leads.reads (rfl : getWorld g = .ok (g.world, g))
    apply Leads.ite
    · exact fun _ => quiet (r.said (sound_lax id))
    intro _
    apply Leads.ite
    · exact fun here => absurd (here.symm.trans (idle arg runs)) nofun
    · exact fun _ => quiet (r.said (sound_lax id))
  · apply quiet
    exact p.exec_kept trivial (spares_fight attacks) (fun b _ => clean_lax b) nofun nofun
      fun _ _ => trivial

/-- A pulse of another leaves alone what its permissions spare of c, and one of c does nothing
while c is at peace. -/
theorem peaceful_pulse {may : Block → Part → Prop} {free : Table → Prop} {I : Server → Prop}
    (p : Permits False env (fun _ => True) (fun _ => True) may free I)
    (others : ∀ d, d ≠ c → ∀ q, may d q) (rat : free .rat) (calm : ∀ g, I g → AtPeace c g)
    (d : Block) (now : Int) : Keeps I (fun _ => True) (sessionPulse env d now) Any := by
  by_cases own : d = c
  · subst own
    apply Leads.kept
    intro g held
    refine (?_ : Leads (· = g) (fun _ => True) (sessionPulse env d now) fun _ => I) g rfl
    apply Leads.reads (rfl : (get : Act Server) g = .ok (g, g))
    have peace : (g.blocks d).inCombat = false := calm g held
    rw [if_pos peace]
    exact Leads.start held (Leads.stays (q := Any) (Keeps.pure trivial))
  · have free_of := others d own
    exact p.pulse_kept trivial (free_of .life) (free_of .place) (free_of .fight) rat now

theorem peaceful_beat {may : Block → Part → Prop} {free : Table → Prop} {I : Server → Prop}
    (p : Permits False env (fun _ => True) (fun _ => True) may free I)
    (others : ∀ d, d ≠ c → ∀ q, may d q) (life : may c .life) (rat : free .rat)
    (clock : free .clock) (calm : ∀ g, I g → AtPeace c g) :
    Keeps I (fun _ => True) (tickService env) Any := by
  have lives (d : Block) : may d .life := by
    by_cases own : d = c
    · exact own ▸ life
    · exact others d own .life
  apply Keeps.bind p.times
  intro now _
  apply Keeps.seq _ (p.federation_kept now)
  apply Keeps.bind p.in_table
  intro blocks _
  apply Keeps.seq (Keeps.for_each fun d _ => peaceful_pulse p others rat calm d now)
  exact Keeps.seq (p.gate_kept (fun d _ => lives d) clock now) (p.respawn_kept rat now)

theorem beat_peace : Keeps (AtPeace c) (fun _ => True) (tickService env) Any :=
  peaceful_beat (peace_permits env c) (fun _ other _ => .inl other) (.inr (by decide)) trivial
    trivial fun _ calm => calm

theorem given_peace {e : Event} {line : Bytes} (given : Delivered g e c line)
    (taken : step env g e = .ok g') (calm : AtPeace c g) (idle : ¬startsFight g c e = true) :
    AtPeace c g' := by
  obtain ⟨wsi, ran⟩ := delivered_run env given
  have ended := map_ok (ran.symm.trans taken)
  have own : (g.setWsi c wsi).blocks c = { g.blocks c with wsi := wsi } := g.setBlock_own ..
  have still : AtPeace c (g.setWsi c wsi) := by
    rw [AtPeace, own]
    exact calm
  refine (line_peace still fun arg runs => ?_).result rfl ended
  have stays := runs.stays
  rw [own] at stays ⊢
  have found := arm_run_iff.mpr (⟨runs.looks, runs.at_one, stays, runs.parsed⟩ :
    RunsArm g c line .attack arg)
  have starts : startsFight g c e =
      (!(g.blocks c).inCombat && (ratHere (g.blocks c) g.world && arg.any namesRat)) := by
    rw [startsFight, line_for_iff.mpr given, Option.bind_some, found]
  rw [starts, show (g.blocks c).inCombat = false from calm, Bool.not_false, Bool.true_and] at idle
  exact Bool.eq_false_iff.mpr idle

/-- A fight begins with an attack of its player. -/
theorem fight_begun {e : Event} (taken : step env g e = .ok g')
    (calm : (g.blocks c).inCombat = false) (fights : (g'.blocks c).inCombat = true) :
    startsFight g c e = true := by
  have same_fight (same : (g'.blocks c).toFight = (g.blocks c).toFight) :
      startsFight g c e = true := by
    have still := (congrArg Fight.inCombat same).trans calm
    exact absurd (fights.symm.trans still) nofun
  cases step_course taken with
  | @fresh d wsi _ _ same =>
    by_cases own : c = d
    · subst own
      obtain ⟨_, _, _, told, _⟩ := opened_own g c wsi
      rw [same, told] at fights
      cases fights
    · apply same_fight
      rw [same, opened_other g wsi own]
  | @login d text s' disk' _ _ _ move like others =>
    apply same_fight
    by_cases own : c = d
    · subst own
      obtain ⟨_, _, _, told, _⟩ := like
      have fight := login_fight move
      rw [told]
      exact fight
    · rw [others c own]
  | @command d line wsi m given played said ended =>
    by_cases own : c = d
    · subst own
      by_cases starts : startsFight g c e = true
      · exact starts
      · have peace := given_peace given taken calm starts
        exact absurd (fights.symm.trans peace) nofun
    · apply same_fight
      have framed := others_framed said ended
      have heard : Idle g (g.setWsi d wsi) := idle_block rfl rfl rfl rfl
      exact (framed.fights c (by simp [around, own, Part.shared])).trans (heard.fight c)
  | beat _ _ ended =>
    have still := (beat_peace.result (I := AtPeace c) calm ended).1
    exact absurd (fights.symm.trans still) nofun
  | quiet idle => exact same_fight (idle.fight c)

theorem blows_none (c : Block) (n : Nat) (g : Server) : Blows c n g g where
  hurt := fun fights => ⟨fights, 0, Nat.zero_le n, by simp⟩
  spared := fun _ fights => fights

theorem blows_trans {n m : Nat} {g₁ : Server} (before : Blows c n g g₁) (after : Blows c m g₁ g') :
    Blows c (n + m) g g' where
  hurt := by
    intro fights
    obtain ⟨fought, k, few, hurt⟩ := after.hurt fights
    obtain ⟨fighting, j, fewer, wound⟩ := before.hurt fought
    exact ⟨fighting, j + k, by omega, by omega⟩
  spared := fun none fights => after.spared (by omega) (before.spared (by omega) fights)

theorem blows_permits (env : Env) (c : Block) (n : Nat) (g : Server) :
    Permits False env (fun _ => True) (fun _ => True) (fun d q => d ≠ c ∨ (q ≠ .fight ∧ q ≠ .life))
      (fun _ => True) (Blows c n g) :=
  lasting_permits env fun g₁ g₂ framed blows => by
    have fight := congrArg Fight.inCombat (framed.fights c (by simp))
    have life := congrArg Character.hp (framed.parts c .life (by simp))
    change (g₂.blocks c).hp = (g₁.blocks c).hp at life
    constructor
    · intro fights
      rw [life]
      exact blows.hurt (fight.symm.trans fights)
    · exact fun none fights => fight.trans (blows.spared none fights)

theorem blows_over {n : Nat} (peace : AtPeace c g') : Blows c (n + 1) g g' where
  hurt := fun fights => absurd (fights.symm.trans peace) nofun
  spared := nofun

theorem calmed_peace {v : Scene} (ends : g'.scene.fight = (v.calmed c).fight) : AtPeace c g' := by
  have fight := scene_told c ends
  rw [Scene.calmed, Scene.fought_own] at fight
  exact congrArg Fight.inCombat fight

theorem killed_peace (env : Env) (c : Block) :
    Leads (fun _ => True) (fun _ => True) (ratKilled env c) fun _ => AtPeace c := by
  intro g _
  have killed : Leads (Shows g.scene g.asked) (fun _ => True) (ratKilled env c) _ :=
    rat_killed_leads
  have led := Leads.start (P := Shows g.scene g.asked) ⟨rfl, Nat.le_refl _⟩ killed
  apply Leads.weaken led _ g rfl
  rintro _ g' ⟨m, k₁, k₂, _, _, _, _, shown⟩
  have ends : g'.scene.fight = (g.scene.calmed c).fight := by rw [shown]
  exact calmed_peace ends

theorem died_peace (env : Env) (c : Block) :
    Leads (fun _ => True) (fun _ => True) (playerDied env c) fun _ => AtPeace c := by
  intro g _
  have died : Leads (Shows g.scene g.asked) (fun _ => True) (playerDied env c) _ :=
    player_died_leads
  have led := Leads.start (P := Shows g.scene g.asked) ⟨rfl, Nat.le_refl _⟩ died
  exact Leads.weaken led (fun _ _ shown => calmed_peace (congrArg Scene.fight shown.1)) g rfl

/-- An exchange that both live through costs the player four points. -/
theorem exchange_blows (env : Env) (c : Block) (g : Server) :
    Leads (· = g) (fun _ => True) (exchange env c) fun _ => Blows c 1 g := by
  have p := blows_permits env c 1 g
  have r := p.reports (d := c) trivial
  apply Leads.reads (rfl : session c g = .ok (g.blocks c, g))
  apply Leads.reads (rfl : getWorld g = .ok (g.world, g))
  apply Leads.seq (M := (·.blocks = g.blocks))
  · apply Leads.modify
    rintro _ rfl
    rfl
  apply Leads.seq (M := Blows c 1 g)
  · apply Leads.modify
    intro g₁ same
    rw [Server.updated, same]
    constructor
    · rw [Server.setBlock_own]
      intro fights
      by_cases hit : 0 < max 0 (g.world.ratHp - playerDamage (g.blocks c))
      · refine ⟨fights, 1, Nat.le_refl 1, ?_⟩
        simp only [if_pos hit]
        rfl
      · refine ⟨fights, 0, Nat.zero_le 1, ?_⟩
        simp only [if_neg hit]
        rfl
    · intro none
      cases none
  apply Leads.seq (Leads.stays (r.said (sound_lax id)))
  have decides {m : Act Unit} (ends : Leads (fun _ => True) (fun _ => True) m fun _ => AtPeace c) :
      Leads (Blows c 1 g) (fun _ => True) m fun _ => Blows c 1 g :=
    fun g₁ _ => Leads.weaken ends (fun _ _ peace => blows_over peace) g₁ trivial
  apply Leads.ite
  · exact fun _ => decides (killed_peace env c)
  intro _
  apply Leads.ite
  · exact fun _ => decides (died_peace env c)
  · exact fun _ => Leads.stays r.vitals

theorem round_blows (env : Env) (c : Block) (g : Server) :
    Leads (· = g) (fun _ => True) (combatRound env c) fun _ => Blows c 1 g := by
  have r := (peace_permits env c).reports (d := c) trivial
  apply Leads.reads (rfl : session c g = .ok (g.blocks c, g))
  apply Leads.reads (rfl : getWorld g = .ok (g.world, g))
  apply Leads.ite
  · intro _
    apply Leads.pure
    rintro _ rfl
    exact blows_none c 1 _
  intro _
  apply Leads.ite
  · exact fun _ => exchange_blows env c g
  intro _
  apply Leads.seq (M := AtPeace c)
  · apply Leads.weaken (Leads.start ⟨rfl, Nat.le_refl _⟩ (shows_calm c g.scene g.asked))
    exact fun _ _ shown => calmed_peace (congrArg Scene.fight shown.1)
  · apply Leads.weaken (Leads.stays (Keeps.seq (r.said (sound_lax id)) r.vitals))
    exact fun _ _ peace => blows_over peace

theorem pulse_blows (env : Env) (c : Block) (now : Int) (g : Server) :
    Leads (· = g) (fun _ => True) (sessionPulse env c now) fun _ =>
      Blows c (if strikes g c now then 1 else 0) g := by
  have p (n : Nat) := blows_permits env c n g
  apply Leads.reads (rfl : (get : Act Server) g = .ok (g, g))
  have rests {n : Nat} : Leads (· = g) (fun _ => True) (Pure.pure () : Act Unit) fun _ =>
      Blows c n g := by
    apply Leads.pure
    rintro _ rfl
    exact blows_none c n _
  apply Leads.ite (fun _ => rests)
  intro fights
  cases found : g.socketOf c with
  | none => exact rests
  | some wsi =>
    have heard : Blows c 0 g (g.setWsi c wsi) := (p 0).socket g c wsi (blows_none c 0 g) trivial
    have own : (g.setWsi c wsi).blocks c = { g.blocks c with wsi := wsi } := g.setBlock_own ..
    have armed (at_ms : Int) : Leads (· = g.setWsi c wsi) (fun _ => True) (armAt c at_ms) fun _ =>
        Blows c 0 g := by
      apply Leads.reads (rfl : session c (g.setWsi c wsi) = .ok ((g.setWsi c wsi).blocks c, _))
      apply Leads.modify
      rintro _ rfl
      have fought {t : Fight} (same : t.inCombat = (g.blocks c).inCombat) :
          Blows c 0 g ((g.setWsi c wsi).fought c t) := by
        rw [Server.fought]
        constructor
        · rw [Server.setBlock_own, own]
          exact fun on => ⟨same.symm.trans on, 0, Nat.le_refl 0, by simp⟩
        · rw [Server.setBlock_own]
          exact fun _ on => same.trans on
      rw [own]
      exact fought rfl
    apply Leads.seq (M := (· = g.setWsi c wsi))
    · apply Leads.modify
      rintro _ rfl
      rfl
    apply Leads.reads (rfl : session c (g.setWsi c wsi) = .ok ((g.setWsi c wsi).blocks c, _))
    rw [own]
    have spared {n : Nat} {g₁ : Server} (blows : Blows c 0 g g₁) : Blows c n g g₁ :=
      n.zero_add ▸ blows_trans blows (blows_none c n g₁)
    apply Leads.ite
    · exact fun _ => Leads.weaken (armed _) fun _ _ blows => spared blows
    intro set
    apply Leads.ite
    · intro _
      apply Leads.pure
      rintro _ rfl
      exact spared heard
    intro due
    have struck : strikes g c now = true := by
      simp only [strikes, Bool.and_eq_true, decide_eq_true_eq, found, Option.isSome_some]
      exact ⟨⟨⟨by simpa using fights, trivial⟩, set⟩, Int.not_lt.mp due⟩
    rw [if_pos struck]
    apply Leads.seq (armed _)
    intro g₁ blows
    exact Leads.weaken (round_blows env c g₁) (fun _ _ after => blows_trans blows after) g₁ rfl

theorem pulses_blows (now : Int) (blocks : List Block) (g : Server) :
    Leads (· = g) (fun _ => True) (blocks.forM fun d => sessionPulse env d now) fun _ =>
      Blows c ((strikesIn env now blocks g).filter (· = c)).length g := by
  induction blocks generalizing g with
  | nil =>
    rintro _ rfl
    exact blows_none c 0 _
  | cons d rest ih =>
    apply Leads.bind (Leads.runs (sessionPulse env d now) g)
    intro _ g₁ ended
    have one : Blows c ((if strikes g d now then [d] else []).filter (· = c)).length g g₁ := by
      by_cases own : d = c
      · subst own
        have blows := (pulse_blows env d now g).result rfl ended
        split at blows <;> rename_i struck <;> simpa [struck] using blows
      · have p := blows_permits env c 0 g
        have kept := p.pulse_kept (c := d) trivial (.inl own) (.inl own) (.inl own) trivial now
        have blows := (kept.result (blows_none c 0 g) ended).1
        split <;> simpa [own] using blows
    have split : strikesIn env now (d :: rest) g =
        (if strikes g d now then [d] else []) ++ strikesIn env now rest g₁ := by
      rw [strikesIn, ended]
    have others : Leads (· = g₁) (fun _ => True) (rest.forM fun d => sessionPulse env d now)
        fun _ => Blows c ((strikesIn env now (d :: rest) g).filter (· = c)).length g := by
      apply Leads.weaken (ih g₁)
      intro _ g₂ after
      rw [split, List.filter_append, List.length_append]
      exact blows_trans one after
    exact others g₁ rfl

/-- A fight that is over stays over while the world ticks. -/
theorem blows_turn (d : Block) {n : Nat} :
    Keeps (Blows c n g) (fun _ => True) (tickSession d) Any := by
  have p := blows_permits quietNode c n g
  by_cases own : d = c
  · subst own
    apply Leads.kept
    intro g₁ blows
    refine (?_ : Leads (· = g₁) (fun _ => True) (tickSession d) fun _ => Blows d n g) g₁ rfl
    cases on : (g₁.blocks d).inCombat with
    | false =>
      have calm := (peace_permits quietNode d).tick_session_kept (c := d) trivial (.inr (by decide))
      apply Leads.weaken (Leads.start (P := AtPeace d) on (Leads.stays calm))
      intro _ g₂ peace
      constructor
      · exact fun fights => absurd (fights.symm.trans peace) nofun
      · exact fun none fights => absurd ((blows.spared none fights).symm.trans on) nofun
    | true =>
      apply Leads.reads (rfl : (get : Act Server) g₁ = .ok (g₁, g₁))
      apply Leads.start blows
      cases g₁.socketOf d with
      | none => exact Leads.stays (q := Any) (Keeps.pure trivial)
      | some wsi =>
        apply Leads.seq (Leads.stays (p.sockets trivial wsi))
        rw [if_pos on]
        exact Leads.stays (q := Any) (Keeps.pure trivial)
  · exact p.tick_session_kept trivial (.inl own)

theorem blows_gate (now : Int) {n : Nat} :
    Keeps (Blows c n g) (fun _ => True) (worldGate now) Any := by
  have p := blows_permits quietNode c n g
  apply Keeps.bind keeps_world
  intro w _
  apply Keeps.branch (Keeps.pure trivial)
  apply Keeps.seq (p.on_world _ fun _ shut => absurd trivial shut)
  apply Keeps.bind p.in_table
  intro blocks _
  exact Keeps.for_each fun d _ => blows_turn d

theorem beat_blows (env : Env) (c : Block) (g : Server) :
    Leads (· = g) (fun _ => True) (tickService env) fun _ =>
      Blows c ((beatStrikes env g).filter (· = c)).length g := by
  have p := blows_permits env c ((beatStrikes env g).filter (· = c)).length g
  apply Leads.bind (R := fun now g' => now = beatAt env g ∧
    g' = ({ g with asked := g.asked + 1 } : Server))
  · rintro _ rfl
    exact ⟨rfl, rfl⟩
  intro now
  apply Leads.given
  rintro rfl
  apply Leads.seq _ (Leads.stays (p.federation_kept _))
  apply Leads.reads (rfl : inTable { g with asked := g.asked + 1 } =
    .ok (g.sessionTable.filterMap id, { g with asked := g.asked + 1 }))
  apply Leads.seq (M := Blows c ((beatStrikes env g).filter (· = c)).length g)
  · apply Leads.weaken (pulses_blows _ _ _)
    intro _ g' blows
    exact { blows with }
  apply Leads.seq (Leads.stays (blows_gate _))
  exact Leads.stays (p.respawn_kept trivial _)

theorem spoken_fights {line : Bytes} {m : Act Unit} (said : Spoken env c line g m) :
    Keeps (fun g' : Server => (g'.blocks c).inCombat = true) (fun _ => True) m Any := by
  have p : Permits False env (fun _ => True) (fun _ => True) (fun d q => d ≠ c ∨ q ≠ .fight)
      (fun _ => True) fun g' : Server => (g'.blocks c).inCombat = true :=
    lasting_permits env fun g₁ g₂ framed on =>
      (congrArg Fight.inCombat (framed.fights c (by simp))).trans on
  have r := p.reports (d := c) trivial
  cases said with
  | shows quiet => exact quiet _ _ r
  | walks => exact p.move_kept trivial (.inr (by decide)) _
  | @runs arm arg _ _ =>
    by_cases attacks : arm = .attack
    · subst attacks
      apply Leads.kept
      intro g₁ on
      refine (?_ : Leads (· = g₁) (fun _ => True) (cmdAttack env c arg) fun _ g' =>
        (g'.blocks c).inCombat = true) g₁ rfl
      apply Leads.reads (rfl : session c g₁ = .ok (g₁.blocks c, g₁))
      apply Leads.reads (rfl : getWorld g₁ = .ok (g₁.world, g₁))
      apply Leads.ite
      · exact fun _ => Leads.start on (Leads.stays (r.said (sound_lax id)))
      · exact fun off => absurd on off
    · apply p.exec_kept trivial _ (fun b _ => clean_lax b) nofun nofun fun _ _ => trivial
      exact spares_fight attacks

theorem round_struck {e : Event} (taken : step env g e = .ok g')
    (round : hadRound c g g' e = true) : e = .tick ∧ c ∈ beatStrikes env g := by
  cases e with
  | message d text =>
    simp only [hadRound, Bool.and_eq_true, Bool.or_eq_true, decide_eq_true_eq] at round
    obtain ⟨rfl, hit⟩ := round
    have spared (rat : Table.rat.ofWorld g'.world = Table.rat.ofWorld g.world)
        (on : (g.blocks d).inCombat = true → (g'.blocks d).inCombat = true) : False := by
      have hp := congrArg World.ratHp rat
      have alive := congrArg World.ratAlive rat
      rcases hit with (moved | killed) | ⟨before, after⟩
      · exact moved hp
      · exact killed alive
      · rw [on before] at after
        cases after
    have same (world : g'.world = g.world) (fight : (g'.blocks d).toFight = (g.blocks d).toFight) :
        False :=
      spared (congrArg Table.rat.ofWorld world) fun on => (congrArg Fight.inCombat fight).trans on
    exfalso
    cases step_course taken with
    | fresh same => cases same
    | @login b text' s' disk' own _ _ move like _ world =>
      cases own
      obtain ⟨_, _, _, told, _⟩ := like
      have fight := login_fight move
      apply same world
      rw [told]
      exact fight
    | @command b line wsi m given _ said ended =>
      obtain ⟨_, own, _⟩ := given
      cases own
      have heard : Idle g (g.setWsi d wsi) := idle_block rfl rfl rfl rfl
      have framed : Framed (fun _ _ => True) (· ≠ .rat) (g.setWsi d wsi) g' := by
        apply spoken_framed said ended trivial
        intro arm arg _ _
        refine ⟨fun _ _ => trivial, fun _ _ _ _ => trivial, fun t written => ?_⟩
        rintro rfl
        cases arm <;> exact absurd written (by decide)
      apply spared (framed.world .rat (by simp))
      intro on
      have still := (congrArg Fight.inCombat (heard.fight d)).trans on
      exact ((spoken_fights said).result still ended).1
    | beat tick => cases tick
    | quiet idle => exact same idle.world (idle.fight d)
  | tick =>
    have ended := map_ok (taken : (tickService env g).map Prod.snd = .ok g')
    have blows := (beat_blows env c g).result rfl ended
    refine ⟨rfl, ?_⟩
    by_contra away
    have silent : (beatStrikes env g).filter (· = c) = [] := by
      rw [List.filter_eq_nil_iff]
      intro b member same
      exact away (of_decide_eq_true same ▸ member)
    rw [silent] at blows
    simp only [hadRound, Bool.and_eq_true, Bool.or_eq_true, decide_eq_true_eq,
      Bool.not_eq_true'] at round
    obtain ⟨fights, hit⟩ := round
    have on := blows.spared rfl fights
    obtain ⟨_, k, none, hurt⟩ := blows.hurt on
    rcases hit with moved | calm
    · cases Nat.le_zero.mp none
      exact moved (hurt.trans (by simp))
    · exact absurd (on.symm.trans calm) nofun
  | connect => cases round
  | writable => cases round
  | close => cases round

theorem mark_cases {e : Event} {mark : Mark} (member : mark ∈ marks env c g e) :
    (startsFight g c e = true ∧ mark = .attack (env.now g.asked)) ∨
      (e = .tick ∧ c ∈ beatStrikes env g ∧ mark = .round (beatAt env g)) := by
  unfold marks at member
  cases taken : step env g e with
  | error fault =>
    rw [taken] at member
    cases member
  | ok g' =>
    rw [taken] at member
    rcases List.mem_append.mp member with attack | round
    · split at attack
      · rename_i begins
        rw [Bool.and_eq_true, Bool.not_eq_true'] at begins
        exact .inl ⟨fight_begun taken begins.1 begins.2, List.mem_singleton.mp attack⟩
      · cases attack
    · split at round
      · rename_i had
        obtain ⟨tick, struck⟩ := round_struck taken had
        exact .inr ⟨tick, struck, List.mem_singleton.mp round⟩
      · cases round

theorem marks_single (env : Env) (c : Block) (g : Server) (e : Event) :
    (marks env c g e).Pairwise HoldsOff := by
  unfold marks
  cases taken : step env g e with
  | error fault => exact .nil
  | ok g' =>
    have one {p : Bool} {mark : Mark} :
        (if p = true then [mark] else []).Pairwise HoldsOff := by
      split
      · exact List.pairwise_singleton ..
      · exact .nil
    refine List.pairwise_append.mpr ⟨one, one, fun a first b second => ?_⟩
    have attack : a ∈ marks env c g e := by
      rw [marks, taken]
      exact List.mem_append_left _ first
    have round : b ∈ marks env c g e := by
      rw [marks, taken]
      exact List.mem_append_right _ second
    rcases mark_cases attack with ⟨starts, rfl⟩ | ⟨_, _, rfl⟩
    · rcases mark_cases round with ⟨_, rfl⟩ | ⟨rfl, _, _⟩
      · exact nofun
      · cases starts
    · split at first
      · cases List.mem_singleton.mp first
      · cases first

/-- The log of the fights of a session is spaced, event by event. -/
theorem marks_spaced (clock : Clock env) (forward : ∀ m n, m ≤ n → env.now m ≤ env.now n)
    (c : Block) : Machine.Spaced (step env) (marks env c) (fun _ _ => True) (fun _ => True)
      (fun mark g => 0 ≤ mark.at_ms ∧ Due env c mark.at_ms g) HoldsOff where
  keeps := fun _ _ _ _ _ _ => trivial
  within := fun g e _ _ _ => marks_single env c g e
  due := by
    rintro g e g' _ taken mark ⟨positive, due⟩ mark' member at_ms rfl
    rcases mark_cases member with ⟨_, attack⟩ | ⟨rfl, struck, round⟩
    · cases attack
    · cases round
      have ended := map_ok (taken : (tickService env g).map Prod.snd = .ok g')
      have pulses := (beat_due (c := c) clock forward g).result rfl ended
      have asking : Due env c mark.at_ms { g with asked := g.asked + 1 } :=
        due_same due rfl (Nat.le_succ _)
      exact pulses.waits _ asking positive (due.past g.asked (Nat.le_refl _)) struck
  owes := by
    intro g e g' _ _ taken mark member
    refine ⟨?_, ?_⟩
    · rcases mark_cases member with ⟨_, rfl⟩ | ⟨_, _, rfl⟩
      · exact (clock g.asked).1
      · exact (clock g.asked).1
    · rcases mark_cases member with ⟨starts, rfl⟩ | ⟨rfl, struck, rfl⟩
      · exact fight_owed clock forward starts taken
      · have ended := map_ok (taken : (tickService env g).map Prod.snd = .ok g')
        exact ((beat_due clock forward g).result rfl ended).arms struck
  stays := by
    rintro g e g' _ _ taken mark ⟨positive, due⟩
    exact ⟨positive, step_due clock forward due taken⟩

theorem beat_hurts (clock : Clock env) (forward : ∀ m n, m ≤ n → env.now m ≤ env.now n)
    (taken : step env g .tick = .ok g') (fights : (g'.blocks c).inCombat = true) :
    (g'.blocks c).hp = (g.blocks c).hp ∨ (g'.blocks c).hp = (g.blocks c).hp - 4 := by
  have ended := map_ok (taken : (tickService env g).map Prod.snd = .ok g')
  have once := ((beat_due (c := c) clock forward g).result rfl ended).once
  obtain ⟨_, k, few, hurt⟩ := ((beat_blows env c g).result rfl ended).hurt fights
  omega

/-- Over every run, a round of a session comes no sooner than two seconds after each of its
attacks and rounds before it. No fight begins but with an attack of its player, and a beat that a
fight outlasts costs the player nothing or the four points of one round. -/
theorem swings_spaced (env : Env) (clock : Clock env)
    (forward : ∀ m n, m ≤ n → env.now m ≤ env.now n) (disk : Disk) (events : List Event)
    (g : Server)
    (reached : Machine.Reaches (step env) (boot env disk) events g) (c : Block) :
    (Machine.log (step env) (marks env c) (boot env disk) events).Pairwise HoldsOff ∧
    (∀ e g', step env g e = .ok g' → (g.blocks c).inCombat = false →
      (g'.blocks c).inCombat = true →
      ∃ line arg, Delivered g e c line ∧ RunsArm g c line .attack arg) ∧
    ∀ g', step env g .tick = .ok g' → (g'.blocks c).inCombat = true →
      (g'.blocks c).hp = (g.blocks c).hp ∨ (g'.blocks c).hp = (g.blocks c).hp - 4 := by
  refine ⟨Machine.spaced_log (marks_spaced clock forward c) trivial (fun _ _ _ _ _ _ => trivial)
    reached, fun e g' taken calm fights => ?_, fun g' taken => beat_hurts clock forward taken⟩
  obtain ⟨line, arg, given, runs, _⟩ := starts_fight_line (fight_begun taken calm fights)
  exact ⟨line, arg, given, runs⟩

theorem attack_to_round {start : Server} {front mid : List Event} {e : Event} {g₁ g₂ : Server}
    (spaced : (Machine.log (step env) (marks env c) start (front ++ e :: mid ++ [.tick])).Pairwise
      HoldsOff) (reached₁ : Machine.Reaches (step env) start front g₁)
    (reached₂ : Machine.Reaches (step env) start (front ++ e :: mid) g₂)
    (attacked : Mark.attack (env.now g₁.asked) ∈ marks env c g₁ e)
    (rounds : Mark.round (env.now g₂.asked) ∈ marks env c g₂ .tick) :
    env.now g₁.asked + 2000 ≤ env.now g₂.asked := by
  rw [Machine.log_snoc _ _ _ reached₂, Machine.log_append _ _ _ reached₁,
    List.pairwise_append] at spaced
  exact spaced.2.2 _ (List.mem_append_right _ (Machine.mem_log_first mid attacked)) _ rounds _ rfl

end Dues

def comesDown : List Event := returns 0 (str "ada") ++ [.message 0 (str "down")]

/-- An attack and the round that the second beat after it makes. -/
theorem swings_spaced_hunt : ∃ g₁ g₂,
    Machine.Reaches (step tickingNode) (boot tickingNode sharedDisk) comesDown g₁ ∧
    Machine.Reaches (step tickingNode) (boot tickingNode sharedDisk)
      (comesDown ++ [.message 0 (str "attack rat"), .tick]) g₂ ∧
    tickingNode.now g₁.asked + 2000 ≤ tickingNode.now g₂.asked := by
  obtain ⟨g₁, reached₁, starts⟩ := Machine.ends_reaches (step tickingNode)
    (boot tickingNode sharedDisk) comesDown
    (fun g => (marks tickingNode 0 g (.message 0 (str "attack rat"))).contains
      (.attack (tickingNode.now g.asked))) (by decide +kernel)
  obtain ⟨g₂, reached₂, struck⟩ := Machine.ends_reaches (step tickingNode)
    (boot tickingNode sharedDisk) (comesDown ++ [.message 0 (str "attack rat"), .tick])
    (fun g => (marks tickingNode 0 g .tick).contains (.round (tickingNode.now g.asked)))
    (by decide +kernel)
  obtain ⟨g, reached, _⟩ := Machine.ends_reaches (step tickingNode) (boot tickingNode sharedDisk)
    (comesDown ++ [.message 0 (str "attack rat"), .tick] ++ [.tick]) (fun _ => true)
    (by decide +kernel)
  have clock : Clock tickingNode := fun n =>
    ⟨Int.le_of_lt (ticking.positive n), ticking.bounded n⟩
  have spaced := (swings_spaced tickingNode clock ticking.forward sharedDisk _ g reached 0).1
  exact ⟨g₁, g₂, reached₁, reached₂, attack_to_round spaced reached₁ reached₂
    (List.contains_iff_mem.mp starts) (List.contains_iff_mem.mp struck)⟩

end HollowGrid
