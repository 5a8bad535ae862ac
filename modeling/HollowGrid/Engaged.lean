import HollowGrid.Frames
import HollowGrid.Fights

/-! A fight keeps its place: who fights stands in the tunnels, unless the player walks out
or recalls. -/
namespace HollowGrid

/-- A session that fights has its target before it, and one that does not has none. -/
structure Engaged (s : Session) : Prop where
  fighting : s.inCombat = true →
    s.target = 1 ∧ s.position = str "standing" ∧ s.room = roomTunnels ∧ s.state = .play
  idle : s.inCombat = false → s.target = 0

def walksOut (room : Int) (line : Bytes) : Bool :=
  match roomMove room (heading line) with
  | .there _ => true
  | .noExit => false
  | .unknown =>
    match parse line with
    | some (.recall, _) => true
    | some (.up, _) => room = roomTunnels
    | _ => false

/-- Nobody leaves a fight on foot. -/
def StandsGround (g : Server) (e : Event) : Prop :=
  ∀ c line, Delivered g e c line → (g.blocks c).inCombat = true →
    walksOut (g.blocks c).room line = false

def Part.ofFight : Part → Bool
  | .fight | .place | .stance => true
  | _ => false

section Frame

variable {s s' : Session}

theorem engaged_same (engaged : Engaged s) (fight : s'.toFight = s.toFight)
    (place : s'.room = s.room) (stance : s'.position = s.position) (state : s'.state = s.state) :
    Engaged s' := by
  have combat : s'.inCombat = s.inCombat := congrArg Fight.inCombat fight
  have target : s'.target = s.target := congrArg Fight.target fight
  constructor
  · intro fighting
    obtain ⟨aim, standing, here, playing⟩ := engaged.fighting (combat ▸ fighting)
    exact ⟨target.trans aim, stance.trans standing, place.trans here, state.trans playing⟩
  · intro idle
    exact target.trans (engaged.idle (combat ▸ idle))

theorem engaged_idle (fight : s'.toFight = s.toFight) (combat : s.inCombat = false)
    (engaged : Engaged s) : Engaged s' := by
  have same : s'.inCombat = s.inCombat := congrArg Fight.inCombat fight
  have target : s'.target = s.target := congrArg Fight.target fight
  constructor
  · intro fighting
    rw [same, combat] at fighting
    cases fighting
  · intro _
    exact target.trans (engaged.idle combat)

theorem engaged_framed {may : Block → Part → Prop} {free : Table → Prop} {g₀ g : Server}
    (framed : Framed may free g₀ g) {d : Block} (shut : ∀ q, q.ofFight = true → ¬may d q)
    (state : (g.blocks d).state = (g₀.blocks d).state) (engaged : Engaged (g₀.blocks d)) :
    Engaged (g.blocks d) :=
  engaged_same engaged (framed.fights d (shut .fight rfl))
    (framed.room (shut .place rfl)) (framed.position (shut .stance rfl)) state

end Frame

/-- No command writes the fight, the room or the position of another session. -/
theorem unshared_fight (q : Part) : q.ofFight = true → q.shared = false := by
  cases q <;> decide

section Commands

variable {env : Env} {c : Block} {line : Bytes} {m : Act Unit} {g g' : Server}

/-- What a command by c makes of the other sessions. -/
theorem others_engaged (said : Spoken env c line g m) (ended : m g = .ok ((), g'))
    {d : Block} (other : d ≠ c) (engaged : Engaged (g.blocks d)) : Engaged (g'.blocks d) := by
  have framed := others_framed said ended
  apply engaged_framed framed _ (framed.states d) engaged
  intro q fought
  simp [around, other, unshared_fight q fought]

def peaceful (_ : Block) (q : Part) : Prop := q.ofFight = false

theorem engaged_lasts (d : Block) {g g' : Server} (framed : Framed peaceful (fun _ => True) g g')
    (engaged : Engaged (g.blocks d)) : Engaged (g'.blocks d) :=
  engaged_framed framed (fun q fought => by simp [peaceful, fought]) (framed.states d) engaged

theorem armed_engaged (at_ms : Int) (engaged : Engaged (g.blocks c)) :
    Engaged ((g.fought c { (g.blocks c).toFight with lastTick := at_ms }).blocks c) := by
  rw [Server.fought, Server.setBlock_own]
  exact ⟨engaged.fighting, engaged.idle⟩

/-- The attack that opens a fight: the rat is there, and the player turns to it. -/
theorem attack_engages (arg : Ptr) (idle : (g.blocks c).inCombat = false)
    (playing : (g.blocks c).state = .play) (engaged : Engaged (g.blocks c)) :
    Leads (· = g) (fun _ => True) (cmdAttack env c arg) fun _ g' => Engaged (g'.blocks c) := by
  have p : Permits False env (fun _ => True) (fun _ => True) peaceful (fun _ => True) fun g' =>
      Engaged (g'.blocks c) := lasting_permits env fun _ _ => engaged_lasts c
  have r := p.reports (d := c) trivial
  apply Leads.reads (rfl : session c g = .ok (g.blocks c, g))
  apply Leads.reads (rfl : getWorld g = .ok (g.world, g))
  rw [if_neg (by simp [idle])]
  apply Leads.ite
  · intro found
    have here : (g.blocks c).room = roomTunnels := by
      simp only [ratHere, Bool.and_eq_true, decide_eq_true_eq] at found
      exact found.1.1
    apply Leads.reads (rfl : session c g = .ok (g.blocks c, g))
    apply Leads.seq (M := fun g' => (g'.blocks c).toFight.target = 1 ∧
      (g'.blocks c).room = roomTunnels ∧ (g'.blocks c).state = .play ∧
      (g'.blocks c).inCombat = true)
    · apply Leads.modify
      rintro _ rfl
      rw [Server.fought, Server.setBlock_own]
      exact ⟨rfl, here, playing, rfl⟩
    apply Leads.seq (M := fun g' => Engaged (g'.blocks c))
    · apply Leads.modify
      rintro g' ⟨aim, place, state, fights⟩
      rw [Server.updated, Server.setBlock_own]
      exact ⟨fun _ => ⟨aim, rfl, place, state⟩, fun calm => absurd (fights.symm.trans calm) nofun⟩
    apply Leads.stays (q := Any)
    apply Keeps.seq (r.said nofun)
    apply Keeps.seq (r.said nofun)
    apply Keeps.seq r.vitals
    apply Keeps.bind p.times
    intro now _ g' still
    exact ⟨armed_engaged (now + combatMs) still, trivial⟩
  · intro _
    exact Leads.start engaged (Leads.stays (r.said nofun))

theorem idle_engaged (said : Spoken env c line g m) (ended : m g = .ok ((), g'))
    (idle : (g.blocks c).inCombat = false) (playing : (g.blocks c).state = .play)
    (engaged : Engaged (g.blocks c)) : Engaged (g'.blocks c) := by
  by_cases attacks : ∃ arg, m = cmdAttack env c arg
  · obtain ⟨arg, rfl⟩ := attacks
    exact (attack_engages arg idle playing engaged).result rfl ended
  · have framed : Framed (fun _ q => q ≠ .fight) (fun _ => True) g g' := by
      apply spoken_framed said ended nofun
      intro arm arg _ runs
      have other : arm ≠ .attack := by
        rintro rfl
        exact attacks ⟨arg, runs⟩
      constructor
      · cases arm <;> first | exact absurd rfl other | decide
      · cases arm <;> simp [Arm.reaches]
      · exact fun _ _ => trivial
    exact engaged_idle (framed.fights c (by simp)) idle engaged

theorem peaceful_within {arm : Arm} (calm : (arm.writes.all fun q => !q.ofFight) = true) :
    arm.Within c (fun _ => True) peaceful (fun _ => True) where
  own := fun q written => by
    have spared := List.all_eq_true.mp calm q written
    unfold peaceful
    simpa using spared
  others := fun q reached _ _ => by
    have shared := reaches_shared arm q reached
    unfold peaceful
    by_contra fought
    rw [unshared_fight q (by simpa using fought)] at shared
    cases shared
  tables := fun _ _ => trivial

theorem fighting_engaged (said : Spoken env c line g m) (ended : m g = .ok ((), g'))
    (fights : (g.blocks c).inCombat = true) (stands : walksOut (g.blocks c).room line = false)
    (engaged : Engaged (g.blocks c)) : Engaged (g'.blocks c) := by
  have p : Permits False env (fun _ => True) (fun _ => True) peaceful (fun _ => True) fun g' =>
      Engaged (g'.blocks c) := lasting_permits env fun _ _ => engaged_lasts c
  have r := p.reports (d := c) trivial
  have steady (kept : Keeps (fun g' => Engaged (g'.blocks c)) (fun _ => True) m Any) :
      Engaged (g'.blocks c) := (kept.result engaged ended).1
  obtain ⟨_, _, here, _⟩ := engaged.fighting fights
  cases said with
  | shows quiet => exact steady (quiet _ _ r)
  | walks moved => simp [walksOut, moved] at stands
  | @runs arm arg moved parsed =>
    have blocked (busy : exec env c arg arm g = queue c fightBlock g) : Engaged (g'.blocks c) := by
      rw [busy] at ended
      exact ((r.said nofun).result engaged ended).1
    cases arm with
    | «recall» => simp [walksOut, moved, parsed] at stands
    | up =>
      rw [here] at stands moved
      simp [walksOut, moved, parsed] at stands
    | down =>
      have still : stairs c roomNexus roomTunnels g = cantMove c g := by
        unfold stairs
        rw [bind_ok (rfl : session c g = .ok (g.blocks c, g)), here, if_neg (by decide)]
      exact (r.cant_move_kept.result engaged (still.symm.trans ended)).1
    | attack =>
      have busy : cmdAttack env c arg g =
          queue c (lit "You're already locked in this fight." ++ crlf ++ crlf) g := by
        unfold cmdAttack
        rw [bind_ok (rfl : session c g = .ok (g.blocks c, g)),
          bind_ok (rfl : getWorld g = .ok (g.world, g)), if_pos fights]
      exact ((r.said nofun).result engaged (busy.symm.trans ended)).1
    | sleep =>
      apply blocked
      change cmdSleep c g = _
      unfold cmdSleep
      rw [bind_ok (rfl : session c g = .ok (g.blocks c, g)), if_pos fights]
    | rest =>
      apply blocked
      change cmdRest c g = _
      unfold cmdRest
      rw [bind_ok (rfl : session c g = .ok (g.blocks c, g)), if_pos fights]
    | stand =>
      have stood : Leads (· = g) (fun _ => True) (cmdStand c) fun _ g' => Engaged (g'.blocks c) := by
        apply Leads.seq (M := fun g' => Engaged (g'.blocks c))
        · apply Leads.modify
          rintro _ rfl
          rw [Server.updated, Server.setBlock_own]
          obtain ⟨aim, _, place, state⟩ := engaged.fighting fights
          exact ⟨fun _ => ⟨aim, rfl, place, state⟩, engaged.idle⟩
        · exact Leads.stays (Keeps.seq (r.said nofun) r.vitals)
      exact stood.result rfl ended
    | _ =>
      exact steady (p.exec_kept trivial (peaceful_within rfl) (fun _ _ => nofun) nofun nofun
        fun _ _ => trivial)

end Commands

section Beats

variable {env : Env}

def AllEngaged (g : Server) : Prop := ∀ d, Engaged (g.blocks d)

theorem all_engaged_permits (env : Env) :
    Permits False env (fun _ => True) (fun _ => True) peaceful (fun _ => True) AllEngaged :=
  lasting_permits env fun _ _ framed engaged d => engaged_lasts d framed (engaged d)

/-- Leaving a fight leaves a player engaged, wherever the player has gone meanwhile. -/
theorem calm_engages (c : Block) :
    Leads (fun g => ∀ d, d ≠ c → Engaged (g.blocks d)) (fun _ => True) (calm c)
      fun _ => AllEngaged := by
  apply Leads.bind (R := fun _ g => ∀ d, d ≠ c → Engaged (g.blocks d))
  · exact fun _ others => others
  intro s
  apply Leads.modify
  intro g others d
  by_cases own : d = c
  · subst own
    rw [Server.fought, Server.setBlock_own]
    exact ⟨nofun, fun _ => rfl⟩
  · rw [Server.fought, Server.setBlock_other _ _ own]
    exact others d own

theorem calm_kept_engaged (c : Block) : Keeps AllEngaged (fun _ => True) (calm c) Any :=
  Leads.kept fun g engaged => calm_engages c g fun d _ => engaged d

theorem died_engaged (c : Block) :
    Leads AllEngaged (fun _ => True) (playerDied env c) fun _ => AllEngaged := by
  have p := all_engaged_permits env
  have r := p.reports (d := c) trivial
  apply Leads.after (p.reads c)
  intro s _
  apply Leads.seq (Leads.stays (p.deaths (clean_lax _) (clean_lax _)))
  apply Leads.seq (M := fun g => ∀ d, d ≠ c → Engaged (g.blocks d))
  · apply Leads.modify
    intro g engaged d other
    rw [Server.updated, Server.setBlock_other _ _ other]
    exact engaged d
  apply Leads.seq (calm_engages c)
  apply Leads.stays (q := Any)
  apply Keeps.seq (r.said nofun)
  apply Keeps.seq (r.said nofun)
  apply Keeps.seq (r.said nofun)
  exact Keeps.seq r.vitals r.scene_now

theorem rat_killed_engaged (c : Block) : Keeps AllEngaged (fun _ => True) (ratKilled env c) Any := by
  have p := all_engaged_permits env
  have r := p.reports (d := c) trivial
  apply Keeps.bind (p.reads c)
  intro s _
  apply Keeps.seq (p.on_world _ fun t shut => absurd trivial shut)
  apply Keeps.bind p.times
  intro died _
  apply Keeps.seq (p.on_world _ fun t shut => absurd trivial shut)
  apply Keeps.seq (calm_kept_engaged c)
  apply Keeps.seq (p.updates trivial (fun ch _ => character_lax _)
      (by intro q shut ch; cases q <;> rfl))
  apply Keeps.seq (r.said nofun)
  apply Keeps.seq (r.said nofun)
  apply Keeps.seq (p.kills (clean_lax _) (clean_lax _) (clean_lax _))
  exact Keeps.seq r.vitals (p.saves trivial)

theorem round_engaged (c : Block) : Leads AllEngaged (fun _ => True) (combatRound env c)
    fun _ => AllEngaged := by
  have p := all_engaged_permits env
  have r := p.reports (d := c) trivial
  apply Leads.after (p.reads c)
  intro s _
  apply Leads.after keeps_world
  intro w _
  apply Leads.ite
  · intro _
    exact Leads.stays (q := Any) (Keeps.pure trivial)
  intro _
  apply Leads.ite
  · intro _
    apply Leads.after (p.reads c)
    intro s _
    apply Leads.after keeps_world
    intro w _
    apply Leads.seq (Leads.stays (p.on_world _ fun t shut => absurd trivial shut))
    apply Leads.seq (M := AllEngaged)
    · exact Leads.stays (p.updates trivial (fun ch _ => character_lax _)
        (by intro q shut ch; cases q <;> first | rfl | contradiction))
    apply Leads.seq (Leads.stays (r.said nofun))
    apply Leads.ite
    · intro _
      exact Leads.stays (rat_killed_engaged c)
    intro _
    apply Leads.ite
    · intro _
      exact died_engaged c
    · intro _
      exact Leads.stays r.vitals
  · intro _
    apply Leads.stays (q := Any)
    apply Keeps.seq (calm_kept_engaged c)
    exact Keeps.seq (r.said nofun) r.vitals

theorem arm_engaged (c : Block) (at_ms : Int) :
    Keeps AllEngaged (fun _ => True) (armAt c at_ms) Any := by
  intro g engaged
  refine ⟨fun d => ?_, trivial⟩
  by_cases own : d = c
  · subst own
    exact armed_engaged at_ms (engaged d)
  · change Engaged ((g.fought c { (g.blocks c).toFight with lastTick := at_ms }).blocks d)
    rw [Server.fought, Server.setBlock_other _ _ own]
    exact engaged d

theorem pulse_engaged (c : Block) (now : Int) :
    Keeps AllEngaged (fun _ => True) (sessionPulse env c now) Any := by
  have p := all_engaged_permits env
  apply Keeps.bind Keeps.get
  intro g _
  apply Keeps.branch (Keeps.pure trivial)
  cases g.socketOf c with
  | none => exact Keeps.pure trivial
  | some wsi =>
    apply Keeps.seq (p.sockets trivial wsi)
    apply Keeps.bind (p.reads c)
    intro s _
    apply Keeps.branch (arm_engaged c _)
    apply Keeps.branch (Keeps.pure trivial)
    apply Keeps.seq (arm_engaged c _)
    exact (round_engaged c).kept

theorem beat_engaged : Keeps AllEngaged (fun _ => True) (tickService env) Any := by
  have p := all_engaged_permits env
  have beats (now : Int) : Keeps AllEngaged (fun _ => True) (heartbeat env now) Any := by
    apply Keeps.bind p.in_table
    intro blocks _
    apply Keeps.seq (Keeps.for_each fun d _ => pulse_engaged d now)
    apply Keeps.seq
    · apply Keeps.bind keeps_world
      intro w _
      apply Keeps.branch (Keeps.pure trivial)
      apply Keeps.seq (p.on_world _ fun t shut => absurd trivial shut)
      apply Keeps.bind p.in_table
      intro blocks _
      exact Keeps.for_each fun d _ => p.tick_session_kept trivial rfl
    · exact p.on_world _ fun t shut => absurd trivial shut
  apply Keeps.bind p.times
  intro now _
  apply Keeps.seq (beats now)
  exact p.federation_kept now

end Beats

theorem login_fight {env : Env} {line : Bytes} {s s' : Session} {disk disk' : Disk}
    (move : LoginMove env line s disk s' disk') : s'.toFight = s.toFight := by
  have loads {s₀ : Session} (same : s₀.toFight = s.toFight) (load : Load env s₀ disk s' disk') :
      s'.toFight = s.toFight := by
    cases load <;> exact same
  cases move with
  | refused => rfl
  | keeper => rfl
  | named _ _ _ load => exact loads (by rfl) load
  | trusted _ _ load => exact loads (by rfl) load
  | raced => rfl
  | entered _ enters => cases enters <;> rfl

theorem engaged_step {env : Env} {g g' : Server} {e : Event} (engaged : AllEngaged g)
    (stands : StandsGround g e) (taken : step env g e = .ok g') : AllEngaged g' := by
  intro d
  cases step_course taken with
  | @fresh c wsi _ _ same =>
    rw [same]
    by_cases own : d = c
    · subst own
      obtain ⟨outbox, close, other, told, _⟩ := opened_own g d wsi
      rw [told]
      exact ⟨nofun, fun _ => rfl⟩
    · rw [opened_other g wsi own]
      exact engaged d
  | @login c text s' disk' _ _ away move like others _ _ =>
    by_cases own : d = c
    · subst own
      have calm : (g.blocks d).inCombat = false := by
        by_contra fights
        exact away ((engaged d).fighting (by simpa using fights)).2.2.2
      obtain ⟨outbox, close, wsi, told, _⟩ := like
      have fight := login_fight move
      rw [told]
      exact engaged_idle fight calm (engaged d)
    · rw [others d own]
      exact engaged d
  | @command c line wsi m given played said ended =>
    have heard : Idle g (g.setWsi c wsi) := idle_block rfl rfl rfl rfl
    have before : Engaged ((g.setWsi c wsi).blocks d) :=
      engaged_same (engaged d) (heard.fight d) (congrArg Character.room (heard.character d))
        (congrArg Character.position (heard.character d)) (heard.state d)
    by_cases own : d = c
    · subst own
      have playing : ((g.setWsi d wsi).blocks d).state = .play := by
        obtain ⟨_, _, _, _, seated, _⟩ := given
        exact (heard.state d).trans seated
      cases fights : ((g.setWsi d wsi).blocks d).inCombat with
      | false => exact idle_engaged said ended fights playing before
      | true =>
        have room : ((g.setWsi d wsi).blocks d).room = (g.blocks d).room :=
          congrArg Character.room (heard.character d)
        have combat : ((g.setWsi d wsi).blocks d).inCombat = (g.blocks d).inCombat :=
          congrArg Fight.inCombat (heard.fight d)
        refine fighting_engaged said ended fights ?_ before
        rw [room]
        exact stands d line given (combat.symm.trans fights)
    · exact others_engaged said ended own before
  | beat _ _ ended => exact (beat_engaged.result engaged ended).1 d
  | quiet idle =>
    exact engaged_same (engaged d) (idle.fight d) (congrArg Character.room (idle.character d))
      (congrArg Character.position (idle.character d)) (idle.state d)

/-- In every run in which nobody leaves a fight on foot, every session in play that fights
stands in the tunnels before its target, and every other one has no target. -/
theorem engaged_run (env : Env) (disk : Disk) (events : List Event) (g : Server)
    (reached : Machine.Reaches (step env) (boot env disk) events g)
    (met : Machine.Meets (step env) StandsGround (boot env disk) events) :
    ∀ c, g.socket c ≠ none → (g.blocks c).state = .play →
      ((g.blocks c).inCombat = true → (g.blocks c).target = 1 ∧
        (g.blocks c).position = str "standing" ∧ (g.blocks c).room = roomTunnels) ∧
      ((g.blocks c).inCombat = false → (g.blocks c).target = 0) := by
  have engaged := Machine.invariant_run (step env) StandsGround AllEngaged (boot env disk)
    (fun _ => ⟨nofun, fun _ => rfl⟩)
    (fun _ _ _ held stands taken => engaged_step held stands taken) events met g reached
  intro c _ _
  refine ⟨fun fights => ?_, (engaged c).idle⟩
  obtain ⟨aim, standing, here, _⟩ := (engaged c).fighting fights
  exact ⟨aim, standing, here⟩

def standsGround (g : Server) : Event → Bool
  | .message c text =>
    !(g.blocks c).inCombat || !walksOut (g.blocks c).room (cstr (trimmed text))
  | _ => true

theorem stands_ground_tested (g : Server) (e : Event) (tested : standsGround g e = true) :
    StandsGround g e := by
  rintro c line ⟨text, rfl, _, _, _, rfl⟩ fights
  simpa [standsGround, fights] using tested

/-- A hunter who stays at it is engaged. -/
theorem engaged_run_hunt : ∃ g, Machine.Reaches (step quietNode) (boot quietNode sharedDisk)
      (returns 0 (str "ada") ++ goesHunting 0) g ∧ (g.blocks 0).inCombat = true ∧
    (g.blocks 0).room = roomTunnels := by
  obtain ⟨g, reached, shown⟩ := Machine.ends_reaches (step quietNode) (boot quietNode sharedDisk)
    (returns 0 (str "ada") ++ goesHunting 0)
    (fun g => decide (g.socket 0 ≠ none ∧ (g.blocks 0).state = .play ∧
      (g.blocks 0).inCombat = true)) (by decide +kernel)
  obtain ⟨there, seated, fighting⟩ := of_decide_eq_true shown
  have met := Machine.meets_passed (step quietNode) standsGround StandsGround stands_ground_tested
    (boot quietNode sharedDisk) (returns 0 (str "ada") ++ goesHunting 0) (by decide +kernel)
  have engaged := (engaged_run _ _ _ g reached met 0 there seated).1 fighting
  exact ⟨g, reached, fighting, engaged.2.2⟩

/-- Recall leaves the fight on and the tunnels behind. -/
theorem recalled_from_fight : ¬ ∀ events g,
    Machine.Reaches (step quietNode) (boot quietNode sharedDisk) events g →
    ∀ c, g.socket c ≠ none → (g.blocks c).state = .play → (g.blocks c).inCombat = true →
      (g.blocks c).target = 1 ∧ (g.blocks c).position = str "standing" ∧
        (g.blocks c).room = roomTunnels := by
  intro engaged
  obtain ⟨g, reached, shown⟩ := Machine.ends_reaches (step quietNode) (boot quietNode sharedDisk)
    (returns 0 (str "ada") ++ goesHunting 0 ++ [.message 0 (str "recall")])
    (fun g => decide (g.socket 0 ≠ none ∧ (g.blocks 0).state = .play ∧
      (g.blocks 0).inCombat = true ∧ (g.blocks 0).room ≠ roomTunnels)) (by decide +kernel)
  obtain ⟨there, seated, fighting, away⟩ := of_decide_eq_true shown
  exact away (engaged _ g reached 0 there seated fighting).2.2

end HollowGrid
