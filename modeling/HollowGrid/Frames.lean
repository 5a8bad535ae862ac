import HollowGrid.Steps

/-! What a command or a beat leaves alone, part by part and table by table, and the course
of one event as the invariants of characters see it. -/
namespace HollowGrid

structure Framed (may : Block → Part → Prop) (free : Table → Prop) (g₀ g : Server) : Prop where
  parts : ∀ d q, ¬may d q → q.of (g.blocks d).toCharacter = q.of (g₀.blocks d).toCharacter
  fights : ∀ d, ¬may d .fight → (g.blocks d).toFight = (g₀.blocks d).toFight
  states : ∀ d, (g.blocks d).state = (g₀.blocks d).state
  names : ∀ d, (g.blocks d).name = (g₀.blocks d).name
  world : ∀ t, ¬free t → t.ofWorld g.world = t.ofWorld g₀.world
  ledger : ∀ t, ¬free t → t.ofLedger g.ledger = t.ofLedger g₀.ledger

section Rules

variable {may : Block → Part → Prop} {free : Table → Prop} {g₀ g : Server} {env : Env}

theorem framed_start (may : Block → Part → Prop) (free : Table → Prop) (g : Server) :
    Framed may free g g :=
  ⟨fun _ _ _ => rfl, fun _ _ => rfl, fun _ => rfl, fun _ => rfl, fun _ _ => rfl, fun _ _ => rfl⟩

theorem Framed.room (framed : Framed may free g₀ g) {d : Block} (shut : ¬may d .place) :
    (g.blocks d).room = (g₀.blocks d).room := by
  have same := congrArg Character.room (framed.parts d .place shut)
  exact same

theorem Framed.position (framed : Framed may free g₀ g) {d : Block} (shut : ¬may d .stance) :
    (g.blocks d).position = (g₀.blocks d).position := by
  have same := congrArg Character.position (framed.parts d .stance shut)
  exact same

theorem Framed.trait (framed : Framed may free g₀ g) {d : Block} (shut : ¬may d .trait) :
    (g.blocks d).traitReady = (g₀.blocks d).traitReady := by
  have same := congrArg Character.traitReady (framed.parts d .trait shut)
  exact same

theorem Framed.market (framed : Framed may free g₀ g) {d : Block} (shut : ¬may d .market) :
    (g.blocks d).mktResolved = (g₀.blocks d).mktResolved := by
  have same := congrArg Character.mktResolved (framed.parts d .market shut)
  exact same

theorem framed_block (framed : Framed may free g₀ g) {d : Block} {s : Session}
    (parts : ∀ q, ¬may d q → q.of s.toCharacter = q.of (g.blocks d).toCharacter)
    (fight : ¬may d .fight → s.toFight = (g.blocks d).toFight)
    (state : s.state = (g.blocks d).state) (name : s.name = (g.blocks d).name) :
    Framed may free g₀ (g.setBlock d s) where
  parts := fun b q shut => by
    by_cases own : b = d
    · subst own
      rw [g.setBlock_own, parts q shut]
      exact framed.parts b q shut
    · rw [g.setBlock_other s own]
      exact framed.parts b q shut
  fights := fun b shut => by
    by_cases own : b = d
    · subst own
      rw [g.setBlock_own, fight shut]
      exact framed.fights b shut
    · rw [g.setBlock_other s own]
      exact framed.fights b shut
  states := fun b => by
    by_cases own : b = d
    · subst own
      rw [g.setBlock_own, state]
      exact framed.states b
    · rw [g.setBlock_other s own]
      exact framed.states b
  names := fun b => by
    by_cases own : b = d
    · subst own
      rw [g.setBlock_own, name]
      exact framed.names b
    · rw [g.setBlock_other s own]
      exact framed.names b
  world := framed.world
  ledger := framed.ledger

/-- A session field that is in no part. -/
theorem framed_rest (framed : Framed may free g₀ g) {d : Block} {s : Session}
    (character : s.toCharacter = (g.blocks d).toCharacter)
    (fight : s.toFight = (g.blocks d).toFight) (state : s.state = (g.blocks d).state)
    (name : s.name = (g.blocks d).name) : Framed may free g₀ (g.setBlock d s) :=
  framed_block framed (fun _ _ => by rw [character]) (fun _ => fight) state name

theorem framed_permits (env : Env) (may : Block → Part → Prop) (free : Table → Prop)
    (g₀ : Server) :
    Permits False env (fun _ => True) (fun _ => True) may free (Framed may free g₀) where
  bounds := trivial
  outside := outside_lax env
  tidy := fun g _ => tidy_lax g
  asked := fun _ framed => { framed with }
  peers := fun _ _ _ _ => trivial
  say := fun _ _ _ framed _ _ => framed_rest framed rfl rfl rfl rfl
  close := fun _ _ framed _ => framed_rest framed rfl rfl rfl rfl
  change := fun _ _ _ framed _ _ spares => framed_block framed (fun q shut => spares q shut _)
    (fun _ => rfl) rfl rfl
  fight := fun _ _ _ framed _ open_fight => framed_block framed (fun _ _ => rfl)
    (fun shut => absurd open_fight shut) rfl rfl
  socket := fun _ _ _ framed _ => framed_rest framed rfl rfl rfl rfl
  save := fun g d framed _ => by
    obtain ⟨disk, asked, _, same⟩ := saved_disk env d g
    rw [same]
    exact { framed with }
  world := fun _ _ framed spares =>
    { framed with world := fun t shut => (spares t shut _).trans (framed.world t shut) }
  ledger := fun _ _ framed spares =>
    { framed with ledger := fun t shut => (spares t shut _).trans (framed.ledger t shut) }
  grid := fun _ _ framed _ => { framed with }

/-- What outlasts every write within may and free. -/
theorem lasting_permits (env : Env) {P : Server → Prop}
    (lasts : ∀ g g', Framed may free g g' → P g → P g') :
    Permits False env (fun _ => True) (fun _ => True) may free P where
  bounds := trivial
  outside := outside_lax env
  tidy := fun g _ => tidy_lax g
  asked := fun g holds => lasts g _ ((framed_permits env may free g).asked g (framed_start ..)) holds
  peers := fun _ _ _ _ => trivial
  say := fun g d t holds part sound =>
    lasts g _ ((framed_permits env may free g).say g d t (framed_start ..) part sound) holds
  close := fun g d holds part =>
    lasts g _ ((framed_permits env may free g).close g d (framed_start ..) part) holds
  change := fun g d f holds part careful spares =>
    lasts g _ ((framed_permits env may free g).change g d f (framed_start ..) part careful spares)
      holds
  fight := fun g d f holds part open_fight =>
    lasts g _ ((framed_permits env may free g).fight g d f (framed_start ..) part open_fight) holds
  socket := fun g d wsi holds part =>
    lasts g _ ((framed_permits env may free g).socket g d wsi (framed_start ..) part) holds
  save := fun g d holds part =>
    lasts g _ ((framed_permits env may free g).save g d (framed_start ..) part) holds
  world := fun g f holds spares =>
    lasts g _ ((framed_permits env may free g).world g f (framed_start ..) spares) holds
  ledger := fun g f holds spares =>
    lasts g _ ((framed_permits env may free g).ledger g f (framed_start ..) spares) holds
  grid := fun g h holds tidy =>
    lasts g _ ((framed_permits env may free g).grid g h (framed_start ..) tidy) holds

/-- What is said of the life of c outlasts every write that leaves it alone. -/
theorem life_last (env : Env) (c : Block) (P : Int → Prop) :
    Permits False env (fun _ => True) (fun _ => True) (fun _ q => q ≠ .life) (fun _ => True)
      fun g => P (g.blocks c).hp :=
  lasting_permits env fun g g' framed held => by
    have same := congrArg Character.hp (framed.parts c .life (by simp))
    change (g'.blocks c).hp = (g.blocks c).hp at same
    rw [same]
    exact held

/-- A command that is within its bounds leaves the rest alone. -/
theorem exec_framed {c : Block} {arm : Arm} {arg : Ptr}
    (within : arm.Within c (fun _ => True) may free) :
    Keeps (Framed may free g₀) (fun _ => True) (exec env c arg arm) Any :=
  (framed_permits env may free g₀).exec_kept trivial within (fun b _ => clean_lax b) nofun nofun
    fun _ _ => trivial

theorem move_framed {c : Block} {room : Int} (place : may c .place) :
    Keeps (Framed may free g₀) (fun _ => True) (moveTo c room) Any :=
  (framed_permits quietNode may free g₀).move_kept trivial place room

theorem beat_framed (life : ∀ d, may d .life) (place : ∀ d, may d .place)
    (fight : ∀ d, may d .fight) (rat : free .rat) (clock : free .clock) :
    Keeps (Framed may free g₀) (fun _ => True) (tickService env) Any :=
  (framed_permits env may free g₀).timer_kept (fun d _ => life d) (fun d _ => place d)
    (fun d _ => fight d) rat clock

end Rules

/-- The program a line of a player comes to. -/
inductive Spoken (env : Env) (c : Block) (line : Bytes) (g : Server) : Act Unit → Prop
  | shows {m : Act Unit} : (∀ I E, Reports False env E c I → Keeps I E m Any) →
      Spoken env c line g m
  | walks {room : Int} : roomMove (g.blocks c).room (heading line) = .there room →
      Spoken env c line g (moveTo c room)
  | runs {arm : Arm} {arg : Ptr} : roomMove (g.blocks c).room (heading line) = .unknown →
      parse line = some (arm, arg) → Spoken env c line g (exec env c arg arm)

theorem spoken (env : Env) (c : Block) (line : Bytes) (g : Server) :
    ∃ m, Spoken env c line g m ∧ worldCommand env c line g = m g := by
  unfold worldCommand
  split
  · exact ⟨_, .shows fun _ _ r => r.scene_now, rfl⟩
  split
  · exact ⟨_, .shows fun _ _ r => r.look_kept _, rfl⟩
  rw [bind_ok (rfl : session c g = .ok (g.blocks c, g))]
  cases moved : roomMove (g.blocks c).room (heading line) with
  | there room => exact ⟨_, .walks moved, rfl⟩
  | noExit => exact ⟨_, .shows fun _ _ r => r.cant_move_kept, rfl⟩
  | unknown =>
    unfold notMovement
    cases parsed : parse line with
    | none => exact ⟨_, .shows fun _ _ r => r.unknown_kept, rfl⟩
    | some found => exact ⟨_, .runs moved parsed, rfl⟩

/-- The line runs the handler of an arm. -/
structure RunsArm (g : Server) (c : Block) (line : Bytes) (arm : Arm) (arg : Ptr) : Prop where
  looks : ¬(sameFold line (str "look") ∨ sameFold line (str "l"))
  at_one : startsFold (str "look ") line = false
  stays : roomMove (g.blocks c).room (heading line) = .unknown
  parsed : parse line = some (arm, arg)

theorem runs_arm (env : Env) {g : Server} {c : Block} {line : Bytes} {arm : Arm} {arg : Ptr}
    (runs : RunsArm g c line arm arg) : worldCommand env c line g = exec env c arg arm g := by
  unfold worldCommand
  rw [if_neg runs.looks, if_neg (by simp [runs.at_one]),
    bind_ok (rfl : session c g = .ok (g.blocks c, g)), runs.stays]
  simp only [notMovement, runs.parsed]

def Part.shared : Part → Bool
  | .life | .pack | .reply | .morals | .arc => true
  | _ => false

theorem reaches_shared (arm : Arm) : ∀ q ∈ arm.reaches, q.shared = true := by
  cases arm <;> decide

/-- What a line of c may write when it may write all of c. -/
def around (c d : Block) (q : Part) : Prop := d = c ∨ q.shared = true

/-- A command within its bounds, whatever its line comes to. -/
theorem spoken_framed {env : Env} {may : Block → Part → Prop} {free : Table → Prop} {c : Block}
    {line : Bytes} {g g' : Server} {m : Act Unit} (said : Spoken env c line g m)
    (ended : m g = .ok ((), g')) (place : may c .place)
    (within : ∀ arm arg, parse line = some (arm, arg) → m = exec env c arg arm →
      arm.Within c (fun _ => True) may free) : Framed may free g g' := by
  have kept : Keeps (Framed may free g) (fun _ => True) m Any := by
    cases said with
    | shows quiet => exact quiet _ _ ((framed_permits env may free g).reports trivial)
    | walks => exact move_framed place
    | runs _ parsed => exact exec_framed (within _ _ parsed rfl)
  exact (kept.result (framed_start _ _ g) ended).1

theorem others_framed {env : Env} {c : Block} {line : Bytes} {g g' : Server} {m : Act Unit}
    (said : Spoken env c line g m) (ended : m g = .ok ((), g')) :
    Framed (around c) (fun _ => True) g g' := by
  apply spoken_framed said ended (.inl rfl)
  intro arm arg _ _
  exact ⟨fun _ _ => .inl rfl, fun q reached _ _ => .inr (reaches_shared arm q reached),
    fun _ _ => trivial⟩

structure Idle (g g' : Server) : Prop where
  character : ∀ d, (g'.blocks d).toCharacter = (g.blocks d).toCharacter
  fight : ∀ d, (g'.blocks d).toFight = (g.blocks d).toFight
  state : ∀ d, (g'.blocks d).state = (g.blocks d).state
  name : ∀ d, (g'.blocks d).name = (g.blocks d).name
  world : g'.world = g.world
  ledger : g'.ledger = g.ledger

/-- The course of an event: a new session, a login, a command of a player, a beat of the
timer, or none of these. -/
inductive Course (env : Env) (g : Server) (e : Event) (g' : Server) : Prop
  | fresh {c : Block} {wsi : Wsi} : e = .connect c wsi → g.socket c = none → g' = g.opened c wsi →
      Course env g e g'
  | login {c : Block} {text : Bytes} {s' : Session} {disk' : Disk} : e = .message c text →
      g.socket c ≠ none → (g.blocks c).state ≠ .play →
      LoginMove env (trimmed text) (g.blocks c) g.disk s' disk' → Like False s' (g'.blocks c) →
      (∀ d, d ≠ c → g'.blocks d = g.blocks d) → g'.world = g.world → g'.ledger = g.ledger →
      Course env g e g'
  | command {c : Block} {line : Bytes} {wsi : Wsi} {m : Act Unit} : Delivered g e c line →
      Played env (Partner g c) g g' → Spoken env c line (g.setWsi c wsi) m →
      m (g.setWsi c wsi) = .ok ((), g') → Course env g e g'
  | beat : e = .tick → Played env (Listed g) g g' → tickService env g = .ok ((), g') →
      Course env g e g'
  | quiet : Idle g g' → Course env g e g'

section Course

variable {env : Env} {g g' : Server} {e : Event}

theorem idle_block {c : Block} {s : Session} (character : s.toCharacter = (g.blocks c).toCharacter)
    (fight : s.toFight = (g.blocks c).toFight) (state : s.state = (g.blocks c).state)
    (name : s.name = (g.blocks c).name) : Idle g (g.setBlock c s) := by
  have same {α : Type} (f : Session → α) (own : f s = f (g.blocks c)) (d : Block) :
      f ((g.setBlock c s).blocks d) = f (g.blocks d) := by
    by_cases here : d = c
    · subst here
      rw [g.setBlock_own, own]
    · rw [g.setBlock_other s here]
  exact ⟨same _ character, same _ fight, same _ state, same _ name, rfl, rfl⟩

theorem idle_trans {g₁ g₂ g₃ : Server} (first : Idle g₁ g₂) (second : Idle g₂ g₃) : Idle g₁ g₃ where
  character := fun d => (second.character d).trans (first.character d)
  fight := fun d => (second.fight d).trans (first.fight d)
  state := fun d => (second.state d).trans (first.state d)
  name := fun d => (second.name d).trans (first.name d)
  world := second.world.trans first.world
  ledger := second.ledger.trans first.ledger

theorem idle_released (g : Server) (c : Block) : Idle g (g.released c) := by
  have emptied : Idle g (g.setBlock c { g.blocks c with outbox := [] }) := idle_block rfl rfl rfl rfl
  exact { emptied with }

theorem idle_unregistered (g : Server) (c : Block) : Idle g (g.unregistered c) := by
  obtain ⟨table, sockets, count, same⟩ := unregistered_tables g c
  rw [same]
  have told : Idle g (g.setWsi c 0) := idle_block rfl rfl rfl rfl
  exact { told with }

theorem map_ok {m : Except Fault (Unit × Server)} (ran : m.map Prod.snd = .ok g') :
    m = .ok ((), g') := by
  cases m with
  | error fault => cases ran
  | ok r =>
    cases ran
    rfl

theorem step_course (taken : step env g e = .ok g') : Course env g e g' := by
  cases step_cases taken with
  | ignored => exact .quiet ⟨fun _ => rfl, fun _ => rfl, fun _ => rfl, fun _ => rfl, rfl, rfl⟩
  | connected fresh => exact .fresh rfl fresh rfl
  | refused => exact .quiet (idle_block rfl rfl rfl rfl)
  | login there short away moved =>
    obtain ⟨s', disk', move, _, landed⟩ := moved
    have tables : g'.world = g.world ∧ g'.ledger = g.ledger := by
      unfold Landed at landed
      split at landed
      · obtain ⟨_, ⟨s', asked, like, rfl⟩, rfl⟩ := landed
        obtain ⟨table, sockets, count, same⟩ := registered_tables (g.staged _ s' disk' asked) _
          (((g.staged _ s' disk' asked).socket _).getD 0)
        rw [same]
        exact ⟨rfl, rfl⟩
      · obtain ⟨s', asked, like, rfl⟩ := landed
        exact ⟨rfl, rfl⟩
    exact .login rfl there away move (landed_own landed) (fun d other => landed_other landed other)
      tables.1 tables.2
  | @played c text _ _ given played =>
    obtain ⟨wsi, ran⟩ := delivered_run env given
    obtain ⟨m, said, same⟩ := spoken env c (cstr (trimmed text)) (g.setWsi c wsi)
    have ended := map_ok (ran.symm.trans taken)
    exact .command given played said (same.symm.trans ended)
  | @wrote c _ _ wrote =>
    obtain ⟨outbox, dropped, asked, _, _, rfl⟩ := wrote
    have idle : Idle g (g.setBlock c { g.blocks c with outbox := outbox }) :=
      idle_block rfl rfl rfl rfl
    exact .quiet { idle with }
  | @left c disk' asked _ _ saves =>
    have saved : Idle g ({ g with disk := disk', asked := asked } : Server) :=
      ⟨fun _ => rfl, fun _ => rfl, fun _ => rfl, fun _ => rfl, rfl, rfl⟩
    exact .quiet (idle_trans saved (idle_trans (idle_unregistered _ c) (idle_released _ c)))
  | @hungUp c => exact .quiet (idle_released g c)
  | ticked played =>
    have ran : (tickService env g).map Prod.snd = .ok g' := taken
    exact .beat rfl played (map_ok ran)

end Course

def Part.beaten : Part → Bool
  | .life | .place | .fight => true
  | _ => false

section Seated

variable {env : Env} {g g' : Server} {e : Event} {c : Block}

theorem seated_step (taken : step env g e = .ok g') (there : g.socket c ≠ none)
    (playing : (g.blocks c).state = .play) (stays : e ≠ .close c) :
    g'.socket c ≠ none ∧ (g'.blocks c).state = .play := by
  refine ⟨step_open taken there stays, ?_⟩
  cases step_course taken with
  | @fresh d wsi _ empty same =>
    have other : c ≠ d := fun own => there (own ▸ empty)
    rw [same, opened_other g wsi other]
    exact playing
  | @login d text s' disk' _ _ away _ _ others =>
    have other : c ≠ d := fun own => away (own ▸ playing)
    rw [others c other]
    exact playing
  | command _ played => exact (played.peers c).state.trans playing
  | beat _ played => exact (played.peers c).state.trans playing
  | quiet idle => exact (idle.state c).trans playing

/-- What a connection in play holds by one part outlasts every event that its own lines do
not end it with. -/
theorem part_step {P : Session → Prop} (q : Part) (unshared : q.shared = false)
    (unbeaten : q.beaten = false)
    (lasts : ∀ s s' : Session, q.of s'.toCharacter = q.of s.toCharacter → P s → P s')
    (own : ∀ g g' line m, Spoken env c line g m → m g = .ok ((), g') → P (g.blocks c) →
      P (g'.blocks c))
    (taken : step env g e = .ok g') (there : g.socket c ≠ none)
    (playing : (g.blocks c).state = .play) (holds : P (g.blocks c)) : P (g'.blocks c) := by
  cases step_course taken with
  | @fresh d wsi _ empty same =>
    have other : c ≠ d := fun own => there (own ▸ empty)
    rw [same, opened_other g wsi other]
    exact holds
  | @login d text s' disk' _ _ away _ _ others =>
    have other : c ≠ d := fun own => away (own ▸ playing)
    rw [others c other]
    exact holds
  | @command d line wsi m _ _ said ended =>
    have heard : Idle g (g.setWsi d wsi) := idle_block rfl rfl rfl rfl
    have before : P ((g.setWsi d wsi).blocks c) :=
      lasts _ _ (congrArg q.of (heard.character c)) holds
    by_cases same : c = d
    · subst same
      exact own _ _ line m said ended before
    · have framed := others_framed said ended
      exact lasts _ _ (framed.parts c q (by simp [around, same, unshared])) before
  | beat _ _ ended =>
    have kept : Keeps (Framed (fun _ q => q.beaten = true) (fun _ => True) g) (fun _ => True)
        (tickService env) Any :=
      beat_framed (fun _ => rfl) (fun _ => rfl) (fun _ => rfl) trivial trivial
    have framed := (kept.result (framed_start _ _ g) ended).1
    exact lasts _ _ (framed.parts c q (by simp [unbeaten])) holds
  | quiet idle => exact lasts _ _ (congrArg q.of (idle.character c)) holds

theorem part_run {P : Session → Prop} (q : Part) (unshared : q.shared = false)
    (unbeaten : q.beaten = false)
    (lasts : ∀ s s' : Session, q.of s'.toCharacter = q.of s.toCharacter → P s → P s')
    (own : ∀ g g' line m, Spoken env c line g m → m g = .ok ((), g') → P (g.blocks c) →
      P (g'.blocks c))
    {events : List Event} (reached : Machine.Reaches (step env) g events g')
    (there : g.socket c ≠ none) (playing : (g.blocks c).state = .play) (holds : P (g.blocks c))
    (stays : .close c ∉ events) : P (g'.blocks c) := by
  induction events generalizing g with
  | nil =>
    cases reached
    exact holds
  | cons e rest ih =>
    obtain ⟨next, taken, later⟩ := Machine.reaches_cons reached
    have open_still : e ≠ .close c := fun closes => stays (by simp [closes])
    obtain ⟨there', playing'⟩ := seated_step taken there playing open_still
    exact ih later there' playing' (part_step q unshared unbeaten lasts own taken there playing holds)
      fun member => stays (List.mem_cons_of_mem e member)

end Seated

end HollowGrid
