import HollowGrid.Frames
import HollowGrid.Identity
import HollowGrid.Registry

/-! Wounds: whatever hits, heals, saves and loads a character, between two events it has at
least one point of life and no more than it may have. -/
namespace HollowGrid

structure Healthy (ch : Character) : Prop where
  alive : 1 ≤ ch.hp
  bounded : ch.hp ≤ ch.maxHp
  most : ch.maxHp = 30

def Kept (file : File) : Prop :=
  ∀ root, file = .json root → ∃ s : Session, Healthy s.toCharacter ∧ root = characterRecord s

/-- Reads and writes of files may fail, but none yields a record that nobody saved. -/
structure Faithful (env : Env) : Prop where
  reads : ∀ n root, env.reading n ≠ .short (.json root)
  writes : ∀ n root, env.writing n ≠ .torn (.json root)

/-- The sessions of T are well, those of hurt up to the blow they have taken, and so is every
record on disk. -/
structure Hale (T hurt : Block → Prop) (g : Server) : Prop where
  most : ∀ d, T d → (g.blocks d).maxHp = 30
  bounded : ∀ d, T d → (g.blocks d).hp ≤ 30
  alive : ∀ d, T d → ¬hurt d → 1 ≤ (g.blocks d).hp
  listed : ∀ d, some d ∈ g.sessionTable → T d
  disk : ∀ key file, g.disk key = some file → Kept file

def unhurt (_ : Block) : Prop := False

/-- What a command may write that leaves life alone. -/
def harmless (_ : Block) (q : Part) : Prop := q ≠ .life

section Wounds

variable {env : Env} {T hurt : Block → Prop} {g g' : Server} {c : Block}

theorem healthy_bounded {ch : Character} (healthy : Healthy ch) : 1 ≤ ch.hp ∧ ch.hp ≤ 30 := by
  obtain ⟨alive, bounded, most⟩ := healthy
  omega

theorem hale_healthy (hale : Hale T unhurt g) {d : Block} (part : T d) :
    Healthy (g.blocks d).toCharacter := by
  have most := hale.most d part
  have bounded := hale.bounded d part
  exact ⟨hale.alive d part id, by omega, most⟩

theorem record_life {s : Session} (healthy : Healthy s.toCharacter) (ch : Character) :
    (loadCharacter (characterRecord s) ch).hp = s.hp ∧
      (loadCharacter (characterRecord s) ch).maxHp = s.maxHp := by
  have life : (loadCharacter (characterRecord s) ch).hp = truncate (toDouble s.hp) := rfl
  have most : (loadCharacter (characterRecord s) ch).maxHp = truncate (toDouble s.maxHp) := rfl
  have bounds := healthy_bounded healthy
  have top := healthy.most
  constructor
  · rw [life]
    apply number_back
    unfold Exact
    omega
  · rw [most, top]
    apply number_back
    unfold Exact
    omega

theorem record_healthy {s : Session} (healthy : Healthy s.toCharacter) (ch : Character) :
    Healthy (loadCharacter (characterRecord s) ch) := by
  obtain ⟨life, most⟩ := record_life healthy ch
  obtain ⟨alive, bounded, top⟩ := healthy
  constructor
  · rw [life]
    exact alive
  · rw [life, most]
    exact bounded
  · rw [most]
    exact top

theorem saves_kept (faithful : Faithful env) {s : Session} {disk disk' : Disk}
    (healthy : Healthy s.toCharacter) (before : ∀ key file, disk key = some file → Kept file)
    (saves : Saves env s disk disk') : ∀ key file, disk' key = some file → Kept file := by
  rcases saves with rfl | ⟨key, left, _, rfl, wrote⟩
  · exact before
  · intro other file found
    by_cases same : other = key
    · subst same
      rw [Function.update_self] at found
      cases found
      intro root is_root
      subst is_root
      rcases wrote with record | ⟨n, torn⟩
      · cases record
        exact ⟨s, healthy, rfl⟩
      · exact absurd torn (faithful.writes n root)
    · rw [Function.update_of_ne same] at found
      exact before other file found

/-- A write to one block, as far as life goes. -/
theorem hale_block (hale : Hale T hurt g) {d : Block} {s : Session}
    (most : T d → s.maxHp = 30) (bounded : T d → s.hp ≤ 30) (alive : T d → ¬hurt d → 1 ≤ s.hp) :
    Hale T hurt (g.setBlock d s) := by
  have own (P : Session → Prop) (b : Block) (part : T b) (here : T d → P s)
      (there : P (g.blocks b)) :
      P ((g.setBlock d s).blocks b) := by
    by_cases same : b = d
    · subst same
      rw [g.setBlock_own]
      exact here part
    · rw [g.setBlock_other s same]
      exact there
  constructor
  · exact fun b part => own (fun s => s.maxHp = 30) b part most (hale.most b part)
  · exact fun b part => own (fun s => s.hp ≤ 30) b part bounded (hale.bounded b part)
  · intro b part well
    by_cases same : b = d
    · subst same
      rw [g.setBlock_own]
      exact alive part well
    · rw [g.setBlock_other s same]
      exact hale.alive b part well
  · exact hale.listed
  · exact hale.disk

/-- A write that keeps the life of the block. -/
theorem hale_same (hale : Hale T hurt g) {d : Block} {s : Session} (hp : s.hp = (g.blocks d).hp)
    (most : s.maxHp = (g.blocks d).maxHp) : Hale T hurt (g.setBlock d s) :=
  hale_block hale (fun part => most.trans (hale.most d part))
    (fun part => hp.trans_le (hale.bounded d part)) fun part well => by
      rw [hp]
      exact hale.alive d part well

theorem hale_reports (env : Env) (T hurt : Block → Prop) (c : Block) :
    Reports False env (fun _ => True) c (Hale T hurt) where
  bounds := trivial
  outside := outside_lax env
  tidy := fun g _ => tidy_lax g
  asked := fun _ hale => { hale with }
  say := fun _ _ hale _ => hale_same hale rfl rfl
  close := fun _ hale => hale_same hale rfl rfl

/-- Everything but life may be written of the sessions of T. -/
theorem hale_permits (faithful : Faithful env) (T : Block → Prop) :
    Permits False env (fun _ => True) T harmless (fun _ => True) (Hale T unhurt) where
  bounds := trivial
  outside := outside_lax env
  tidy := fun g _ => tidy_lax g
  asked := fun _ hale => { hale with }
  peers := fun _ hale => hale.listed
  say := fun _ _ _ hale _ _ => hale_same hale rfl rfl
  close := fun _ _ hale _ => hale_same hale rfl rfl
  change := fun g d f hale _ _ spares => by
    have life := spares .life (by simp [harmless]) (g.blocks d).toCharacter
    have hp := congrArg Character.hp life
    have most := congrArg Character.maxHp life
    exact hale_same hale hp most
  fight := fun _ _ _ hale _ _ => hale_same hale rfl rfl
  socket := fun _ _ _ hale _ => hale_same hale rfl rfl
  save := fun g d hale part => by
    obtain ⟨disk', asked, saves, same⟩ := saved_disk env d g
    rw [same]
    exact { hale with disk := saves_kept faithful (hale_healthy hale part) hale.disk saves }
  world := fun _ _ hale _ => { hale with }
  ledger := fun _ _ hale _ => { hale with }
  grid := fun _ _ hale _ => { hale with }

theorem cures (part : T c) (f : Character → Character)
    (healthy : ∀ ch, Healthy ch → Healthy (f ch)) :
    Keeps (Hale T unhurt) (fun _ => True) (update c f) Any :=
  Keeps.modify fun g hale => by
    have well := healthy _ (hale_healthy hale part)
    have bounds := healthy_bounded well
    exact hale_block hale (fun _ => well.most) (fun _ => bounds.2) fun _ _ => bounds.1

theorem treat_hale (faithful : Faithful env) (part : T c) :
    Keeps (Hale T unhurt) (fun _ => True) (cmdTreat env c) Any := by
  have p := hale_permits faithful T
  have r := p.reports part
  have tells (t : Text) : Keeps (Hale T unhurt) (fun _ => True) (queue c t) Any := r.said nofun
  have tells_line (t : Text) : Keeps (Hale T unhurt) (fun _ => True) (queueLine c t) Any :=
    r.line (sound_lax id)
  refine Keeps.bind (p.reads c) fun s _ => Keeps.branch (tells_line _) ?_
  refine Keeps.branch (tells_line _) (Keeps.bind (p.asks_any _) fun front _ => ?_)
  refine Keeps.branch (tells_line _) (Keeps.branch ?_ ?_)
  · exact Keeps.seq (tells _) (tells _)
  · have cured : Keeps (Hale T unhurt) (fun _ => True)
        (update c fun ch => { ch with hp := ch.maxHp }) Any := by
      apply cures part
      intro ch healthy
      obtain ⟨alive, bounded, most⟩ := healthy
      constructor
      · simp only
        omega
      · exact Int.le_refl ch.maxHp
      · exact most
    refine Keeps.seq cured (Keeps.seq (p.saves part) ?_)
    exact Keeps.seq (tells _) (Keeps.seq (tells _) r.vitals_now)

structure HaleAs (T : Block → Prop) (g₀ g : Server) : Prop where
  hale : Hale T unhurt g
  hp : ∀ d, (g.blocks d).hp = (g₀.blocks d).hp

theorem hale_as_watches (env : Env) (T : Block → Prop) (g₀ : Server) :
    Watches False env (fun _ => True) (HaleAs T g₀) where
  bounds := trivial
  outside := outside_lax env
  tidy := fun g _ => tidy_lax g
  asked := fun _ as => ⟨{ as.hale with }, as.hp⟩

/-- Mending costs the player five points of more than five. -/
theorem mend_hale (faithful : Faithful env) (part : T c) (arg : Ptr) :
    Keeps (Hale T unhurt) (fun _ => True) (cmdMend c arg) Any := by
  have p := hale_permits faithful T
  have r := p.reports part
  have tells (t : Text) : Keeps (Hale T unhurt) (fun _ => True) (queueLine c t) Any :=
    r.line (sound_lax id)
  have whole (g₀ : Server) : Leads (HaleAs T g₀) (fun _ => True) (cmdMend c arg) fun _ =>
      Hale T unhurt := by
    have w := hale_as_watches env T g₀
    have mild {m : Act Unit} (kept : Keeps (Hale T unhurt) (fun _ => True) m Any) :
        Leads (HaleAs T g₀) (fun _ => True) m fun _ => Hale T unhurt :=
      fun g as => Leads.stays kept g as.hale
    have reads (d : Block) : Keeps (HaleAs T g₀) (fun _ => True) (session d)
        fun s => s.hp = (g₀.blocks d).hp := fun g as => ⟨as, as.hp d⟩
    refine Leads.after (reads c) fun s own => ?_
    refine Leads.after (w.finds_prefix _ _ _) fun found seen => ?_
    cases found with
    | none => exact mild (tells _)
    | some d =>
      refine Leads.after (reads d) fun t _ => Leads.ite (fun _ => mild (tells _)) fun _ => ?_
      refine Leads.ite (fun _ => mild (tells _)) fun enough => ?_
      have peer : T d := by
        obtain ⟨g, as, member⟩ := seen d rfl
        exact as.hale.listed d member
      refine Leads.seq (M := Hale T unhurt) ?_
        (Leads.stays (q := Any) (Keeps.seq (cures peer _ ?_) ?_))
      · refine Leads.modify fun g as => ?_
        have most := as.hale.most c part
        have bounded := as.hale.bounded c part
        have same := as.hp c
        refine hale_block as.hale (fun _ => most) (fun _ => ?_) fun _ _ => ?_
        · simp only
          omega
        · simp only
          omega
      · intro ch healthy
        obtain ⟨alive, bounded, most⟩ := healthy
        constructor
        · simp only
          omega
        · exact Int.min_le_right ..
        · exact most
      · exact Keeps.seq (tells _) (Keeps.seq (p.tells peer nofun) r.vitals_now)
  exact Leads.kept fun g hale => whole g g ⟨hale, fun _ => rfl⟩

theorem hale_within {arm : Arm} (treats : arm ≠ .treat) (mends : arm ≠ .mend) :
    arm.Within c T harmless (fun _ => True) where
  own := by
    intro q written
    rintro rfl
    cases arm <;> contradiction
  others := by
    intro q reached d _
    rintro rfl
    cases arm <;> contradiction
  tables := fun _ _ => trivial

theorem spoken_hale (faithful : Faithful env) (part : T c) {line : Bytes} {m : Act Unit}
    (said : Spoken env c line g m) : Keeps (Hale T unhurt) (fun _ => True) m Any := by
  have p := hale_permits faithful T
  cases said with
  | shows quiet => exact quiet _ _ (p.reports part)
  | walks => exact p.move_kept part (by simp [harmless]) _
  | @runs arm arg _ _ =>
    by_cases treats : arm = .treat
    · subst treats
      exact treat_hale faithful part
    by_cases mends : arm = .mend
    · subst mends
      exact mend_hale faithful part arg
    · exact p.exec_kept part (hale_within treats mends) (fun b _ => clean_lax b) nofun nofun
        fun _ _ => trivial

theorem death_recorded (c : Block) (env : Env) (room name : Bytes) :
    Keeps (Hale T hurt) (fun _ => True) (gridOnDeath env room name) Any := by
  have w := (hale_reports env T hurt c).toWatches
  refine Keeps.bind w.times fun at_ms _ => Keeps.branch (keeps_ignored (w.calls _ _)) ?_
  exact Keeps.modify fun _ hale => { hale with }

/-- A player who is killed is whole again before anything else happens. -/
theorem died_hale (faithful : Faithful env) (part : T c) :
    Leads (Hale T (· = c)) (fun _ => True) (playerDied env c) fun _ => Hale T unhurt := by
  have p := hale_permits faithful T
  have r := p.reports part
  have tells (t : Text) : Keeps (Hale T unhurt) (fun _ => True) (queue c t) Any := r.said nofun
  have hurt := (hale_reports env T (· = c) c).reads c
  refine Leads.after hurt fun s _ => ?_
  refine Leads.seq (Leads.stays (death_recorded c env _ _)) ?_
  refine Leads.seq (M := Hale T unhurt) ?_ (Leads.stays (q := Any) ?_)
  · refine Leads.modify fun g hale => ?_
    have most := hale.most c part
    constructor
    · intro d there
      by_cases own : d = c
      · subst own
        rw [Server.updated, g.setBlock_own]
        exact most
      · rw [Server.updated, g.setBlock_other _ own]
        exact hale.most d there
    · intro d there
      by_cases own : d = c
      · subst own
        rw [Server.updated, g.setBlock_own]
        exact Int.le_of_eq most
      · rw [Server.updated, g.setBlock_other _ own]
        exact hale.bounded d there
    · intro d there _
      by_cases own : d = c
      · subst own
        rw [Server.updated, g.setBlock_own]
        simp only [most]
        decide
      · rw [Server.updated, g.setBlock_other _ own]
        exact hale.alive d there own
    · exact hale.listed
    · exact hale.disk
  · refine Keeps.seq (p.calm_kept part (by simp [harmless])) (Keeps.seq (tells _) ?_)
    exact Keeps.seq (tells _) (Keeps.seq (tells _) (Keeps.seq r.vitals r.scene_now))

theorem killed_hale (faithful : Faithful env) (part : T c) :
    Keeps (Hale T unhurt) (fun _ => True) (ratKilled env c) Any :=
  (hale_permits faithful T).rat_killed_kept part (by simp [harmless]) trivial

structure Struck (T : Block → Prop) (c : Block) (p : Prop) (g : Server) : Prop where
  hale : Hale T (· = c) g
  light : p → Hale T unhurt g

theorem struck_reports (env : Env) (T : Block → Prop) (c : Block) (p : Prop) :
    Reports False env (fun _ => True) c (Struck T c p) where
  bounds := trivial
  outside := outside_lax env
  tidy := fun g _ => tidy_lax g
  asked := fun _ struck => ⟨{ struck.hale with }, fun on => { struck.light on with }⟩
  say := fun _ _ struck _ =>
    ⟨hale_same struck.hale rfl rfl, fun on => hale_same (struck.light on) rfl rfl⟩
  close := fun _ struck =>
    ⟨hale_same struck.hale rfl rfl, fun on => hale_same (struck.light on) rfl rfl⟩

theorem blow_strikes (part : T c) {s : Session} {g₀ : Server} (own : s.hp = (g₀.blocks c).hp)
    {taken : Int} (hits : 0 ≤ taken) :
    Leads (HaleAs T g₀) (fun _ => True) (update c fun ch => { ch with hp := ch.hp - taken })
      fun _ => Struck T c (1 ≤ s.hp - taken) := by
  refine Leads.modify fun g as => ?_
  have most := as.hale.most c part
  have bounded := as.hale.bounded c part
  have same := as.hp c
  constructor
  · have hurt : Hale T (· = c) g :=
      { as.hale with alive := fun d there _ => as.hale.alive d there id }
    refine hale_block hurt (fun _ => most) (fun _ => ?_) fun _ well => absurd rfl well
    simp only
    omega
  · intro light
    refine hale_block as.hale (fun _ => most) (fun _ => ?_) fun _ _ => ?_
    · simp only
      omega
    · simp only
      omega

/-- One exchange of blows: a rat that is dead does not hit back, and the player either has
points left, or dies in the same round. -/
theorem exchange_hale (faithful : Faithful env) (part : T c) :
    Keeps (Hale T unhurt) (fun _ => True) (exchange env c) Any := by
  have p := hale_permits faithful T
  have r := p.reports part
  have whole (g₀ : Server) : Leads (HaleAs T g₀) (fun _ => True) (exchange env c) fun _ =>
      Hale T unhurt := by
    have reads : Keeps (HaleAs T g₀) (fun _ => True) (session c)
        fun s => s.hp = (g₀.blocks c).hp ∧ 1 ≤ s.hp := fun g as =>
      ⟨as, as.hp c, as.hale.alive c part id⟩
    have looks : Keeps (HaleAs T g₀) (fun _ => True) getWorld Any := fun g as => ⟨as, trivial⟩
    refine Leads.after reads fun s own => Leads.after looks fun w _ => ?_
    have hits : 0 ≤ (if 0 < max 0 (w.ratHp - playerDamage s) then 4 else 0 : Int) := by
      split <;> decide
    refine Leads.seq (M := HaleAs T g₀) ?_ (Leads.seq (blow_strikes part own.1 hits) ?_)
    · exact Leads.modify fun g as => ⟨{ as.hale with }, as.hp⟩
    refine Leads.seq (Leads.stays ((struck_reports env T c _).said nofun)) ?_
    refine Leads.ite (fun dead => ?_) fun _ => Leads.ite (fun _ => ?_) fun lives => ?_
    · have light : 1 ≤ s.hp - (if 0 < max 0 (w.ratHp - playerDamage s) then 4 else 0) := by
        rw [if_neg (by omega)]
        omega
      exact fun g struck => Leads.stays (killed_hale faithful part) g (struck.light light)
    · exact fun g struck => died_hale faithful part g struck.hale
    · have light : 1 ≤ s.hp - (if 0 < max 0 (w.ratHp - playerDamage s) then 4 else 0) := by
        omega
      exact fun g struck => Leads.stays r.vitals g (struck.light light)
  exact Leads.kept fun g hale => whole g g ⟨hale, fun _ => rfl⟩

theorem round_hale (faithful : Faithful env) (part : T c) :
    Keeps (Hale T unhurt) (fun _ => True) (combatRound env c) Any := by
  have p := hale_permits faithful T
  have r := p.reports part
  refine Keeps.bind (p.reads c) fun s _ => Keeps.bind keeps_world fun w _ => ?_
  refine Keeps.branch (Keeps.pure trivial) (Keeps.branch (exchange_hale faithful part) ?_)
  exact Keeps.seq (p.calm_kept part (by simp [harmless])) (Keeps.seq (r.said nofun) r.vitals)

theorem pulse_hale (faithful : Faithful env) (part : T c) (now : Int) :
    Keeps (Hale T unhurt) (fun _ => True) (sessionPulse env c now) Any := by
  have p := hale_permits faithful T
  have arms (at_ms : Int) : Keeps (Hale T unhurt) (fun _ => True) (armAt c at_ms) Any :=
    p.arm_kept part (by simp [harmless]) at_ms
  refine Keeps.bind Keeps.get fun g _ => Keeps.branch (Keeps.pure trivial) ?_
  cases g.socketOf c with
  | none => exact Keeps.pure trivial
  | some wsi =>
    refine Keeps.seq (p.sockets part wsi) (Keeps.bind (p.reads c) fun s _ => ?_)
    refine Keeps.branch (arms _) (Keeps.branch (Keeps.pure trivial) ?_)
    exact Keeps.seq (arms _) (round_hale faithful part)

/-- Rest gives two points, up to the bound. -/
theorem tick_hale (faithful : Faithful env) (part : T c) :
    Keeps (Hale T unhurt) (fun _ => True) (tickSession c) Any := by
  have p := hale_permits faithful T
  have r := p.reports part
  have rested : Keeps (Hale T unhurt) (fun _ => True)
      (update c fun ch => { ch with hp := min (ch.hp + 2) ch.maxHp }) Any := by
    apply cures part
    intro ch healthy
    obtain ⟨alive, bounded, most⟩ := healthy
    constructor
    · simp only
      omega
    · exact Int.min_le_right ..
    · exact most
  refine Keeps.bind Keeps.get fun g _ => ?_
  cases g.socketOf c with
  | none => exact Keeps.pure trivial
  | some wsi =>
    refine Keeps.seq (p.sockets part wsi) (Keeps.branch (Keeps.pure trivial) ?_)
    refine Keeps.seq r.world_state (Keeps.bind (p.reads c) fun s _ => Keeps.branch ?_ ?_)
    · exact Keeps.seq rested r.vitals
    · exact Keeps.pure trivial

theorem beat_hale (faithful : Faithful env) :
    Keeps (Hale T unhurt) (fun _ => True) (tickService env) Any := by
  have p := hale_permits faithful T
  refine Keeps.bind p.times fun now _ => Keeps.seq ?_ (p.federation_kept now)
  refine Keeps.bind p.in_table fun blocks peers => Keeps.seq ?_ (Keeps.seq ?_ ?_)
  · exact Keeps.for_each fun d member => pulse_hale faithful (peers d member) now
  · refine Keeps.bind keeps_world fun w _ => Keeps.branch (Keeps.pure trivial) ?_
    refine Keeps.seq (p.on_world _ fun t shut => absurd trivial shut)
      (Keeps.bind p.in_table fun blocks peers => ?_)
    exact Keeps.for_each fun d member => tick_hale faithful (peers d member)
  · exact p.on_world _ fun t shut => absurd trivial shut

theorem fetched_healthy {s : Session} (healthy : Healthy s.toCharacter) (row : CharacterRow) :
    Healthy (s.fetched row).toCharacter :=
  ⟨healthy.alive, healthy.bounded, healthy.most⟩

theorem stored_healthy (faithful : Faithful env) {s : Session} {disk : Disk} {root : Json}
    (kept : ∀ key file, disk key = some file → Kept file) (stored : Stored env disk s root) :
    Healthy (s.recalled root).toCharacter := by
  obtain ⟨key, file, _, found, whole | ⟨n, short⟩⟩ := stored
  · obtain ⟨saved, healthy, rfl⟩ := kept key file found root whole
    exact record_healthy healthy _
  · exact absurd short (faithful.reads n root)

theorem load_healthy (faithful : Faithful env) {s s' : Session} {disk disk' : Disk}
    (healthy : Healthy s.toCharacter) (kept : ∀ key file, disk key = some file → Kept file)
    (load : Load env s disk s' disk') :
    Healthy s'.toCharacter ∧ ∀ key file, disk' key = some file → Kept file := by
  cases load with
  | unreadable => exact ⟨healthy, kept⟩
  | own stored => exact ⟨stored_healthy faithful kept stored, kept⟩
  | merged stored => exact ⟨fetched_healthy (stored_healthy faithful kept stored) _, kept⟩
  | @adopted row _ _ _ saves =>
    have fetched := fetched_healthy healthy row
    exact ⟨fetched, saves_kept faithful fetched kept saves⟩
  | fresh => exact ⟨healthy, kept⟩

theorem login_healthy (faithful : Faithful env) {line : Bytes} {s s' : Session}
    {disk disk' : Disk} (healthy : Healthy s.toCharacter)
    (kept : ∀ key file, disk key = some file → Kept file)
    (move : LoginMove env line s disk s' disk') :
    Healthy s'.toCharacter ∧ ∀ key file, disk' key = some file → Kept file := by
  cases move with
  | refused => exact ⟨healthy, kept⟩
  | keeper => exact ⟨healthy, kept⟩
  | named _ _ _ load =>
    have same : Healthy { s with name := line }.toCharacter := healthy
    exact load_healthy faithful same kept load
  | trusted _ _ load =>
    have same : Healthy { s with keeperAuthed := true }.toCharacter := healthy
    exact load_healthy faithful same kept load
  | raced => exact ⟨⟨healthy.alive, healthy.bounded, healthy.most⟩, kept⟩
  | entered _ enters saves =>
    have entered : Healthy s'.toCharacter := by
      cases enters with
      | proven => exact healthy
      | chosen => exact healthy
    exact ⟨entered, saves_kept faithful entered kept saves⟩

/-- A connection that is open, or a session that is still listed. -/
def Held (g : Server) (d : Block) : Prop := g.socket d ≠ none ∨ some d ∈ g.sessionTable

def Well (g : Server) : Prop := Hale (Held g) unhurt g

theorem hale_fewer (hale : Hale T unhurt g) {S : Block → Prop} (fewer : ∀ d, S d → T d)
    (listed : ∀ d, some d ∈ g.sessionTable → S d) : Hale S unhurt g where
  most := fun d held => hale.most d (fewer d held)
  bounded := fun d held => hale.bounded d (fewer d held)
  alive := fun d held => hale.alive d (fewer d held)
  listed := listed
  disk := hale.disk

theorem well_same (hale : Hale (Held g) unhurt g') (connections : g'.connections = g.connections)
    (table : g'.sessionTable = g.sessionTable) : Well g' := by
  have held (d : Block) : Held g' d ↔ Held g d := by
    unfold Held Server.socket
    rw [connections, table]
  exact hale_fewer hale (fun d => (held d).mp) fun d member => .inr member

theorem fresh_healthy (wsi : Wsi) : Healthy (newSession wsi).toCharacter := by
  constructor
  · show (1 : Int) ≤ 30
    decide
  · exact Int.le_refl 30
  · rfl

theorem opened_well (well : Well g) (c : Block) (wsi : Wsi) : Well (g.opened c wsi) := by
  have held {d : Block} (other : d ≠ c) (there : Held (g.opened c wsi) d) : Held g d := by
    refine there.imp (fun socket => ?_) id
    rw [opened_socket g wsi other] at socket
    exact socket
  have fresh : Healthy ((g.opened c wsi).blocks c).toCharacter := by
    rw [(opened_own g c wsi).character]
    exact fresh_healthy wsi
  have bounds := healthy_bounded fresh
  constructor
  · intro d there
    by_cases own : d = c
    · rw [own]
      exact fresh.most
    · rw [opened_other g wsi own]
      exact well.most d (held own there)
  · intro d there
    by_cases own : d = c
    · rw [own]
      exact bounds.2
    · rw [opened_other g wsi own]
      exact well.bounded d (held own there)
  · intro d there _
    by_cases own : d = c
    · rw [own]
      exact bounds.1
    · rw [opened_other g wsi own]
      exact well.alive d (held own there) id
  · exact fun d member => .inr member
  · exact well.disk

theorem login_well (faithful : Faithful env) (well : Well g) {line : Bytes}
    (there : g.socket c ≠ none) (moved : Moved False env line c g (g.blocks c) g.disk g') :
    Well g' := by
  obtain ⟨s', disk', move, _, landed⟩ := moved
  obtain ⟨healthy, kept⟩ :=
    login_healthy faithful (hale_healthy well (.inl there)) well.disk move
  obtain ⟨disk_same, connections, _⟩ := landed_rest landed
  have held {d : Block} (other : d ≠ c) (now : Held g' d) : Held g d := by
    rcases now with socket | member
    · rw [Server.socket, connections] at socket
      exact .inl socket
    · exact .inr ((landed_listed landed member).resolve_left other)
  have own : Healthy (g'.blocks c).toCharacter := by
    rw [(landed_own landed).character]
    exact healthy
  have bounds := healthy_bounded own
  constructor
  · intro d now
    by_cases same : d = c
    · rw [same]
      exact own.most
    · rw [landed_other landed same]
      exact well.most d (held same now)
  · intro d now
    by_cases same : d = c
    · rw [same]
      exact bounds.2
    · rw [landed_other landed same]
      exact well.bounded d (held same now)
  · intro d now _
    by_cases same : d = c
    · rw [same]
      exact bounds.1
    · rw [landed_other landed same]
      exact well.alive d (held same now) id
  · exact fun d member => .inr member
  · rw [disk_same]
    exact kept

theorem released_well (well : Well g) (c : Block) : Well (g.released c) := by
  have emptied : Hale (Held g) unhurt (g.setBlock c { g.blocks c with outbox := [] }) :=
    hale_same well rfl rfl
  have left : Hale (Held g) unhurt (g.released c) := { emptied with }
  refine hale_fewer left (fun d now => now.imp (fun socket => ?_) id) fun d member => .inr member
  by_cases own : d = c
  · subst own
    exact absurd (released_closed g d) socket
  · rw [released_socket g own] at socket
    exact socket

theorem unregistered_well (well : Well g) (c : Block) : Well (g.unregistered c) := by
  have listed (d : Block) : some d ∈ (g.unregistered c).sessionTable → some d ∈ g.sessionTable :=
    unregistered_listed
  obtain ⟨table, sockets, count, same⟩ := unregistered_tables g c
  rw [same] at listed ⊢
  have told : Hale (Held g) unhurt (g.setWsi c 0) := hale_same well rfl rfl
  constructor
  · exact fun d now => told.most d (now.imp_right (listed d))
  · exact fun d now => told.bounded d (now.imp_right (listed d))
  · exact fun d now => told.alive d (now.imp_right (listed d))
  · exact fun d member => .inr member
  · exact told.disk

/-- What one event does to the life of the characters. -/
theorem step_well (faithful : Faithful env) {e : Event} (well : Well g)
    (taken : step env g e = .ok g') : Well g' := by
  cases step_cases taken with
  | ignored => exact well
  | @connected c wsi _ _ _ => exact opened_well well c wsi
  | @refused c text =>
    have told : Hale (Held g) unhurt (g.queued c tooLong) := hale_same well rfl rfl
    exact well_same told rfl rfl
  | login there _ _ moved => exact login_well faithful well there moved
  | @played c text _ there given played =>
    obtain ⟨wsi, ran⟩ := delivered_run env given
    obtain ⟨m, said, same⟩ := spoken env c (cstr (trimmed text)) (g.setWsi c wsi)
    have ended := map_ok (ran.symm.trans taken)
    have heard : Hale (Held g) unhurt (g.setWsi c wsi) := hale_same well rfl rfl
    have kept := spoken_hale (T := Held g) faithful (.inl there) said
    have after := (kept.result heard (same.symm.trans ended)).1
    exact well_same after played.connections played.table
  | @wrote c _ _ wrote =>
    obtain ⟨outbox, dropped, asked, _, _, rfl⟩ := wrote
    have told : Hale (Held g) unhurt (g.setBlock c { g.blocks c with outbox := outbox }) :=
      hale_same well rfl rfl
    exact { told with }
  | @left c disk' asked there playing saves =>
    have kept := saves_kept faithful (hale_healthy well (.inl there)) well.disk saves
    have saved : Well ({ g with disk := disk', asked := asked } : Server) :=
      { well with disk := kept }
    exact released_well (unregistered_well saved c) c
  | @hungUp c => exact released_well well c
  | ticked played =>
    have ran : (tickService env g).map Prod.snd = .ok g' := taken
    have after := ((beat_hale (T := Held g) faithful).result well (map_ok ran)).1
    exact well_same after played.connections played.table

end Wounds

/-- The disks that servers leave behind: each is started on the disk of the one before it,
the first on one with no characters. -/
inductive Lives : Disk → Prop
  | blank : Lives fun _ => none
  | after {env : Env} {disk : Disk} {events : List Event} {g : Server} : Faithful env →
      Lives disk → Machine.Reaches (step env) (boot env disk) events g → Lives g.disk

theorem boot_well (env : Env) {disk : Disk} (kept : ∀ key file, disk key = some file → Kept file) :
    Well (boot env disk) where
  most := fun _ held => by simp [Held, boot, Server.socket] at held
  bounded := fun _ held => by simp [Held, boot, Server.socket] at held
  alive := fun _ held => by simp [Held, boot, Server.socket] at held
  listed := fun _ member => .inr member
  disk := kept

theorem run_well {env : Env} (faithful : Faithful env) {disk : Disk} {events : List Event}
    {g : Server} (kept : ∀ key file, disk key = some file → Kept file)
    (reached : Machine.Reaches (step env) (boot env disk) events g) : Well g :=
  Machine.invariant_every_run (step env) Well (boot env disk) (boot_well env kept)
    (fun _ _ _ well taken => step_well faithful well taken) events g reached

theorem lives_kept {disk : Disk} (lives : Lives disk) :
    ∀ key file, disk key = some file → Kept file := by
  induction lives with
  | blank => nofun
  | after faithful _ reached kept => exact (run_well faithful kept reached).disk

/-- Between two events the character of every open connection, in play or not yet, has at
least one point of life and no more than its maximum. -/
theorem life_bounded (env : Env) (disk : Disk) (events : List Event) (g : Server)
    (faithful : Faithful env) (lives : Lives disk)
    (reached : Machine.Reaches (step env) (boot env disk) events g) (c : Block)
    (there : g.socket c ≠ none) :
    1 ≤ (g.blocks c).hp ∧ (g.blocks c).hp ≤ (g.blocks c).maxHp := by
  have healthy := hale_healthy (run_well faithful (lives_kept lives) reached) (.inl there)
  exact ⟨healthy.alive, healthy.bounded⟩

/-- A node whose clock goes two seconds on at every reading. -/
def beatingNode : Env := { quietNode with now := fun n => 2000 * n }

/-- A new player who goes down to the rat and is hit. -/
def firstBlood : List Event :=
  [.connect 0 1, .message 0 (str "ada"), .message 0 (str "elf"), .message 0 (str "password"),
    .message 0 (str "down"), .message 0 (str "attack rat"), .tick, .tick, .tick]

theorem life_bounded_hit : ∃ g,
    Machine.Reaches (step beatingNode) (boot beatingNode fun _ => none) firstBlood g ∧
    (g.blocks 0).hp < 30 ∧ 1 ≤ (g.blocks 0).hp ∧ (g.blocks 0).hp ≤ (g.blocks 0).maxHp := by
  obtain ⟨g, reached, shown⟩ := Machine.ends_reaches (step beatingNode)
    (boot beatingNode fun _ => none) firstBlood
    (fun g => decide (g.socket 0 ≠ none ∧ (g.blocks 0).hp < 30)) (by decide +kernel)
  obtain ⟨there, hit⟩ := of_decide_eq_true shown
  have faithful : Faithful beatingNode := ⟨fun _ _ => nofun, fun _ _ => nofun⟩
  exact ⟨g, reached, hit, life_bounded beatingNode _ firstBlood g faithful .blank reached 0 there⟩

end HollowGrid
