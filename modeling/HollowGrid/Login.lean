import HollowGrid.Permits

/-! The way into play. A login is a walk of one session and of the file its name maps to;
the callback follows it up to what is reported on the way. -/
namespace HollowGrid

namespace Session

def recalled (s : Session) (root : Json) : Session :=
  { s with toCharacter := loadCharacter root s.toCharacter, secretHash := loadHash root }

def fetched (s : Session) (row : CharacterRow) : Session :=
  { s with
    toCharacter :=
      identityApply s.toCharacter (identityMergeHub (identityLoadLocal s) row) }

def proving (s : Session) (resume : Bool) : Session :=
  { s with state := .passphrase, resume := resume }

end Session

def Stored (env : Env) (disk : Disk) (s : Session) (root : Json) : Prop :=
  ∃ key file, characterPath s.name = some key ∧ disk key = some file ∧
    (file = .json root ∨ ∃ n, env.reading n = .short (.json root))

def Missing (env : Env) (disk : Disk) (s : Session) : Prop :=
  ∃ key, characterPath s.name = some key ∧ (disk key = none ∨ ∃ n, env.reading n = .openFails)

def HubRow (env : Env) (name : Bytes) (row : CharacterRow) : Prop :=
  ∃ n result, env.rpc n (str "loadCharacter") [.str name] = some result ∧
    row = characterRow result ∧ row.race ≠ []

/-- What a name leads to once it may be used. -/
inductive Load (env : Env) (s : Session) (disk : Disk) : Session → Disk → Prop
  | unreadable : Load env s disk s disk
  | own {root : Json} : Stored env disk s root →
      Load env s disk ((s.recalled root).proving true) disk
  | merged {root : Json} {row : CharacterRow} : Stored env disk s root → HubRow env s.name row →
      Load env s disk (((s.recalled root).fetched row).proving true) disk
  | adopted {row : CharacterRow} {disk' : Disk} : Missing env disk s → HubRow env s.name row →
      Saves env (s.fetched row) disk disk' → Load env s disk ((s.fetched row).proving true) disk'
  | fresh : Missing env disk s → Load env s disk { s with state := .race } disk

inductive Enters (env : Env) (phrase : Bytes) (s : Session) : Session → Prop
  | proven : s.secretHash ≠ [] → verifyPassphrase env phrase s.secretHash = true →
      Enters env phrase s { s with state := .play }
  | chosen {hash salt : Bytes} : s.secretHash = [] → phraseOk phrase = true →
      cryptHash env phrase salt = some hash → hash.length < 72 →
      Enters env phrase s { s with secretHash := hash, state := .play }

/-- One message of a session on its way into play. -/
inductive LoginMove (env : Env) (line : Bytes) (s : Session) (disk : Disk) :
    Session → Disk → Prop
  | refused : LoginMove env line s disk s disk
  | keeper : s.state = .name → validName line = true → isAdmin env line = true →
      LoginMove env line s disk { s with name := line, state := .token } disk
  | named {s' : Session} {disk' : Disk} : s.state = .name → validName line = true →
      isAdmin env line = false → Load env { s with name := line } disk s' disk' →
      LoginMove env line s disk s' disk'
  | trusted {s' : Session} {disk' : Disk} : s.state = .token →
      verifyAdminToken env (cstr line) = true →
      Load env { s with keeperAuthed := true } disk s' disk' → LoginMove env line s disk s' disk'
  | raced {race : String} : s.state = .race → raceChosen line = some race →
      LoginMove env line s disk (({ s with race := str race } : Session).proving false) disk
  | entered {s' : Session} {disk' : Disk} : s.state = .passphrase → Enters env (cstr line) s s' →
      Saves env s' disk disk' → LoginMove env line s disk s' disk'

variable {strict : Prop} {env : Env} {E : Fault → Prop} {c : Block} {g₀ : Server}
  {s : Session} {disk : Disk}

/-- What reports to its owner may change of a session. -/
def Like (strict : Prop) (s s' : Session) : Prop :=
  ∃ outbox close wsi, s' = { s with outbox := outbox, close := close, wsi := wsi } ∧
    (Sound strict s.outbox → Sound strict outbox) ∧ (s.close = true → close = true)

theorem like_self (s : Session) : Like strict s s := ⟨s.outbox, s.close, s.wsi, rfl, id, id⟩

namespace Like

variable {s' : Session} (like : Like strict s s')
include like

theorem state : s'.state = s.state := by
  obtain ⟨outbox, close, wsi, rfl, _⟩ := like
  rfl

theorem name : s'.name = s.name := by
  obtain ⟨outbox, close, wsi, rfl, _⟩ := like
  rfl

theorem secretHash : s'.secretHash = s.secretHash := by
  obtain ⟨outbox, close, wsi, rfl, _⟩ := like
  rfl

theorem keeperAuthed : s'.keeperAuthed = s.keeperAuthed := by
  obtain ⟨outbox, close, wsi, rfl, _⟩ := like
  rfl

theorem character : s'.toCharacter = s.toCharacter := by
  obtain ⟨outbox, close, wsi, rfl, _⟩ := like
  rfl

theorem record : characterRecord s' = characterRecord s := by
  obtain ⟨outbox, close, wsi, rfl, _⟩ := like
  rfl

end Like

namespace Server

def staged (g : Server) (c : Block) (s : Session) (disk : Disk) (asked : Nat) : Server :=
  { g.setBlock c s with disk := disk, asked := asked }

theorem staged_own (g : Server) (c : Block) (s : Session) (disk : Disk) (asked : Nat) :
    (g.staged c s disk asked).blocks c = s :=
  g.setBlock_own c s

theorem staged_other (g : Server) (c d : Block) (s : Session) (disk : Disk) (asked : Nat)
    (other : d ≠ c) : (g.staged c s disk asked).blocks d = g.blocks d :=
  g.setBlock_other s other

theorem staged_set (g : Server) (c : Block) (s s' : Session) (disk : Disk) (asked : Nat) :
    (g.staged c s disk asked).setBlock c s' = g.staged c s' disk asked := by
  simp [staged, setBlock]

end Server

/-- The state of a login: the session at c is s up to its reports, and nothing else has
moved but the disk. -/
def Near (strict : Prop) (c : Block) (g₀ : Server) (s : Session) (disk : Disk) (g : Server) : Prop :=
  ∃ s' asked, Like strict s s' ∧ g = g₀.staged c s' disk asked

structure Stage (strict : Prop) (g₀ : Server) (s : Session) (disk : Disk) : Prop where
  sessions : ∀ d, TidySession strict (g₀.blocks d)
  outboxes : ∀ d, Sound strict (g₀.blocks d).outbox
  hub : TidyHub strict g₀.grid
  session : TidySession strict s
  outbox : Sound strict s.outbox
  disk : ∀ key file, disk key = some file → TidyFile strict file

theorem near_start (g : Server) (c : Block) : Near strict c g (g.blocks c) g.disk g := by
  refine ⟨g.blocks c, g.asked, like_self _, ?_⟩
  simp [Server.staged, Server.setBlock]

theorem near_tidy (stage : Stage strict g₀ s disk) {g : Server} (near : Near strict c g₀ s disk g) :
    Tidy strict g := by
  obtain ⟨s', asked, ⟨outbox, close, wsi, rfl, sound, _⟩, rfl⟩ := near
  constructor
  · intro d
    by_cases own : d = c
    · subst own
      rw [Server.staged_own]
      exact { stage.session with }
    · rw [Server.staged_other _ _ _ _ _ _ own]
      exact stage.sessions d
  · intro d
    by_cases own : d = c
    · subst own
      rw [Server.staged_own]
      exact sound stage.outbox
    · rw [Server.staged_other _ _ _ _ _ _ own]
      exact stage.outboxes d
  · exact stage.hub
  · exact stage.disk

/-- A change of the session that its reports do not disturb. -/
theorem near_set {f : Session → Session} {g : Server}
    (steady : ∀ s', Like strict s s' → Like strict (f s) (f s')) (near : Near strict c g₀ s disk g) :
    Near strict c g₀ (f s) disk (g.setBlock c (f (g.blocks c))) := by
  obtain ⟨s', asked, like, rfl⟩ := near
  refine ⟨f s', asked, steady s' like, ?_⟩
  rw [Server.staged_own, Server.staged_set]

theorem near_reports (bounds : E .outOfBounds) (outside : Outside strict env)
    (stage : Stage strict g₀ s disk) : Reports strict env E c (Near strict c g₀ s disk) where
  bounds := bounds
  outside := outside
  tidy := fun _ near => near_tidy stage near
  asked := by
    rintro _ ⟨s', asked, like, rfl⟩
    exact ⟨s', asked + 1, like, rfl⟩
  say := by
    rintro g t ⟨s', asked, ⟨outbox, close, wsi, rfl, sound, closed⟩, rfl⟩ quoted
    refine ⟨_, asked, ⟨outbox ++ t.take (outCap - outbox.length), close, wsi, rfl, ?_, closed⟩, ?_⟩
    · exact fun first => sound_append (sound first) (sound_take _ quoted)
    · simp only [Server.queued, Server.staged_own, Server.staged_set]
  close := by
    rintro g ⟨s', asked, ⟨outbox, close, wsi, rfl, sound, closed⟩, rfl⟩
    refine ⟨_, asked, ⟨outbox, true, wsi, rfl, sound, fun _ => rfl⟩, ?_⟩
    rw [Server.closing, Server.staged_own, Server.staged_set]

section Steps

theorem near_reads : Keeps (Near strict c g₀ s disk) E (session c) (Like strict s) := by
  rintro g ⟨s', asked, like, rfl⟩
  refine ⟨⟨s', asked, like, rfl⟩, ?_⟩
  rw [Server.staged_own]
  exact like

theorem near_disk : Keeps (Near strict c g₀ s disk) E get fun g => g.disk = disk := by
  rintro g ⟨s', asked, like, rfl⟩
  exact ⟨⟨s', asked, like, rfl⟩, rfl⟩

/-- A write to the session at c that leaves alone what reports change. -/
theorem leads_set (f : Session → Session) (apart : ∀ (s : Session) outbox close wsi,
      f { s with outbox := outbox, close := close, wsi := wsi } =
        { f s with outbox := outbox, close := close, wsi := wsi })
    (same : (f s).outbox = s.outbox ∧ (f s).close = s.close) :
    Leads (Near strict c g₀ s disk) E
      (modifyGet fun g : Server => (PUnit.unit, g.setBlock c (f (g.blocks c))) : Act PUnit)
      fun _ => Near strict c g₀ (f s) disk := by
  refine Leads.modify fun g near => near_set ?_ near
  rintro _ ⟨outbox, close, wsi, rfl, sound, closed⟩
  refine ⟨outbox, close, wsi, apart s outbox close wsi, ?_, ?_⟩
  · rw [same.1]
    exact sound
  · rw [same.2]
    exact closed

theorem fetched_stage (outside : Outside strict env) (stage : Stage strict g₀ s disk)
    {row : CharacterRow} (hub : HubRow env s.name row) : Stage strict g₀ (s.fetched row) disk := by
  obtain ⟨n, result, called, rfl, _⟩ := hub
  obtain ⟨faction, title, race⟩ := clean_character outside called
  have tidy := stage.session
  have merged := clean_merge (i := identityLoadLocal s) ⟨tidy.faction, tidy.title, tidy.race⟩
    faction title race
  exact { stage with session :=
    { tidy with race := merged.race, faction := merged.faction, title := merged.title } }

theorem recalled_stage (outside : Outside strict env) (stage : Stage strict g₀ s disk)
    {root : Json} (stored : Stored env disk s root) : Stage strict g₀ (s.recalled root) disk := by
  obtain ⟨key, file, _, there, read⟩ := stored
  have tidy : TidyFile strict (.json root) := by
    rcases read with rfl | ⟨n, short⟩
    · exact stage.disk key _ there
    · exact outside.short n _ short
  have loaded := tidy s.toCharacter stage.session.toTidyCharacter
  exact { stage with session := { loaded with name := stage.session.name } }

theorem save_leads (outside : Outside strict env) (stage : Stage strict g₀ s disk) :
    Leads (Near strict c g₀ s disk) E (storeSave env c) fun _ g =>
    ∃ disk', Saves env s disk disk' ∧ Stage strict g₀ s disk' ∧ Near strict c g₀ s disk' g := by
  rintro _ ⟨s', asked, like, rfl⟩
  rw [store_save_run]
  obtain ⟨disk', asked', saves, same⟩ := saved_disk env c (g₀.staged c s' disk asked)
  rw [Server.staged_own] at saves
  have wrote : Saves env s disk disk' := by
    obtain ⟨outbox, close, wsi, rfl, _⟩ := like
    exact saves
  have kept := saves_tidy outside stage.session stage.disk wrote
  rw [same]
  exact ⟨disk', wrote, { stage with disk := kept }, s', asked', like, rfl⟩

theorem file_leads (file : File) (stored : ∀ root, file = .json root → Stored env disk s root) :
    Leads (Near strict c g₀ s disk) E (loadFile c file) fun answer g =>
    (answer = .applied ∧ ∃ root, Stored env disk s root ∧ Near strict c g₀ (s.recalled root) disk g) ∨
    (answer = .nothing ∧ Missing env disk s ∧ Near strict c g₀ s disk g) ∨
    (answer = .failed ∧ Near strict c g₀ s disk g) := by
  cases file with
  | unreadable => exact Leads.pure fun _ near => .inr (.inr ⟨rfl, near⟩)
  | json root =>
    refine Leads.seq (leads_set (fun s => s.recalled root) (fun _ _ _ _ => rfl) ⟨rfl, rfl⟩) ?_
    exact Leads.pure fun _ near => .inl ⟨rfl, root, stored root rfl, near⟩

theorem sound_race_menu : Sound strict raceMenu := by
  unfold raceMenu
  apply_rules [sound_text, sound_lit]

theorem clean_race {line : Bytes} {race : String} (chosen : raceChosen line = some race) :
    Clean strict (str race) := by
  have table : ∀ r ∈ raceTable, Clean strict (str r) := by
    simp only [raceTable, List.forall_mem_cons, List.not_mem_nil, false_implies, implies_true,
      and_true]
    repeat' apply And.intro
    all_goals exact clean_str _ rfl
  refine table race ?_
  unfold raceChosen at chosen
  split at chosen
  · split at chosen
    · exact List.mem_of_getElem? chosen
    · exact List.mem_of_find?_eq_some chosen
  · exact List.mem_of_find?_eq_some chosen

theorem named_valid {line : Bytes} (valid : validName line = true) : Named strict line := by
  intro _ b member
  simp only [validName, Bool.and_eq_true, List.all_eq_true] at valid
  exact valid.2 b member

/-- A login that has taken its place in the session table. -/
def Arrived (strict : Prop) (c : Block) (g₀ : Server) (s : Session) (disk : Disk) (g : Server) :
    Prop :=
  ∃ g₁, Near strict c g₀ s disk g₁ ∧ g = g₁.registered c ((g₁.socket c).getD 0)

/-- Where a message of a login leaves the process. -/
def Landed (strict : Prop) (c : Block) (g₀ : Server) (s : Session) (disk : Disk) (g : Server) :
    Prop :=
  if s.state = .play then Arrived strict c g₀ s disk g else Near strict c g₀ s disk g

def Moved (strict : Prop) (env : Env) (line : Bytes) (c : Block) (g₀ : Server) (s : Session)
    (disk : Disk) (g : Server) : Prop :=
  ∃ s' disk', LoginMove env line s disk s' disk' ∧ Stage strict g₀ s' disk' ∧
    Landed strict c g₀ s' disk' g

theorem landed_near {g : Server} (away : s.state ≠ .play) (near : Near strict c g₀ s disk g) :
    Landed strict c g₀ s disk g := by
  rw [Landed, if_neg away]
  exact near

theorem load_away {s' : Session} {disk' : Disk} (load : Load env s disk s' disk')
    (away : s.state ≠ .play) : s'.state ≠ .play := by
  cases load with
  | unreadable => exact away
  | own => exact nofun
  | merged => exact nofun
  | adopted => exact nofun
  | fresh => exact nofun

variable (bounds : E .outOfBounds) (outside : Outside strict env)
  (stage : Stage strict g₀ s disk)
include bounds outside stage

theorem begin_leads : Leads (Near strict c g₀ s disk) E (beginPassphrase c) fun _ =>
    Near strict c g₀ { s with state := .passphrase } disk := by
  have next : Stage strict g₀ { s with state := .passphrase } disk :=
    { stage with session := { stage.session with } }
  have r := near_reports (c := c) bounds outside next
  refine Leads.seq (leads_set (fun s => { s with state := .passphrase }) (fun _ _ _ _ => rfl)
    ⟨rfl, rfl⟩) (Leads.after near_reads fun s' _ => Leads.ite (fun _ => ?_) fun _ => ?_)
  · exact Leads.stays (r.said (sound_text (sound_append (sound_lit _) (sound_lit _))))
  · exact Leads.stays (r.said (sound_text (sound_lit _)))

theorem resume_leads : Leads (Near strict c g₀ s disk) E (resumeToPassphrase c) fun _ =>
    Near strict c g₀ (s.proving true) disk := by
  have next : Stage strict g₀ { s with resume := true } disk :=
    { stage with session := { stage.session with } }
  refine Leads.seq (leads_set (fun s => { s with resume := true }) (fun _ _ _ _ => rfl)
    ⟨rfl, rfl⟩) ?_
  exact begin_leads bounds outside next

theorem hub_leads : Leads (Near strict c g₀ s disk) E (gridLoadSession env c) fun answer g =>
    (answer = .applied ∧ ∃ row, HubRow env s.name row ∧ Near strict c g₀ (s.fetched row) disk g) ∨
    (answer ≠ .applied ∧ Near strict c g₀ s disk g) := by
  have watch := (near_reports (c := c) bounds outside stage).toWatches
  have unmoved (answer : Loaded) (other : answer ≠ .applied) :
      Leads (Near strict c g₀ s disk) E (pure answer : Act Loaded) fun answer g =>
        (answer = .applied ∧ ∃ row, HubRow env s.name row ∧
          Near strict c g₀ (s.fetched row) disk g) ∨
        (answer ≠ .applied ∧ Near strict c g₀ s disk g) :=
    Leads.pure fun _ near => .inr ⟨other, near⟩
  refine Leads.after near_reads fun s' like => Leads.ite (fun _ => unmoved .nothing nofun) fun _ => ?_
  obtain ⟨outbox, close, wsi, rfl, _⟩ := like
  refine Leads.after (watch.fetches s.name) fun fetched made => ?_
  cases fetched with
  | none => exact unmoved .failed nofun
  | some row =>
    refine Leads.ite (fun _ => unmoved .nothing nofun) fun raced => ?_
    have hub : HubRow env s.name row := by
      rcases made row rfl with rfl | ⟨n, result, called, same⟩
      · exact absurd rfl raced
      · exact ⟨n, result, called, same, raced⟩
    refine Leads.seq (leads_set (fun s' =>
      { s' with
        toCharacter := identityApply s'.toCharacter (identityMergeHub (identityLoadLocal s) row) })
      (fun _ _ _ _ => rfl) ⟨rfl, rfl⟩) ?_
    exact Leads.pure fun _ near => .inl ⟨rfl, row, hub, near⟩

/-- The three answers of a load, and what the first says of the file. -/
theorem load_leads : Leads (Near strict c g₀ s disk) E (storeLoad env c) fun answer g =>
    (answer = .applied ∧ ∃ root, Stored env disk s root ∧ Near strict c g₀ (s.recalled root) disk g) ∨
    (answer = .nothing ∧ Missing env disk s ∧ Near strict c g₀ s disk g) ∨
    (answer = .failed ∧ Near strict c g₀ s disk g) := by
  have watch := (near_reports (c := c) bounds outside stage).toWatches
  refine Leads.after near_reads fun s' like => ?_
  obtain ⟨outbox, close, wsi, rfl, _⟩ := like
  cases path : characterPath s.name with
  | none =>
    exact Leads.pure fun _ near => .inr (.inr ⟨rfl, near⟩)
  | some key =>
    refine Leads.after (watch.asks env.reading) fun reading asked => ?_
    refine Leads.after near_disk fun g same => ?_
    rw [same]
    cases there : disk key with
    | none => exact Leads.pure fun _ near => .inr (.inl ⟨rfl, ⟨key, path, .inl there⟩, near⟩)
    | some file =>
      cases reading with
      | openFails =>
        exact Leads.pure fun _ near => .inr (.inl ⟨rfl, ⟨key, path, .inr asked⟩, near⟩)
      | readFails => exact Leads.pure fun _ near => .inr (.inr ⟨rfl, near⟩)
      | whole => exact file_leads file fun root same => ⟨key, file, path, there, .inl same⟩
      | short seen =>
        refine file_leads seen fun root same => ⟨key, file, path, there, .inr ?_⟩
        subst same
        exact asked

/-- .resume_local goes on from a file that was read. -/
theorem resume_local_leads {root : Json} (stored : Stored env disk s root) :
    Leads (Near strict c g₀ (s.recalled root) disk) E (resumeLocal env c) fun _ g =>
      ∃ s' disk', Load env s disk s' disk' ∧ Stage strict g₀ s' disk' ∧
        Near strict c g₀ s' disk' g := by
  have own := recalled_stage outside stage stored
  have r := near_reports (c := c) bounds outside own
  refine Leads.bind (hub_leads bounds outside own) fun answer =>
    Leads.cases (Leads.given ?_) (Leads.given fun _ => ?_)
  · rintro rfl
    refine Leads.some_one fun row => Leads.given fun hub => ?_
    have merged := fetched_stage outside own hub
    refine Leads.weaken (resume_leads bounds outside merged) fun _ g near => ?_
    exact ⟨_, disk, .merged stored hub, { merged with session := { merged.session with } }, near⟩
  · refine Leads.seq (Leads.stays (keeps_when (keeps_ignored (r.commits c)))) ?_
    refine Leads.weaken (resume_leads bounds outside own) fun _ g near => ?_
    exact ⟨_, disk, .own stored, { own with session := { own.session with } }, near⟩

/-- .after_admin_check goes on from a name with no file. -/
theorem not_on_disk_leads (missing : Missing env disk s) :
    Leads (Near strict c g₀ s disk) E (notOnDisk env c) fun _ g =>
      ∃ s' disk', Load env s disk s' disk' ∧ Stage strict g₀ s' disk' ∧
        Near strict c g₀ s' disk' g := by
  refine Leads.bind (hub_leads bounds outside stage) fun answer =>
    Leads.cases (Leads.given ?_) (Leads.given fun other => ?_)
  · rintro rfl
    refine Leads.some_one fun row => Leads.given fun hub => ?_
    have adopted := fetched_stage outside stage hub
    refine Leads.seq (save_leads outside adopted) (Leads.some_one fun disk' =>
      Leads.given fun saves => Leads.given fun kept => ?_)
    refine Leads.weaken (resume_leads bounds outside kept) fun _ g near => ?_
    exact ⟨_, disk', .adopted missing hub saves, { kept with session := { kept.session with } }, near⟩
  · have raced : Stage strict g₀ { s with state := .race } disk :=
      { stage with session := { stage.session with } }
    have r := near_reports (c := c) bounds outside raced
    rw [if_neg other]
    refine Leads.seq (leads_set (fun s => { s with state := .race }) (fun _ _ _ _ => rfl)
      ⟨rfl, rfl⟩) (Leads.weaken (Leads.stays (r.said sound_race_menu)) fun _ g near => ?_)
    exact ⟨_, disk, .fresh missing, raced, near⟩

/-- .after_admin_check follows one load of the name. -/
theorem check_leads : Leads (Near strict c g₀ s disk) E (afterAdminCheck env c) fun _ g =>
    ∃ s' disk', Load env s disk s' disk' ∧ Stage strict g₀ s' disk' ∧
      Near strict c g₀ s' disk' g := by
  have r := near_reports (c := c) bounds outside stage
  refine Leads.bind (load_leads bounds outside stage) fun answer =>
    Leads.cases (Leads.given ?_) (Leads.cases (Leads.given ?_) (Leads.given ?_))
  · rintro rfl
    exact Leads.some_one fun root => Leads.given fun stored =>
      resume_local_leads bounds outside stage stored
  · rintro rfl
    exact Leads.given fun missing => not_on_disk_leads bounds outside stage missing
  · rintro rfl
    refine Leads.weaken (Leads.stays (r.said ?_)) fun _ g near => ?_
    · exact sound_text (sound_lit _)
    · exact ⟨s, disk, .unreadable, stage, near⟩

theorem enter_leads {greeting : Text} (sound : Sound strict greeting) :
    Leads (Near strict c g₀ s disk) E (enterPlay c greeting) fun _ => Arrived strict c g₀ s disk := by
  have r := near_reports (c := c) bounds outside stage
  refine Leads.seq (Leads.stays (r.said sound)) (Leads.seq (Leads.stays r.scene_now) ?_)
  exact Leads.modify fun g near => ⟨g, near, rfl⟩

theorem ok_leads : Leads (Near strict c g₀ s disk) E (passphraseOk env c) fun _ g =>
    ∃ disk', Saves env s disk disk' ∧ Stage strict g₀ { s with state := .play } disk' ∧
      Arrived strict c g₀ { s with state := .play } disk' g := by
  have playing : Stage strict g₀ { s with state := .play } disk :=
    { stage with session := { stage.session with } }
  have set (disk : Disk) : Leads (Near strict c g₀ s disk) E (setState c .play) fun _ =>
      Near strict c g₀ { s with state := .play } disk :=
    leads_set (fun s => { s with state := .play }) (fun _ _ _ _ => rfl) ⟨rfl, rfl⟩
  refine Leads.after near_reads fun s' like => Leads.ite (fun _ => ?_) fun _ => ?_
  · refine Leads.seq (set disk) (Leads.seq (save_leads outside playing) ?_)
    refine Leads.some_one fun disk' => Leads.given fun saves => Leads.given fun kept => ?_
    refine Leads.weaken (enter_leads bounds outside kept ?_) fun _ g arrived => ?_
    · exact sound_text (sound_lit _)
    · exact ⟨disk', saves, kept, arrived⟩
  · refine Leads.seq (save_leads outside stage) ?_
    refine Leads.some_one fun disk' => Leads.given fun saves => Leads.given fun kept => ?_
    have entered : Stage strict g₀ { s with state := .play } disk' :=
      { kept with session := { kept.session with } }
    have r := near_reports (c := c) bounds outside kept
    refine Leads.seq (Leads.stays (keeps_ignored (r.commits c))) (Leads.seq (set disk') ?_)
    refine Leads.weaken (enter_leads bounds outside entered ?_) fun _ g arrived => ?_
    · exact sound_text (sound_lit _)
    · exact ⟨disk', saves, entered, arrived⟩

theorem proven_leads {line : Bytes} (asked : s.state = .passphrase) (hashed : s.secretHash ≠ [])
    (proved : verifyPassphrase env (cstr line) s.secretHash = true) :
    Leads (Near strict c g₀ s disk) E (passphraseOk env c) fun _ =>
      Moved strict env line c g₀ s disk := by
  refine Leads.weaken (ok_leads bounds outside stage) fun _ g entered => ?_
  obtain ⟨disk', saves, playing, arrived⟩ := entered
  refine ⟨_, disk', .entered asked (.proven hashed proved) saves, playing, ?_⟩
  rw [Landed, if_pos rfl]
  exact arrived

section Dispatch

variable {line : Bytes} (away : s.state ≠ .play)
include away

theorem refuses_leads {t : Text} (sound : Sound strict t) :
    Leads (Near strict c g₀ s disk) E (queue c t) fun _ => Moved strict env line c g₀ s disk := by
  have r := near_reports (c := c) bounds outside stage
  refine Leads.weaken (Leads.stays (r.said sound)) fun _ g near => ?_
  exact ⟨s, disk, .refused, stage, landed_near away near⟩

theorem refuses_last {t : Text} (sound : Sound strict t) :
    Leads (Near strict c g₀ s disk) E (queue c t >>= fun _ => setClose c) fun _ =>
      Moved strict env line c g₀ s disk := by
  have r := near_reports (c := c) bounds outside stage
  refine Leads.seq (Leads.stays (r.said sound)) (Leads.weaken (Leads.stays r.closes) ?_)
  exact fun _ g near => ⟨s, disk, .refused, stage, landed_near away near⟩

theorem name_leads (naming : s.state = .name) :
    Leads (Near strict c g₀ s disk) E (receiveName env c line) fun _ =>
      Moved strict env line c g₀ s disk := by
  refine Leads.ite (fun valid => ?_) fun _ => ?_
  · have named : Stage strict g₀ { s with name := line } disk :=
      { stage with session := { stage.session with name := named_valid valid } }
    refine Leads.seq (leads_set (fun s => { s with name := line }) (fun _ _ _ _ => rfl)
      ⟨rfl, rfl⟩) (Leads.ite (fun admin => ?_) fun admin => ?_)
    · have token : Stage strict g₀ { s with name := line, state := .token } disk :=
        { named with session := { named.session with } }
      have r := near_reports (c := c) bounds outside token
      refine Leads.seq (leads_set (fun s => { s with state := .token }) (fun _ _ _ _ => rfl)
        ⟨rfl, rfl⟩) (Leads.weaken (Leads.stays (r.said ?_)) fun _ g near => ?_)
      · exact sound_text (sound_lit _)
      · exact ⟨_, disk, .keeper naming valid admin, token, landed_near nofun near⟩
    · refine Leads.weaken (check_leads bounds outside named) fun _ g checked => ?_
      obtain ⟨s', disk', load, next, near⟩ := checked
      exact ⟨s', disk', .named naming valid (Bool.eq_false_iff.mpr admin) load, next,
        landed_near (load_away load away) near⟩
  · exact refuses_leads bounds outside stage away (sound_text (sound_lit _))

theorem token_leads (asked : s.state = .token) :
    Leads (Near strict c g₀ s disk) E (receiveToken env c (cstr line)) fun _ =>
      Moved strict env line c g₀ s disk := by
  refine Leads.ite (fun proved => ?_) fun _ => ?_
  · have authed : Stage strict g₀ { s with keeperAuthed := true } disk :=
      { stage with session := { stage.session with } }
    refine Leads.seq (leads_set (fun s => { s with keeperAuthed := true }) (fun _ _ _ _ => rfl)
      ⟨rfl, rfl⟩) (Leads.weaken (check_leads bounds outside authed) fun _ g checked => ?_)
    obtain ⟨s', disk', load, next, near⟩ := checked
    exact ⟨s', disk', .trusted asked proved load, next, landed_near (load_away load away) near⟩
  · exact refuses_last bounds outside stage away (sound_text (sound_lit _))

theorem race_leads (asked : s.state = .race) :
    Leads (Near strict c g₀ s disk) E (receiveRace c line) fun _ =>
      Moved strict env line c g₀ s disk := by
  have r := near_reports (c := c) bounds outside stage
  unfold receiveRace
  cases chosen : raceChosen line with
  | none =>
    refine Leads.seq (Leads.stays (r.said (sound_text (sound_lit _)))) ?_
    exact refuses_leads bounds outside stage away sound_race_menu
  | some race =>
    have raced : Stage strict g₀ { s with race := str race, resume := false } disk :=
      { stage with session := { stage.session with race := clean_race chosen } }
    refine Leads.seq (leads_set (fun s => { s with race := str race }) (fun _ _ _ _ => rfl)
      ⟨rfl, rfl⟩) (Leads.seq (leads_set (fun s => { s with resume := false })
      (fun _ _ _ _ => rfl) ⟨rfl, rfl⟩) ?_)
    refine Leads.weaken (begin_leads bounds outside raced) fun _ g near => ?_
    exact ⟨_, disk, .raced asked chosen, { raced with session := { raced.session with } },
      landed_near nofun near⟩

theorem chosen_leads (asked : s.state = .passphrase) (unset : s.secretHash = []) :
    Leads (Near strict c g₀ s disk) E (passphraseSetNew env c (cstr line)) fun _ =>
      Moved strict env line c g₀ s disk := by
  have watch := (near_reports (c := c) bounds outside stage).toWatches
  refine Leads.after (watch.hashes (cstr line)) fun hashed made => ?_
  cases hashed with
  | none => exact refuses_last bounds outside stage away (sound_text (sound_lit _))
  | some hash =>
    obtain ⟨long, salt, crypted, short⟩ := made hash rfl
    have set : Stage strict g₀ { s with secretHash := hash } disk :=
      { stage with session := { stage.session with } }
    refine Leads.seq (leads_set (fun s => { s with secretHash := hash }) (fun _ _ _ _ => rfl)
      ⟨rfl, rfl⟩) (Leads.weaken (ok_leads bounds outside set) fun _ g entered => ?_)
    obtain ⟨disk', saves, playing, arrived⟩ := entered
    refine ⟨_, disk', .entered asked (.chosen unset long crypted short) saves, playing, ?_⟩
    rw [Landed, if_pos rfl]
    exact arrived

theorem phrase_leads (asked : s.state = .passphrase) :
    Leads (Near strict c g₀ s disk) E (receivePassphrase env c (cstr line)) fun _ =>
      Moved strict env line c g₀ s disk := by
  refine Leads.after near_reads fun s' like => ?_
  obtain ⟨outbox, close, wsi, rfl, _⟩ := like
  refine Leads.ite (fun unset => ?_) fun hashed => Leads.ite (fun proved => ?_) fun _ => ?_
  · exact chosen_leads bounds outside stage away asked unset
  · exact proven_leads bounds outside stage asked hashed proved
  · exact refuses_last bounds outside stage away (sound_text (sound_lit _))

/-- The callback follows the walk of a login. -/
theorem login_leads : Leads (Near strict c g₀ s disk) E (dispatch env c line) fun _ =>
    Moved strict env line c g₀ s disk := by
  refine Leads.after near_reads fun s' like => ?_
  obtain ⟨outbox, close, wsi, rfl, _⟩ := like
  cases asked : s.state with
  | name => exact name_leads bounds outside stage away asked
  | token => exact token_leads bounds outside stage away asked
  | passphrase => exact phrase_leads bounds outside stage away asked
  | race => exact race_leads bounds outside stage away asked
  | play => exact absurd asked away

end Dispatch

end Steps

end HollowGrid
