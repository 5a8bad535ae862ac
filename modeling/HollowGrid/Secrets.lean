import HollowGrid.Errands
import HollowGrid.Profiles
import HollowGrid.Lib.Simulation

/-! The secret of a character. A file that has a hash keeps it, and only a phrase of that hash
leads into play under its names. -/
namespace HollowGrid

/-- A read of a file is whole or gives nothing, and a save that fails leaves the file alone. -/
structure Dependable (env : Env) : Prop where
  reading : ∀ n, env.reading n = .whole ∨ env.reading n = .readFails
  writing : ∀ n, env.writing n = .whole ∨ env.writing n = .fails

variable {env : Env} {g g' : Server} {e : Event} {c : Block} {key hash : Bytes}
  {s s' : Session} {disk disk' : Disk}

theorem record_hash (s : Session) : loadHash (characterRecord s) = (cstr s.secretHash).take 71 :=
  rfl

theorem loaded_hash (root : Json) : (cstr (loadHash root)).take 71 = loadHash root := by
  unfold loadHash jsonString
  split
  · exact cut_settles _ 71
  · rfl

/-- The hash that a file of the disk has. -/
def HasHash (disk : Disk) (key hash : Bytes) : Prop :=
  ∃ root, disk key = some (.json root) ∧ loadHash root = hash

theorem has_hash_written (before : HasHash disk key hash) (same : s.secretHash = hash)
    (there : disk' key = some (.json (characterRecord s))) : HasHash disk' key hash := by
  obtain ⟨root, _, rfl⟩ := before
  exact ⟨_, there, by rw [record_hash, same, loaded_hash]⟩

theorem has_hash_saved (dependable : Dependable env) (before : HasHash disk key hash)
    (saves : Saves env s disk disk')
    (same : characterPath s.name = some key → s.secretHash = hash) : HasHash disk' key hash := by
  rcases saves with rfl | ⟨own, file, path, rfl, wrote⟩
  · exact before
  · by_cases here : key = own
    · subst here
      rcases wrote with rfl | ⟨n, torn⟩
      · exact has_hash_written before (same path) (Function.update_self ..)
      · rcases dependable.writing n with whole | fails
        · cases whole.symm.trans torn
        · cases fails.symm.trans torn
    · obtain ⟨root, there, hashed⟩ := before
      exact ⟨root, (Function.update_of_ne here ..).trans there, hashed⟩

/-- The session is of another file, has not come to its file, or has the hash of it. -/
def Bears (key hash : Bytes) (s : Session) : Prop :=
  characterPath s.name = some key → s.state ≠ .name → s.state ≠ .token → s.secretHash = hash

theorem missing_other (dependable : Dependable env) (held : HasHash disk key hash)
    (missing : Missing env disk s) : characterPath s.name ≠ some key := by
  obtain ⟨own, path, absent⟩ := missing
  obtain ⟨root, there, _⟩ := held
  intro same
  cases path.symm.trans same
  rcases absent with none | ⟨n, fails⟩
  · cases none.symm.trans there
  · rcases dependable.reading n with whole | failed
    · cases whole.symm.trans fails
    · cases failed.symm.trans fails

theorem stored_hash (dependable : Dependable env) (held : HasHash disk key hash) {root : Json}
    (stored : Stored env disk s root) (path : characterPath s.name = some key) :
    loadHash root = hash := by
  obtain ⟨own, file, path', there, read⟩ := stored
  cases path.symm.trans path'
  obtain ⟨root', there', hashed⟩ := held
  rcases read with rfl | ⟨n, short⟩
  · cases there.symm.trans there'
    exact hashed
  · rcases dependable.reading n with whole | failed
    · cases whole.symm.trans short
    · cases failed.symm.trans short

theorem load_bears (dependable : Dependable env) (held : HasHash disk key hash)
    (early : s.state = .name ∨ s.state = .token) (load : Load env s disk s' disk') :
    HasHash disk' key hash ∧ Bears key hash s' := by
  cases load with
  | unreadable =>
    refine ⟨held, fun _ named proved => ?_⟩
    exact early.elim (fun asked => absurd asked named) fun asked => absurd asked proved
  | own stored => exact ⟨held, fun path _ _ => stored_hash dependable held stored path⟩
  | merged stored => exact ⟨held, fun path _ _ => stored_hash dependable held stored path⟩
  | adopted missing _ saves =>
    have other := missing_other dependable held missing
    exact ⟨has_hash_saved dependable held saves fun path => absurd path other,
      fun path _ _ => absurd path other⟩
  | fresh missing =>
    exact ⟨held, fun path _ _ => absurd path (missing_other dependable held missing)⟩

/-- A message on the way into play keeps the hash, and one that ends there proves it. -/
theorem login_bears {line : Bytes} (dependable : Dependable env) (held : HasHash disk key hash)
    (hashed : hash ≠ []) (bears : Bears key hash s)
    (move : LoginMove env line s disk s' disk') :
    HasHash disk' key hash ∧ Bears key hash s' ∧
      (s.state ≠ .play → s'.state = .play → characterPath s'.name = some key →
        verifyPassphrase env (cstr line) hash = true) := by
  cases move with
  | refused => exact ⟨held, bears, fun away seated => absurd seated away⟩
  | keeper => exact ⟨held, fun _ _ proved => absurd rfl proved, fun _ seated => by cases seated⟩
  | named asked _ _ load =>
    have loaded := load_bears (s := { s with name := line }) dependable held (.inl asked) load
    refine ⟨loaded.1, loaded.2, fun away seated => absurd seated ?_⟩
    exact load_away (s := { s with name := line }) load away
  | trusted asked _ load =>
    have loaded := load_bears (s := { s with keeperAuthed := true }) dependable held (.inr asked)
      load
    refine ⟨loaded.1, loaded.2, fun away seated => absurd seated ?_⟩
    exact load_away (s := { s with keeperAuthed := true }) load away
  | raced asked =>
    refine ⟨held, fun path _ _ => ?_, fun _ seated => by cases seated⟩
    exact bears path (by simp [asked]) (by simp [asked])
  | entered asked enters saves =>
    have own (path : characterPath s.name = some key) : s.secretHash = hash :=
      bears path (by simp [asked]) (by simp [asked])
    cases enters with
    | proven _ proved =>
      refine ⟨has_hash_saved dependable held saves own, fun path _ _ => own path,
        fun _ _ path => ?_⟩
      rw [← own path]
      exact proved
    | chosen unset =>
      have other : characterPath s.name ≠ some key :=
        fun path => hashed ((own path).symm.trans unset)
      exact ⟨has_hash_saved dependable held saves fun path => absurd path other,
        fun path _ _ => absurd path other, fun _ _ path => absurd path other⟩

/-- The file of the key has the hash, and so has every open session that came to it. -/
structure Guarded (key hash : Bytes) (g : Server) : Prop where
  file : HasHash g.disk key hash
  borne : ∀ c, g.socket c ≠ none → Bears key hash (g.blocks c)

theorem bears_twin (twin : Twin s s') (bears : Bears key hash s) : Bears key hash s' := by
  unfold Bears at bears ⊢
  rw [twin.name, twin.state, twin.secretHash]
  exact bears

theorem guarded_step (dependable : Dependable env) (hashed : hash ≠ []) (seats : Seats g)
    (guarded : Guarded key hash g) (taken : step env g e = .ok g') : Guarded key hash g' := by
  have bears (d : Block) (there : g.socket d ≠ none) := guarded.borne d there
  cases errand seats taken with
  | @opens c wsi fresh new others sockets disk =>
    refine ⟨disk ▸ guarded.file, fun d there => ?_⟩
    by_cases own : d = c
    · subst own
      exact bears_twin new fun _ named _ => absurd rfl named
    · rw [others d own]
      exact bears d (by rwa [sockets d own] at there)
  | @login c text s' _ opened _ move like others sockets =>
    obtain ⟨file, borne, _⟩ := login_bears dependable guarded.file hashed (bears c opened) move
    refine ⟨file, fun d there => ?_⟩
    by_cases own : d = c
    · subst own
      exact bears_twin like borne
    · rw [others d own]
      exact bears d (by rwa [sockets d] at there)
  | plays seated played =>
    have own (d : Block) (s : Session) (peer : Peer (g.blocks d) s) (there : g.socket d ≠ none) :
        Bears key hash s := by
      unfold Bears
      rw [peer.name, peer.state, peer.secretHash]
      exact bears d there
    refine ⟨?_, fun d there => ?_⟩
    · rcases played.disk key with same | ⟨d, file, part, ⟨path, record | ⟨n, torn⟩⟩, wrote⟩
      · obtain ⟨root, there, same_hash⟩ := guarded.file
        exact ⟨root, same.trans there, same_hash⟩
      · obtain ⟨s, peer, rfl⟩ := record
        obtain ⟨there, playing⟩ := seated d part
        refine has_hash_written guarded.file ?_ wrote
        refine own d s peer there (by rwa [peer.name]) ?_ ?_
        · rw [peer.state, playing]
          exact Login.noConfusion
        · rw [peer.state, playing]
          exact Login.noConfusion
      · rcases dependable.writing n with whole | fails
        · cases whole.symm.trans torn
        · cases fails.symm.trans torn
    · rw [Server.socket, played.connections] at there
      exact own d _ (played.peers d) there
  | @leaves c opened playing gone others sockets saves =>
    refine ⟨has_hash_saved dependable guarded.file saves fun path => ?_, fun d there => ?_⟩
    · exact bears c opened path (by simp [playing]) (by simp [playing])
    · have other : d ≠ c := fun own => there (own ▸ gone)
      rw [others d other]
      exact bears d (by rwa [sockets d other] at there)
  | quiet twins opened _ disk =>
    exact ⟨disk ▸ guarded.file, fun d there => bears_twin (twins d) (bears d (opened d there))⟩

theorem guarded_entry (dependable : Dependable env) (hashed : hash ≠ [])
    (guarded : Guarded key hash g) (taken : step env g e = .ok g')
    (away : (g.blocks c).state ≠ .play) (playing : (g'.blocks c).state = .play)
    (path : characterPath (g'.blocks c).name = some key) :
    ∃ text, e = .message c text ∧ verifyPassphrase env (cstr (trimmed text)) hash = true := by
  have entered := entering taken away playing
  obtain ⟨text, s', message, _, enters, saves, like⟩ := entered.phrase
  have name : characterPath s'.name = some key := by rwa [← like.name]
  refine ⟨text, message, ?_⟩
  have move : LoginMove env (trimmed text) (g.blocks c) g.disk s' g'.disk :=
    .entered entered.asked enters saves
  have proved := login_bears dependable guarded.file hashed (guarded.borne c entered.there) move
  exact proved.2.2 away (like.state.symm.trans playing) name

theorem guarded_lasts (dependable : Dependable env) (hashed : hash ≠ []) (seats : Seats g)
    (guarded : Guarded key hash g) {later : List Event}
    (now : Machine.Reaches (step env) g later g') : Seats g' ∧ Guarded key hash g' :=
  Machine.lasts (fun g => Seats g ∧ Guarded key hash g) (fun _ => True)
    (fun _ _ _ holds _ taken => ⟨seats_kept holds.1 taken,
      guarded_step dependable hashed holds.1 holds.2 taken⟩)
    now ⟨seats, guarded⟩ fun _ _ => trivial

/-- From the moment that the file of a name and every session that came to it have a hash, the
file keeps the hash whatever any number of connections do, and each entry into play under the
name is a message that proves it. -/
theorem secret_guards (env : Env) (disk : Disk) (key hash : Bytes) (before later : List Event)
    (g₀ g : Server) (dependable : Dependable env) (hashed : hash ≠ [])
    (reached : Machine.Reaches (step env) (boot env disk) before g₀)
    (guarded : Guarded key hash g₀) (now : Machine.Reaches (step env) g₀ later g) :
    Guarded key hash g ∧
    ∀ e g' c, step env g e = .ok g' → (g.blocks c).state ≠ .play → (g'.blocks c).state = .play →
      characterPath (g'.blocks c).name = some key →
      ∃ text, e = .message c text ∧ verifyPassphrase env (cstr (trimmed text)) hash = true := by
  have held := guarded_lasts dependable hashed (seats_run reached) guarded now
  exact ⟨held.2, fun e g' c taken away playing path =>
    guarded_entry dependable hashed held.2 taken away playing path⟩

theorem guarded_boot (env : Env) (held : HasHash disk key hash) :
    Guarded key hash (boot env disk) :=
  ⟨held, fun _ there => absurd rfl there⟩

theorem secret_guards_shared : ∃ g, Machine.Reaches (step quietNode) (boot quietNode sharedDisk)
    (returns 0 (str "ada")) g ∧ (g.blocks 0).state = .play ∧
    HasHash g.disk (str "ada") (bcryptLike (str "password") oneSalt) := by
  obtain ⟨g, g', reached, held, _⟩ := ada_seated
  have start : HasHash (boot quietNode sharedDisk).disk (str "ada")
      (bcryptLike (str "password") oneSalt) := ⟨_, rfl, by decide⟩
  have guards := secret_guards quietNode sharedDisk (str "ada")
    (bcryptLike (str "password") oneSalt) [] (returns 0 (str "ada")) _ g
    ⟨fun _ => .inl rfl, fun _ => .inl rfl⟩ (by decide) (Machine.reaches_nil _ _)
    (guarded_boot quietNode start) reached
  exact ⟨g, reached, ((seats_run reached).seated 0 (List.mem_of_getElem? held)).2, guards.1.file⟩

end HollowGrid
