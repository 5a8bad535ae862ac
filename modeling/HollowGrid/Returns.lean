import HollowGrid.Errands
import HollowGrid.Profiles
import HollowGrid.Lib.Archive
import HollowGrid.Lib.Simulation

/-! The characters of a server as an archive. A character is out with the connection that plays
it, and otherwise in the file of its name. -/
namespace HollowGrid

structure Uses (g : Server) (c : Block) (key : Bytes) : Prop where
  there : g.socket c ≠ none
  named : (g.blocks c).state ≠ .name
  path : characterPath (g.blocks c).name = some key

structure Plays (g : Server) (c : Block) (key : Bytes) : Prop where
  there : g.socket c ≠ none
  playing : (g.blocks c).state = .play
  path : characterPath (g.blocks c).name = some key

/-- No two open connections are past a name of one file. -/
def OnePerFile (g : Server) : Prop :=
  ∀ key c d, Uses g c key → Uses g d key → c = d

/-- Every file is the record of some session. -/
def SelfWritten (disk : Disk) : Prop :=
  ∀ key file, disk key = some file → ∃ s, file = .json (characterRecord s)

/-- A session on its way into play carries what the file of its name holds. -/
def Ready (disk : Disk) (s : Session) : Prop :=
  match s.state with
  | .name => s.toCharacter = arrival
  | .token => s.toCharacter = arrival
  | .race => ∀ key, characterPath s.name = some key → disk key = none
  | .passphrase => ∀ key, characterPath s.name = some key →
      if s.resume then
        ∃ root, disk key = some (.json root) ∧ s.toCharacter = loadCharacter root arrival
      else disk key = none
  | .play => True

structure Shelved (g : Server) : Prop where
  seats : Seats g
  written : SelfWritten g.disk
  ready : ∀ c, g.socket c ≠ none → Ready g.disk (g.blocks c)

variable {env : Env} {g g' : Server} {e : Event} {c d : Block} {key : Bytes}

theorem Plays.uses (plays : Plays g c key) : Uses g c key :=
  ⟨plays.there, by rw [plays.playing]; exact Login.noConfusion, plays.path⟩

theorem plays_iff (socket : g'.socket c = g.socket c)
    (state : (g'.blocks c).state = (g.blocks c).state)
    (name : (g'.blocks c).name = (g.blocks c).name) : Plays g' c key ↔ Plays g c key := by
  constructor
  · rintro ⟨there, playing, path⟩
    exact ⟨socket ▸ there, state ▸ playing, name ▸ path⟩
  · rintro ⟨there, playing, path⟩
    exact ⟨by rwa [socket], state.trans playing, by rwa [name]⟩

theorem plays_same (block : g'.blocks c = g.blocks c) (socket : g'.socket c = g.socket c) :
    Plays g' c key ↔ Plays g c key :=
  plays_iff socket (by rw [block]) (by rw [block])

section Ready

variable {disk disk' : Disk} {s s' : Session}

theorem ready_twin (twin : Twin s s') (ready : Ready disk s) : Ready disk s' := by
  unfold Ready at ready ⊢
  rw [twin.state, twin.name, twin.character, twin.resume]
  exact ready

/-- A session is ready as long as the file of its name is left alone. -/
theorem ready_disk (same : ∀ key, s.state ≠ .name → s.state ≠ .play →
      characterPath s.name = some key → disk' key = disk key)
    (ready : Ready disk s) : Ready disk' s := by
  unfold Ready at ready ⊢
  cases asked : s.state with
  | name =>
    rw [asked] at ready
    exact ready
  | token =>
    rw [asked] at ready
    exact ready
  | play => trivial
  | race =>
    rw [asked] at ready
    intro key path
    rw [same key (by simp [asked]) (by simp [asked]) path]
    exact ready key path
  | passphrase =>
    rw [asked] at ready
    intro key path
    rw [same key (by simp [asked]) (by simp [asked]) path]
    exact ready key path

/-- A name leads to its file, or to a choice of race when there is none. -/
theorem load_ready (reliable : Reliable env) (new : s.toCharacter = arrival)
    (early : s.state = .name ∨ s.state = .token) (load : Load env s disk s' disk') :
    disk' = disk ∧ Ready disk s' := by
  have unknown {row : CharacterRow} (hub : HubRow env s.name row) : False := by
    obtain ⟨n, result, called, _⟩ := hub
    rw [reliable.silent] at called
    cases called
  cases load with
  | unreadable =>
    refine ⟨rfl, ?_⟩
    rcases early with asked | asked
    · rw [Ready, asked]
      exact new
    · rw [Ready, asked]
      exact new
  | @own root stored =>
    obtain ⟨key, file, path, there, read⟩ := stored
    have whole : file = .json root := by
      rcases read with same | ⟨n, short⟩
      · exact same
      · rw [reliable.reading] at short
        cases short
    refine ⟨rfl, fun key' path' => ?_⟩
    cases path.symm.trans path'
    refine ⟨root, whole ▸ there, ?_⟩
    change loadCharacter root s.toCharacter = loadCharacter root arrival
    rw [new]
  | merged _ hub => exact (unknown hub).elim
  | adopted _ hub => exact (unknown hub).elim
  | fresh missing =>
    obtain ⟨key, path, absent⟩ := missing
    refine ⟨rfl, fun key' path' => ?_⟩
    cases path.symm.trans path'
    rcases absent with none | ⟨n, fails⟩
    · exact none
    · rw [reliable.reading] at fails
      cases fails

/-- A message on the way into play leaves the files alone until it ends there. -/
theorem login_ready {line : Bytes} (reliable : Reliable env)
    (move : LoginMove env line s disk s' disk') (ready : Ready disk s) (away : s'.state ≠ .play) :
    disk' = disk ∧ Ready disk s' := by
  cases move with
  | refused => exact ⟨rfl, ready⟩
  | keeper asked =>
    rw [Ready, asked] at ready
    exact ⟨rfl, ready⟩
  | named asked _ _ load =>
    rw [Ready, asked] at ready
    exact load_ready (s := { s with name := line }) reliable ready (.inl asked) load
  | trusted asked _ load =>
    rw [Ready, asked] at ready
    exact load_ready (s := { s with keeperAuthed := true }) reliable ready (.inr asked) load
  | raced asked =>
    rw [Ready, asked] at ready
    exact ⟨rfl, ready⟩
  | entered _ enters =>
    refine absurd ?_ away
    cases enters with
    | proven => rfl
    | chosen => rfl

theorem enters_name {phrase : Bytes} (enters : Enters env phrase s s') : s'.name = s.name := by
  cases enters with
  | proven => rfl
  | chosen => rfl

theorem enters_character {phrase : Bytes} (enters : Enters env phrase s s') :
    s'.toCharacter = s.toCharacter := by
  cases enters with
  | proven => rfl
  | chosen => rfl

/-- What the phrase that ends in play does to the files. -/
theorem saves_filed (reliable : Reliable env) (saves : Saves env s disk disk') :
    disk' = disk ∨ ∃ key, characterPath s.name = some key ∧
      disk' = Function.update disk key (some (.json (characterRecord s))) := by
  rcases saves with same | ⟨key, file, path, wrote, record | ⟨n, torn⟩⟩
  · exact .inl same
  · exact .inr ⟨key, path, record ▸ wrote⟩
  · rw [reliable.writing] at torn
    cases torn

theorem written_update (written : SelfWritten disk) (key : Bytes) (s : Session) :
    SelfWritten (Function.update disk key (some (.json (characterRecord s)))) := by
  intro k file there
  by_cases own : k = key
  · subst own
    rw [Function.update_self] at there
    cases there
    exact ⟨s, rfl⟩
  · rw [Function.update_of_ne own] at there
    exact written k file there

theorem saves_written (reliable : Reliable env) (written : SelfWritten disk)
    (saves : Saves env s disk disk') : SelfWritten disk' := by
  rcases saves_filed reliable saves with rfl | ⟨key, _, rfl⟩
  · exact written
  · exact written_update written key s

theorem filed_written (written : SelfWritten disk) (filed : Filed s disk disk') :
    SelfWritten disk' := by
  unfold Filed at filed
  cases path : characterPath s.name with
  | none =>
    rw [path] at filed
    exact filed ▸ written
  | some key =>
    rw [path] at filed
    exact filed ▸ written_update written key s

theorem filed_other (filed : Filed s disk disk') (other : characterPath s.name ≠ some key) :
    disk' key = disk key := by
  unfold Filed at filed
  cases path : characterPath s.name with
  | none =>
    rw [path] at filed
    rw [filed]
  | some own =>
    rw [path] at filed other
    rw [filed, Function.update_of_ne fun same => other (congrArg some same.symm)]

theorem saves_other (saves : Saves env s disk disk') (other : characterPath s.name ≠ some key) :
    disk' key = disk key := by
  rcases saves with rfl | ⟨own, file, path, rfl, _⟩
  · rfl
  · have apart : key ≠ own := by
      rintro rfl
      exact other path
    exact Function.update_of_ne apart ..

end Ready

theorem played_file {T : Block → Prop} (seated : ∀ d, T d → g.socket d ≠ none ∧
      (g.blocks d).state = .play) (played : Played env T g g') :
    g'.disk key = g.disk key ∨ ∃ d, Plays g d key := by
  rcases played.disk key with same | ⟨d, file, part, written, _⟩
  · exact .inl same
  · exact .inr ⟨d, (seated d part).1, (seated d part).2, written.1⟩

theorem played_written (reliable : Reliable env) {T : Block → Prop} (written : SelfWritten g.disk)
    (played : Played env T g g') : SelfWritten g'.disk := by
  intro key file there
  rcases played.disk key with same | ⟨d, file', _, ⟨_, record | ⟨n, torn⟩⟩, wrote⟩
  · exact written key file (same ▸ there)
  · cases there.symm.trans wrote
    obtain ⟨s, _, same⟩ := record
    exact ⟨s, same⟩
  · rw [reliable.writing] at torn
    cases torn

/-- Everyone on the way into play is ready, as long as no two use one file. -/
theorem shelved_step (reliable : Reliable env) (one : OnePerFile g) (shelved : Shelved g)
    (taken : step env g e = .ok g') : Shelved g' := by
  cases errand shelved.seats taken with
  | @opens c wsi fresh new others sockets disk =>
    refine ⟨seats_kept shelved.seats taken, disk ▸ shelved.written, fun d there => ?_⟩
    by_cases own : d = c
    · subst own
      exact ready_twin new rfl
    · rw [sockets d own] at there
      rw [others d own, disk]
      exact shelved.ready d there
  | @login c text s' _ opened away move like others sockets =>
    have before := shelved.ready c opened
    by_cases seated : s'.state = .play
    · obtain ⟨asked, enters, saves⟩ := login_entered away move seated
      refine ⟨seats_kept shelved.seats taken, saves_written reliable shelved.written saves,
        fun d there => ?_⟩
      by_cases own : d = c
      · subst own
        refine ready_twin like ?_
        rw [Ready, seated]
        trivial
      · rw [sockets d] at there
        rw [others d own]
        refine ready_disk (fun key named _ path => ?_) (shelved.ready d there)
        refine saves_other saves fun used => own ?_
        rw [enters_name enters] at used
        exact one key d c ⟨there, named, path⟩ ⟨opened, by simp [asked], used⟩
    · obtain ⟨disk, ready⟩ := login_ready reliable move before seated
      refine ⟨seats_kept shelved.seats taken, disk ▸ shelved.written, fun d there => ?_⟩
      rw [disk]
      by_cases own : d = c
      · subst own
        exact ready_twin like ready
      · rw [sockets d] at there
        rw [others d own]
        exact shelved.ready d there
  | plays seated played =>
    refine ⟨seats_kept shelved.seats taken, played_written reliable shelved.written played,
      fun d there => ?_⟩
    by_cases playing : (g.blocks d).state = .play
    · rw [Ready, (played.peers d).state, playing]
      trivial
    · rw [Server.socket, played.connections] at there
      rw [played.others d fun part => playing (seated d part).2]
      refine ready_disk (fun key named _ path => ?_) (shelved.ready d there)
      rcases played_file seated played with same | ⟨b, plays⟩
      · exact same
      · cases one key b d plays.uses ⟨there, named, path⟩
        exact absurd plays.playing playing
  | @leaves c opened playing gone others sockets _ saved =>
    have filed := saved reliable
    refine ⟨seats_kept shelved.seats taken, filed_written shelved.written filed,
      fun d there => ?_⟩
    have other : d ≠ c := fun own => there (own ▸ gone)
    rw [sockets d other] at there
    rw [others d other]
    refine ready_disk (fun key named _ path => filed_other filed fun used => ?_)
      (shelved.ready d there)
    exact other (one key d c ⟨there, named, path⟩ (Plays.uses ⟨opened, playing, used⟩))
  | quiet twins sockets _ disk =>
    refine ⟨seats_kept shelved.seats taken, disk ▸ shelved.written, fun d there => ?_⟩
    rw [disk]
    exact ready_twin (twins d) (shelved.ready d (sockets d there))

def onFile (disk : Disk) (key : Bytes) : Option Character :=
  match disk key with
  | some (.json root) => some (profile root)
  | _ => none

open Classical in
/-- The characters of a server: what a player has to keep, or what the file has kept. -/
noncomputable def archive (g : Server) : Archive Bytes Character where
  record key := if out : ∃ c, Plays g c key then some (g.blocks out.choose).kept
    else onFile g.disk key
  lent key := ∃ c, Plays g c key

theorem archive_out (one : OnePerFile g) (plays : Plays g c key) :
    (archive g).record key = some (g.blocks c).kept := by
  have out : ∃ c, Plays g c key := ⟨c, plays⟩
  have same : out.choose = c := one key _ _ out.choose_spec.uses plays.uses
  simp only [archive, dif_pos out, same]

theorem archive_home (home : ¬∃ c, Plays g c key) :
    (archive g).record key = onFile g.disk key :=
  dif_neg home

/-- What a player has to keep is the character alone. -/
theorem kept_character {s s' : Session} (same : s'.toCharacter = s.toCharacter) :
    s'.kept = s.kept := by
  rw [kept_settles, kept_settles, same]

theorem record_out (one : OnePerFile g) (one' : OnePerFile g') (plays : Plays g c key)
    (plays' : Plays g' c key) (same : (g'.blocks c).toCharacter = (g.blocks c).toCharacter) :
    (archive g').record key = (archive g).record key := by
  rw [archive_out one plays, archive_out one' plays', kept_character same]

theorem record_home (home : ¬∃ c, Plays g c key) (home' : ¬∃ c, Plays g' c key)
    (same : g'.disk key = g.disk key) : (archive g').record key = (archive g).record key := by
  rw [archive_home home, archive_home home', onFile, onFile, same]

theorem archive_rests (one : OnePerFile g) (one' : OnePerFile g')
    (same : ∀ c key, Plays g' c key ↔ Plays g c key)
    (characters : ∀ c key, Plays g c key →
      (g'.blocks c).toCharacter = (g.blocks c).toCharacter)
    (disk : ∀ key, (¬∃ c, Plays g c key) → g'.disk key = g.disk key) :
    Archive.Move (archive g) (archive g') := by
  have lent : ∀ key, (archive g').lent key ↔ (archive g).lent key := fun key =>
    exists_congr fun c => same c key
  refine .rests (funext fun key => ?_) lent
  by_cases out : ∃ c, Plays g c key
  · obtain ⟨c, plays⟩ := out
    exact record_out one one' plays ((same c key).mpr plays) (characters c key plays)
  · exact record_home out (fun found => out ((lent key).mp found)) (disk key out)

theorem archive_enters (one : OnePerFile g) (one' : OnePerFile g') (shelved : Shelved g)
    (opened : g.socket c ≠ none) (asked : (g.blocks c).state = .passphrase)
    {phrase : Bytes} {s' : Session} (enters : Enters env phrase (g.blocks c) s')
    (saves : Saves env s' g.disk g'.disk) (like : Twin s' (g'.blocks c))
    (others : ∀ d, d ≠ c → g'.blocks d = g.blocks d) (sockets : ∀ d, g'.socket d = g.socket d)
    (seated : s'.state = .play) : Archive.Move (archive g) (archive g') := by
  have name : (g'.blocks c).name = (g.blocks c).name := like.name.trans (enters_name enters)
  have character : (g'.blocks c).toCharacter = (g.blocks c).toCharacter :=
    like.character.trans (enters_character enters)
  have away : (g.blocks c).state ≠ .play := by simp [asked]
  have same (d : Block) (other : d ≠ c) (key : Bytes) : Plays g' d key ↔ Plays g d key :=
    plays_same (others d other) (sockets d)
  cases path : characterPath (g.blocks c).name with
  | none =>
    refine archive_rests one one' (fun d key => ?_) (fun d key plays => ?_) fun key _ => ?_
    · by_cases own : d = c
      · subst own
        refine iff_of_false (fun plays => ?_) fun plays => away plays.playing
        have found := plays.path
        rw [name, path] at found
        cases found
      · exact same d own key
    · rw [others d fun own => away (own ▸ plays.playing)]
    · exact saves_other saves (by simp [enters_name enters, path])
  | some key =>
    have uses : Uses g c key := ⟨opened, by simp [asked], path⟩
    have plays : Plays g' c key :=
      ⟨by rwa [sockets c], like.state.trans seated, name ▸ path⟩
    have home : ¬∃ d, Plays g d key := by
      rintro ⟨d, there⟩
      cases one key d c there.uses uses
      exact away there.playing
    have lent (l : Bytes) : (archive g').lent l ↔ l = key ∨ (archive g).lent l := by
      constructor
      · rintro ⟨d, playing⟩
        by_cases own : d = c
        · subst own
          exact .inl (Option.some.inj (playing.path.symm.trans plays.path))
        · exact .inr ⟨d, (same d own l).mp playing⟩
      · rintro (rfl | ⟨d, playing⟩)
        · exact ⟨c, plays⟩
        · exact ⟨d, (same d (fun own => away (own ▸ playing.playing)) l).mpr playing⟩
    have rest (l : Bytes) (other : l ≠ key) : (archive g').record l = (archive g).record l := by
      by_cases out : ∃ d, Plays g d l
      · obtain ⟨d, playing⟩ := out
        have apart : d ≠ c := fun own => away (own ▸ playing.playing)
        exact record_out one one' playing ((same d apart l).mpr playing) (by rw [others d apart])
      · refine record_home out (fun found => ?_) (saves_other saves ?_)
        · exact ((lent l).mp found).elim other out
        · rw [enters_name enters, path]
          exact fun same => other (Option.some.inj same).symm
    have ready := shelved.ready c opened
    rw [Ready, asked] at ready
    have filed := ready key path
    split at filed
    · obtain ⟨root, there, found⟩ := filed
      obtain ⟨old, written⟩ := shelved.written key _ there
      cases written
      have before : (archive g).record key = some old.kept := by
        rw [archive_home home, onFile, there]
        rfl
      refine .lends key home (by simp [before]) (funext fun l => ?_) lent
      by_cases own : l = key
      · subst own
        rw [before, archive_out one' plays, kept_reload (character.trans found)]
      · exact rest l own
    · refine .opens key home ?_ ?_ rest lent
      · rw [archive_home home, onFile, filed]
      · rw [archive_out one' plays]
        exact Option.some_ne_none _

theorem archive_leaves (one : OnePerFile g) (one' : OnePerFile g') (opened : g.socket c ≠ none)
    (playing : (g.blocks c).state = .play) (gone : g'.socket c = none)
    (others : ∀ d, d ≠ c → g'.blocks d = g.blocks d)
    (sockets : ∀ d, d ≠ c → g'.socket d = g.socket d)
    (filed : Filed (g.blocks c) g.disk g'.disk) : Archive.Move (archive g) (archive g') := by
  have same (d : Block) (other : d ≠ c) (key : Bytes) : Plays g' d key ↔ Plays g d key :=
    plays_same (others d other) (sockets d other)
  have apart {d : Block} {key : Bytes} (plays : Plays g' d key) : d ≠ c :=
    fun own => plays.there (own ▸ gone)
  cases path : characterPath (g.blocks c).name with
  | none =>
    have idle (key : Bytes) : ¬Plays g c key := fun plays => by cases path.symm.trans plays.path
    refine .rests (funext fun key => ?_) fun key => exists_congr fun d => ?_
    · by_cases out : ∃ d, Plays g d key
      · obtain ⟨d, plays⟩ := out
        have other : d ≠ c := fun own => idle key (own ▸ plays)
        exact record_out one one' plays ((same d other key).mpr plays) (by rw [others d other])
      · refine record_home out (fun ⟨d, plays⟩ => out ⟨d, (same d (apart plays) key).mp plays⟩) ?_
        exact filed_other filed (by simp [path])
    · by_cases own : d = c
      · subst own
        exact iff_of_false (fun plays => apart plays rfl) (idle key)
      · exact same d own key
  | some key =>
    have plays : Plays g c key := ⟨opened, playing, path⟩
    have lent (l : Bytes) : (archive g').lent l ↔ l ≠ key ∧ (archive g).lent l := by
      constructor
      · rintro ⟨d, there⟩
        have before := (same d (apart there) l).mp there
        refine ⟨fun own => apart there ?_, d, before⟩
        exact one key d c (own ▸ before.uses) plays.uses
      · rintro ⟨other, d, there⟩
        refine ⟨d, (same d (fun own => other ?_) l).mpr there⟩
        subst own
        exact Option.some.inj (there.path.symm.trans path)
    refine .returns key ⟨c, plays⟩ (funext fun l => ?_) lent
    by_cases own : l = key
    · subst own
      have home : ¬∃ d, Plays g' d l := fun found => ((lent l).mp found).1 rfl
      have record : g'.disk l = some (.json (characterRecord (g.blocks c))) := by
        unfold Filed at filed
        rw [path] at filed
        rw [filed]
        exact Function.update_self ..
      rw [archive_home home, archive_out one plays, onFile, record]
      rfl
    · by_cases out : ∃ d, Plays g d l
      · obtain ⟨d, there⟩ := out
        have other : d ≠ c := by
          rintro rfl
          exact own (Option.some.inj (there.path.symm.trans path))
        exact record_out one one' there ((same d other l).mpr there) (by rw [others d other])
      · refine record_home out (fun found => out ((lent l).mp found).2) (filed_other filed ?_)
        rw [path]
        exact fun same => own (Option.some.inj same).symm

/-- Players change the records they have and no other. -/
theorem archive_works (one' : OnePerFile g') {T : Block → Prop}
    (seated : ∀ d, T d → g.socket d ≠ none ∧ (g.blocks d).state = .play)
    (played : Played env T g g') : Archive.Move (archive g) (archive g') := by
  have same (d : Block) (key : Bytes) : Plays g' d key ↔ Plays g d key := by
    have sockets : g'.socket d = g.socket d := by rw [Server.socket, played.connections]; rfl
    exact plays_iff sockets (played.peers d).state (played.peers d).name
  refine .works (fun key home => ?_) (fun key out => ?_) fun key => exists_congr fun d => same d key
  · have home' : ¬∃ d, Plays g' d key := by
      rintro ⟨d, plays⟩
      exact home ⟨d, (same d key).mp plays⟩
    refine record_home home home' ?_
    exact (played_file seated played).resolve_right home
  · obtain ⟨d, plays⟩ := out
    rw [archive_out one' ((same d key).mpr plays)]
    exact Option.some_ne_none _

theorem archive_step (reliable : Reliable env) (one : OnePerFile g) (one' : OnePerFile g')
    (shelved : Shelved g) (taken : step env g e = .ok g') :
    Archive.Move (archive g) (archive g') := by
  cases errand shelved.seats taken with
  | @opens c wsi fresh new others sockets disk =>
    have apart {d : Block} {key : Bytes} (plays : Plays g' d key) : d ≠ c := by
      rintro rfl
      have name := new.state.symm.trans plays.playing
      cases name
    refine archive_rests one one' (fun d key => ?_) (fun d key plays => ?_)
      fun key _ => by rw [disk]
    · by_cases own : d = c
      · subst own
        exact iff_of_false (fun plays => apart plays rfl) fun plays => plays.there fresh
      · exact plays_same (others d own) (sockets d own)
    · rw [others d fun own => plays.there (own ▸ fresh)]
  | @login c text s' _ opened away move like others sockets =>
    by_cases seated : s'.state = .play
    · obtain ⟨asked, enters, saves⟩ := login_entered away move seated
      exact archive_enters one one' shelved opened asked enters saves like others sockets
        seated
    · have disk := (login_ready reliable move (shelved.ready c opened) seated).1
      refine archive_rests one one' (fun d key => ?_) (fun d key plays => ?_)
        fun key _ => by rw [disk]
      · by_cases own : d = c
        · subst own
          refine iff_of_false (fun plays => seated ?_) fun plays => away plays.playing
          exact like.state.symm.trans plays.playing
        · exact plays_same (others d own) (sockets d)
      · rw [others d fun own => away (own ▸ plays.playing)]
  | plays seated played => exact archive_works one' seated played
  | leaves opened playing gone others sockets _ saved =>
    exact archive_leaves one one' opened playing gone others sockets (saved reliable)
  | quiet twins opened sockets disk =>
    refine archive_rests one one' (fun d key => ?_) (fun d _ _ => (twins d).character)
      fun key _ => by rw [disk]
    constructor
    · rintro ⟨there, playing, path⟩
      exact ⟨opened d there, (twins d).state ▸ playing, (twins d).name ▸ path⟩
    · rintro ⟨there, playing, path⟩
      exact ⟨by rwa [sockets d playing], (twins d).state.trans playing, by rwa [(twins d).name]⟩

section Runs

variable {disk : Disk} {before later : List Event}

theorem shelved_boot (written : SelfWritten disk) : Shelved (boot env disk) :=
  ⟨seats_boot env disk, written, fun _ there => absurd rfl there⟩

theorem archive_runs (reliable : Reliable env) (shelved : Shelved g) {events : List Event}
    (one : Machine.Within (step env) OnePerFile g events)
    (reached : Machine.Reaches (step env) g events g') :
    Shelved g' ∧ Relation.ReflTransGen Archive.Move (archive g) (archive g') :=
  Machine.simulates OnePerFile Shelved archive Archive.Move shelved
    (fun _ _ _ shelved one one' taken => ⟨shelved_step reliable one shelved taken,
      archive_step reliable one one' shelved taken⟩) one reached

/-- As long as no two connections past a name use one file, every event is a move of an archive.
A record changes in the hands of its holder alone, and none is ever lost. -/
theorem characters_archived (env : Env) (disk : Disk) (before later : List Event) (e : Event)
    (g g₁ g₂ : Server) (reliable : Reliable env) (written : SelfWritten disk)
    (one : Machine.Within (step env) OnePerFile (boot env disk) (before ++ e :: later))
    (reached : Machine.Reaches (step env) (boot env disk) before g)
    (taken : step env g e = .ok g₁) (now : Machine.Reaches (step env) g₁ later g₂) :
    Archive.Move (archive g) (archive g₁) ∧
    (∀ key, ¬((archive g).lent key ∧ (archive g₁).lent key) → (archive g).record key ≠ none →
      (archive g₁).record key = (archive g).record key) ∧
    ∀ key, (archive g).record key ≠ none → (archive g₂).record key ≠ none := by
  have shelved := (archive_runs reliable (shelved_boot written)
    (Machine.within_front _ _ _ before _ one) reached).1
  have rest : Machine.Within (step env) OnePerFile g (e :: later) :=
    Machine.within_stretch one reached
  have one₁ := rest [e] (by simp) g₁
    (Machine.reaches_snoc _ _ _ _ [] e (Machine.reaches_nil _ g) taken)
  have move := archive_step reliable (rest [] List.nil_prefix g (Machine.reaches_nil _ g)) one₁
    shelved taken
  have onward : Machine.Reaches (step env) g (e :: later) g₂ := by
    simpa only [Machine.Reaches, Machine.run, taken] using now
  exact ⟨move, fun key handed there => move.same handed there,
    fun key there => Archive.moves_kept (archive_runs reliable shelved rest onward).2 there⟩

theorem record_rests (reliable : Reliable env) (shelved : Shelved g)
    (one : Machine.Within (step env) OnePerFile g later)
    (away : Machine.Within (step env) (fun g => ∀ d, ¬Plays g d key) g later)
    (there : (archive g).record key ≠ none) (now : Machine.Reaches (step env) g later g') :
    (archive g').record key = (archive g).record key := by
  refine (Machine.simulates (fun g => OnePerFile g ∧ ∀ d, ¬Plays g d key)
    (fun g₁ => Shelved g₁ ∧ (archive g₁).record key = (archive g).record key) (fun g => g)
    (fun _ _ => True) ⟨shelved, rfl⟩ ?_
    (fun front start_of s reached => ⟨one front start_of s reached, away front start_of s reached⟩)
    now).1.2
  rintro g₁ e g₂ ⟨shelved, same⟩ ⟨one, home⟩ ⟨one', _⟩ taken
  have move := archive_step reliable one one' shelved taken
  refine ⟨⟨shelved_step reliable one shelved taken, ?_⟩, trivial⟩
  rw [move.same (fun ⟨⟨d, plays⟩, _⟩ => home d plays) (same ▸ there), same]

/-- A disk with the record of one character, who has strayed and is redeemed. -/
def adaDisk : Disk := Function.update (fun _ => none) (str "ada")
  (some (.json (characterRecord { ada with
    strayed := true, redeemed := true, secretHash := bcryptLike (str "password") oneSalt })))

theorem ada_disk_written : SelfWritten adaDisk := by
  intro key file there
  by_cases own : key = str "ada"
  · subst own
    rw [adaDisk, Function.update_self] at there
    cases there
    exact ⟨_, rfl⟩
  · rw [adaDisk, Function.update_of_ne own] at there
    cases there

theorem quiet_reliable : Reliable quietNode := ⟨fun _ => rfl, fun _ => rfl, fun _ _ => rfl⟩

theorem one_alone (few : g.connections.length ≤ 1) : OnePerFile g := by
  intro key c d first second
  have member (b : Block) (there : g.socket b ≠ none) := (opened_iff g b).mp there
  have opened := member c first.there
  have other := member d second.there
  cases connections : g.connections with
  | nil =>
    rw [connections] at opened
    cases opened
  | cons one rest =>
    rw [connections] at opened other few
    have none : rest = [] := List.eq_nil_of_length_eq_zero (by simpa using few)
    subst none
    rw [List.map_singleton, List.mem_singleton] at opened other
    rw [opened, other]

/-- ada returns and takes a title. -/
def adaTitled : List Event := returns 0 (str "ada") ++ [.message 0 (str "title Warden")]

/-- Under another spelling of the name, up to the phrase. -/
def adaBack : List Event := [.connect 1 2, .message 1 (str "ADA")]

/-- The state ada leaves behind. -/
def adaGone : Server :=
  (Machine.run (step quietNode) (boot quietNode adaDisk) (adaTitled ++ [.close 0])).toOption.getD
    (boot quietNode adaDisk)

theorem ada_alone : Machine.Within (step quietNode) OnePerFile (boot quietNode adaDisk)
    (adaTitled ++ (.close 0 :: (adaBack ++ [.message 1 (str "password")]))) := by
  have few := Machine.within_checked (step quietNode) (fun g => g.connections.length ≤ 1)
    (boot quietNode adaDisk) (adaTitled ++ (.close 0 :: (adaBack ++ [.message 1 (str "password")])))
    (by decide +kernel)
  exact fun before start_of g reached => one_alone (few before start_of g reached)

def playsAda (c : Block) (g : Server) : Bool :=
  decide (g.socket c ≠ none ∧ (g.blocks c).state = .play ∧
    characterPath (g.blocks c).name = some (str "ada") ∧ (g.blocks c).redeemed = true)

theorem plays_ada (passed : playsAda c g = true) :
    Plays g c (str "ada") ∧ (g.blocks c).redeemed = true := by
  obtain ⟨there, playing, path, marked⟩ := of_decide_eq_true passed
  exact ⟨⟨there, playing, path⟩, marked⟩

theorem ada_plays : ∃ g₁ g₃ g₄,
    Machine.Reaches (step quietNode) (boot quietNode adaDisk) adaTitled g₁ ∧
    Plays g₁ 0 (str "ada") ∧ step quietNode g₁ (.close 0) = .ok adaGone ∧
    Machine.Reaches (step quietNode) adaGone adaBack g₃ ∧
    step quietNode g₃ (.message 1 (str "password")) = .ok g₄ ∧ Plays g₄ 1 (str "ada") ∧
    (g₁.blocks 0).redeemed = true := by
  obtain ⟨g₄, reached, back⟩ := Machine.ends_reaches (step quietNode) (boot quietNode adaDisk)
    (adaTitled ++ (.close 0 :: (adaBack ++ [.message 1 (str "password")]))) (playsAda 1)
    (by decide +kernel)
  obtain ⟨g, again, playing⟩ := Machine.ends_reaches (step quietNode) (boot quietNode adaDisk)
    adaTitled (playsAda 0) (by decide +kernel)
  obtain ⟨g₁, front, later⟩ := Machine.reaches_split reached
  cases again.symm.trans front
  obtain ⟨g₂, closed, rest⟩ := Machine.reaches_cons later
  obtain ⟨g₃, between, entered⟩ := Machine.reaches_snoc_cases _ _ _ _ _ rest
  have left := Machine.reaches_snoc _ _ _ _ _ (.close 0) front closed
  have gone : adaGone = g₂ := by
    rw [adaGone, show Machine.run _ _ _ = .ok g₂ from left]
    rfl
  subst gone
  obtain ⟨plays, marked⟩ := plays_ada playing
  exact ⟨g, g₃, g₄, front, plays, closed, between, entered, (plays_ada back).1, marked⟩

theorem characters_archived_ada : ∃ g₁ g₃ g₄,
    Machine.Reaches (step quietNode) (boot quietNode adaDisk) adaTitled g₁ ∧
    step quietNode g₁ (.close 0) = .ok adaGone ∧
    Machine.Reaches (step quietNode) adaGone adaBack g₃ ∧
    step quietNode g₃ (.message 1 (str "password")) = .ok g₄ ∧
    Archive.Move (archive g₁) (archive adaGone) ∧
    (archive adaGone).record (str "ada") = (archive g₁).record (str "ada") ∧
    (archive g₄).record (str "ada") ≠ none := by
  obtain ⟨g₁, g₃, g₄, front, plays, closed, between, entered, _⟩ := ada_plays
  have there : (archive g₁).record (str "ada") ≠ none := by
    rw [archive_out (ada_alone adaTitled (List.prefix_append _ _) g₁ front) plays]
    exact Option.some_ne_none _
  have gone : ¬(archive adaGone).lent (str "ada") := by
    rintro ⟨c, out⟩
    have empty : adaGone.connections = [] := by decide +kernel
    have member := (opened_iff adaGone c).mp out.there
    rw [empty] at member
    cases member
  have archived := characters_archived quietNode adaDisk adaTitled
    (adaBack ++ [.message 1 (str "password")]) (.close 0) g₁ adaGone g₄ quiet_reliable
    ada_disk_written ada_alone front closed (Machine.reaches_snoc _ _ _ _ _ _ between entered)
  exact ⟨g₁, g₃, g₄, front, closed, between, entered, archived.1,
    archived.2.1 _ (fun lent => gone lent.2) there, archived.2.2 _ there⟩

/-- What a player has to keep on leaving is what the next one to come into play under the name
has, whatever goes on between. -/
theorem left_is_found (env : Env) (disk : Disk) (before later : List Event) (e : Event)
    (c d : Block) (key : Bytes) (g₁ g₂ g₃ g₄ : Server)
    (reliable : Reliable env) (written : SelfWritten disk)
    (one : Machine.Within (step env) OnePerFile (boot env disk)
      (before ++ (.close c :: (later ++ [e]))))
    (reached : Machine.Reaches (step env) (boot env disk) before g₁) (plays : Plays g₁ c key)
    (closed : step env g₁ (.close c) = .ok g₂)
    (between : Machine.Reaches (step env) g₂ later g₃)
    (away : Machine.Within (step env) (fun g => ∀ d, ¬Plays g d key) g₂ later)
    (entered : step env g₃ e = .ok g₄) (seated : Plays g₄ d key) :
    (g₄.blocks d).kept = (g₁.blocks c).kept := by
  have path : before ++ (Event.close c :: (later ++ [e])) =
      (before ++ [.close c]) ++ (later ++ [e]) := by simp
  have reached₂ := Machine.reaches_snoc _ _ _ _ _ (.close c) reached closed
  have shelved₁ := (archive_runs reliable (shelved_boot written)
    (Machine.within_front _ _ _ _ _ one) reached).1
  have one₁ := one before (List.prefix_append _ _) g₁ reached
  rw [path] at one
  have rest := Machine.within_front _ _ _ _ _ (Machine.within_stretch one reached₂)
  have one₂ := rest [] List.nil_prefix g₂ (Machine.reaches_nil _ _)
  have home₂ := away [] List.nil_prefix g₂ (Machine.reaches_nil _ _)
  have one₃ := rest later (List.prefix_refl _) g₃ between
  have home₃ := away later (List.prefix_refl _) g₃ between
  have ended : Machine.Reaches (step env) (boot env disk) ((before ++ [.close c]) ++ (later ++ [e]))
      g₄ := by
    rw [Machine.Reaches, Machine.run_append _ _ _ _ _ reached₂]
    exact Machine.reaches_snoc _ _ _ _ _ e between entered
  have one₄ := one _ (List.prefix_refl _) g₄ ended
  have shelved₂ := shelved_step reliable one₁ shelved₁ closed
  have shelved₃ := (archive_runs reliable shelved₂ rest between).1
  have kept : (archive g₁).record key = some (g₁.blocks c).kept := archive_out one₁ plays
  have back : ¬∃ d, Plays g₂ d key := not_exists.mpr home₂
  have given_back : (archive g₂).record key = some (g₁.blocks c).kept :=
    ((archive_step reliable one₁ one₂ shelved₁ closed).same (fun moved => back moved.2)
      (by simp [kept])).trans kept
  have at_rest : (archive g₃).record key = some (g₁.blocks c).kept :=
    (record_rests reliable shelved₂ rest away (by simp [given_back]) between).trans given_back
  have still_back : ¬∃ d, Plays g₃ d key := not_exists.mpr home₃
  have taken_out : (archive g₄).record key = some (g₁.blocks c).kept :=
    ((archive_step reliable one₃ one₄ shelved₃ entered).same (fun moved => still_back moved.1)
      (by simp [at_rest])).trans at_rest
  exact Option.some.inj ((archive_out one₄ seated).symm.trans taken_out)

theorem left_is_found_ada : ∃ g₁ g₄ : Server,
    Machine.Reaches (step quietNode) (boot quietNode adaDisk) adaTitled g₁ ∧
    Plays g₁ 0 (str "ada") ∧ Plays g₄ 1 (str "ada") ∧
    (g₄.blocks 1).kept = (g₁.blocks 0).kept := by
  obtain ⟨g₁, g₃, g₄, front, plays, closed, between, entered, back, _⟩ := ada_plays
  refine ⟨g₁, g₄, front, plays, back, ?_⟩
  have home := Machine.within_checked (step quietNode)
    (fun g => ∀ entry ∈ g.connections, (g.blocks entry.1).state ≠ .play) adaGone adaBack
    (by decide +kernel)
  refine left_is_found quietNode adaDisk adaTitled adaBack (.message 1 (str "password")) 0 1
    (str "ada") g₁ adaGone g₃ g₄ quiet_reliable ada_disk_written ada_alone front plays closed
    between (fun start start_of g reached d out => ?_) entered back
  obtain ⟨entry, member, rfl⟩ := List.mem_map.mp ((opened_iff g d).mp out.there)
  exact home start start_of g reached entry member out.playing

end Runs

end HollowGrid
