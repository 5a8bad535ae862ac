import HollowGrid.Play
import HollowGrid.Login

/-! What one command or one beat of the timer leaves alone: the tables of sessions and
sockets, the identity of every session, and the sessions and files of everyone who takes
no part. -/
namespace HollowGrid

/-- The fields of a session that play never writes, and the flag it never takes back. -/
structure Peer (s s' : Session) : Prop where
  state : s'.state = s.state
  name : s'.name = s.name
  secretHash : s'.secretHash = s.secretHash
  keeperAuthed : s'.keeperAuthed = s.keeperAuthed
  resume : s'.resume = s.resume
  close : s.close = true → s'.close = true

theorem peer_trans {s₁ s₂ s₃ : Session} (first : Peer s₁ s₂) (second : Peer s₂ s₃) : Peer s₁ s₃ where
  state := second.state.trans first.state
  name := second.name.trans first.name
  secretHash := second.secretHash.trans first.secretHash
  keeperAuthed := second.keeperAuthed.trans first.keeperAuthed
  resume := second.resume.trans first.resume
  close := fun flagged => second.close (first.close flagged)

def Written (env : Env) (s : Session) (key : Bytes) (file : File) : Prop :=
  characterPath s.name = some key ∧
    ((∃ s', Peer s s' ∧ file = .json (characterRecord s')) ∨ ∃ n, env.writing n = .torn file)

structure Played (env : Env) (T : Block → Prop) (g₀ g : Server) : Prop where
  connections : g.connections = g₀.connections
  dropped : g.dropped = g₀.dropped
  table : g.sessionTable = g₀.sessionTable
  sockets : g.sessionWsiTable = g₀.sessionWsiTable
  count : g.sessionCount = g₀.sessionCount
  others : ∀ d, ¬T d → g.blocks d = g₀.blocks d
  peers : ∀ d, Peer (g₀.blocks d) (g.blocks d)
  disk : ∀ key, g.disk key = g₀.disk key ∨
    ∃ d file, T d ∧ Written env (g₀.blocks d) key file ∧ g.disk key = some file

variable {strict : Prop} {env : Env} {E : Fault → Prop} {T : Block → Prop} {g₀ g : Server}

theorem played_start (env : Env) (T : Block → Prop) (g : Server) : Played env T g g where
  connections := rfl
  dropped := rfl
  table := rfl
  sockets := rfl
  count := rfl
  others := fun _ _ => rfl
  peers := fun _ => ⟨rfl, rfl, rfl, rfl, rfl, id⟩
  disk := fun _ => .inl rfl

theorem played_block (played : Played env T g₀ g) {d : Block} (part : T d) {s : Session}
    (peer : Peer (g.blocks d) s) : Played env T g₀ (g.setBlock d s) where
  connections := played.connections
  dropped := played.dropped
  table := played.table
  sockets := played.sockets
  count := played.count
  others := fun b away => by
    have other : b ≠ d := fun same => away (same ▸ part)
    rw [g.setBlock_other _ other]
    exact played.others b away
  peers := fun b => by
    by_cases same : b = d
    · subst same
      rw [g.setBlock_own]
      exact peer_trans (played.peers b) peer
    · rw [g.setBlock_other _ same]
      exact played.peers b
  disk := played.disk

theorem played_save (played : Played env T g₀ g) {d : Block} (part : T d) :
    Played env T g₀ (g.saved env d) := by
  obtain ⟨disk', asked, saves, same⟩ := saved_disk env d g
  rw [same]
  refine { played with disk := fun key => ?_ }
  rcases saves with rfl | ⟨path, file, named, rfl, wrote⟩
  · exact played.disk key
  · by_cases here : key = path
    · subst here
      refine .inr ⟨d, file, part, ⟨?_, ?_⟩, Function.update_self ..⟩
      · rw [← (played.peers d).name]
        exact named
      · rcases wrote with rfl | torn
        · exact .inl ⟨_, played.peers d, rfl⟩
        · exact .inr torn
    · rcases played.disk key with kept | moved
      · exact .inl ((Function.update_of_ne here ..).trans kept)
      · obtain ⟨b, other, took, written, there⟩ := moved
        exact .inr ⟨b, other, took, written, (Function.update_of_ne here ..).trans there⟩

theorem tidy_block (tidy : Tidy strict g) (d : Block) {s : Session} (clean : TidySession strict s)
    (sound : Sound strict s.outbox) : Tidy strict (g.setBlock d s) where
  session := fun b => by
    by_cases same : b = d
    · subst same
      rw [g.setBlock_own]
      exact clean
    · rw [g.setBlock_other _ same]
      exact tidy.session b
  outbox := fun b => by
    by_cases same : b = d
    · subst same
      rw [g.setBlock_own]
      exact sound
    · rw [g.setBlock_other _ same]
      exact tidy.outbox b
  hub := tidy.hub
  disk := tidy.disk

theorem played_permits (g₀ : Server) (bounds : E .outOfBounds) (outside : Outside strict env)
    (members : ∀ d, some d ∈ g₀.sessionTable → T d) :
    Permits strict env E T (fun _ _ => True) (fun _ => True) fun g => Played env T g₀ g ∧ Tidy strict g where
  bounds := bounds
  outside := outside
  tidy := fun _ holds => holds.2
  asked := fun _ holds => ⟨{ holds.1 with }, { holds.2 with }⟩
  peers := fun g holds d member => members d (holds.1.table ▸ member)
  say := fun g d t holds part sound =>
    ⟨played_block holds.1 part ⟨rfl, rfl, rfl, rfl, rfl, id⟩,
      tidy_block holds.2 d { holds.2.session d with }
        (sound_append (holds.2.outbox d) (sound_take _ sound))⟩
  close := fun g d holds part =>
    ⟨played_block holds.1 part ⟨rfl, rfl, rfl, rfl, rfl, fun _ => rfl⟩,
      tidy_block holds.2 d { holds.2.session d with } (holds.2.outbox d)⟩
  change := fun g d f holds part careful _ =>
    ⟨played_block holds.1 part ⟨rfl, rfl, rfl, rfl, rfl, id⟩,
      tidy_block holds.2 d
        { careful _ (holds.2.session d).toTidyCharacter with name := (holds.2.session d).name }
        (holds.2.outbox d)⟩
  fight := fun g d fight holds part _ =>
    ⟨played_block holds.1 part ⟨rfl, rfl, rfl, rfl, rfl, id⟩,
      tidy_block holds.2 d { holds.2.session d with } (holds.2.outbox d)⟩
  socket := fun g d wsi holds part =>
    ⟨played_block holds.1 part ⟨rfl, rfl, rfl, rfl, rfl, id⟩,
      tidy_block holds.2 d { holds.2.session d with } (holds.2.outbox d)⟩
  save := fun g d holds part => by
    refine ⟨played_save holds.1 part, ?_⟩
    obtain ⟨disk', asked, saves, same⟩ := saved_disk env d g
    rw [same]
    exact { holds.2 with disk := saves_tidy outside (holds.2.session d) holds.2.disk saves }
  world := fun _ _ holds _ => ⟨{ holds.1 with }, { holds.2 with }⟩
  ledger := fun _ _ holds _ => ⟨{ holds.1 with }, { holds.2 with }⟩
  grid := fun _ _ holds tidy => ⟨{ holds.1 with }, { holds.2 with hub := tidy }⟩

end HollowGrid
