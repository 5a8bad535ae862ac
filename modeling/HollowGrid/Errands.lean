import HollowGrid.Seats
import HollowGrid.Identity

/-! One event as the sessions and the character files see it. -/
namespace HollowGrid

/-- Every read and every write of a file goes well, and no hub knows a character. -/
structure Reliable (env : Env) : Prop where
  reading : ∀ n, env.reading n = .whole
  writing : ∀ n, env.writing n = .whole
  silent : ∀ n params, env.rpc n (str "loadCharacter") params = none

/-- Two sessions that differ in what they are told at most. -/
structure Twin (s s' : Session) : Prop where
  state : s'.state = s.state
  name : s'.name = s.name
  secretHash : s'.secretHash = s.secretHash
  resume : s'.resume = s.resume
  character : s'.toCharacter = s.toCharacter

/-- The file of the name after a save, and every other file as it was. -/
def Filed (s : Session) (disk disk' : Disk) : Prop :=
  match characterPath s.name with
  | none => disk' = disk
  | some key => disk' = Function.update disk key (some (.json (characterRecord s)))

inductive Errand (env : Env) (g : Server) (e : Event) (g' : Server) : Prop
  | opens {c : Block} {wsi : Wsi} : g.socket c = none → Twin (newSession wsi) (g'.blocks c) →
      (∀ d, d ≠ c → g'.blocks d = g.blocks d) → (∀ d, d ≠ c → g'.socket d = g.socket d) →
      g'.disk = g.disk → Errand env g e g'
  | login {c : Block} {text : Bytes} {s' : Session} : e = .message c text → g.socket c ≠ none →
      (g.blocks c).state ≠ .play → LoginMove env (trimmed text) (g.blocks c) g.disk s' g'.disk →
      Twin s' (g'.blocks c) → (∀ d, d ≠ c → g'.blocks d = g.blocks d) →
      (∀ d, g'.socket d = g.socket d) → Errand env g e g'
  | plays {T : Block → Prop} : (∀ d, T d → g.socket d ≠ none ∧ (g.blocks d).state = .play) →
      Played env T g g' → Errand env g e g'
  | leaves {c : Block} : g.socket c ≠ none → (g.blocks c).state = .play → g'.socket c = none →
      (∀ d, d ≠ c → g'.blocks d = g.blocks d) → (∀ d, d ≠ c → g'.socket d = g.socket d) →
      Saves env (g.blocks c) g.disk g'.disk →
      (Reliable env → Filed (g.blocks c) g.disk g'.disk) → Errand env g e g'
  | quiet : (∀ d, Twin (g.blocks d) (g'.blocks d)) →
      (∀ d, g'.socket d ≠ none → g.socket d ≠ none) →
      (∀ d, (g.blocks d).state = .play → g'.socket d = g.socket d) →
      g'.disk = g.disk → Errand env g e g'

variable {env : Env} {g g' : Server} {e : Event} {c : Block}

theorem twin_self (s : Session) : Twin s s := ⟨rfl, rfl, rfl, rfl, rfl⟩

theorem like_twin {s s' : Session} (like : Like False s s') : Twin s s' := by
  obtain ⟨outbox, close, wsi, rfl, _⟩ := like
  exact ⟨rfl, rfl, rfl, rfl, rfl⟩

/-- A save on a disk that does not fail. -/
theorem saved_filed (reliable : Reliable env) (g : Server) (c : Block) :
    Filed (g.blocks c) g.disk (g.saved env c).disk := by
  unfold Filed Server.saved
  cases characterPath (g.blocks c).name with
  | none => rfl
  | some key =>
    simp only [reliable.writing]
    rfl

theorem leave_filed (reliable : Reliable env) (there : g.socket c ≠ none)
    (playing : (g.blocks c).state = .play) (taken : step env g (.close c) = .ok g') :
    Filed (g.blocks c) g.disk g'.disk := by
  obtain ⟨stored, asked, committed, _⟩ := commit_asks_once env c g
  have commits : ignore (gridCommitSession env c) g = .ok ((), { g with asked := asked }) := by
    rw [ignore, bind_ok committed]
    rfl
  have left : leavePlay env c g =
      .ok ((), (({ g with asked := asked } : Server).saved env c).unregistered c) := by
    rw [leavePlay, bind_ok commits, bind_ok (store_save_run env c _)]
    rfl
  have ended : (closed env c g).map Prod.snd = .ok
      (((({ g with asked := asked } : Server).saved env c).unregistered c).released c) := by
    rw [closed, bind_ok (rfl : session c g = .ok (g.blocks c, g)), when, if_pos playing,
      bind_ok left]
    rfl
  have raised : (Event.close c).valid g = true := by simpa [Event.valid] using there
  rw [step, if_pos raised] at taken
  cases ended.symm.trans taken
  obtain ⟨table, sockets, count, same⟩ :=
    unregistered_tables (({ g with asked := asked } : Server).saved env c) c
  rw [same]
  exact saved_filed reliable { g with asked := asked } c

theorem errand (seats : Seats g) (taken : step env g e = .ok g') :
    Errand env g e g' := by
  cases step_cases taken with
  | ignored => exact .quiet (fun d => twin_self _) (fun _ there => there) (fun _ _ => rfl) rfl
  | @connected c wsi fresh =>
    exact .opens fresh (like_twin (opened_own g c wsi)) (fun d other => opened_other g wsi other)
      (fun d other => opened_socket g wsi other) rfl
  | @refused c text =>
    refine .quiet (fun d => ?_) (fun _ there => there) (fun _ _ => rfl) rfl
    by_cases own : d = c
    · subst own
      exact like_twin (queued_own g d _)
    · rw [queued_other g _ own]
      exact twin_self _
  | @login c text _ there _ away moved =>
    obtain ⟨s', disk', move, _, landed⟩ := moved
    obtain ⟨rfl, connections, _⟩ := landed_rest landed
    refine .login rfl there away move (like_twin (landed_own landed))
      (fun d other => landed_other landed other) fun d => ?_
    rw [Server.socket, connections]
    rfl
  | @played c text _ there given played =>
    obtain ⟨_, _, _, _, playing, _⟩ := given
    refine .plays (fun d part => ?_) played
    rcases part with rfl | listed
    · exact ⟨there, playing⟩
    · exact seats.seated d listed
  | @wrote c _ _ wrote =>
    obtain ⟨outbox, dropped, asked, _, _, rfl⟩ := wrote
    refine .quiet (fun d => ?_) (fun _ there => there) (fun _ _ => rfl) rfl
    change Twin (g.blocks d) ((g.setBlock c { g.blocks c with outbox := outbox }).blocks d)
    by_cases own : d = c
    · subst own
      rw [g.setBlock_own]
      exact ⟨rfl, rfl, rfl, rfl, rfl⟩
    · rw [g.setBlock_other _ own]
      exact twin_self _
  | @left c disk' asked there playing saves =>
    have tables := unregistered_tables { g with disk := disk', asked := asked } c
    refine .leaves there playing (released_closed _ c) (fun d other => ?_) (fun d other => ?_) ?_
      fun reliable => leave_filed reliable there playing taken
    · rw [Server.released, Server.setBlock_other _ _ other]
      exact unregistered_other _ other
    · rw [released_socket _ other]
      obtain ⟨table, sockets, count, same⟩ := tables
      rw [same]
      rfl
    · obtain ⟨table, sockets, count, same⟩ := tables
      rw [same]
      exact saves
  | @hungUp c there away =>
    refine .quiet (fun d => ?_) (fun d still => ?_) (fun d playing => ?_) rfl
    · rw [Server.released]
      change Twin (g.blocks d) ((g.setBlock c { g.blocks c with outbox := [] }).blocks d)
      by_cases own : d = c
      · subst own
        rw [g.setBlock_own]
        exact ⟨rfl, rfl, rfl, rfl, rfl⟩
      · rw [g.setBlock_other _ own]
        exact twin_self _
    · by_cases own : d = c
      · subst own
        exact there
      · rwa [released_socket g own] at still
    · have other : d ≠ c := fun own => away (own ▸ playing)
      exact released_socket g other
  | ticked played => exact .plays (fun d listed => seats.seated d listed) played

end HollowGrid
