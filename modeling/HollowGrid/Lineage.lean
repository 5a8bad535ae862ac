import HollowGrid.Frames
import HollowGrid.Secrets

/-! What becomes of characters. A character is in a session or in a file, and what no command and
no beat takes from it in a session it has in every run, wherever it is. -/
namespace HollowGrid

structure Ordered (R : Character → Character → Prop) : Prop where
  self : ∀ a, R a a
  trans : ∀ a b c, R a b → R b c → R a c

structure Since (R : Character → Character → Prop) (env : Env) (g₀ g : Server) : Prop where
  blocks : ∀ d, R (g₀.blocks d).toCharacter (g.blocks d).toCharacter
  files : ∀ key file, g.disk key = some file → g₀.disk key = some file ∨
    (∃ n, env.writing n = .torn file) ∨
    ∃ d s, R (g₀.blocks d).toCharacter s.toCharacter ∧ file = .json (characterRecord s)

variable {R : Character → Character → Prop} {env : Env} {g₀ g g' : Server} {c : Block} {e : Event}

section Since

variable (ordered : Ordered R)
include ordered

theorem since_start (env : Env) (g : Server) : Since R env g g :=
  ⟨fun _ => ordered.self _, fun _ _ there => .inl there⟩

theorem since_trans {g₁ g₂ g₃ : Server} (first : Since R env g₁ g₂) (second : Since R env g₂ g₃) :
    Since R env g₁ g₃ where
  blocks := fun d => ordered.trans _ _ _ (first.blocks d) (second.blocks d)
  files := fun key file there => by
    rcases second.files key file there with old | torn | ⟨d, s, onward, wrote⟩
    · exact first.files key file old
    · exact .inr (.inl torn)
    · exact .inr (.inr ⟨d, s, ordered.trans _ _ _ (first.blocks d) onward, wrote⟩)

theorem since_block (since : Since R env g₀ g) {s : Session}
    (onward : R (g.blocks c).toCharacter s.toCharacter) : Since R env g₀ (g.setBlock c s) := by
  refine ⟨fun d => ?_, since.files⟩
  by_cases own : d = c
  · subst own
    rw [g.setBlock_own]
    exact ordered.trans _ _ _ (since.blocks d) onward
  · rw [g.setBlock_other _ own]
    exact since.blocks d

theorem since_saves {disk' : Disk} (saves : Saves env (g.blocks c) g.disk disk') (asked : Nat) :
    Since R env g { g with disk := disk', asked := asked } := by
  refine ⟨fun _ => ordered.self _, fun key file there => ?_⟩
  rcases saves with rfl | ⟨own, written, _, rfl, wrote⟩
  · exact .inl there
  · by_cases here : key = own
    · subst here
      obtain rfl : written = file := by simpa using there
      rcases wrote with rfl | torn
      · exact .inr (.inr ⟨c, g.blocks c, ordered.self _, rfl⟩)
      · exact .inr (.inl torn)
    · exact .inl ((Function.update_of_ne here ..).symm.trans there)

/-- A relation that every write within may goes by is kept by all that stays within may. -/
theorem since_permits {may : Block → Part → Prop} (env : Env) (g₀ : Server)
    (spared : ∀ d f, Spares (may d) f → ∀ ch, R ch (f ch)) :
    Permits False env (fun _ => True) (fun _ => True) may (fun _ => True) (Since R env g₀) where
  bounds := trivial
  outside := outside_lax env
  tidy := fun g _ => tidy_lax g
  asked := fun _ since => ⟨since.blocks, since.files⟩
  peers := fun _ _ _ _ => trivial
  say := fun _ _ _ since _ _ => since_block ordered since (ordered.self _)
  close := fun _ _ since _ => since_block ordered since (ordered.self _)
  change := fun _ d f since _ _ spares => since_block ordered since (spared d f spares _)
  fight := fun _ _ _ since _ _ => since_block ordered since (ordered.self _)
  socket := fun _ _ _ since _ => since_block ordered since (ordered.self _)
  save := fun g d since _ => by
    obtain ⟨disk', asked, saves, same⟩ := saved_disk env d g
    rw [same]
    exact since_trans ordered since (since_saves ordered saves asked)
  world := fun _ _ since _ => ⟨since.blocks, since.files⟩
  ledger := fun _ _ since _ => ⟨since.blocks, since.files⟩
  grid := fun _ _ since _ => ⟨since.blocks, since.files⟩

/-- A write that goes by the relation wherever it is made. -/
theorem since_update {f : Character → Character}
    (onward : ∀ ch, R (g.blocks c).toCharacter ch → R ch (f ch)) :
    Keeps (Since R env g) (fun _ => True) (update c f) Any :=
  Keeps.modify fun _ since => since_block ordered since (onward _ (since.blocks c))

/-- What goes by the relation from wherever it starts. -/
theorem since_on {m : Act Unit}
    (onward : ∀ g₁, Leads (· = g₁) (fun _ => True) m fun _ => Since R env g₁) :
    Keeps (Since R env g) (fun _ => True) m Any :=
  Leads.kept fun g₁ since =>
    (onward g₁).weaken (fun _ _ more => since_trans ordered since more) g₁ rfl

end Since

/-- What a character keeps by a relation, and has from before its file or its race. -/
structure Upheld (env : Env) (R : Character → Character → Prop) (Fit Early : Character → Prop) :
    Prop where
  ordered : Ordered R
  kept : ∀ a b, R a b → Fit a → Fit b
  early : ∀ ch, Early ch → Fit ch
  blank : Early {}
  arrives : Early arrival
  raced : ∀ ch race, Early ch → Fit { ch with race := race }
  loaded : ∀ root ch, Early ch → Fit (loadCharacter root arrival) → Fit (loadCharacter root ch)
  settled : ∀ ch, Fit ch → Fit (settle ch)
  fetched : ∀ (s : Session) row, HubRow env s.name row → Fit s.toCharacter →
    Fit (s.fetched row).toCharacter
  spoken : ∀ g g' c line m, Spoken env c line g m → m g = .ok ((), g') → Since R env g g'
  beats : ∀ g g', tickService env g = .ok ((), g') → Since R env g g'

structure Fitting (Fit Early : Character → Prop) (s : Session) : Prop where
  fit : Fit s.toCharacter
  early : s.state = .name ∨ s.state = .token ∨ s.state = .race → Early s.toCharacter

def FitFiles (Fit : Character → Prop) (disk : Disk) : Prop :=
  ∀ key root, disk key = some (.json root) → Fit (loadCharacter root arrival)

structure FitServer (Fit Early : Character → Prop) (g : Server) : Prop where
  sessions : ∀ c, Fitting Fit Early (g.blocks c)
  files : FitFiles Fit g.disk

section Upheld

variable {Fit Early : Character → Prop} {s s' : Session} {disk disk' : Disk}
  (upheld : Upheld env R Fit Early) (dependable : Dependable env)

include dependable in
theorem stored_fit (files : FitFiles Fit disk) {root : Json} (stored : Stored env disk s root) :
    Fit (loadCharacter root arrival) := by
  obtain ⟨key, file, _, there, read⟩ := stored
  rcases read with rfl | ⟨n, short⟩
  · exact files key root there
  · rcases dependable.reading n with whole | failed
    · cases whole.symm.trans short
    · cases failed.symm.trans short

include upheld dependable

theorem saves_fit (files : FitFiles Fit disk) (fit : Fit s.toCharacter)
    (saves : Saves env s disk disk') : FitFiles Fit disk' := by
  intro key root there
  rcases saves with rfl | ⟨own, file, _, rfl, wrote⟩
  · exact files key root there
  · by_cases here : key = own
    · subst here
      rw [Function.update_self] at there
      cases there
      rcases wrote with record | ⟨n, torn⟩
      · cases record
        rw [load_record]
        exact upheld.settled _ fit
      · rcases dependable.writing n with whole | fails
        · cases whole.symm.trans torn
        · cases fails.symm.trans torn
    · rw [Function.update_of_ne here] at there
      exact files key root there

/-- A name leads to what its file and the hub have. -/
theorem load_fit (files : FitFiles Fit disk) (fitting : Fitting Fit Early s)
    (early : s.state = .name ∨ s.state = .token) (load : Load env s disk s' disk') :
    FitFiles Fit disk' ∧ Fitting Fit Early s' := by
  have first : Early s.toCharacter := fitting.early (early.imp_right .inl)
  have recalled {root : Json} (stored : Stored env disk s root) :
      Fit (loadCharacter root s.toCharacter) :=
    upheld.loaded _ _ first (stored_fit dependable files stored)
  cases load with
  | unreadable => exact ⟨files, fitting⟩
  | own stored =>
    refine ⟨files, recalled stored, ?_⟩
    rintro (asked | asked | asked) <;> cases asked
  | @merged root row stored hub =>
    refine ⟨files, upheld.fetched (s.recalled root) row hub (recalled stored), ?_⟩
    rintro (asked | asked | asked) <;> cases asked
  | @adopted row disk' _ hub saves =>
    have fit := upheld.fetched s row hub fitting.fit
    refine ⟨saves_fit upheld dependable files fit saves, fit, ?_⟩
    rintro (asked | asked | asked) <;> cases asked
  | fresh => exact ⟨files, fitting.fit, fun _ => first⟩

theorem login_fit {line : Bytes} (files : FitFiles Fit disk) (fitting : Fitting Fit Early s)
    (move : LoginMove env line s disk s' disk') :
    FitFiles Fit disk' ∧ Fitting Fit Early s' := by
  cases move with
  | refused => exact ⟨files, fitting⟩
  | keeper asked => exact ⟨files, fitting.fit, fun _ => fitting.early (.inl asked)⟩
  | named asked _ _ load =>
    exact load_fit (s := { s with name := line }) upheld dependable files
      ⟨fitting.fit, fitting.early⟩ (.inl asked) load
  | trusted asked _ load =>
    exact load_fit (s := { s with keeperAuthed := true }) upheld dependable files
      ⟨fitting.fit, fitting.early⟩ (.inr asked) load
  | raced asked =>
    refine ⟨files, upheld.raced _ _ (fitting.early (.inr (.inr asked))), ?_⟩
    rintro (asked | asked | asked) <;> cases asked
  | entered asked enters saves =>
    have entered : Fit s'.toCharacter ∧ s'.state = .play := by
      cases enters with
      | proven => exact ⟨fitting.fit, rfl⟩
      | chosen => exact ⟨fitting.fit, rfl⟩
    refine ⟨saves_fit upheld dependable files entered.1 saves, entered.1, ?_⟩
    rw [entered.2]
    rintro (asked | asked | asked) <;> cases asked

/-- Players who go by the relation stay fit, and the others are as they were. -/
theorem played_fit {T : Block → Prop} (fits : FitServer Fit Early g) (played : Played env T g g')
    (since : Since R env g g') (seated : ∀ d, T d → (g.blocks d).state = .play) :
    FitServer Fit Early g' := by
  refine ⟨fun d => ⟨upheld.kept _ _ (since.blocks d) (fits.sessions d).fit, fun asked => ?_⟩,
    fun key root there => ?_⟩
  · rw [(played.peers d).state] at asked
    have away : ¬T d := by
      intro part
      rw [seated d part] at asked
      rcases asked with asked | asked | asked <;> cases asked
    rw [played.others d away]
    exact (fits.sessions d).early asked
  · rcases since.files key _ there with old | ⟨n, torn⟩ | ⟨d, s, onward, record⟩
    · exact fits.files key root old
    · rcases dependable.writing n with whole | fails
      · cases whole.symm.trans torn
      · cases fails.symm.trans torn
    · cases record
      rw [load_record]
      exact upheld.settled _ (upheld.kept _ _ onward (fits.sessions d).fit)

omit upheld dependable in
theorem idle_fit (fits : FitServer Fit Early g) (disk : g'.disk = g.disk)
    (idle : ∀ d, (g'.blocks d).state = (g.blocks d).state ∧
      (g'.blocks d).toCharacter = (g.blocks d).toCharacter) : FitServer Fit Early g' := by
  refine ⟨fun c => ?_, disk ▸ fits.files⟩
  obtain ⟨state, character⟩ := idle c
  have fitting := fits.sessions c
  exact ⟨character ▸ fitting.fit, fun asked => character ▸ fitting.early (state ▸ asked)⟩

theorem fit_step (seats : Seats g) (fits : FitServer Fit Early g) (taken : step env g e = .ok g') :
    FitServer Fit Early g' := by
  have fit_like {c : Block} {s : Session} (fitting : Fitting Fit Early s)
      (like : Like False s (g'.blocks c)) : Fitting Fit Early (g'.blocks c) := by
    obtain ⟨outbox, close, wsi, same, _⟩ := like
    rw [same]
    exact ⟨fitting.fit, fitting.early⟩
  cases step_cases taken with
  | ignored => exact fits
  | @connected c wsi fresh =>
    refine ⟨fun d => ?_, fits.files⟩
    by_cases own : d = c
    · subst own
      have first : Early (newSession wsi).toCharacter := upheld.arrives
      exact fit_like ⟨upheld.early _ first, fun _ => first⟩ (opened_own g d wsi)
    · rw [opened_other g wsi own]
      exact fits.sessions d
  | @refused c text =>
    refine idle_fit fits rfl fun d => ?_
    by_cases own : d = c
    · subst own
      exact ⟨(queued_own g d _).state, (like_twin (queued_own g d _)).character⟩
    · rw [queued_other g _ own]
      exact ⟨rfl, rfl⟩
  | @login c text _ there short away moved =>
    obtain ⟨s', disk', move, _, landed⟩ := moved
    obtain ⟨rfl, _⟩ := landed_rest landed
    obtain ⟨files, fitting⟩ := login_fit upheld dependable fits.files (fits.sessions c) move
    refine ⟨fun d => ?_, files⟩
    by_cases own : d = c
    · subst own
      exact fit_like fitting (landed_own landed)
    · rw [landed_other landed own]
      exact fits.sessions d
  | @played c text _ _ given played =>
    obtain ⟨wsi, ran⟩ := delivered_run env given
    obtain ⟨m, said, same⟩ := spoken env c (cstr (trimmed text)) (g.setWsi c wsi)
    have ended := map_ok (ran.symm.trans taken)
    have heard : Since R env g (g.setWsi c wsi) :=
      since_block upheld.ordered (since_start upheld.ordered env g) (upheld.ordered.self _)
    have since := upheld.spoken _ _ _ _ _ said (same.symm.trans ended)
    refine played_fit upheld dependable fits played (since_trans upheld.ordered heard since)
      fun d part => ?_
    rcases part with rfl | listed
    · obtain ⟨_, _, _, _, playing, _⟩ := given
      exact playing
    · exact (seats.seated d listed).2
  | @wrote c _ _ wrote =>
    obtain ⟨outbox, dropped, asked, _, _, rfl⟩ := wrote
    have told : Idle g (g.setBlock c { g.blocks c with outbox := outbox }) :=
      idle_block rfl rfl rfl rfl
    exact idle_fit fits rfl fun d => ⟨told.state d, told.character d⟩
  | @left c disk' asked _ _ saves =>
    have saved : FitServer Fit Early { g with disk := disk', asked := asked } :=
      ⟨fits.sessions, saves_fit upheld dependable fits.files (fits.sessions c).fit saves⟩
    have quiet := idle_trans (idle_unregistered { g with disk := disk', asked := asked } c)
      (idle_released _ c)
    refine idle_fit saved ?_ fun d => ⟨quiet.state d, quiet.character d⟩
    obtain ⟨table, sockets, count, same⟩ :=
      unregistered_tables { g with disk := disk', asked := asked } c
    rw [same]
    rfl
  | @hungUp c =>
    have quiet := idle_released g c
    exact idle_fit fits rfl fun d => ⟨quiet.state d, quiet.character d⟩
  | ticked played =>
    have ran : (tickService env g).map Prod.snd = .ok g' := taken
    exact played_fit upheld dependable fits played (upheld.beats _ _ (map_ok ran)) fun d listed =>
      (seats.seated d listed).2

theorem fit_run {events : List Event} (files : FitFiles Fit disk)
    (reached : Machine.Reaches (step env) (boot env disk) events g) : FitServer Fit Early g := by
  have first : Fitting Fit Early ({} : Session) :=
    ⟨upheld.early _ upheld.blank, fun _ => upheld.blank⟩
  have start : FitServer Fit Early (boot env disk) := ⟨fun _ => first, files⟩
  exact (Machine.lasts (fun g => Seats g ∧ FitServer Fit Early g) (fun _ => True)
    (fun _ _ _ held _ taken => ⟨seats_kept held.1 taken,
      fit_step upheld dependable held.1 held.2 taken⟩)
    reached ⟨seats_boot env disk, start⟩ fun _ _ => trivial).2

end Upheld

end HollowGrid
