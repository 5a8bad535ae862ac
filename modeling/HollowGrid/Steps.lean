import HollowGrid.Played

/-! What one event of the server can do, over every event and every state. The invariants
of whole runs are read off this one case analysis. -/
namespace HollowGrid

namespace Server

def opened (g : Server) (c : Block) (wsi : Wsi) : Server :=
  ({ g.setBlock c (newSession wsi) with connections := (c, wsi) :: g.connections } : Server).queued c
    banner

def released (g : Server) (c : Block) : Server :=
  { g.setBlock c { g.blocks c with outbox := [] } with
    connections := g.connections.filter fun open_one => open_one.1 ≠ c
    dropped := Function.update g.dropped c false }

end Server

/-- The line that a step hands to a session in play. -/
def Delivered (g : Server) (e : Event) (c : Block) (line : Bytes) : Prop :=
  ∃ text, e = .message c text ∧ e.valid g = true ∧ text.length ≤ 255 ∧
    (g.blocks c).state = .play ∧ line = cstr (trimmed text)

def Partner (g : Server) (c d : Block) : Prop := d = c ∨ some d ∈ g.sessionTable

def Listed (g : Server) (d : Block) : Prop := some d ∈ g.sessionTable

def tooLong : Text := lit "Input too long (255 bytes max). Command ignored." ++ crlf

/-- What a write to the socket leaves: the queue of c as it was or emptied, and c dropped
or not. -/
def Wrote (g : Server) (c : Block) (g' : Server) : Prop :=
  ∃ outbox dropped asked, (outbox = (g.blocks c).outbox ∨ outbox = []) ∧
    (∀ d, d ≠ c → dropped d = g.dropped d) ∧
    g' = { g.setBlock c { g.blocks c with outbox := outbox } with dropped := dropped, asked := asked }

inductive Outcome (strict : Prop) (env : Env) (g : Server) : Event → Server → Prop
  | ignored {e : Event} : e.valid g = false → Outcome strict env g e g
  | connected {c : Block} {wsi : Wsi} : g.socket c = none → wsi ≠ 0 →
      (∀ other ∈ g.connections, other.2 ≠ wsi) →
      Outcome strict env g (.connect c wsi) (g.opened c wsi)
  | refused {c : Block} {text : Bytes} : g.socket c ≠ none → 255 < text.length →
      Outcome strict env g (.message c text) (g.queued c tooLong)
  | login {c : Block} {text : Bytes} {g' : Server} : g.socket c ≠ none → text.length ≤ 255 →
      (g.blocks c).state ≠ .play → Moved strict env (trimmed text) c g (g.blocks c) g.disk g' →
      Outcome strict env g (.message c text) g'
  | played {c : Block} {text : Bytes} {g' : Server} : g.socket c ≠ none →
      Delivered g (.message c text) c (cstr (trimmed text)) → Played env (Partner g c) g g' →
      Outcome strict env g (.message c text) g'
  | wrote {c : Block} {g' : Server} : g.socket c ≠ none → Wrote g c g' →
      Outcome strict env g (.writable c) g'
  | left {c : Block} {disk' : Disk} {asked : Nat} : g.socket c ≠ none →
      (g.blocks c).state = .play → Saves env (g.blocks c) g.disk disk' →
      Outcome strict env g (.close c)
        ((({ g with disk := disk', asked := asked } : Server).unregistered c).released c)
  | hungUp {c : Block} : g.socket c ≠ none → (g.blocks c).state ≠ .play →
      Outcome strict env g (.close c) (g.released c)
  | ticked {g' : Server} : Played env (Listed g) g g' →
      Outcome strict env g .tick g'

section Lax

theorem clean_lax (b : Bytes) : Clean False b := nofun

theorem character_lax (ch : Character) : TidyCharacter False ch :=
  ⟨nofun, nofun, nofun, nofun, nofun, nofun, nofun, nofun, nofun, nofun, nofun, fun _ _ => nofun⟩

theorem tidy_file_lax (file : File) : TidyFile False file := by
  cases file with
  | unreadable => trivial
  | json root => exact fun ch _ => character_lax _

theorem tidy_lax (g : Server) : Tidy False g where
  session := fun d => { character_lax (g.blocks d).toCharacter with name := nofun }
  outbox := fun _ => nofun
  hub := ⟨fun _ _ => ⟨nofun, nofun, nofun, nofun⟩, fun _ _ => ⟨nofun, nofun, nofun, nofun⟩,
    fun _ _ => ⟨nofun, nofun, nofun⟩, fun _ _ => ⟨nofun, nofun, nofun⟩⟩
  disk := fun _ file _ => tidy_file_lax file

theorem outside_lax (env : Env) : Outside False env where
  world := clean_lax _
  url := clean_lax _
  hub := fun _ _ _ _ _ b _ => clean_lax b
  torn := fun _ left _ => tidy_file_lax left
  short := fun _ seen _ => tidy_file_lax seen
  steady := nofun
  handoff := nofun

end Lax

section Event

variable {strict : Prop} {env : Env} {E : Fault → Prop} {g g' : Server}

/-- The state a message is dispatched in: only the socket of the session may have moved. -/
theorem near_heard (strict : Prop) (g : Server) (c : Block) (wsi : Wsi) :
    Near strict c g (g.blocks c) g.disk (g.setWsi c wsi) :=
  ⟨{ g.blocks c with wsi := wsi }, g.asked,
    ⟨(g.blocks c).outbox, (g.blocks c).close, wsi, rfl, id, id⟩, rfl⟩

theorem stage_tidy (tidy : Tidy strict g) (c : Block) :
    Stage strict g (g.blocks c) g.disk :=
  ⟨tidy.session, tidy.outbox, tidy.hub, tidy.session c, tidy.outbox c, tidy.disk⟩

theorem line_short (text : Bytes) : (cstr (trimmed text)).length < 256 := by
  have cut : (cstr (trimmed text)).length ≤ (text.take 255).length := by
    refine ((List.takeWhile_sublist _).trans ((List.dropWhile_sublist _).trans ?_)).length_le
    rw [trimTail, ← List.reverse_sublist, List.reverse_reverse]
    exact List.dropWhile_sublist _
  rw [List.length_take] at cut
  omega

theorem sound_banner : Sound strict banner := by
  unfold banner
  have escape : Sound strict [⟨27, .server⟩] := sound_server fun cell member => by
    cases List.mem_singleton.mp member
    rfl
  apply_rules [sound_append, sound_lit, sound_text, escape]

theorem tidy_queued (tidy : Tidy strict g) (c : Block) {t : Text} (sound : Sound strict t) :
    Tidy strict (g.queued c t) :=
  tidy_block tidy c { tidy.session c with } (sound_append (tidy.outbox c) (sound_take _ sound))

theorem tidy_opened (tidy : Tidy strict g) (c : Block) (wsi : Wsi) :
    Tidy strict (g.opened c wsi) := by
  have fresh : TidyCharacter strict (newSession wsi).toCharacter := by
    refine ⟨clean_nil, clean_str _ rfl, clean_str _ rfl, clean_nil, clean_nil, clean_nil,
      clean_nil, clean_nil, clean_nil, clean_nil, clean_nil, fun item member => ?_⟩
    cases List.mem_singleton.mp member
    exact clean_str _ rfl
  have held := tidy_block tidy c (s := newSession wsi) { fresh with name := nofun } sound_nil
  exact tidy_queued (g := { g.setBlock c (newSession wsi) with
    connections := (c, wsi) :: g.connections }) { held with } c sound_banner

theorem registered_tables (g : Server) (c : Block) (wsi : Wsi) : ∃ table sockets count,
    g.registered c wsi = { g.setWsi c wsi with
      sessionTable := table, sessionWsiTable := sockets, sessionCount := count } := by
  unfold Server.registered
  split
  · exact ⟨_, _, _, rfl⟩
  · exact ⟨_, _, _, rfl⟩

theorem unregistered_tables (g : Server) (c : Block) : ∃ table sockets count,
    g.unregistered c = { g.setWsi c 0 with
      sessionTable := table, sessionWsiTable := sockets, sessionCount := count } := by
  unfold Server.unregistered
  split
  · exact ⟨_, _, _, rfl⟩
  · exact ⟨_, _, _, rfl⟩

theorem tidy_wsi (tidy : Tidy strict g) (c : Block) (wsi : Wsi) : Tidy strict (g.setWsi c wsi) :=
  tidy_block tidy c { tidy.session c with } (tidy.outbox c)

theorem tidy_registered (tidy : Tidy strict g) (c : Block) (wsi : Wsi) :
    Tidy strict (g.registered c wsi) := by
  obtain ⟨table, sockets, count, same⟩ := registered_tables g c wsi
  rw [same]
  exact { tidy_wsi tidy c wsi with }

theorem tidy_unregistered (tidy : Tidy strict g) (c : Block) : Tidy strict (g.unregistered c) := by
  obtain ⟨table, sockets, count, same⟩ := unregistered_tables g c
  rw [same]
  exact { tidy_wsi tidy c 0 with }

theorem tidy_released (tidy : Tidy strict g) (c : Block) : Tidy strict (g.released c) := by
  have emptied := tidy_block tidy c (s := { g.blocks c with outbox := [] })
    { tidy.session c with } sound_nil
  exact { emptied with }

theorem tidy_moved {line : Bytes} {c : Block} {s : Session} {disk : Disk}
    (moved : Moved strict env line c g s disk g') : Tidy strict g' := by
  obtain ⟨s', disk', _, stage, landed⟩ := moved
  unfold Landed at landed
  split at landed
  · obtain ⟨g₁, near, rfl⟩ := landed
    exact tidy_registered (near_tidy stage near) c _
  · exact near_tidy stage landed

variable {c : Block} (bounds : E .outOfBounds) (outside : Outside strict env) (tidy : Tidy strict g)
include bounds outside tidy

theorem login_outcome {text : Bytes} (there : g.socket c ≠ none) (short : text.length ≤ 255)
    (away : (g.blocks c).state ≠ .play) :
    Leads (· = g) E (receive env c text) fun _ g' =>
      Outcome strict env g (.message c text) g' ∧ Tidy strict g' := by
  refine Leads.seq (M := Near strict c g (g.blocks c) g.disk) (Leads.modify ?_) ?_
  · rintro _ rfl
    exact near_heard strict _ c _
  · refine Leads.weaken (login_leads bounds outside (stage_tidy tidy c) away) fun _ g' moved => ?_
    exact ⟨.login there short away moved, tidy_moved moved⟩

theorem played_outcome {text : Bytes} (there : g.socket c ≠ none)
    (given : Delivered g (.message c text) c (cstr (trimmed text)))
    (fair : Fair strict (cstr (trimmed text)))
    (guarded : ∀ arm, parse (cstr (trimmed text)) = some (arm, none) → arm.unguarded = true →
      E .nullRead) :
    Leads (· = g) E (receive env c text) fun _ g' =>
      Outcome strict env g (.message c text) g' ∧ Tidy strict g' := by
  have p := played_permits (T := Partner g c) g bounds outside fun d member => .inr member
  have playing : (g.blocks c).state = .play := by
    obtain ⟨_, _, _, _, state, _⟩ := given
    exact state
  refine Leads.seq (M := fun g' => Played env (Partner g c) g g' ∧ Tidy strict g')
    (Leads.modify ?_) ?_
  · rintro _ rfl
    exact p.socket _ c _ ⟨played_start env _ _, tidy⟩ (.inl rfl)
  · have state : Keeps (fun g' => Played env (Partner g c) g g' ∧ Tidy strict g') E (session c)
        fun s => s.state = .play :=
      fun g' holds => ⟨holds, (holds.1.peers c).state.trans playing⟩
    refine Leads.after state fun s stays => ?_
    rw [stays]
    refine Leads.weaken (Leads.stays (p.command_kept (.inl rfl) trivial
      (fun arm _ _ => arm.within_all) fair guarded)) ?_
    exact fun _ g' holds => ⟨.played there given holds.1, holds.2⟩

theorem tick_outcome : Leads (· = g) E (tickService env) fun _ g' =>
    Outcome strict env g .tick g' ∧ Tidy strict g' := by
  have p := played_permits (T := Listed g) g bounds outside fun _ member => member
  rintro _ rfl
  have led := Leads.stays (p.timer_kept (fun _ _ => trivial) (fun _ _ => trivial)
    (fun _ _ => trivial) trivial trivial) _ ⟨played_start env _ _, tidy⟩
  cases ended : tickService env _ with
  | ok r =>
    rw [ended] at led
    exact ⟨.ticked led.1, led.2⟩
  | error fault =>
    rw [ended] at led
    exact led

theorem commit_asks : Keeps (fun g' => ∃ n, g' = { g with asked := n }) E
    (ignore (gridCommitSession env c)) Any := by
  have watch : Watches strict env E fun g' => ∃ n, g' = { g with asked := n } := by
    refine ⟨bounds, outside, ?_, ?_⟩
    · rintro _ ⟨n, rfl⟩
      exact { tidy with }
    · rintro _ ⟨n, rfl⟩
      exact ⟨n + 1, rfl⟩
  exact keeps_ignored (watch.commits c)

/-- The end of a connection in play, up to the block's release. -/
theorem leave_leads : Leads (· = g) E (leavePlay env c) fun _ g' => ∃ disk' asked,
    Saves env (g.blocks c) g.disk disk' ∧
      g' = ({ g with disk := disk', asked := asked } : Server).unregistered c := by
  have asks := commit_asks (c := c) bounds outside tidy
  refine Leads.seq (M := fun g' => ∃ n, g' = { g with asked := n }) ?_ (Leads.seq (M := fun g' =>
    ∃ disk' asked, Saves env (g.blocks c) g.disk disk' ∧
      g' = { g with disk := disk', asked := asked }) ?_ (Leads.modify ?_))
  · intro g' same
    exact Leads.stays asks _ ⟨g.asked, same⟩
  · rintro _ ⟨n, rfl⟩
    rw [store_save_run]
    obtain ⟨disk', asked, saves, same⟩ := saved_disk env c { g with asked := n }
    exact ⟨disk', asked, saves, by rw [same]⟩
  · rintro _ ⟨disk', asked, saves, rfl⟩
    exact ⟨disk', asked, saves, rfl⟩

theorem closed_outcome (there : g.socket c ≠ none) :
    Leads (· = g) E (closed env c) fun _ g' =>
      Outcome strict env g (.close c) g' ∧ Tidy strict g' := by
  have reads : Keeps (· = g) E (session c) (· = g.blocks c) := by
    rintro _ rfl
    exact ⟨rfl, rfl⟩
  refine Leads.after reads fun s same => ?_
  subst same
  by_cases playing : (g.blocks c).state = .play
  · rw [when, if_pos playing]
    refine Leads.seq (leave_leads bounds outside tidy) (Leads.some_one fun disk' =>
      Leads.some_one fun asked => Leads.given fun saves => ?_)
    have kept := saves_tidy outside (tidy.session c) tidy.disk saves
    rintro _ rfl
    refine ⟨.left there playing saves, tidy_released (tidy_unregistered ?_ c) c⟩
    exact { tidy with disk := kept }
  · rw [when, if_neg playing]
    rintro _ rfl
    exact ⟨.hungUp there playing, tidy_released tidy c⟩

omit bounds outside tidy in
theorem wrote_start (g : Server) (c : Block) : Wrote g c g := by
  refine ⟨(g.blocks c).outbox, g.dropped, g.asked, .inl rfl, fun _ _ => rfl, ?_⟩
  simp [Server.setBlock]

omit bounds outside tidy in
theorem wrote_kept : Keeps (Wrote g c) E (writable env c) Any := by
  have closes : Keeps (Wrote g c) E (maybeClose c) Any := by
    refine Keeps.bind (keeps_session c) fun s _ => keeps_when (Keeps.modify ?_)
    rintro _ ⟨outbox, dropped, asked, queue, others, rfl⟩
    refine ⟨outbox, _, asked, queue, fun d other => ?_, rfl⟩
    rw [Function.update_of_ne other]
    exact others d other
  have writes (len : Nat) : Keeps (Wrote g c) E (wsWrite env len) Any := by
    refine Keeps.bind (R := Any) (fun g' holds => ⟨?_, trivial⟩) fun n _ => Keeps.pure trivial
    obtain ⟨outbox, dropped, asked, queue, others, rfl⟩ := holds
    exact ⟨outbox, dropped, asked + 1, queue, others, rfl⟩
  refine Keeps.bind (keeps_session c) fun s _ => Keeps.branch closes ?_
  refine Keeps.bind (writes _) fun wrote _ => Keeps.seq (keeps_when (Keeps.modify ?_)) closes
  rintro _ ⟨outbox, dropped, asked, queue, others, rfl⟩
  refine ⟨[], dropped, asked, .inr rfl, others, ?_⟩
  simp [Server.setBlock]

omit bounds outside in
theorem writable_outcome (there : g.socket c ≠ none) :
    Leads (· = g) E (writable env c) fun _ g' =>
      Outcome strict env g (.writable c) g' ∧ Tidy strict g' := by
  refine Leads.weaken (R := fun _ => Wrote g c) ?_ fun _ g' wrote => ⟨.wrote there wrote, ?_⟩
  · rintro _ rfl
    exact Leads.stays wrote_kept _ (wrote_start _ c)
  · obtain ⟨outbox, dropped, asked, queue, others, rfl⟩ := wrote
    have held : Tidy strict (g.setBlock c { g.blocks c with outbox := outbox }) := by
      refine tidy_block tidy c { tidy.session c with } ?_
      rcases queue with rfl | rfl
      · exact tidy.outbox c
      · exact sound_nil
    exact { held with }

/-- What every event does, and which faults may stop it. -/
theorem handle_outcome {e : Event} (raised : e.valid g = true)
    (fair : ∀ c line, Delivered g e c line → Fair strict line)
    (guarded : ∀ c line arm, Delivered g e c line → parse line = some (arm, none) →
      arm.unguarded = true → E .nullRead) :
    Leads (· = g) E (handle env e) fun _ g' => Outcome strict env g e g' ∧ Tidy strict g' := by
  cases e with
  | connect c wsi =>
    rintro _ rfl
    simp only [Event.valid, Bool.and_eq_true, decide_eq_true_eq, List.all_eq_true] at raised
    exact ⟨.connected raised.1.1 raised.1.2 raised.2, tidy_opened tidy c wsi⟩
  | message c text =>
    have there : g.socket c ≠ none := by
      simp only [Event.valid, Bool.and_eq_true, decide_eq_true_eq] at raised
      exact raised.1.1
    refine Leads.ite (fun long => ?_) fun short => ?_
    · rintro _ rfl
      exact ⟨.refused there long, tidy_queued tidy c (sound_text (sound_lit _))⟩
    · by_cases playing : (g.blocks c).state = .play
      · have given : Delivered g (.message c text) c (cstr (trimmed text)) :=
          ⟨text, rfl, raised, Nat.le_of_not_lt short, playing, rfl⟩
        exact played_outcome bounds outside tidy there given (fair c _ given)
          fun arm parsed bare => guarded c _ arm given parsed bare
      · exact login_outcome bounds outside tidy there (Nat.le_of_not_lt short) playing
  | writable c =>
    simp only [Event.valid, Bool.and_eq_true, decide_eq_true_eq] at raised
    exact writable_outcome tidy raised.1
  | close c =>
    simp only [Event.valid, decide_eq_true_eq] at raised
    exact closed_outcome bounds outside tidy raised
  | tick => exact tick_outcome bounds outside tidy

end Event

theorem step_tidy {strict : Prop} {env : Env} {g g' : Server} {e : Event}
    (outside : Outside strict env) (tidy : Tidy strict g)
    (fair : ∀ c line, Delivered g e c line → Fair strict line) (taken : step env g e = .ok g') :
    Outcome strict env g e g' ∧ Tidy strict g' := by
  unfold step at taken
  split at taken
  · rename_i raised
    have led := handle_outcome (E := fun _ => True) trivial outside tidy raised fair
      fun _ _ _ _ _ _ => trivial
    simp only [Except.map] at taken
    cases ended : handle env e g with
    | ok r =>
      rw [ended] at taken
      cases taken
      exact led.result rfl ended
    | error fault =>
      rw [ended] at taken
      cases taken
  · rename_i ignored
    cases taken
    exact ⟨.ignored (Bool.eq_false_iff.mpr ignored), tidy⟩

section Landing

variable {strict : Prop} {c : Block} {g g' : Server} {s : Session} {disk : Disk}

theorem registered_own (g : Server) (c : Block) (wsi : Wsi) :
    (g.registered c wsi).blocks c = { g.blocks c with wsi := wsi } := by
  obtain ⟨table, sockets, count, same⟩ := registered_tables g c wsi
  rw [same]
  exact g.setBlock_own c _

theorem registered_other (g : Server) {c d : Block} (wsi : Wsi) (other : d ≠ c) :
    (g.registered c wsi).blocks d = g.blocks d := by
  obtain ⟨table, sockets, count, same⟩ := registered_tables g c wsi
  rw [same]
  exact g.setBlock_other _ other

theorem unregistered_own (g : Server) (c : Block) :
    (g.unregistered c).blocks c = { g.blocks c with wsi := 0 } := by
  obtain ⟨table, sockets, count, same⟩ := unregistered_tables g c
  rw [same]
  exact g.setBlock_own c _

theorem unregistered_other (g : Server) {c d : Block} (other : d ≠ c) :
    (g.unregistered c).blocks d = g.blocks d := by
  obtain ⟨table, sockets, count, same⟩ := unregistered_tables g c
  rw [same]
  exact g.setBlock_other _ other

theorem released_state (g : Server) (c d : Block) :
    ((g.released c).blocks d).state = (g.blocks d).state := by
  by_cases same : d = c
  · subst same
    simp [Server.released]
  · simp [Server.released, Server.setBlock_other _ _ same]

theorem landed_own (landed : Landed strict c g s disk g') : Like strict s (g'.blocks c) := by
  unfold Landed at landed
  split at landed
  · obtain ⟨_, ⟨s', asked, like, rfl⟩, rfl⟩ := landed
    rw [registered_own, Server.staged_own]
    obtain ⟨outbox, close, wsi, rfl, sound, closed⟩ := like
    exact ⟨outbox, close, _, rfl, sound, closed⟩
  · obtain ⟨s', asked, like, rfl⟩ := landed
    rw [Server.staged_own]
    exact like

theorem landed_other (landed : Landed strict c g s disk g') {d : Block} (other : d ≠ c) :
    g'.blocks d = g.blocks d := by
  unfold Landed at landed
  split at landed
  · obtain ⟨_, ⟨s', asked, like, rfl⟩, rfl⟩ := landed
    rw [registered_other _ _ other, Server.staged_other _ _ _ _ _ _ other]
  · obtain ⟨s', asked, like, rfl⟩ := landed
    exact g.staged_other _ _ _ _ _ other

theorem landed_rest (landed : Landed strict c g s disk g') : g'.disk = disk ∧
    g'.connections = g.connections ∧ g'.dropped = g.dropped := by
  unfold Landed at landed
  split at landed
  · obtain ⟨_, ⟨s', asked, like, rfl⟩, rfl⟩ := landed
    obtain ⟨table, sockets, count, same⟩ := registered_tables (g.staged c s' disk asked) c
      (((g.staged c s' disk asked).socket c).getD 0)
    rw [same]
    exact ⟨rfl, rfl, rfl⟩
  · obtain ⟨s', asked, like, rfl⟩ := landed
    exact ⟨rfl, rfl, rfl⟩

end Landing

theorem fair_lax (line : Bytes) : Fair False line := ⟨clean_lax line, nofun, nofun⟩

/-- What a step can do to any state. -/
theorem step_cases {env : Env} {g g' : Server} {e : Event} (taken : step env g e = .ok g') :
    Outcome False env g e g' :=
  (step_tidy (outside_lax env) (tidy_lax g) (fun _ line _ => fair_lax line) taken).1

/-- How a connection comes to be in play: by a phrase, and with nothing else moved but the
file of its name. -/
structure Entered (env : Env) (g : Server) (e : Event) (g' : Server) (c : Block) : Prop where
  there : g.socket c ≠ none
  raised : e.valid g = true
  asked : (g.blocks c).state = .passphrase
  phrase : ∃ text s', e = .message c text ∧ text.length ≤ 255 ∧
    Enters env (cstr (trimmed text)) (g.blocks c) s' ∧ Saves env s' g.disk g'.disk ∧
    Like False s' (g'.blocks c)
  others : ∀ d, d ≠ c → g'.blocks d = g.blocks d
  connections : g'.connections = g.connections

theorem login_entered {env : Env} {line : Bytes} {s s' : Session} {disk disk' : Disk}
    (away : s.state ≠ .play) (move : LoginMove env line s disk s' disk') (seated : s'.state = .play) :
    s.state = .passphrase ∧ Enters env (cstr line) s s' ∧ Saves env s' disk disk' := by
  cases move with
  | refused => exact absurd seated away
  | keeper => cases seated
  | named _ _ _ load => exact absurd seated (load_away load away)
  | trusted _ _ load => exact absurd seated (load_away load away)
  | raced => cases seated
  | entered asked enters saves => exact ⟨asked, enters, saves⟩

theorem entering {env : Env} {g g' : Server} {e : Event} {c : Block}
    (taken : step env g e = .ok g') (away : (g.blocks c).state ≠ .play)
    (seated : (g'.blocks c).state = .play) : Entered env g e g' c := by
  have stay (same : (g'.blocks c).state = (g.blocks c).state) : Entered env g e g' c :=
    absurd (same ▸ seated) away
  have raised : e.valid g = true := by
    by_contra ignored
    rw [step, if_neg ignored] at taken
    cases taken
    exact away seated
  cases step_cases taken with
  | ignored => exact stay rfl
  | @connected d wsi =>
    by_cases own : c = d
    · subst own
      simp [Server.opened, Server.queued, newSession] at seated
    · refine stay ?_
      rw [Server.opened, Server.queued, Server.setBlock_other _ _ own]
      exact congrArg Session.state (g.setBlock_other _ own)
  | @refused d text =>
    refine stay ?_
    by_cases own : c = d
    · subst own
      simp [Server.queued]
    · rw [Server.queued, Server.setBlock_other _ _ own]
  | @login d text _ there short out moved =>
    obtain ⟨s', disk', move, _, landed⟩ := moved
    by_cases own : c = d
    · subst own
      have like := landed_own landed
      have state : s'.state = .play := like.state.symm.trans seated
      obtain ⟨disk_same, connections, _⟩ := landed_rest landed
      obtain ⟨asked, enters, saves⟩ := login_entered away move state
      exact ⟨there, raised, asked, ⟨text, s', rfl, short, enters, disk_same ▸ saves, like⟩,
        fun d other => landed_other landed other, connections⟩
    · exact stay (congrArg Session.state (landed_other landed own))
  | played _ _ played => exact stay (played.peers c).state
  | @wrote d _ there wrote =>
    obtain ⟨outbox, dropped, asked, _, _, rfl⟩ := wrote
    refine stay ?_
    by_cases own : c = d
    · subst own
      simp
    · exact congrArg Session.state (g.setBlock_other _ own)
  | @left d disk' asked =>
    refine stay ?_
    rw [released_state]
    by_cases own : c = d
    · subst own
      rw [unregistered_own]
    · rw [unregistered_other _ own]
  | hungUp => exact stay (released_state g _ c)
  | ticked played => exact stay (played.peers c).state

theorem opened_iff (g : Server) (c : Block) :
    g.socket c ≠ none ↔ c ∈ g.connections.map Prod.fst := by
  rw [Server.socket, Option.ne_none_iff_isSome, List.lookup_isSome_iff, List.mem_map]
  constructor
  · rintro ⟨entry, member, same⟩
    exact ⟨entry, member, (eq_of_beq same).symm⟩
  · rintro ⟨entry, member, rfl⟩
    exact ⟨entry, member, BEq.rfl⟩

theorem released_socket (g : Server) {c d : Block} (other : d ≠ c) :
    (g.released c).socket d = g.socket d := by
  change (g.connections.filter fun open_one => open_one.1 ≠ c).lookup d = g.connections.lookup d
  induction g.connections with
  | nil => rfl
  | cons first rest ih =>
    obtain ⟨b, wsi⟩ := first
    by_cases gone : b = c
    · rw [List.filter_cons_of_neg (by simpa using gone), ih, List.lookup_cons,
        beq_false_of_ne (gone ▸ other)]
    · rw [List.filter_cons_of_pos (by simpa using gone), List.lookup_cons, List.lookup_cons, ih]

theorem released_closed (g : Server) (c : Block) : (g.released c).socket c = none := by
  by_contra there
  have member := (opened_iff _ c).mp there
  obtain ⟨entry, kept, rfl⟩ := List.mem_map.mp member
  simp [Server.released] at kept

/-- What a step makes of a connection that is open after it. -/
inductive Onward (env : Env) (g : Server) (e : Event) (g' : Server) (c : Block) : Prop
  | fresh {wsi : Wsi} : e = .connect c wsi → g.socket c = none →
      Like False (newSession wsi) (g'.blocks c) → Onward env g e g' c
  | same : g.socket c ≠ none → e ≠ .close c → Peer (g.blocks c) (g'.blocks c) →
      Onward env g e g' c
  | login {text : Bytes} {s' : Session} : e = .message c text → e.valid g = true →
      g.socket c ≠ none → text.length ≤ 255 → (g.blocks c).state ≠ .play →
      LoginMove env (trimmed text) (g.blocks c) g.disk s' g'.disk →
      Like False s' (g'.blocks c) → Onward env g e g' c

theorem queued_own (g : Server) (c : Block) (t : Text) :
    Like False (g.blocks c) ((g.queued c t).blocks c) := by
  rw [Server.queued, Server.setBlock_own]
  exact ⟨_, (g.blocks c).close, (g.blocks c).wsi, rfl, fun _ => sound_lax id, id⟩

theorem queued_other (g : Server) {c d : Block} (t : Text) (other : d ≠ c) :
    (g.queued c t).blocks d = g.blocks d :=
  g.setBlock_other _ other

theorem opened_own (g : Server) (c : Block) (wsi : Wsi) :
    Like False (newSession wsi) ((g.opened c wsi).blocks c) := by
  have told := queued_own
    { g.setBlock c (newSession wsi) with connections := (c, wsi) :: g.connections } c banner
  rw [show Server.blocks { g.setBlock c (newSession wsi) with
    connections := (c, wsi) :: g.connections } c = newSession wsi from g.setBlock_own c _] at told
  exact told

theorem opened_other (g : Server) {c d : Block} (wsi : Wsi) (other : d ≠ c) :
    (g.opened c wsi).blocks d = g.blocks d := by
  rw [Server.opened, Server.queued, Server.setBlock_other _ _ other]
  exact g.setBlock_other _ other

theorem opened_socket (g : Server) {c d : Block} (wsi : Wsi) (other : d ≠ c) :
    (g.opened c wsi).socket d = g.socket d := by
  change List.lookup d ((c, wsi) :: g.connections) = _
  rw [List.lookup_cons, beq_false_of_ne other]
  rfl

theorem peer_self (s : Session) : Peer s s := ⟨rfl, rfl, rfl, rfl, rfl, id⟩

theorem released_peer (g : Server) (c d : Block) : Peer (g.blocks d) ((g.released c).blocks d) := by
  by_cases own : d = c
  · subst own
    rw [Server.released, Server.setBlock_own]
    exact ⟨rfl, rfl, rfl, rfl, rfl, id⟩
  · rw [Server.released, g.setBlock_other _ own]
    exact peer_self _

theorem unregistered_peer (g : Server) (c d : Block) :
    Peer (g.blocks d) ((g.unregistered c).blocks d) := by
  by_cases own : d = c
  · subst own
    rw [unregistered_own]
    exact ⟨rfl, rfl, rfl, rfl, rfl, id⟩
  · rw [unregistered_other g own]
    exact peer_self _

theorem step_onward {env : Env} {g g' : Server} {e : Event} {c : Block}
    (taken : step env g e = .ok g') (there : g'.socket c ≠ none) : Onward env g e g' c := by
  by_cases raised : e.valid g = true
  · cases step_cases taken with
    | ignored idle => exact absurd raised (by simp [idle])
    | @connected d wsi fresh =>
      by_cases own : c = d
      · subst own
        exact .fresh rfl fresh (opened_own g c wsi)
      · rw [opened_socket g wsi own] at there
        exact .same there (by simp) (by rw [opened_other g wsi own]; exact peer_self _)
    | @refused d text =>
      refine .same there (by simp) ?_
      by_cases own : c = d
      · subst own
        rw [Server.queued, Server.setBlock_own]
        exact ⟨rfl, rfl, rfl, rfl, rfl, id⟩
      · rw [queued_other g _ own]
        exact peer_self _
    | @login d text _ opened short away moved =>
      obtain ⟨s', disk', move, _, landed⟩ := moved
      obtain ⟨rfl, connections, _⟩ := landed_rest landed
      by_cases own : c = d
      · subst own
        exact .login rfl raised opened short away move (landed_own landed)
      · refine .same ?_ (by simp) ?_
        · rw [Server.socket, ← connections]
          exact there
        · rw [landed_other landed own]
          exact peer_self _
    | played _ _ played =>
      refine .same ?_ (by simp) (played.peers c)
      rw [Server.socket, ← played.connections]
      exact there
    | @wrote d _ _ wrote =>
      obtain ⟨outbox, dropped, asked, _, _, rfl⟩ := wrote
      refine .same there (by simp) ?_
      by_cases own : c = d
      · subst own
        rw [show ({ g.setBlock c _ with dropped := dropped, asked := asked } : Server).blocks c = _
          from g.setBlock_own c _]
        exact ⟨rfl, rfl, rfl, rfl, rfl, id⟩
      · rw [show ({ g.setBlock d _ with dropped := dropped, asked := asked } : Server).blocks c = _
          from g.setBlock_other _ own]
        exact peer_self _
    | @left d disk' asked =>
      have other : c ≠ d := by
        rintro rfl
        exact there (released_closed _ c)
      rw [released_socket _ other] at there
      have carried := peer_trans (unregistered_peer { g with disk := disk', asked := asked } d c)
        (released_peer _ d c)
      refine .same ?_ (by simpa using Ne.symm other) carried
      obtain ⟨table, sockets, count, same⟩ :=
        unregistered_tables { g with disk := disk', asked := asked } d
      rw [same] at there
      exact there
    | @hungUp d =>
      have other : c ≠ d := by
        rintro rfl
        exact there (released_closed _ c)
      rw [released_socket _ other] at there
      exact .same there (by simpa using Ne.symm other) (released_peer _ d c)
    | ticked played =>
      refine .same ?_ (by simp) (played.peers c)
      rw [Server.socket, ← played.connections]
      exact there
  · rw [step, if_neg raised] at taken
    cases taken
    refine .same there ?_ (peer_self _)
    rintro rfl
    exact raised (by simpa [Event.valid] using there)

theorem step_open {env : Env} {g g' : Server} {e : Event} {c : Block}
    (taken : step env g e = .ok g') (there : g.socket c ≠ none) (stays : e ≠ .close c) :
    g'.socket c ≠ none := by
  have same (connections : g'.connections = g.connections) : g'.socket c ≠ none := by
    rw [Server.socket, connections]
    exact there
  cases step_cases taken with
  | ignored => exact there
  | @connected d wsi fresh =>
    have other : c ≠ d := fun own => there (own ▸ fresh)
    rw [opened_socket g wsi other]
    exact there
  | refused => exact same rfl
  | login _ _ _ moved =>
    obtain ⟨s', disk', _, _, landed⟩ := moved
    exact same (landed_rest landed).2.1
  | played _ _ played => exact same played.connections
  | wrote _ wrote =>
    obtain ⟨outbox, dropped, asked, _, _, rfl⟩ := wrote
    exact there
  | @left d disk' asked =>
    have other : c ≠ d := fun own => stays (own ▸ rfl)
    rw [released_socket _ other]
    obtain ⟨table, sockets, count, tables⟩ :=
      unregistered_tables { g with disk := disk', asked := asked } d
    rw [tables]
    exact there
  | @hungUp d =>
    have other : c ≠ d := fun own => stays (own ▸ rfl)
    rw [released_socket _ other]
    exact there
  | ticked played => exact same played.connections

theorem delivered_run (env : Env) {g : Server} {e : Event} {c : Block} {line : Bytes}
    (given : Delivered g e c line) : ∃ wsi,
    step env g e = (worldCommand env c line (g.setWsi c wsi)).map Prod.snd := by
  obtain ⟨text, rfl, raised, short, playing, rfl⟩ := given
  refine ⟨(g.socket c).getD 0, ?_⟩
  have seated : ((g.setWsi c ((g.socket c).getD 0)).blocks c).state = .play := by
    rw [Server.setWsi, Server.setBlock_own]
    exact playing
  have dispatched : receive env c text g =
      worldCommand env c (cstr (trimmed text)) (g.setWsi c ((g.socket c).getD 0)) := by
    change dispatch env c (trimmed text) (g.setWsi c ((g.socket c).getD 0)) = _
    unfold dispatch
    rw [bind_ok (rfl : session c _ = .ok (_, _)), seated]
  rw [step, if_pos raised]
  change Except.map _ (message env c text g) = _
  rw [message, if_neg (Nat.not_lt.mpr short), dispatched]

end HollowGrid
