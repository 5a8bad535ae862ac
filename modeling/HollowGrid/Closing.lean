import HollowGrid.Steps

/-! The close flag of a session. The connection is dropped at its next writable event; the
messages that come before it are dispatched all the same. -/
namespace HollowGrid

/-- In play: a look, a way that is not there, no command at all, or one that only reports. -/
def Quiet (s : Session) (line : Bytes) : Prop :=
  sameFold line (str "look") ∨ sameFold line (str "l") ∨ startsFold (str "look ") line ∨
  roomMove s.room (heading line) = .noExit ∨
  (roomMove s.room (heading line) = .unknown ∧
    ∀ arm arg, parse line = some (arm, arg) → arm.reports = true)

def Refused (env : Env) (s : Session) (line : Bytes) : Prop :=
  match s.state with
  | .name => validName line = false
  | .token => verifyAdminToken env (cstr line) = false
  | .passphrase => ∀ s', ¬Enters env (cstr line) s s'
  | .race => raceChosen line = none
  | .play => Quiet s (cstr line)

/-- Every message to a flagged session is one its state refuses. -/
def Heeded (env : Env) (g : Server) (e : Event) : Prop :=
  ∀ c text, e = .message c text → text.length ≤ 255 → (g.blocks c).close = true →
    Refused env (g.blocks c) (trimmed text)

/-- The session at c has changed by what it is told at most, and nothing else has. -/
structure Unmoved (g g' : Server) (c : Block) : Prop where
  own : Like False (g.blocks c) (g'.blocks c)
  others : ∀ d, d ≠ c → g'.blocks d = g.blocks d
  disk : g'.disk = g.disk

variable {env : Env} {g g' : Server} {c : Block} {text : Bytes}

theorem near_unmoved (near : Near False c g (g.blocks c) g.disk g') : Unmoved g g' c := by
  obtain ⟨s', asked, like, rfl⟩ := near
  refine ⟨?_, fun d other => g.staged_other _ _ _ _ _ other, rfl⟩
  rw [Server.staged_own]
  exact like

theorem quiet_kept {s : Session} {line : Bytes} (room : s.room = (g.blocks c).room)
    (quiet : Quiet s line) :
    Keeps (Near False c g (g.blocks c) g.disk) (fun _ => True) (worldCommand env c line) Any := by
  have r : Reports False env (fun _ => True) c (Near False c g (g.blocks c) g.disk) :=
    near_reports trivial (outside_lax env) (stage_tidy (tidy_lax g) c)
  refine Keeps.ite (fun _ => r.scene_now) fun no_look => Keeps.ite (fun _ => r.look_kept _)
    fun no_look_at => ?_
  have here : Keeps (Near False c g (g.blocks c) g.disk) (fun _ => True) (session c)
      fun s' => s'.room = s.room := by
    rintro _ ⟨s', asked, like, rfl⟩
    refine ⟨⟨s', asked, like, rfl⟩, ?_⟩
    rw [Server.staged_own]
    exact (congrArg Character.room like.character).trans room.symm
  refine Keeps.bind here fun s' same => ?_
  rw [same]
  rcases quiet with look | l | look_at | no_exit | ⟨unknown, arms⟩
  · exact absurd (.inl look) no_look
  · exact absurd (.inr l) no_look
  · exact absurd look_at no_look_at
  · rw [no_exit]
    exact r.cant_move_kept
  · rw [unknown]
    change Keeps _ _ (notMovement env c line) _
    unfold notMovement
    cases parsed : parse line with
    | none => exact r.unknown_kept
    | some found =>
      obtain ⟨arm, arg⟩ := found
      exact r.exec_kept (arms arm arg parsed) (fun b _ => clean_lax b) nofun
        fun _ _ => .inl trivial

theorem refused_login {s s' : Session} {line : Bytes} {disk disk' : Disk}
    (refused : Refused env s line)
    (move : LoginMove env line s disk s' disk') : s' = s ∧ disk' = disk := by
  cases move with
  | refused => exact ⟨rfl, rfl⟩
  | keeper naming valid =>
    rw [Refused, naming] at refused
    exact absurd valid (by simp [refused])
  | named naming valid =>
    rw [Refused, naming] at refused
    exact absurd valid (by simp [refused])
  | trusted asked proved =>
    rw [Refused, asked] at refused
    exact absurd proved (by simp [refused])
  | raced asked chosen =>
    rw [Refused, asked] at refused
    exact absurd chosen (by simp [refused])
  | entered asked enters =>
    rw [Refused, asked] at refused
    exact absurd enters (refused _)

theorem heeded_step (heeded : Heeded env g (.message c text)) (flagged : (g.blocks c).close = true)
    (taken : step env g (.message c text) = .ok g') : Unmoved g g' c := by
  cases step_cases taken with
  | ignored => exact near_unmoved (near_start g c)
  | refused =>
    exact ⟨queued_own g c _, fun d other => queued_other g _ other, rfl⟩
  | login there short away moved =>
    obtain ⟨s', disk', move, _, landed⟩ := moved
    obtain ⟨rfl, rfl⟩ := refused_login (heeded c text rfl short flagged) move
    rw [Landed, if_neg away] at landed
    exact near_unmoved landed
  | played there given =>
    have short : text.length ≤ 255 := by
      obtain ⟨_, same, _, short, _⟩ := given
      cases same
      exact short
    have seated : (g.blocks c).state = .play := by
      obtain ⟨_, _, _, _, seated, _⟩ := given
      exact seated
    have quiet := heeded c text rfl short flagged
    rw [Refused, seated] at quiet
    obtain ⟨wsi, run⟩ := delivered_run env given
    rw [run] at taken
    cases ended : worldCommand env c (cstr (trimmed text)) (g.setWsi c wsi) with
    | ok r =>
      rw [ended] at taken
      cases taken
      exact near_unmoved ((quiet_kept rfl quiet).result (near_heard False g c wsi) ended).1
    | error fault =>
      rw [ended] at taken
      cases taken

/-- A step keeps the flag of an open connection, and under the condition its state too. -/
theorem flagged_step {e : Event} (heeded : Heeded env g e) (taken : step env g e = .ok g')
    (there : g'.socket c ≠ none) (kept : g.socket c ≠ none) (flagged : (g.blocks c).close = true) :
    (g'.blocks c).close = true ∧ (g'.blocks c).state = (g.blocks c).state := by
  cases step_onward taken there with
  | fresh _ closed => exact absurd closed kept
  | same _ _ peer => exact ⟨peer.close flagged, peer.state⟩
  | login message =>
    subst message
    have own := (heeded_step heeded flagged taken).own
    obtain ⟨outbox, close, wsi, same, _, stays⟩ := own
    rw [same]
    exact ⟨stays flagged, rfl⟩

theorem flagged_stays {disk : Disk} {before later : List Event}
    (met : Machine.Meets (step env) (Heeded env) (boot env disk) (before ++ later))
    (reached : Machine.Reaches (step env) (boot env disk) before g) (there : g.socket c ≠ none)
    (flagged : (g.blocks c).close = true) (stays : .close c ∉ later)
    (now : Machine.Reaches (step env) (boot env disk) (before ++ later) g') :
    g'.socket c ≠ none ∧ (g'.blocks c).close = true ∧ (g'.blocks c).state = (g.blocks c).state := by
  induction later using List.reverseRecOn generalizing g' with
  | nil =>
    rw [List.append_nil] at now
    cases reached.symm.trans now
    exact ⟨there, flagged, rfl⟩
  | append_singleton later e ih =>
    rw [← List.append_assoc] at met now
    obtain ⟨last, front, taken⟩ := Machine.reaches_snoc_cases _ _ _ _ _ now
    have earlier : Event.close c ∉ later := fun member => stays (List.mem_append_left _ member)
    obtain ⟨open_last, flag, state⟩ :=
      ih (Machine.meets_front _ _ _ _ _ met) earlier front
    have other : e ≠ .close c := fun same => stays (by simp [same])
    have open_now := step_open taken open_last other
    have heeded := met (before ++ later) e [] last rfl front
    obtain ⟨flag_now, state_now⟩ := flagged_step heeded taken open_now open_last flag
    exact ⟨open_now, flag_now, state_now.trans state⟩

/-- With every message to a flagged session refused, such a message moves nothing, and the
connection never comes into play. -/
theorem flagged_unmoved (env : Env) (disk : Disk) (events : List Event)
    (met : Machine.Meets (step env) (Heeded env) (boot env disk) events) :
    (∀ before c text after g g', events = before ++ .message c text :: after →
      Machine.Reaches (step env) (boot env disk) before g → (g.blocks c).close = true →
      step env g (.message c text) = .ok g' → Unmoved g g' c) ∧
    (∀ before later after c g g', events = before ++ later ++ after →
      Machine.Reaches (step env) (boot env disk) before g → g.socket c ≠ none →
      (g.blocks c).close = true → .close c ∉ later →
      Machine.Reaches (step env) (boot env disk) (before ++ later) g' →
      (g'.blocks c).state = (g.blocks c).state) := by
  constructor
  · intro before c text after g g' split reached flagged taken
    exact heeded_step (met before _ after g split reached) flagged taken
  · rintro before later after c g g' rfl reached there flagged stays now
    have front := Machine.meets_front _ _ _ _ _ met
    exact (flagged_stays front reached there flagged stays now).2.2

/-- A wrong phrase, and the right one sent before the connection is dropped. -/
def secondTry : List Event :=
  [.connect 0 1, .message 0 (str "ada"), .message 0 (str "wrong phrase")]

/-- A message to a session without the flag, or a phrase that its hash refuses. -/
def unheard (env : Env) (g : Server) : Event → Bool
  | .message c text =>
    !(g.blocks c).close || ((g.blocks c).state = .passphrase && (g.blocks c).secretHash ≠ [] &&
      !verifyPassphrase env (cstr (trimmed text)) (g.blocks c).secretHash)
  | _ => true

theorem unheard_heeded (g : Server) (e : Event) (passed : unheard env g e = true) :
    Heeded env g e := by
  rintro c text rfl _ flagged
  simp only [unheard, flagged, Bool.not_true, Bool.false_or, Bool.and_eq_true, decide_eq_true_eq,
    Bool.not_eq_true'] at passed
  obtain ⟨⟨asked, hashed⟩, refused⟩ := passed
  rw [Refused, asked]
  intro s' enters
  cases enters with
  | proven _ proved => exact absurd proved (by simp [refused])
  | chosen unset => exact hashed unset

/-- The wrong phrase twice is refused twice. -/
theorem flagged_unmoved_wrong : ∃ g g',
    Machine.Reaches (step quietNode) (boot quietNode sharedDisk) secondTry g ∧
    (g.blocks 0).close = true ∧ step quietNode g (.message 0 (str "wrong phrase")) = .ok g' ∧
    Unmoved g g' 0 := by
  have met := Machine.meets_passed (step quietNode) (unheard quietNode) (Heeded quietNode)
    unheard_heeded (boot quietNode sharedDisk) (secondTry ++ [.message 0 (str "wrong phrase")])
    (by decide +kernel)
  obtain ⟨g', reached, _⟩ := Machine.ends_reaches (step quietNode) (boot quietNode sharedDisk)
    (secondTry ++ [.message 0 (str "wrong phrase")]) (fun _ => true) (by decide +kernel)
  obtain ⟨g, front, taken⟩ := Machine.reaches_snoc_cases _ _ _ _ _ reached
  obtain ⟨g₁, again, shown⟩ := Machine.ends_reaches (step quietNode) (boot quietNode sharedDisk)
    secondTry (fun g => (g.blocks 0).close) (by decide +kernel)
  cases front.symm.trans again
  exact ⟨g, g', front, shown, taken,
    (flagged_unmoved _ _ _ met).1 secondTry 0 _ [] g g' rfl front shown taken⟩

/-- The right phrase after a wrong one still leads into play. -/
theorem flagged_enters_play : ¬ ∀ events g g' c text,
    Machine.Reaches (step quietNode) (boot quietNode sharedDisk) events g →
    (g.blocks c).close = true → step quietNode g (.message c text) = .ok g' →
    (g'.blocks c).state = (g.blocks c).state := by
  intro kept
  obtain ⟨g', reached, seated⟩ := Machine.ends_reaches (step quietNode) (boot quietNode sharedDisk)
    (secondTry ++ [.message 0 (str "password")]) (fun g => decide ((g.blocks 0).state = .play))
    (by decide +kernel)
  obtain ⟨g, front, taken⟩ := Machine.reaches_snoc_cases _ _ _ _ _ reached
  obtain ⟨g₁, again, shown⟩ := Machine.ends_reaches (step quietNode) (boot quietNode sharedDisk)
    secondTry (fun g => decide ((g.blocks 0).close = true ∧ (g.blocks 0).state = .passphrase))
    (by decide +kernel)
  cases front.symm.trans again
  obtain ⟨flagged, asked⟩ := of_decide_eq_true shown
  have same := kept secondTry g g' 0 (str "password") front flagged taken
  rw [of_decide_eq_true seated, asked] at same
  cases same

end HollowGrid
