import HollowGrid.Steps

/-! Who may use the keeper's commands: a name of the list, proved by the token. -/
namespace HollowGrid

/-- The connection at c gave the token after its name was fixed, and is open since. -/
def TokenGiven (env : Env) (disk : Disk) (events : List Event) (c : Block) (name : Bytes) : Prop :=
  ∃ before text after g, events = before ++ .message c text :: after ∧ .close c ∉ after ∧
    Machine.Reaches (step env) (boot env disk) before g ∧
    (Event.message c text).valid g = true ∧ text.length ≤ 255 ∧ (g.blocks c).state = .token ∧
    (g.blocks c).name = name ∧ verifyAdminToken env (cstr (trimmed text)) = true

/-- A session that is trusted has earned it, and one that still chooses its name is not. -/
structure Trust (env : Env) (disk : Disk) (events : List Event) (c : Block) (s : Session) :
    Prop where
  earned : s.keeperAuthed = true → TokenGiven env disk events c s.name
  unnamed : s.state = .name → s.keeperAuthed = false

variable {env : Env} {disk : Disk} {events : List Event} {c : Block}

theorem token_given_snoc {name : Bytes} {e : Event} (given : TokenGiven env disk events c name)
    (stays : e ≠ .close c) : TokenGiven env disk (events ++ [e]) c name := by
  obtain ⟨before, text, after, g, rfl, stayed, reached, token⟩ := given
  refine ⟨before, text, after ++ [e], g, by simp, ?_, reached, token⟩
  simp [stayed, Ne.symm stays]

theorem load_trust {s s' : Session} {disk' : Disk} (load : Load env s disk s' disk') :
    s'.name = s.name ∧ s'.keeperAuthed = s.keeperAuthed ∧ (s'.state = .name → s.state = .name) := by
  cases load with
  | unreadable => exact ⟨rfl, rfl, id⟩
  | own => exact ⟨rfl, rfl, nofun⟩
  | merged => exact ⟨rfl, rfl, nofun⟩
  | adopted => exact ⟨rfl, rfl, nofun⟩
  | fresh => exact ⟨rfl, rfl, nofun⟩

theorem trust_login {text : Bytes} {g : Server} {now : Disk} {s' : Session} {disk' : Disk}
    (reached : Machine.Reaches (step env) (boot env disk) events g)
    (trust : Trust env disk events c (g.blocks c)) (raised : (Event.message c text).valid g = true)
    (short : text.length ≤ 255)
    (move : LoginMove env (trimmed text) (g.blocks c) now s' disk') :
    Trust env disk (events ++ [.message c text]) c s' := by
  have carried (authed : (g.blocks c).keeperAuthed = true) :
      TokenGiven env disk (events ++ [.message c text]) c (g.blocks c).name :=
    token_given_snoc (trust.earned authed) nofun
  cases move with
  | refused => exact ⟨carried, trust.unnamed⟩
  | keeper naming =>
    refine ⟨fun authed => ?_, nofun⟩
    exact absurd authed (by simp [trust.unnamed naming])
  | named naming _ _ load =>
    obtain ⟨_, authed_same, _⟩ := load_trust load
    have untrusted : s'.keeperAuthed = false := authed_same.trans (trust.unnamed naming)
    exact ⟨fun authed => absurd authed (by simp [untrusted]), fun _ => untrusted⟩
  | trusted asked proved load =>
    obtain ⟨name_same, _, state⟩ := load_trust load
    refine ⟨fun _ => ?_, fun naming => ?_⟩
    · rw [name_same]
      exact ⟨events, text, [], g, rfl, List.not_mem_nil, reached, raised, short, asked, rfl,
        proved⟩
    · exact absurd (asked.symm.trans (state naming)) nofun
  | raced => exact ⟨carried, nofun⟩
  | entered _ enters =>
    cases enters with
    | proven => exact ⟨carried, nofun⟩
    | chosen => exact ⟨carried, nofun⟩

/-- Every open connection of every run is trusted only as far as it earned. -/
theorem trust_run {g : Server} (reached : Machine.Reaches (step env) (boot env disk) events g) :
    ∀ c, g.socket c ≠ none → Trust env disk events c (g.blocks c) := by
  refine Machine.history_run (step env)
    (fun events g => ∀ c, g.socket c ≠ none → Trust env disk events c (g.blocks c)) (boot env disk)
    (fun c there => absurd rfl there) (fun events g e g' reached trust taken c there => ?_)
    events g reached
  cases step_onward taken there with
  | fresh _ _ like =>
    have untrusted : (g'.blocks c).keeperAuthed = false := like.keeperAuthed
    exact ⟨fun authed => absurd authed (by simp [untrusted]), fun _ => untrusted⟩
  | same open_before stays peer =>
    have held := trust c open_before
    refine ⟨fun authed => ?_, fun naming => ?_⟩
    · rw [peer.name]
      exact token_given_snoc (held.earned (peer.keeperAuthed ▸ authed)) stays
    · rw [peer.keeperAuthed]
      exact held.unnamed (peer.state ▸ naming)
  | login message raised open_before short _ move like =>
    subst message
    have moved := trust_login reached (trust c open_before) raised short move
    refine ⟨fun authed => ?_, fun naming => ?_⟩
    · rw [like.name]
      exact moved.earned (like.keeperAuthed ▸ authed)
    · rw [like.keeperAuthed]
      exact moved.unnamed (like.state ▸ naming)

/-- .dispatch with any program in the place of hg_world_command. -/
def dispatchTo (world : Bytes → Act Unit) (env : Env) (c : Block) (line : Bytes) : Act Unit := do
  let s ← session c
  match s.state with
  | .name => receiveName env c line
  | .token => receiveToken env c (cstr line)
  | .passphrase => receivePassphrase env c (cstr line)
  | .race => receiveRace c line
  | .play => world (cstr line)

theorem dispatch_eq (env : Env) (c : Block) (line : Bytes) :
    dispatch env c line = dispatchTo (worldCommand env c) env c line := rfl

theorem dispatch_away {g : Server} (away : (g.blocks c).state ≠ .play)
    (world : Bytes → Act Unit) (line : Bytes) :
    dispatchTo world env c line g = dispatch env c line g := by
  unfold dispatch dispatchTo
  rw [bind_ok (rfl : session c g = .ok (g.blocks c, g)),
    bind_ok (rfl : session c g = .ok (g.blocks c, g))]
  cases state : (g.blocks c).state with
  | play => exact absurd state away
  | _ => rfl

theorem keeper_denied {g : Server} (refused : keeper env (g.blocks c) = false) (arg : Ptr) :
    cmdWall env c arg g =
      queueLine c (lit "Only a keeper of the Grid can broadcast across the wastes.") g ∧
    cmdGridstats env c g = queueLine c statsDeny g ∧
    cmdGridprune env c g = queueLine c pruneDeny g := by
  unfold cmdWall cmdGridstats cmdGridprune
  simp only [bind_ok (rfl : session c g = .ok (g.blocks c, g)), refused, if_true,
    Bool.false_eq_true, if_false, and_self]

/-- The keeper's commands accept only an admin name that the token was given for, and no
command runs outside play. -/
theorem keeper_earned (env : Env) (disk : Disk) (events : List Event) (g : Server)
    (reached : Machine.Reaches (step env) (boot env disk) events g) :
    (∀ c, g.socket c ≠ none → keeper env (g.blocks c) = true →
      isAdmin env (g.blocks c).name = true ∧
        TokenGiven env disk events c (g.blocks c).name) ∧
    (∀ (h : Server) c arg, keeper env (h.blocks c) = false →
      cmdWall env c arg h =
        queueLine c (lit "Only a keeper of the Grid can broadcast across the wastes.") h ∧
      cmdGridstats env c h = queueLine c statsDeny h ∧
      cmdGridprune env c h = queueLine c pruneDeny h) ∧
    (∀ (h : Server) c line world, (h.blocks c).state ≠ .play →
      dispatchTo world env c line h = dispatch env c line h) := by
  refine ⟨fun c there accepted => ?_, fun h c arg refused => keeper_denied refused arg,
    fun h c line world away => dispatch_away away world line⟩
  obtain ⟨admin, authed⟩ := (Bool.and_eq_true ..).mp accepted
  exact ⟨admin, (trust_run reached c there).earned authed⟩

/-- A keeper comes back and is one. -/
theorem keeper_earned_returns : ∃ g,
    Machine.Reaches (step quietNode) (boot quietNode sharedDisk)
      [.connect 0 1, .message 0 (str "keeper"), .message 0 (str "token"),
        .message 0 (str "password")] g ∧
    (g.blocks 0).state = .play ∧ isAdmin quietNode (g.blocks 0).name = true := by
  obtain ⟨g, reached, shown⟩ := Machine.ends_reaches (step quietNode) (boot quietNode sharedDisk)
    [.connect 0 1, .message 0 (str "keeper"), .message 0 (str "token"),
      .message 0 (str "password")]
    (fun g => decide (g.socket 0 ≠ none ∧ (g.blocks 0).state = .play ∧
      keeper quietNode (g.blocks 0) = true)) (by decide +kernel)
  obtain ⟨there, seated, accepted⟩ := of_decide_eq_true shown
  exact ⟨g, reached, seated, ((keeper_earned _ _ _ g reached).1 0 there accepted).1⟩

end HollowGrid
