import HollowGrid.Rat
import HollowGrid.Lib.Log

/-! The order of the readings of the clock: no event takes a question to the outside back, so a
clock that goes on is read in its order over a whole run. -/
namespace HollowGrid

def Later (n : Nat) (g : Server) : Prop := n ≤ g.asked

section Order

variable {env : Env} {g g' : Server} {c : Block} {n : Nat}

theorem saved_later (env : Env) (c : Block) (g : Server) : g.asked ≤ (g.saved env c).asked := by
  unfold Server.saved
  cases characterPath (g.blocks c).name with
  | none => exact Nat.le_refl _
  | some key => cases env.writing g.asked <;> exact Nat.le_succ _

theorem later_permits (env : Env) (n : Nat) :
    Permits False env (fun _ => True) (fun _ => True) (fun _ _ => True) (fun _ => True)
      (Later n) where
  bounds := trivial
  outside := outside_lax env
  tidy := fun g _ => tidy_lax g
  asked := fun _ later => Nat.le_succ_of_le later
  peers := fun _ _ _ _ => trivial
  say := fun _ _ _ later _ _ => later
  close := fun _ _ later _ => later
  change := fun _ _ _ later _ _ _ => later
  fight := fun _ _ _ later _ _ => later
  socket := fun _ _ _ later _ => later
  save := fun g d later _ => later.trans (saved_later env d g)
  world := fun _ _ later _ => later
  ledger := fun _ _ later _ => later
  grid := fun _ _ later _ => later

theorem later_set {f : Server → Server} (same : ∀ g, (f g).asked = g.asked) :
    Keeps (Later n) (fun _ => True) (modify f : Act PUnit) Any :=
  Keeps.modify fun g later => by
    rw [Later, same]
    exact later

theorem later_registered (g : Server) (c : Block) (wsi : Wsi) :
    (g.registered c wsi).asked = g.asked := by
  obtain ⟨table, sockets, count, same⟩ := registered_tables g c wsi
  rw [same]
  rfl

theorem later_unregistered (g : Server) (c : Block) : (g.unregistered c).asked = g.asked := by
  obtain ⟨table, sockets, count, same⟩ := unregistered_tables g c
  rw [same]
  rfl

theorem later_begins : Keeps (Later n) (fun _ => True) (beginPassphrase c) Any := by
  have r := (later_permits quietNode n).reports (d := c) trivial
  refine Keeps.seq (later_set fun _ => rfl) ?_
  apply Keeps.bind (keeps_session c)
  intro s _
  exact Keeps.branch (r.said (sound_lax id)) (r.said (sound_lax id))

theorem later_resumes : Keeps (Later n) (fun _ => True) (resumeToPassphrase c) Any :=
  Keeps.seq (later_set fun _ => rfl) later_begins

theorem later_hub (env : Env) : Keeps (Later n) (fun _ => True) (gridLoadSession env c) Any := by
  have p := later_permits env n
  apply Keeps.bind (keeps_session c)
  intro s _
  apply Keeps.branch (Keeps.pure trivial)
  apply Keeps.bind (p.fetches s.name)
  intro fetched _
  cases fetched with
  | none => exact Keeps.pure trivial
  | some row =>
    exact Keeps.branch (Keeps.pure trivial)
      (Keeps.seq (later_set fun _ => rfl) (Keeps.pure trivial))

theorem later_file (file : File) : Keeps (Later n) (fun _ => True) (loadFile c file) Any := by
  cases file with
  | unreadable => exact Keeps.pure trivial
  | json root => exact Keeps.seq (later_set fun _ => rfl) (Keeps.pure trivial)

theorem later_loads (env : Env) : Keeps (Later n) (fun _ => True) (storeLoad env c) Any := by
  have p := later_permits env n
  apply Keeps.bind (keeps_session c)
  intro s _
  cases characterPath s.name with
  | none => exact Keeps.pure trivial
  | some key =>
    apply Keeps.bind (p.asks_any env.reading)
    intro reading _
    apply Keeps.bind Keeps.get
    intro g _
    cases g.disk key with
    | none => exact Keeps.pure trivial
    | some file =>
      cases reading with
      | openFails => exact Keeps.pure trivial
      | readFails => exact Keeps.pure trivial
      | whole => exact later_file file
      | short seen => exact later_file seen

theorem later_checks (env : Env) :
    Keeps (Later n) (fun _ => True) (afterAdminCheck env c) Any := by
  have p := later_permits env n
  have r := p.reports (d := c) trivial
  apply Keeps.bind (later_loads env)
  intro stored _
  cases stored with
  | applied =>
    apply Keeps.bind (later_hub env)
    intro hub _
    exact Keeps.seq (keeps_when (keeps_ignored (p.commits c))) later_resumes
  | failed => exact r.said (sound_lax id)
  | nothing =>
    apply Keeps.bind (later_hub env)
    intro hub _
    apply Keeps.branch
    · exact Keeps.seq (p.saves trivial) later_resumes
    · exact Keeps.seq (later_set fun _ => rfl) (r.said (sound_lax id))

theorem later_enters {greeting : Text} :
    Keeps (Later n) (fun _ => True) (enterPlay c greeting) Any := by
  have r := (later_permits quietNode n).reports (d := c) trivial
  apply Keeps.seq (r.said (sound_lax id))
  apply Keeps.seq r.scene_now
  exact later_set fun g => later_registered g c _

theorem later_passes (env : Env) : Keeps (Later n) (fun _ => True) (passphraseOk env c) Any := by
  have p := later_permits env n
  apply Keeps.bind (keeps_session c)
  intro s _
  apply Keeps.branch
  · exact Keeps.seq (later_set fun _ => rfl) (Keeps.seq (p.saves trivial) later_enters)
  · apply Keeps.seq (p.saves trivial)
    apply Keeps.seq (keeps_ignored (p.commits c))
    exact Keeps.seq (later_set fun _ => rfl) later_enters

theorem later_phrase (env : Env) (msg : Bytes) :
    Keeps (Later n) (fun _ => True) (receivePassphrase env c msg) Any := by
  have p := later_permits env n
  have r := p.reports (d := c) trivial
  have refuses {t : Text} :
      Keeps (Later n) (fun _ => True) (queue c t >>= fun _ => setClose c) Any :=
    Keeps.seq (r.said (sound_lax id)) r.closes
  apply Keeps.bind (keeps_session c)
  intro s _
  apply Keeps.branch
  · apply Keeps.bind (p.hashes msg)
    intro hashed _
    cases hashed with
    | none => exact refuses
    | some hash => exact Keeps.seq (later_set fun _ => rfl) (later_passes env)
  · exact Keeps.branch (later_passes env) refuses

theorem later_dispatch (env : Env) (line : Bytes) :
    Keeps (Later n) (fun _ => True) (dispatch env c line) Any := by
  have p := later_permits env n
  have r := p.reports (d := c) trivial
  have tells {t : Text} : Keeps (Later n) (fun _ => True) (queue c t) Any := r.said (sound_lax id)
  apply Keeps.bind (keeps_session c)
  intro s _
  cases s.state with
  | name =>
    apply Keeps.branch _ tells
    refine Keeps.seq (later_set fun _ => rfl) ?_
    exact Keeps.branch (Keeps.seq (later_set fun _ => rfl) tells) (later_checks env)
  | token =>
    apply Keeps.branch
    · exact Keeps.seq (later_set fun _ => rfl) (later_checks env)
    · exact Keeps.seq tells r.closes
  | passphrase => exact later_phrase env _
  | race =>
    unfold receiveRace
    cases raceChosen line with
    | none => exact Keeps.seq tells tells
    | some race =>
      exact Keeps.seq (later_set fun _ => rfl) (Keeps.seq (later_set fun _ => rfl) later_begins)
  | play =>
    exact p.command_kept trivial trivial (fun arm _ _ => arm.within_all) (fair_lax _)
      fun _ _ _ => trivial

theorem later_handles (env : Env) (e : Event) :
    Keeps (Later n) (fun _ => True) (handle env e) Any := by
  have p := later_permits env n
  cases e with
  | connect c wsi =>
    have r := p.reports (d := c) trivial
    exact Keeps.seq (later_set fun _ => rfl) (r.said (sound_lax id))
  | message c text =>
    have r := p.reports (d := c) trivial
    apply Keeps.branch (r.said (sound_lax id))
    exact Keeps.seq (later_set fun _ => rfl) (later_dispatch env _)
  | writable c =>
    have closes : Keeps (Later n) (fun _ => True) (maybeClose c) Any :=
      Keeps.bind (keeps_session c) fun _ _ => keeps_when (later_set fun _ => rfl)
    apply Keeps.bind (keeps_session c)
    intro s _
    apply Keeps.branch closes
    apply Keeps.bind (R := Any)
      (Keeps.bind (p.asks_any fun i => env.lwsWrite i s.outbox.length)
        fun _ _ => Keeps.pure trivial)
    intro wrote _
    exact Keeps.seq (keeps_when (later_set fun _ => rfl)) closes
  | close c =>
    apply Keeps.bind (keeps_session c)
    intro s _
    apply Keeps.seq
    · apply keeps_when
      apply Keeps.seq (keeps_ignored (p.commits c))
      exact Keeps.seq (p.saves trivial) (later_set fun g => later_unregistered g c)
    · exact Keeps.seq (later_set fun _ => rfl) (later_set fun _ => rfl)
  | tick =>
    exact p.timer_kept (fun _ _ => trivial) (fun _ _ => trivial)
      (fun _ _ => trivial) trivial trivial

theorem step_later {e : Event} (taken : step env g e = .ok g') : g.asked ≤ g'.asked := by
  unfold step at taken
  split at taken
  · exact ((later_handles env e).result (Nat.le_refl g.asked) (map_ok taken)).1
  · cases taken
    exact Nat.le_refl _

end Order

end HollowGrid
