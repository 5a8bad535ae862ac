import HollowGrid.Lineage
import HollowGrid.Swings

/-! Where a character may be. A player goes by the exits of the rooms, or is sent back to the
nexus, and no one is ever outside the room table. -/
namespace HollowGrid

/-- Where one event may take the player at c: nowhere, by an exit on a line of its own, by the
stairs, to the nexus by a recall of its own, or there in a beat of its fight. -/
inductive Goes (g : Server) (c : Block) (e : Event) : Int → Prop
  | stays : Goes g c e (g.blocks c).room
  | exits {line : Bytes} {there : Int} : Delivered g e c line →
      roomMove (g.blocks c).room (heading line) = .there there → Goes g c e there
  | stairs {line way : Bytes} {arm : Arm} {arg : Ptr} {there : Int} : Delivered g e c line →
      parse line = some (arm, arg) → (arm = .down ∧ way = str "down" ∨ arm = .up ∧ way = str "up") →
      roomMove (g.blocks c).room way = .there there → Goes g c e there
  | recalls {line : Bytes} {arg : Ptr} : Delivered g e c line → parse line = some (.recall, arg) →
      Goes g c e roomNexus
  | dies : e = .tick → (g.blocks c).inCombat = true → Goes g c e roomNexus

def Roams (a b : Character) : Prop := b.room = a.room ∨ (room? b.room).isSome

def SentHome (a b : Character) : Prop := b.room = a.room ∨ b.room = roomNexus

theorem roams_ordered : Ordered Roams where
  self := fun _ => .inl rfl
  trans := by
    rintro a b c first (same | there)
    · rw [Roams, same]
      exact first
    · exact .inr there

theorem home_ordered : Ordered SentHome where
  self := fun _ => .inl rfl
  trans := by
    rintro a b c first (same | home)
    · rw [SentHome, same]
      exact first
    · exact .inr home

variable {env : Env} {g g' : Server} {c : Block}

def offPlace (_ : Block) (q : Part) : Prop := q ≠ .place

theorem roams_permits (env : Env) (g : Server) : Permits False env (fun _ => True)
    (fun _ => True) offPlace (fun _ => True) (Since Roams env g) :=
  since_permits roams_ordered env g fun _ _ spares ch => by
    have same := congrArg Character.room (spares .place (by simp [offPlace]) ch)
    exact .inl same

theorem home_permits (env : Env) (g : Server) : Permits False env (fun _ => True)
    (fun _ => True) offPlace (fun _ => True) (Since SentHome env g) :=
  since_permits home_ordered env g fun _ _ spares ch => by
    have same := congrArg Character.room (spares .place (by simp [offPlace]) ch)
    exact .inl same

/-- What is said of the room of c outlasts every write that leaves it alone. -/
theorem place_last (env : Env) (c : Block) (room : Int) :
    Permits False env (fun _ => True) (fun _ => True) offPlace (fun _ => True)
      fun g => (g.blocks c).room = room :=
  lasting_permits env fun _ _ framed held =>
    (framed.room (by simp [offPlace])).trans held

section Commands

theorem move_goes (there : Int) : Leads (· = g) (fun _ => True) (moveTo c there) fun _ g' =>
    (g'.blocks c).room = there := by
  apply Leads.seq (M := fun g' => (g'.blocks c).room = there)
  · apply Leads.modify
    rintro _ rfl
    rw [Server.updated, Server.setBlock_own]
  · exact Leads.stays ((place_last quietNode c there).reports trivial).scene_now

theorem recall_goes : Leads (· = g) (fun _ => True) (cmdRecall c) fun _ g' =>
    (g'.blocks c).room = roomNexus := by
  apply Leads.seq (M := fun g' => (g'.blocks c).room = roomNexus)
  · apply Leads.modify
    rintro _ rfl
    rw [Server.updated, Server.setBlock_own]
  · exact Leads.stays ((place_last quietNode c roomNexus).reports trivial).scene_now

theorem stairs_go (here there : Int) : Leads (· = g) (fun _ => True) (stairs c here there) fun _ g' =>
    (g'.blocks c).room = (g.blocks c).room ∨
      ((g.blocks c).room = here ∧ (g'.blocks c).room = there) := by
  apply Leads.reads (rfl : session c g = .ok (g.blocks c, g))
  apply Leads.ite
  · intro at_stairs
    exact Leads.weaken (move_goes there) fun _ _ went => .inr ⟨at_stairs, went⟩
  · intro _
    have r := (place_last quietNode c (g.blocks c).room).reports (d := c) trivial
    apply Leads.weaken (Leads.start (P := fun g' => (g'.blocks c).room = (g.blocks c).room) rfl
      (Leads.stays r.cant_move_kept))
    exact fun _ _ same => .inl same

theorem arm_places {arm : Arm} (moves : Part.place ∈ arm.writes) :
    arm = .recall ∨ arm = .down ∨ arm = .up := by
  cases arm <;> first | decide | simp [Arm.writes] at moves

theorem spares_place {arm : Arm} (stays : Part.place ∉ arm.writes) :
    arm.Within c (fun _ => True) offPlace fun _ => True := by
  refine ⟨fun q wrote => ?_, fun q reached d _ => ?_, fun _ _ => trivial⟩
  · rintro rfl
    exact stays wrote
  · rintro rfl
    cases reaches_shared arm .place reached

/-- Where a line of its own may take a player. -/
theorem spoken_goes {h : Server} {e : Event} {line : Bytes} {m : Act Unit}
    (given : Delivered h e c line) (here : (g.blocks c).room = (h.blocks c).room)
    (said : Spoken env c line g m) (ended : m g = .ok ((), g')) :
    Goes h c e (g'.blocks c).room := by
  have p := place_last env c (h.blocks c).room
  have still {same : Server} (stays : (same.blocks c).room = (h.blocks c).room) :
      Goes h c e (same.blocks c).room := stays ▸ .stays
  cases said with
  | shows quiet => exact still ((quiet _ _ (p.reports trivial)).result here ended).1
  | walks moved =>
    rw [(move_goes _).result rfl ended]
    exact .exits given (here ▸ moved)
  | @runs arm arg _ parsed =>
    have climbs {way : Bytes} {low high : Int} (ended : stairs c low high g = .ok ((), g'))
        (named : arm = .down ∧ way = str "down" ∨ arm = .up ∧ way = str "up")
        (leads : roomMove low way = .there high) : Goes h c e (g'.blocks c).room := by
      rcases (stairs_go low high).result rfl ended with same | ⟨at_stairs, went⟩
      · exact still (same.trans here)
      · rw [went]
        exact .stairs given parsed named (here ▸ at_stairs ▸ leads)
    by_cases moves : Part.place ∈ arm.writes
    · rcases arm_places moves with rfl | rfl | rfl
      · rw [recall_goes.result rfl ended]
        exact .recalls given parsed
      · exact climbs ended (.inl ⟨rfl, rfl⟩) (by decide)
      · exact climbs ended (.inr ⟨rfl, rfl⟩) (by decide)
    · have kept : Keeps (fun g' => (g'.blocks c).room = (h.blocks c).room) (fun _ => True)
          (exec env c arg arm) Any :=
        p.exec_kept trivial (spares_place moves) (fun b _ => clean_lax b) nofun nofun
          fun _ _ => trivial
      exact still (kept.result here ended).1

/-- A write of a room of the table. -/
theorem step_roams {f : Character → Character} (there : ∀ ch, (room? (f ch).room).isSome) :
    Keeps (Since Roams env g) (fun _ => True) (update c f) Any :=
  since_update roams_ordered fun ch _ => .inr (there ch)

theorem move_roams {there : Int} (known : (room? there).isSome) :
    Keeps (Since Roams env g) (fun _ => True) (moveTo c there) Any :=
  Keeps.seq (step_roams fun _ => known) ((roams_permits env g).reports trivial).scene_now

theorem arms_roam (arm : Arm) (arg : Ptr) :
    Keeps (Since Roams env g) (fun _ => True) (exec env c arg arm) Any := by
  have p := roams_permits env g
  have r := p.reports (d := c) trivial
  by_cases moves : Part.place ∈ arm.writes
  · rcases arm_places moves with rfl | rfl | rfl
    · exact Keeps.seq (step_roams fun _ => rfl) r.scene_now
    · exact Keeps.bind (p.reads c) fun s _ => Keeps.branch (move_roams rfl) r.cant_move_kept
    · exact Keeps.bind (p.reads c) fun s _ => Keeps.branch (move_roams rfl) r.cant_move_kept
  · exact p.exec_kept trivial (spares_place moves) (fun b _ => clean_lax b) nofun nofun
      fun _ _ => trivial

/-- A line of a player, whatever it comes to. -/
theorem spoken_roams {line : Bytes} {m : Act Unit} (said : Spoken env c line g m)
    (ended : m g = .ok ((), g')) : Since Roams env g g' := by
  have p := roams_permits env g
  have start := since_start roams_ordered env g
  cases said with
  | shows quiet => exact ((quiet _ _ (p.reports trivial)).result start ended).1
  | walks moved => exact ((move_roams (move_in_table _ _ _ moved)).result start ended).1
  | runs => exact ((arms_roam _ _).result start ended).1

end Commands

section Beats

theorem died_home : Keeps (Since SentHome env g) (fun _ => True) (playerDied env c) Any := by
  have p := home_permits env g
  have r := p.reports (d := c) trivial
  refine Keeps.bind (p.reads c) fun s _ => Keeps.seq (p.deaths (clean_lax _) (clean_lax _)) ?_
  refine Keeps.seq (since_update home_ordered fun _ _ => .inr rfl) (Keeps.seq (p.calm_kept trivial nofun) ?_)
  refine Keeps.seq (r.said (sound_lax id)) (Keeps.seq (r.said (sound_lax id)) ?_)
  exact Keeps.seq (r.said (sound_lax id)) (Keeps.seq r.vitals r.scene_now)

theorem round_home : Keeps (Since SentHome env g) (fun _ => True) (combatRound env c) Any := by
  have p := home_permits env g
  have r := p.reports (d := c) trivial
  refine Keeps.bind (p.reads c) fun s _ => Keeps.bind keeps_world fun w _ => ?_
  refine Keeps.branch (Keeps.pure trivial) (Keeps.branch ?_ ?_)
  · refine Keeps.bind (p.reads c) fun s _ => Keeps.bind keeps_world fun w _ => ?_
    refine Keeps.seq (p.on_world _ fun _ shut => absurd trivial shut) ?_
    refine Keeps.seq (since_update home_ordered fun _ _ => Or.inl rfl) ?_
    refine Keeps.seq (r.said (sound_lax id)) (Keeps.branch ?_ (Keeps.branch died_home r.vitals))
    exact p.rat_killed_kept trivial nofun trivial
  · exact Keeps.seq (p.calm_kept trivial nofun) (Keeps.seq (r.said (sound_lax id)) r.vitals)

theorem pulse_home (now : Int) :
    Keeps (Since SentHome env g) (fun _ => True) (sessionPulse env c now) Any := by
  have p := home_permits env g
  refine Keeps.bind Keeps.get fun g₁ _ => Keeps.branch (Keeps.pure trivial) ?_
  cases g₁.socketOf c with
  | none => exact Keeps.pure trivial
  | some wsi =>
    refine Keeps.seq (p.sockets trivial wsi) (Keeps.bind (p.reads c) fun s _ => ?_)
    refine Keeps.branch (p.arm_kept trivial nofun _) (Keeps.branch (Keeps.pure trivial) ?_)
    exact Keeps.seq (p.arm_kept trivial nofun _) round_home

theorem beat_home (ended : tickService env g = .ok ((), g')) : Since SentHome env g g' := by
  have p := home_permits env g
  have kept : Keeps (Since SentHome env g) (fun _ => True) (tickService env) Any := by
    refine Keeps.bind p.times fun now _ => Keeps.seq ?_ (p.federation_kept now)
    refine Keeps.bind p.in_table fun blocks _ => Keeps.seq ?_ (Keeps.seq ?_ ?_)
    · exact Keeps.for_each fun d _ => pulse_home now
    · refine Keeps.bind keeps_world fun w _ => Keeps.branch (Keeps.pure trivial) ?_
      refine Keeps.seq (p.on_world _ fun _ shut => absurd trivial shut) ?_
      refine Keeps.bind p.in_table fun blocks _ => Keeps.for_each fun d _ => ?_
      exact p.tick_session_kept trivial (by simp [offPlace])
    · exact p.on_world _ fun _ shut => absurd trivial shut
  exact (kept.result (since_start home_ordered env g) ended).1

theorem home_roams (home : Since SentHome env g g') : Since Roams env g g' := by
  have onward {a b : Character} (sent : SentHome a b) : Roams a b := by
    rcases sent with same | home
    · exact .inl same
    · exact .inr (home ▸ rfl)
  refine ⟨fun d => onward (home.blocks d), fun key file there => ?_⟩
  rcases home.files key file there with old | torn | ⟨d, s, sent, wrote⟩
  · exact .inl old
  · exact .inr (.inl torn)
  · exact .inr (.inr ⟨d, s, onward sent, wrote⟩)

def Rooted (c : Block) (room : Int) (g : Server) : Prop := AtPeace c g ∧ (g.blocks c).room = room

/-- A beat sends home at most, and nobody who is at peace. -/
theorem beat_goes (ended : tickService env g = .ok ((), g')) :
    (g'.blocks c).room = (g.blocks c).room ∨
      ((g.blocks c).inCombat = true ∧ (g'.blocks c).room = roomNexus) := by
  cases fights : (g.blocks c).inCombat with
  | true =>
    rcases (beat_home ended).blocks c with same | home
    · exact .inl same
    · exact .inr ⟨rfl, home⟩
  | false =>
    have p : Permits False env (fun _ => True) (fun _ => True)
        (fun d q => d ≠ c ∨ (q ≠ .fight ∧ q ≠ .place)) (fun _ => True)
        (Rooted c (g.blocks c).room) :=
      lasting_permits env fun g₁ g₂ framed rooted =>
        ⟨(congrArg Fight.inCombat (framed.fights c (by simp))).trans rooted.1,
          (framed.room (by simp)).trans rooted.2⟩
    have kept := peaceful_beat p (fun _ other _ => .inl other) (.inr ⟨by decide, by decide⟩)
      trivial trivial fun _ rooted => rooted.1
    exact .inl (kept.result ⟨fights, rfl⟩ ended).1.2

end Beats

section Runs

variable {e : Event}

/-- A character is in a room of the table. -/
def Housed (ch : Character) : Prop := (room? ch.room).isSome

theorem roams_housed {a b : Character} (roams : Roams a b) (housed : Housed a) : Housed b := by
  rcases roams with same | there
  · rw [Housed, same]
    exact housed
  · exact there

/-- A room of the table is stored as it is. -/
theorem housed_settles {ch : Character} (housed : Housed ch) : Housed (settle ch) := by
  have there : (if 0 ≤ ch.room then rooms[ch.room.toNat]? else none).isSome := housed
  split at there
  · have inside : ch.room.toNat < rooms.length := by
      rw [Option.isSome_iff_ne_none] at there
      exact not_le.mp fun past => there (List.getElem?_eq_none past)
    have few : rooms.length = 28 := rfl
    have exact_room : Exact ch.room := by
      unfold Exact
      omega
    change (room? (truncate (toDouble ch.room))).isSome
    rw [number_back exact_room]
    exact housed
  · cases there

def AtNexus (ch : Character) : Prop := ch.room = roomNexus

theorem rooms_upheld (env : Env) : Upheld env Roams Housed AtNexus where
  ordered := roams_ordered
  kept := fun _ _ => roams_housed
  early := fun ch here => by
    rw [Housed, here]
    rfl
  blank := rfl
  arrives := rfl
  raced := fun ch race here => by
    change (room? ch.room).isSome
    rw [here]
    rfl
  loaded := fun root ch here housed => by
    change (room? (jsonNumber root (str "roomIndex") ch.room)).isSome
    rw [here]
    exact housed
  settled := fun _ => housed_settles
  fetched := fun _ _ _ housed => housed
  spoken := fun _ _ _ _ _ => spoken_roams
  beats := fun _ _ ended => home_roams (beat_home ended)

/-- One event takes someone in play by one way at most. -/
theorem event_goes (taken : step env g e = .ok g') (there : g.socket c ≠ none)
    (playing : (g.blocks c).state = .play) : Goes g c e (g'.blocks c).room := by
  have still (same : (g'.blocks c).room = (g.blocks c).room) : Goes g c e (g'.blocks c).room :=
    same ▸ .stays
  cases step_course taken with
  | @fresh d wsi _ empty same =>
    have other : c ≠ d := fun own => there (own ▸ empty)
    apply still
    rw [same, opened_other g wsi other]
  | @login d text s' disk' _ _ away _ _ others =>
    have other : c ≠ d := fun own => away (own ▸ playing)
    apply still
    rw [others c other]
  | @command d line wsi m given _ said ended =>
    have heard : Idle g (g.setWsi d wsi) := idle_block rfl rfl rfl rfl
    have here (b : Block) : ((g.setWsi d wsi).blocks b).room = (g.blocks b).room :=
      congrArg Character.room (heard.character b)
    by_cases own : c = d
    · subst own
      exact spoken_goes given (here c) said ended
    · have framed := others_framed said ended
      exact still ((framed.room (by simp [around, own, Part.shared])).trans (here c))
  | beat tick _ ended =>
    rcases beat_goes (c := c) ended with same | ⟨fights, home⟩
    · exact still same
    · rw [home]
      exact .dies tick fights
  | quiet idle => exact still (congrArg Character.room (idle.character c))

/-- In every run on a disk that tears no file, whatever a hub answers, every session and every
file is in a room of the table; and each event takes a player by one way at most. -/
theorem rooms_walked (env : Env) (disk : Disk) (before : List Event) (g : Server)
    (dependable : Dependable env) (files : FitFiles Housed disk)
    (reached : Machine.Reaches (step env) (boot env disk) before g) :
    (∀ c, (room? (g.blocks c).room).isSome) ∧ FitFiles Housed g.disk ∧
    ∀ c e g', g.socket c ≠ none → (g.blocks c).state = .play → step env g e = .ok g' →
      Goes g c e (g'.blocks c).room := by
  have fits := fit_run (rooms_upheld env) dependable files reached
  exact ⟨fun c => (fits.sessions c).fit, fits.files,
    fun c e g' there playing taken => event_goes taken there playing⟩

/-- ada goes down the stairs. -/
theorem rooms_walked_ada : ∃ g g', Machine.Reaches (step quietNode) (boot quietNode sharedDisk)
      (returns 0 (str "ada")) g ∧ step quietNode g (.message 0 (str "down")) = .ok g' ∧
    (g'.blocks 0).room = roomTunnels ∧
    Goes g 0 (.message 0 (str "down")) (g'.blocks 0).room := by
  obtain ⟨g', reached, shown⟩ := Machine.ends_reaches (step quietNode) (boot quietNode sharedDisk)
    (returns 0 (str "ada") ++ [.message 0 (str "down")])
    (fun g => decide ((g.blocks 0).room = roomTunnels)) (by decide +kernel)
  obtain ⟨g, again, came⟩ := Machine.ends_reaches (step quietNode) (boot quietNode sharedDisk)
    (returns 0 (str "ada"))
    (fun g => decide (g.socket 0 ≠ none ∧ (g.blocks 0).state = .play)) (by decide +kernel)
  obtain ⟨h, front, taken⟩ := Machine.reaches_snoc_cases _ _ _ _ _ reached
  cases again.symm.trans front
  obtain ⟨there, playing⟩ := of_decide_eq_true came
  have files : FitFiles Housed sharedDisk := by
    rintro key root ⟨⟩
    rfl
  exact ⟨g, g', front, taken, of_decide_eq_true shown,
    (rooms_walked quietNode sharedDisk (returns 0 (str "ada")) g
      ⟨fun _ => .inl rfl, fun _ => .inl rfl⟩ files front).2.2 0 _ g' there playing taken⟩

end Runs

end HollowGrid
