import HollowGrid.Hours
import HollowGrid.Swings

/-! The phase of the world.state events over whole runs. A scene says day at every tick, so the
phases agree in the runs that show their scenes by day. -/
namespace HollowGrid

def asksScene (g : Server) (c : Block) (line : Bytes) : Bool :=
  sameFold line (str "look") || sameFold line (str "l") ||
    (!startsFold (str "look ") line &&
      match roomMove (g.blocks c).room (heading line) with
      | .there _ => true
      | .noExit => false
      | .unknown =>
        match parse line with
        | some (.recall, _) => true
        | some (.down, _) => decide ((g.blocks c).room = roomNexus)
        | some (.up, _) => decide ((g.blocks c).room = roomTunnels)
        | _ => false)

def admits (env : Env) (g : Server) (c : Block) (phrase : Bytes) : Bool :=
  if (g.blocks c).secretHash = [] then
    phraseOk phrase && ((env.salt g.asked).bind (cryptHash env phrase)).any fun hash =>
      decide (hash.length < 72)
  else verifyPassphrase env phrase (g.blocks c).secretHash

/-- The round of c's next pulse is its death. -/
def fallsAt (g : Server) (c : Block) (now : Int) : Bool :=
  strikes g c now && decide ((g.blocks c).target ≠ 0) && g.world.ratAlive &&
    decide (0 < g.world.ratHp - playerDamage (g.blocks c)) && decide ((g.blocks c).hp ≤ 4)

def fallsIn (env : Env) (now : Int) : List Block → Server → Bool
  | [], _ => false
  | c :: rest, g =>
    fallsAt g c now ||
      match sessionPulse env c now g with
      | .ok (_, next) => fallsIn env now rest next
      | .error _ => false

def showsScene (env : Env) (g : Server) : Event → Bool
  | .message c text =>
    (Event.message c text).valid g && decide (text.length ≤ 255) &&
      match (g.blocks c).state with
      | .play => asksScene g c (cstr (trimmed text))
      | .passphrase => admits env g c (cstr (trimmed text))
      | _ => false
  | .tick =>
    fallsIn env (beatAt env g) (g.sessionTable.filterMap id) { g with asked := g.asked + 1 }
  | _ => false

/-- The tick is one of those a scene's phase is right for. -/
def SceneByDay (env : Env) (g : Server) (e : Event) : Prop :=
  showsScene env g e = true → g.world.tick % 4 = 0

variable {tick : Int} {env : Env} {c : Block} {g g' : Server}

section Lines

theorem honest_move (day : tick % 4 = 0) (room : Int) : Honest tick (moveTo c room) :=
  Keeps.seq (honest_update _) (honest_scene_now day)

theorem honest_recall (day : tick % 4 = 0) : Honest tick (cmdRecall c) :=
  Keeps.seq (honest_update _) (honest_scene_now day)

def Arm.moves : Arm → Bool
  | .recall | .down | .up => true
  | _ => false

theorem honest_exec {arm : Arm} (arg : Ptr) (stays : arm.moves = false) :
    Honest tick (exec env c arg arm) := by
  cases arm with
  | wield => exact honest_wield arg
  | remove => exact honest_remove arg
  | attack => exact honest_attack arg
  | consider => exact honest_consider arg
  | exits => exact honest_exits
  | sleep => exact honest_sleep
  | stand => exact honest_stand
  | rest => exact honest_rest
  | talk => exact honest_talk
  | buy => exact honest_buy arg
  | wall => exact honest_wall arg
  | tell => exact honest_tell_line _
  | reply => exact honest_reply arg
  | yell => exact honest_yell arg
  | emote => exact honest_emote arg
  | mend => exact honest_mend arg
  | give => exact honest_give arg
  | gridcast => exact honest_gridcast arg
  | list => exact honest_list
  | war => exact honest_war
  | shelter => exact honest_shelter
  | saved => exact honest_saved_now
  | cache => exact honest_cache arg
  | gather => exact honest_gather
  | treat => exact honest_treat
  | sell => exact honest_sell arg
  | steal => exact honest_steal
  | sense => exact honest_menu_now
  | forgive => exact honest_forgive arg
  | join => exact honest_join
  | defend => exact honest_defend
  | defy => exact honest_defy
  | witness => exact honest_witness arg
  | reckoning => exact honest_reckoning
  | gridstats => exact honest_gridstats
  | gridprune => exact honest_gridprune
  | ping => exact honest_ping arg
  | world => exact honest_sky
  | listen => exact honest_listen
  | whoami => exact honest_whoami
  | worlds => exact honest_worlds
  | travel => exact honest_travel arg
  | title => exact honest_title arg
  | who => exact honest_who_now
  | free => exact honest_free
  | affects => exact honest_all_clear
  | inscribe => exact honest_inscribe arg
  | help => exact honest_help
  | inventory => exact honest_inventory
  | equipment => exact honest_equipment
  | ability => exact honest_ability
  | quit => exact honest_quit
  | _ => cases stays

abbrev StaysIn (tick : Int) (g : Server) (m : Act Unit) : Prop :=
  Leads (· = g) (fun _ => True) m fun _ => InPhase tick

theorem honest_stays {m : Act Unit} (inside : InPhase tick g) (honest : Honest tick m) :
    StaysIn tick g m :=
  Leads.start inside (Leads.stays honest)

theorem stairs_stays (inside : InPhase tick g) (here there : Int)
    (day : (g.blocks c).room = here → tick % 4 = 0) : StaysIn tick g (stairs c here there) := by
  refine Leads.reads (a := g.blocks c) rfl (Leads.ite (fun stands => ?_) fun _ => ?_)
  · exact honest_stays inside (honest_move (day stands) there)
  · exact honest_stays inside honest_no_way

theorem command_stays {line : Bytes} (inside : InPhase tick g)
    (day : asksScene g c line = true → tick % 4 = 0) :
    StaysIn tick g (worldCommand env c line) := by
  refine Leads.ite (fun looks => ?_) fun others => Leads.ite (fun _ => ?_) fun away => ?_
  · refine honest_stays inside (honest_scene_now (day ?_))
    simpa [asksScene] using .inl looks
  · exact honest_stays inside (honest_look_at _)
  refine Leads.reads (a := g.blocks c) rfl ?_
  have tame : startsFold (str "look ") line = false := by simpa using away
  have plain : sameFold line (str "look") = false ∧ sameFold line (str "l") = false := by
    simpa using others
  cases moved : roomMove (g.blocks c).room (heading line) with
  | there room =>
    exact honest_stays inside (honest_move (day (by simp [asksScene, tame, moved])) room)
  | noExit => exact honest_stays inside honest_no_way
  | unknown =>
    unfold notMovement
    cases parsed : parse line with
    | none => exact honest_stays inside honest_unknown
    | some found =>
      obtain ⟨arm, arg⟩ := found
      have asks : asksScene g c line = (match some (arm, arg) with
          | some (.recall, _) => true
          | some (.down, _) => decide ((g.blocks c).room = roomNexus)
          | some (.up, _) => decide ((g.blocks c).room = roomTunnels)
          | _ => false) := by
        simp [asksScene, tame, plain, moved, parsed]
      rw [asks] at day
      cases arm with
      | «recall» => exact honest_stays inside (honest_recall (day rfl))
      | down => exact stairs_stays inside _ _ fun here => day (by simpa using here)
      | up => exact stairs_stays inside _ _ fun here => day (by simpa using here)
      | _ => exact honest_stays inside (honest_exec arg rfl)

end Lines

section Logins

theorem honest_begins : Honest tick (beginPassphrase c) := by
  refine Keeps.seq (honest_set (f := fun s => { s with state := .passphrase }) fun _ => rfl) ?_
  refine Keeps.bind (keeps_session c) fun s _ => Keeps.branch (honest_text ?_) (honest_text ?_)
  · apply_rules [tame_append, tame_lit, eventless_lit]
  · apply_rules [tame_append, tame_lit, eventless_lit]

theorem honest_resumes : Honest tick (resumeToPassphrase c) :=
  Keeps.seq (honest_set (f := fun s => { s with resume := true }) fun _ => rfl) honest_begins

theorem honest_fetch : Honest tick (gridLoadSession env c) := by
  refine Keeps.bind (keeps_session c) fun s _ => Keeps.branch (honest_pure _) ?_
  refine Keeps.bind ((watches_phase env tick).fetches s.name) fun fetched _ => ?_
  cases fetched with
  | none => exact honest_pure _
  | some row =>
    exact Keeps.branch (honest_pure _) (Keeps.seq (honest_update _) (honest_pure _))

theorem honest_file (file : File) : Honest tick (loadFile c file) := by
  cases file with
  | unreadable => exact honest_pure _
  | json root =>
    exact Keeps.seq (honest_set (f := fun s => s.recalled root) fun _ => rfl) (honest_pure _)

theorem honest_load : Honest tick (storeLoad env c) := by
  refine Keeps.bind (keeps_session c) fun s _ => ?_
  cases characterPath s.name with
  | none => exact honest_pure _
  | some key =>
    refine Keeps.bind (honest_ask env.reading) fun reading _ => Keeps.bind Keeps.get fun g _ => ?_
    cases g.disk key with
    | none => exact honest_pure _
    | some file =>
      cases reading with
      | openFails => exact honest_pure _
      | readFails => exact honest_pure _
      | whole => exact honest_file file
      | short seen => exact honest_file seen

theorem tame_races : Tame raceMenu := by
  unfold raceMenu
  apply_rules [tame_append, tame_lit]
  all_goals apply_rules [eventless_lit]

theorem honest_checked : Honest tick (afterAdminCheck env c) := by
  refine Keeps.bind honest_load fun stored _ => ?_
  cases stored with
  | applied =>
    exact Keeps.bind honest_fetch fun hub _ => Keeps.seq (keeps_when honest_commit) honest_resumes
  | failed =>
    refine honest_text ?_
    apply_rules [tame_append, tame_lit, eventless_lit]
  | nothing =>
    refine Keeps.bind honest_fetch fun hub _ => Keeps.branch ?_ ?_
    · exact Keeps.seq honest_save honest_resumes
    · refine Keeps.seq (honest_set (f := fun s => { s with state := .race }) fun _ => rfl) ?_
      exact honest_text tame_races

theorem honest_name (line : Bytes) : Honest tick (receiveName env c line) := by
  refine Keeps.branch (Keeps.seq ?_ (Keeps.branch ?_ honest_checked)) (honest_text ?_)
  · exact honest_set (f := fun s => { s with name := line }) fun _ => rfl
  · refine Keeps.seq (honest_set (f := fun s => { s with state := .token }) fun _ => rfl) ?_
    refine honest_text ?_
    apply_rules [tame_append, tame_lit, eventless_lit]
  · apply_rules [tame_append, tame_lit, eventless_lit]

theorem honest_token (msg : Bytes) : Honest tick (receiveToken env c msg) := by
  refine Keeps.branch (Keeps.seq ?_ honest_checked) (Keeps.seq (honest_text ?_) honest_close)
  · exact honest_set (f := fun s => { s with keeperAuthed := true }) fun _ => rfl
  · apply_rules [tame_append, tame_lit, eventless_lit]

theorem honest_race (line : Bytes) : Honest tick (receiveRace c line) := by
  unfold receiveRace
  cases raceChosen line with
  | none =>
    refine Keeps.seq (honest_text ?_) (honest_text tame_races)
    apply_rules [tame_append, tame_lit, eventless_lit]
  | some race =>
    refine Keeps.seq (honest_update _) (Keeps.seq ?_ honest_begins)
    exact honest_set (f := fun s => { s with resume := false }) fun _ => rfl

theorem in_phase_registered (inside : InPhase tick g) (wsi : Wsi) :
    InPhase tick (g.registered c wsi) := by
  obtain ⟨table, sockets, count, same⟩ := registered_tables g c wsi
  rw [same]
  exact
    { in_phase_block (c := c) (s := { g.blocks c with wsi := wsi }) inside (inside.outbox c) with }

theorem honest_enters (day : tick % 4 = 0) {greeting : Text} (tame : Tame greeting) :
    Honest tick (enterPlay c greeting) := by
  refine Keeps.seq (honest_text tame) (Keeps.seq (honest_scene_now day) ?_)
  exact Keeps.modify fun g inside => in_phase_registered inside _

theorem honest_passes (day : tick % 4 = 0) : Honest tick (passphraseOk env c) := by
  have plays : Honest tick (setState c .play) :=
    honest_set (f := fun s => { s with state := .play }) fun _ => rfl
  refine Keeps.bind (keeps_session c) fun s _ => Keeps.branch ?_ ?_
  · refine Keeps.seq plays (Keeps.seq honest_save (honest_enters day ?_))
    apply_rules [tame_append, tame_lit, eventless_lit]
  · refine Keeps.seq honest_save (Keeps.seq honest_commit (Keeps.seq plays (honest_enters day ?_)))
    apply_rules [tame_append, tame_lit, eventless_lit]

theorem hash_run (phrase : Bytes) (g : Server) {hash : Bytes} {g' : Server}
    (made : hashPassphrase env phrase g = .ok (some hash, g')) : phraseOk phrase = true ∧
      (((env.salt g.asked).bind (cryptHash env phrase)).any fun hash =>
        decide (hash.length < 72)) = true := by
  unfold hashPassphrase at made
  split at made
  · rename_i long
    rw [bind_ok (rfl : ask env.salt g = .ok (env.salt g.asked, { g with asked := g.asked + 1 }))]
      at made
    have result := congrArg Prod.fst (Except.ok.inj made)
    simp only [Option.bind_eq_some_iff, Option.ite_none_left_eq_some] at result
    obtain ⟨made, crypted, short, same⟩ := result
    obtain rfl := Option.some.inj same
    refine ⟨long, ?_⟩
    rw [Option.bind_eq_some_iff.mpr crypted, Option.any_some]
    exact decide_eq_true (Nat.lt_of_not_le short)
  · cases made

theorem phrase_stays {phrase : Bytes} (inside : InPhase tick g)
    (day : admits env g c phrase = true → tick % 4 = 0) :
    StaysIn tick g (receivePassphrase env c phrase) := by
  refine Leads.reads (a := g.blocks c) rfl (Leads.ite (fun unset => ?_) fun hashed => ?_)
  · have runs : Leads (· = g) (fun _ => True) (hashPassphrase env phrase) fun hash g' =>
        hashPassphrase env phrase g = .ok (hash, g') := Leads.runs _ _
    refine Leads.bind runs fun hashed s made => ?_
    have kept : Honest tick (hashPassphrase env phrase) :=
      honest_any ((watches_phase env tick).hashes phrase)
    have still := (kept.result inside made).1
    cases hashed with
    | none =>
      have short : Honest tick (passphraseTooShort c) := by
        refine Keeps.seq (honest_text ?_) honest_close
        apply_rules [tame_append, tame_lit, eventless_lit]
      exact honest_stays still short s rfl
    | some hash =>
      obtain ⟨long, crypted⟩ := hash_run phrase g made
      have noon := day (by rw [admits, if_pos unset, long, crypted]; rfl)
      have set : Honest tick (setHash c hash) :=
        honest_set (f := fun s => { s with secretHash := hash }) fun _ => rfl
      exact honest_stays still (Keeps.seq set (honest_passes noon)) s rfl
  · refine Leads.ite (fun proved => ?_) fun _ => ?_
    · exact honest_stays inside (honest_passes (day (by rw [admits, if_neg hashed]; exact proved)))
    · refine honest_stays inside (Keeps.seq (honest_text ?_) honest_close)
      apply_rules [tame_append, tame_lit, eventless_lit]

theorem dispatch_stays {line : Bytes} (inside : InPhase tick g)
    (plays : (g.blocks c).state = .play → asksScene g c (cstr line) = true → tick % 4 = 0)
    (proves : (g.blocks c).state = .passphrase → admits env g c (cstr line) = true → tick % 4 = 0) :
    StaysIn tick g (dispatch env c line) := by
  refine Leads.reads (a := g.blocks c) rfl ?_
  cases at_state : (g.blocks c).state with
  | name => exact honest_stays inside (honest_name line)
  | token => exact honest_stays inside (honest_token _)
  | passphrase => exact phrase_stays inside (proves at_state)
  | race => exact honest_stays inside (honest_race line)
  | play => exact command_stays inside (plays at_state)

end Logins

section Beats

theorem honest_calls (wsi : Wsi) : Honest tick
    (modifyGet fun g : Server => (PUnit.unit, g.setWsi c wsi) : Act PUnit) :=
  honest_set (f := fun s => { s with wsi := wsi }) fun _ => rfl

theorem honest_died (day : tick % 4 = 0) : Honest tick (playerDied env c) := by
  refine Keeps.bind (keeps_session c) fun s _ => Keeps.seq honest_death ?_
  refine Keeps.seq (honest_update _) (Keeps.seq honest_calm (Keeps.seq (honest_text ?_) ?_))
  · apply_rules [tame_append, tame_lit, eventless_lit]
  refine Keeps.seq (honest_text (tame_char_died _ _)) (Keeps.seq (honest_text ?_) ?_)
  · exact @tame_combat_end ['d', 'i', 'e', 'd'] rfl
  · exact Keeps.seq honest_vitals (honest_scene_now day)

theorem honest_rat_killed : Honest tick (ratKilled env c) := by
  refine Keeps.bind (keeps_session c) fun s _ => Keeps.seq (honest_world fun _ => rfl) ?_
  refine Keeps.bind honest_now fun died _ => Keeps.seq (honest_world fun _ => rfl) ?_
  refine Keeps.seq honest_calm (Keeps.seq (honest_update _) (Keeps.seq ?_ (Keeps.seq ?_ ?_)))
  · exact honest_cut 500 (adds_tame (@tame_combat_end ['k', 'i', 'l', 'l', 'e', 'd'] rfl))
  · refine honest_text ?_
    apply_rules [tame_append, tame_lit, eventless_lit]
  · exact Keeps.seq honest_kill (Keeps.seq honest_vitals honest_save)

theorem round_stays (inside : InPhase tick g)
    (day : (g.blocks c).target ≠ 0 → g.world.ratAlive = true →
      0 < g.world.ratHp - playerDamage (g.blocks c) → (g.blocks c).hp ≤ 4 → tick % 4 = 0) :
    StaysIn tick g (combatRound env c) := by
  refine Leads.reads (a := g.blocks c) rfl (Leads.reads (a := g.world) rfl ?_)
  refine Leads.ite (fun _ => honest_stays inside (honest_pure ())) fun aimed => ?_
  refine Leads.ite (fun alive => ?_) fun _ => ?_
  · refine Leads.reads (a := g.blocks c) rfl (Leads.reads (a := g.world) rfl ?_)
    refine honest_stays inside (Keeps.seq (honest_world fun _ => rfl) (Keeps.seq ?_ ?_))
    · exact honest_update _
    refine Keeps.seq (honest_cut 500 (adds_tame (tame_combat_round _ _ _ _ _))) ?_
    refine Keeps.ite (fun _ => honest_rat_killed) fun left => ?_
    refine Keeps.ite (fun fallen => ?_) fun _ => ?_
    · refine honest_died (day aimed alive (by omega) ?_)
      rw [if_pos (by omega)] at fallen
      omega
    · exact honest_vitals
  · refine honest_stays inside (Keeps.seq honest_calm (Keeps.seq ?_ honest_vitals))
    exact honest_cut 500 (adds_tame (@tame_combat_end ['g', 'o', 'n', 'e'] rfl))

theorem pulse_stays {now : Int} (inside : InPhase tick g)
    (day : fallsAt g c now = true → tick % 4 = 0) : StaysIn tick g (sessionPulse env c now) := by
  refine Leads.reads (a := g) rfl (Leads.ite (fun _ => ?_) fun fighting => ?_)
  · exact honest_stays inside (honest_pure ())
  cases met : g.socketOf c with
  | none => exact honest_stays inside (honest_pure ())
  | some wsi =>
    have called : InPhase tick (g.setWsi c wsi) := in_phase_block inside (inside.outbox c)
    refine Leads.seq (M := (· = g.setWsi c wsi)) (Leads.modify ?_) ?_
    · rintro _ rfl
      rfl
    refine Leads.reads (a := (g.setWsi c wsi).blocks c) rfl ?_
    refine Leads.ite (fun _ => ?_) fun armed => ?_
    · exact honest_stays called (honest_arm _)
    refine Leads.ite (fun _ => honest_stays called (honest_pure ())) fun due => ?_
    -- the round starts from the state the pulse starts from, but for the socket and the clock
    have own : (g.setWsi c wsi).blocks c = { g.blocks c with wsi := wsi } := g.setBlock_own c _
    rw [own] at armed due
    let fight : Fight := { ((g.setWsi c wsi).blocks c).toFight with lastTick := now + combatMs }
    have begun : InPhase tick ((g.setWsi c wsi).fought c fight) :=
      in_phase_block called (called.outbox c)
    refine Leads.seq (M := (· = (g.setWsi c wsi).fought c fight)) ?_ (round_stays begun ?_)
    · rintro _ rfl
      rfl
    · have same : ((g.setWsi c wsi).fought c fight).blocks c =
          { g.blocks c with wsi := wsi, lastTick := now + combatMs } := by
        rw [Server.fought, Server.setBlock_own, own]
        simp only [fight, own]
      rw [same]
      intro aimed alive left weak
      refine day ?_
      have struck : strikes g c now = true := by
        simp only [strikes, met]
        simp_all
      simp only [fallsAt, struck, Bool.and_eq_true, decide_eq_true_eq]
      exact ⟨⟨⟨⟨trivial, aimed⟩, alive⟩, left⟩, weak⟩

theorem pulses_stay {now : Int} (blocks : List Block) (inside : InPhase tick g)
    (day : fallsIn env now blocks g = true → tick % 4 = 0) :
    StaysIn tick g (blocks.forM fun c => sessionPulse env c now) := by
  induction blocks generalizing g with
  | nil => exact honest_stays inside (honest_pure ())
  | cons c rest ih =>
    have first : StaysIn tick g (sessionPulse env c now) :=
      pulse_stays inside fun falls => day (by simp [fallsIn, falls])
    refine Leads.bind (Leads.runs _ g) fun _ g' ran => ?_
    refine ih (first.result rfl ran) (fun falls => day ?_) g' rfl
    simp [fallsIn, ran, falls]

/-- The events of a queue carry the phases of their ticks, and the world is at one of them. -/
def Told (g : Server) : Prop := InPhase g.world.tick g

theorem told_of (inside : InPhase tick g) : Told g := ⟨rfl, inside.outbox⟩

theorem told_keeps {m : Act Unit} (honest : ∀ tick, Honest tick m) :
    Keeps Told (fun _ => True) m Any := by
  refine Leads.kept fun g told => ?_
  have kept := Leads.weaken (Leads.stays (honest g.world.tick)) (fun _ _ => told_of) g told
  exact kept

theorem honest_turn : Honest tick (tickSession c) := by
  refine Keeps.bind Keeps.get fun g _ => ?_
  cases g.socketOf c with
  | none => exact honest_pure ()
  | some wsi =>
    refine Keeps.seq (honest_calls wsi) (Keeps.branch (honest_pure ()) ?_)
    refine Keeps.seq honest_world_state (Keeps.bind (keeps_session c) fun s _ => ?_)
    exact Keeps.branch (Keeps.seq (honest_update _) honest_vitals) (honest_pure ())

theorem gate_told (now : Int) : Leads Told (fun _ => True) (worldGate now) fun _ => Told := by
  refine Leads.after keeps_world fun w _ => Leads.ite (fun _ => Leads.pure fun _ => id) fun _ => ?_
  refine Leads.seq (M := Told) (Leads.modify fun g told => ⟨rfl, told.outbox⟩) ?_
  refine Leads.stays (q := Any) ?_
  refine told_keeps fun tick => ?_
  exact Keeps.bind (R := Any) (fun g inside => ⟨inside, trivial⟩) fun blocks _ =>
    Keeps.for_each fun c _ => honest_turn

theorem respawn_told (now : Int) : Keeps Told (fun _ => True) (respawn now) Any := by
  refine told_keeps fun tick => honest_world fun w => ?_
  split <;> rfl

theorem federation_told (now : Int) :
    Keeps Told (fun _ => True) (gridFederationTick env now) Any := by
  refine told_keeps fun tick => ?_
  refine Keeps.bind (Keeps.branch honest_now (honest_pure _)) fun at_ms _ => ?_
  refine Keeps.bind keeps_world fun w _ => Keeps.branch (honest_pure ()) ?_
  exact Keeps.seq (honest_world fun _ => rfl) (keeps_when (keeps_ignored (honest_call _ _)))

theorem beat_told (told : Told g) (day : SceneByDay env g .tick) :
    Leads (· = g) (fun _ => True) (tickService env) fun _ => Told := by
  have asked : InPhase g.world.tick { g with asked := g.asked + 1 } := { told with }
  refine Leads.bind (R := fun now g' => now = beatAt env g ∧ g' = { g with asked := g.asked + 1 })
    ?_ fun now => Leads.given fun same => ?_
  · rintro _ rfl
    exact ⟨rfl, rfl⟩
  subst same
  refine Leads.seq (M := Told) ?_ (Leads.stays (federation_told _))
  refine Leads.reads (a := g.sessionTable.filterMap id) rfl ?_
  refine Leads.seq (Leads.weaken (pulses_stay _ asked day) fun _ _ => told_of) ?_
  exact Leads.seq (gate_told _) (Leads.stays (respawn_told _))

end Beats

section Runs

theorem tame_banner : Tame banner := by
  have escape : Eventless [⟨27, .server⟩] := unmarked_eventless (unmarked_of (by decide))
  have shut : Eventless banner := by
    unfold banner
    apply_rules [eventless_append, eventless_lit]
  exact tame_strange (x := ⟨27, .server⟩) (by decide) shut

theorem honest_connected (wsi : Wsi) : Honest tick (connected c wsi) := by
  refine Keeps.seq (Keeps.modify fun g inside => ?_) (honest_text tame_banner)
  exact { in_phase_block (c := c) (s := newSession wsi) inside phased_nil with }

theorem honest_emptied : Honest tick (setOutbox c []) :=
  Keeps.modify fun _ inside => in_phase_block inside phased_nil

theorem honest_writable : Honest tick (writable env c) := by
  have closes : Honest tick (maybeClose c) :=
    Keeps.bind (keeps_session c) fun s _ =>
      keeps_when (Keeps.modify fun _ inside => { inside with })
  refine Keeps.bind (keeps_session c) fun s _ => Keeps.branch closes ?_
  refine Keeps.bind (R := Any) (Keeps.bind (honest_ask _) fun n _ => honest_pure _)
    fun wrote _ => ?_
  exact Keeps.seq (keeps_when honest_emptied) closes

theorem honest_closed : Honest tick (closed env c) := by
  refine Keeps.bind (keeps_session c) fun s _ => Keeps.seq (keeps_when ?_) ?_
  · refine Keeps.seq honest_commit (Keeps.seq honest_save (Keeps.modify fun g inside => ?_))
    obtain ⟨table, sockets, count, same⟩ := unregistered_tables g c
    rw [same]
    exact
      { in_phase_block (c := c) (s := { g.blocks c with wsi := 0 }) inside (inside.outbox c) with }
  · exact Keeps.seq honest_emptied (Keeps.modify fun _ inside => { inside with })

theorem message_stays {text : Bytes} (inside : InPhase tick g)
    (valid : (Event.message c text).valid g = true)
    (day : showsScene env g (.message c text) = true → tick % 4 = 0) :
    StaysIn tick g (message env c text) := by
  refine Leads.ite (fun _ => honest_stays inside (honest_text ?_)) fun fits => ?_
  · apply_rules [tame_append, tame_lit, eventless_lit]
  have short : text.length ≤ 255 := Nat.le_of_not_lt fits
  let wsi := (g.socket c).getD 0
  have called : InPhase tick (g.setWsi c wsi) := in_phase_block inside (inside.outbox c)
  have own : (g.setWsi c wsi).blocks c = { g.blocks c with wsi := wsi } := g.setBlock_own c _
  refine Leads.seq (M := (· = g.setWsi c wsi)) (Leads.modify ?_) (dispatch_stays called ?_ ?_)
  · rintro _ rfl
    rfl
  · intro plays asked
    have state : (g.blocks c).state = .play := by simpa only [own] using plays
    refine day ?_
    simp only [showsScene, valid, short, state, decide_true, Bool.true_and]
    simpa only [asksScene, own] using asked
  · intro proves asked
    have state : (g.blocks c).state = .passphrase := by simpa only [own] using proves
    have question : (g.setWsi c wsi).asked = g.asked := rfl
    refine day ?_
    simp only [showsScene, valid, short, state, decide_true, Bool.true_and]
    simpa only [admits, own, question] using asked

theorem step_told {e : Event} (told : Told g) (day : SceneByDay env g e)
    (taken : step env g e = .ok g') : Told g' := by
  unfold step at taken
  split at taken
  · rename_i valid
    have ran := map_ok taken
    cases e with
    | connect c wsi => exact told_of ((honest_connected wsi).result told ran).1
    | message c text => exact told_of ((message_stays told valid day).result rfl ran)
    | writable c => exact told_of (honest_writable.result told ran).1
    | close c => exact told_of (honest_closed.result told ran).1
    | tick => exact (beat_told told day).result rfl ran
  · cases taken
    exact told

/-- In a run that shows its scenes by day every world.state event has the phase the table gives
for its tick. -/
theorem phases_told (env : Env) (disk : Disk) (events : List Event) (g : Server)
    (met : Machine.Meets (step env) (SceneByDay env) (boot env disk) events)
    (reached : Machine.Reaches (step env) (boot env disk) events g) (d : Block)
    (front back : Text) (tick : Int) (phase : String) (word : TickWord tick)
    (closed : 34 ∉ str phase)
    (told : (g.blocks d).outbox = front ++ (fmtWorldState tick phase ++ back)) :
    str phase = str (phaseOf tick) := by
  have kept := Machine.invariant_run (step env) (SceneByDay env) Told (boot env disk)
    ⟨rfl, fun _ => phased_nil⟩ (fun _ _ _ told day taken => step_told told day taken) events met g
    reached
  have phased := kept.outbox d
  rw [told] at phased
  exact phased_event phased word closed

/-- The queue of the first connection ends in the event. -/
def endsIn (tick : Int) (phase : String) (g : Server) : Bool :=
  let o := (g.blocks 0).outbox
  o.drop (o.length - (fmtWorldState tick phase).length) = fmtWorldState tick phase

theorem ends_in {phase : String} (ends : endsIn tick phase g = true) :
    ∃ front, (g.blocks 0).outbox = front ++ (fmtWorldState tick phase ++ []) := by
  have tail := of_decide_eq_true ends
  rw [List.append_nil, ← tail]
  exact ⟨_, (List.take_append_drop _ _).symm⟩

def byDay (env : Env) (g : Server) (e : Event) : Bool :=
  !showsScene env g e || decide (g.world.tick % 4 = 0)

theorem by_day (g : Server) (e : Event) (passed : byDay env g e = true) : SceneByDay env g e := by
  intro shows
  simpa [byDay, shows] using passed

theorem phases_told_day : ∃ g front,
    Machine.Reaches (step quietNode) (boot quietNode sharedDisk) (returns 0 (str "ada")) g ∧
      (g.blocks 0).outbox = front ++ (fmtWorldState 0 "day" ++ []) ∧
      str "day" = str (phaseOf 0) := by
  obtain ⟨g, reached, ends⟩ := Machine.ends_reaches (step quietNode) (boot quietNode sharedDisk)
    (returns 0 (str "ada")) (endsIn 0 "day") (by decide +kernel)
  obtain ⟨front, told⟩ := ends_in ends
  have met := Machine.meets_passed (step quietNode) (byDay quietNode) (SceneByDay quietNode) by_day
    (boot quietNode sharedDisk) (returns 0 (str "ada")) (by decide +kernel)
  refine ⟨g, front, reached, told, ?_⟩
  exact phases_told quietNode sharedDisk (returns 0 (str "ada")) g met reached 0 front [] 0 "day"
    (by unfold TickWord; omega) (by decide) told

/-- A node whose clock has passed the first beat. -/
def lateNode : Env := { quietNode with now := fun _ => 5000 }

/-- A player who arrives at dusk is shown a day. -/
theorem dusk_shown_as_day : ¬ ∀ (env : Env) (disk : Disk) (events : List Event) (g : Server),
    Machine.Reaches (step env) (boot env disk) events g →
    ∀ (d : Block) (front back : Text) (tick : Int) (phase : String), TickWord tick →
      34 ∉ str phase → (g.blocks d).outbox = front ++ (fmtWorldState tick phase ++ back) →
      str phase = str (phaseOf tick) := by
  intro agrees
  obtain ⟨g, reached, ends⟩ := Machine.ends_reaches (step lateNode) (boot lateNode sharedDisk)
    (.tick :: returns 0 (str "ada")) (endsIn 1 "day") (by decide +kernel)
  obtain ⟨front, told⟩ := ends_in ends
  have dusk := agrees _ _ _ g reached 0 front [] 1 "day" (by unfold TickWord; omega) (by decide)
    told
  exact absurd dusk (by decide)

end Runs

end HollowGrid
