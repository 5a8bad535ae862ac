import HollowGrid.Lineage
import HollowGrid.Returns

/-! The moral arc of a character. The marks that a player gets are never taken away, no one is
redeemed who has not strayed, and only the hunted are ever ash-sworn. -/
namespace HollowGrid

def hunts (race : Bytes) : Bool := hunted { race := race }

/-- From a to b no mark was lifted. A redemption was one of someone who had strayed, and a brand
one of the hunted. -/
structure Climbs (a b : Character) : Prop where
  race : b.race = a.race
  strayed : a.strayed = true → b.strayed = true
  redeemed : a.redeemed = true → b.redeemed = true
  ashsworn : a.ashsworn = true → b.ashsworn = true
  earned : b.redeemed = true → a.redeemed = true ∨ b.strayed = true
  sworn : b.ashsworn = true → a.ashsworn = true ∨ hunts b.race = true

theorem climbs_self (a : Character) : Climbs a a := ⟨rfl, id, id, id, .inl, .inl⟩

theorem climbs_trans {a b c : Character} (first : Climbs a b) (second : Climbs b c) :
    Climbs a c where
  race := second.race.trans first.race
  strayed := fun held => second.strayed (first.strayed held)
  redeemed := fun held => second.redeemed (first.redeemed held)
  ashsworn := fun held => second.ashsworn (first.ashsworn held)
  earned := fun held => (second.earned held).elim
    (fun before => (first.earned before).imp id second.strayed) .inr
  sworn := fun held => (second.sworn held).elim
    (fun before => (first.sworn before).imp id (second.race ▸ id)) .inr

theorem climbs_ordered : Ordered Climbs := ⟨climbs_self, fun _ _ _ => climbs_trans⟩

theorem climbs_arc {a b : Character} (race : b.race = a.race)
    (same : Part.arc.of b = Part.arc.of a) : Climbs a b := by
  have strayed := congrArg Character.strayed same
  have redeemed := congrArg Character.redeemed same
  have ashsworn := congrArg Character.ashsworn same
  exact ⟨race, strayed.trans, redeemed.trans, ashsworn.trans,
    fun held => .inl (redeemed.symm.trans held), fun held => .inl (ashsworn.symm.trans held)⟩

variable {env : Env} {g g' : Server} {c : Block}

/-- Everything but the arc and the race is free. -/
def offArc (_ : Block) (q : Part) : Prop := q ≠ .arc ∧ q ≠ .birth

theorem climbs_spared {f : Character → Character} {d : Block} (spares : Spares (offArc d) f)
    (ch : Character) : Climbs ch (f ch) := by
  have race := congrArg Character.race (spares .birth (by simp [offArc]) ch)
  exact climbs_arc race (spares .arc (by simp [offArc]) ch)

theorem climbed_permits (env : Env) (g : Server) : Permits False env (fun _ => True)
    (fun _ => True) offArc (fun _ => True) (Since Climbs env g) :=
  since_permits climbs_ordered env g fun _ _ => climbs_spared

theorem return_raises {ch : Character} (strayed : ch.strayed = true) : Climbs ch (returnTo ch) :=
  ⟨rfl, id, fun _ => rfl, id, fun _ => .inr strayed, .inl⟩

theorem line_climbs (t : Text) : Keeps (Since Climbs env g) (fun _ => True) (queueLine c t) Any :=
  ((climbed_permits env g).reports trivial).line (sound_lax id)

/-- A way back that is walked by someone who strayed. -/
theorem return_climbs (strayed : (g.blocks c).strayed = true) :
    Keeps (Since Climbs env g) (fun _ => True) (resolveReturn env c) Any := by
  have p := climbed_permits env g
  have r := p.reports (d := c) trivial
  refine Keeps.seq (since_update climbs_ordered fun ch since =>
    return_raises (since.strayed strayed)) ?_
  refine Keeps.seq (p.saves trivial) (Keeps.bind (p.reads c) fun s _ => ?_)
  exact Keeps.seq (r.said (sound_lax id)) (p.echoes (clean_lax _) (clean_lax _) (clean_lax _))

theorem arc_climbs (env : Env) (g : Server) (c : Block) :
    Leads (· = g) (fun _ => True) (moralArc env c) fun _ => Since Climbs env g := by
  have p := climbed_permits env g
  have r := p.reports (d := c) trivial
  refine Leads.reads (rfl : session c g = .ok (g.blocks c, g)) ?_
  refine Leads.start (since_start climbs_ordered env g) (Leads.stays (q := Any) ?_)
  refine Keeps.branch (Keeps.pure trivial) (Keeps.ite (fun _ => ?_) fun strayed => ?_)
  · refine keeps_when (Keeps.seq (since_update climbs_ordered fun ch _ => ?_) ?_)
    · exact ⟨rfl, fun _ => rfl, id, id, .inl, .inl⟩
    · exact Keeps.seq (p.saves trivial) (line_climbs _)
  · rw [Bool.not_eq_false] at strayed
    refine Keeps.branch (Keeps.pure trivial) (Keeps.branch ?_ ?_)
    · refine Keeps.seq (since_update climbs_ordered fun ch since => ?_) ?_
      · exact ⟨rfl, id, fun _ => rfl, id, fun _ => .inr (since.strayed strayed), .inl⟩
      · exact Keeps.seq (p.saves trivial) (line_climbs _)
    · exact Keeps.seq (return_climbs strayed)
        (line_climbs _)

theorem arc_keeps : Keeps (Since Climbs env g) (fun _ => True) (moralArc env c) Any :=
  since_on climbs_ordered fun g₁ => arc_climbs env g₁ c

theorem swear_climbs {s : Session} {ch : Character} (race : ch.race = s.race) :
    Climbs ch (swear ch s) := by
  unfold swear
  split
  · rename_i caught
    exact ⟨rfl, id, id, fun _ => rfl, .inl, fun _ => .inr (race ▸ caught)⟩
  · exact ⟨rfl, id, id, id, .inl, .inl⟩

theorem coin_climbs {s : Session} {ch : Character} (race : ch.race = s.race) :
    Climbs ch (takeCoin s ch) := by
  unfold takeCoin
  split
  · rename_i caught
    exact ⟨rfl, id, id, fun _ => rfl, .inl, fun _ => .inr (race ▸ caught)⟩
  · exact ⟨rfl, id, id, id, .inl, .inl⟩

theorem steal_climbs : Keeps (Since Climbs env g) (fun _ => True) (cmdSteal env c) Any := by
  have p := climbed_permits env g
  have r := p.reports (d := c) trivial
  refine Keeps.bind (p.reads c) fun s _ => Keeps.branch (line_climbs _) ?_
  refine Keeps.seq (since_update climbs_ordered fun ch _ => ⟨rfl, id, id, id, .inl, .inl⟩) ?_
  refine Keeps.seq (p.on_ledger _ fun t shut => absurd trivial shut) ?_
  refine Keeps.seq (p.saves trivial) (Keeps.seq (p.delivers_room _ _ (sound_lax id)) ?_)
  refine Keeps.seq (line_climbs _) ?_
  exact Keeps.seq r.vitals_now (Keeps.seq r.affects_now arc_keeps)

theorem pledge_climbs : Keeps (Since Climbs env g) (fun _ => True) (daisPledge env c) Any := by
  refine since_on climbs_ordered fun g₁ => ?_
  have p := climbed_permits env g₁
  have r := p.reports (d := c) trivial
  refine Leads.reads (rfl : session c g₁ = .ok (g₁.blocks c, g₁)) ?_
  refine Leads.start (since_start climbs_ordered env g₁) (Leads.stays (q := Any) ?_)
  refine Keeps.branch (line_climbs _) (Keeps.bind (p.asks_any _) fun _ _ => ?_)
  refine Keeps.branch (line_climbs _) ?_
  refine Keeps.seq (since_update climbs_ordered fun ch since => swear_climbs since.race)
    (Keeps.seq ?_ ?_)
  · unfold kneel
    exact Keeps.branch (r.said (sound_lax id)) (line_climbs _)
  refine Keeps.seq (p.on_ledger _ fun t shut => absurd trivial shut) (Keeps.seq (p.shifts _) ?_)
  refine Keeps.seq (p.echoes (clean_lax _) (clean_lax _) (clean_lax _)) ?_
  refine Keeps.seq (p.saves trivial) (Keeps.seq (p.delivers_room _ _ (sound_lax id)) ?_)
  refine Keeps.seq arc_keeps ?_
  exact Keeps.seq r.affects_now (Keeps.seq r.vitals_now r.room_actions_now)

theorem defy_climbs : Keeps (Since Climbs env g) (fun _ => True) (cmdDefy env c) Any := by
  refine since_on climbs_ordered fun g₁ => ?_
  have p := climbed_permits env g₁
  have r := p.reports (d := c) trivial
  refine Leads.reads (rfl : session c g₁ = .ok (g₁.blocks c, g₁)) ?_
  refine Leads.start (since_start climbs_ordered env g₁) (Leads.stays (q := Any) ?_)
  refine Keeps.branch (line_climbs _) (Keeps.bind (p.asks_any _) fun _ _ => ?_)
  refine Keeps.branch (line_climbs _) (Keeps.seq (since_update climbs_ordered fun ch _ =>
    ⟨rfl, id, id, id, .inl, .inl⟩) ?_)
  refine Keeps.seq (r.said (sound_lax id)) ?_
  refine Keeps.seq (p.on_ledger _ fun t shut => absurd trivial shut) (Keeps.seq (p.shifts _) ?_)
  refine Keeps.seq (p.echoes (clean_lax _) (clean_lax _) (clean_lax _)) ?_
  refine Keeps.seq (p.saves trivial) (Keeps.seq (p.delivers_room _ _ (sound_lax id)) ?_)
  refine Keeps.seq ?_ (Keeps.seq r.affects_now (Keeps.seq r.vitals_now r.room_actions_now))
  exact Keeps.ite (fun owed => return_climbs owed.1) fun _ => arc_keeps

theorem join_climbs : Keeps (Since Climbs env g) (fun _ => True) (cmdJoin env c) Any := by
  refine since_on climbs_ordered fun g₁ => ?_
  have p := climbed_permits env g₁
  have r := p.reports (d := c) trivial
  refine Leads.reads (rfl : session c g₁ = .ok (g₁.blocks c, g₁)) ?_
  refine Leads.start (since_start climbs_ordered env g₁) (Leads.stays (q := Any) ?_)
  refine Keeps.branch pledge_climbs (Keeps.branch (r.said (sound_lax id)) ?_)
  refine Keeps.seq (since_update climbs_ordered fun ch since => coin_climbs since.race)
    (Keeps.seq ?_ ?_)
  · exact r.said (sound_lax id)
  refine Keeps.seq r.affects (Keeps.seq r.vitals (Keeps.seq (p.oath_kept trivial) ?_))
  exact Keeps.seq (p.shifts _) (Keeps.seq arc_keeps (p.saves trivial))

/-- The one who is forgiven is read before the write, and has strayed then. -/
theorem forgiven_climbs {t : Session} {d : Block} (self_name : Bytes)
    (seen : t.toCharacter = (g.blocks d).toCharacter) :
    Keeps (Since Climbs env g) (fun _ => True) (forgivenPath env d self_name t) Any := by
  have p := climbed_permits env g
  have named : Named False self_name := False.elim
  refine Keeps.branch (p.forgiven_target_kept trivial named _ _) (Keeps.ite (fun _ => ?_) ?_)
  · exact p.forgiven_target_kept trivial named _ _
  intro owed
  have strayed : (g.blocks d).strayed = true := by
    have same := congrArg Character.strayed seen
    rw [← same, ← Bool.not_eq_false]
    exact fun steady => owed (.inl steady)
  refine Keeps.seq (since_update climbs_ordered fun ch since =>
    return_raises (since.strayed strayed)) ?_
  exact Keeps.seq (p.saves trivial) (p.forgiven_redeemed_kept trivial _)

theorem pardon_climbs (d : Block) :
    Keeps (Since Climbs env g) (fun _ => True) (forgive env c d) Any := by
  refine since_on climbs_ordered fun g₁ => ?_
  have p := climbed_permits env g₁
  have r := p.reports (d := c) trivial
  refine Leads.reads (rfl : session c g₁ = .ok (g₁.blocks c, g₁)) ?_
  refine Leads.reads (rfl : session d g₁ = .ok (g₁.blocks d, g₁)) ?_
  refine Leads.start (since_start climbs_ordered env g₁) (Leads.stays (q := Any) ?_)
  refine Keeps.seq (p.on_ledger _ fun t shut => absurd trivial shut) ?_
  refine Keeps.seq (since_update climbs_ordered fun ch _ => ⟨rfl, id, id, id, .inl, .inl⟩) ?_
  refine Keeps.seq (since_update climbs_ordered fun ch _ => ⟨rfl, id, id, id, .inl, .inl⟩) ?_
  refine Keeps.seq (p.echoes (clean_lax _) (clean_lax _) (clean_lax _)) ?_
  refine Keeps.seq (forgiven_climbs _ rfl) (Keeps.seq (p.delivers_room _ _ (sound_lax id)) ?_)
  exact Keeps.seq (line_climbs _) r.affects_now

theorem forgive_climbs (arg : Ptr) :
    Keeps (Since Climbs env g) (fun _ => True) (cmdForgive env c arg) Any := by
  have p := climbed_permits env g
  refine Keeps.bind (p.reads c) fun s _ => Keeps.branch (line_climbs _) ?_
  refine Keeps.branch (line_climbs _) (Keeps.bind (p.finds_prefix _ _ _) fun found _ => ?_)
  cases found with
  | none => exact line_climbs _
  | some d =>
    refine Keeps.bind (p.reads d) fun t _ => Keeps.bind keeps_ledger fun l _ => ?_
    exact Keeps.branch (line_climbs _) (Keeps.branch (pardon_climbs d) (line_climbs _))

theorem births_last (arm : Arm) : Part.birth ∉ arm.writes ++ arm.reaches := by
  cases arm <;> decide

theorem arms_climb (arm : Arm) (arg : Ptr) :
    Keeps (Since Climbs env g) (fun _ => True) (exec env c arg arm) Any := by
  by_cases touches : Part.arc ∈ arm.writes ++ arm.reaches
  · cases arm with
    | steal => exact steal_climbs
    | join => exact join_climbs
    | defy => exact defy_climbs
    | forgive => exact forgive_climbs arg
    | _ => simp [Arm.writes, Arm.reaches] at touches
  · have spared (q : Part) (there : q ∈ arm.writes ++ arm.reaches) : q ≠ .arc ∧ q ≠ .birth :=
      ⟨fun own => touches (own ▸ there), fun own => births_last arm (own ▸ there)⟩
    refine (climbed_permits env g).exec_kept trivial ?_ (fun b _ => clean_lax b) nofun nofun
      fun _ _ => trivial
    exact ⟨fun q wrote => spared q (List.mem_append_left _ wrote),
      fun q reached _ _ => spared q (List.mem_append_right _ reached), fun _ _ => trivial⟩

/-- A line of a player, whatever it comes to. -/
theorem spoken_climbs {line : Bytes} {m : Act Unit} (said : Spoken env c line g m)
    (ended : m g = .ok ((), g')) : Since Climbs env g g' := by
  have p := climbed_permits env g
  have kept : Keeps (Since Climbs env g) (fun _ => True) m Any := by
    cases said with
    | shows quiet => exact quiet _ _ (p.reports trivial)
    | walks => exact p.move_kept trivial (by simp [offArc]) _
    | runs => exact arms_climb _ _
  exact (kept.result (since_start climbs_ordered env g) ended).1

theorem beat_climbs (ended : tickService env g = .ok ((), g')) : Since Climbs env g g' := by
  have kept : Keeps (Since Climbs env g) (fun _ => True) (tickService env) Any := by
    apply (climbed_permits env g).timer_kept <;> simp [offArc]
  exact (kept.result (since_start climbs_ordered env g) ended).1

theorem climbs_step {e : Event} (taken : step env g e = .ok g') (there : g.socket c ≠ none)
    (playing : (g.blocks c).state = .play) :
    Climbs (g.blocks c).toCharacter (g'.blocks c).toCharacter := by
  cases step_course taken with
  | @fresh d wsi _ empty same =>
    have other : c ≠ d := fun own => there (own ▸ empty)
    rw [same, opened_other g wsi other]
    exact climbs_self _
  | @login d text s' disk' _ _ away _ _ others =>
    have other : c ≠ d := fun own => away (own ▸ playing)
    rw [others c other]
    exact climbs_self _
  | @command d line wsi m _ _ said ended =>
    have heard : Since Climbs env g (g.setWsi d wsi) :=
      since_block climbs_ordered (since_start climbs_ordered env g) (climbs_self _)
    exact (since_trans climbs_ordered heard (spoken_climbs said ended)).blocks c
  | beat _ _ ended => exact (beat_climbs ended).blocks c
  | quiet idle =>
    rw [idle.character c]
    exact climbs_self _

section Upright

/-- The marks of a character are ones that it came by. -/
structure Earned (ch : Character) : Prop where
  redeemed : ch.redeemed = true → ch.strayed = true
  ashsworn : ch.ashsworn = true → hunts ch.race = true

def Markless (ch : Character) : Prop :=
  ch.race = arrival.race ∧ Part.arc.of ch = Part.arc.of arrival

theorem markless_earned {ch : Character} (markless : Markless ch) : Earned ch := by
  have redeemed := congrArg Character.redeemed markless.2
  have ashsworn := congrArg Character.ashsworn markless.2
  exact ⟨fun held => Bool.noConfusion (held.symm.trans redeemed),
    fun held => Bool.noConfusion (held.symm.trans ashsworn)⟩

theorem climbs_earned {a b : Character} (climbs : Climbs a b) (earned : Earned a) : Earned b where
  redeemed := fun held => (climbs.earned held).elim
    (fun before => climbs.strayed (earned.redeemed before)) id
  ashsworn := fun held => (climbs.sworn held).elim
    (fun before => climbs.race ▸ earned.ashsworn before) id

theorem hunts_kept {race : Bytes} (hunted : hunts race = true) : (cstr race).take 15 = race := by
  have size : (lower race).length ≤ 7 ∧ 0 ∉ lower race := by
    rcases Bool.or_eq_true_iff.mp hunted with elf | dustkin
    · rw [(same_fold_iff _ _).mp elf]
      decide
    · rw [(same_fold_iff _ _).mp dustkin]
      decide
  have ends : 0 ∉ race := fun member => size.2 (List.mem_map.mpr ⟨0, member, by decide⟩)
  have short : race.length ≤ 7 := by simpa [lower] using size.1
  rw [cstr_whole ends, List.take_of_length_le (by omega)]

theorem settle_climbs {a b : Character} (climbs : Climbs a b) : Climbs (settle a) (settle b) where
  race := congrArg (fun race => (cstr race).take 15) climbs.race
  strayed := climbs.strayed
  redeemed := climbs.redeemed
  ashsworn := climbs.ashsworn
  earned := climbs.earned
  sworn := fun held => (climbs.sworn held).imp id fun hunted => by
    change hunts ((cstr b.race).take 15) = true
    rwa [hunts_kept hunted]

theorem settle_earned {ch : Character} (earned : Earned ch) : Earned (settle ch) where
  redeemed := earned.redeemed
  ashsworn := fun held => by
    change hunts ((cstr ch.race).take 15) = true
    have hunted := earned.ashsworn held
    rwa [hunts_kept hunted]

theorem load_earned {root : Json} {ch : Character} (markless : Markless ch)
    (earned : Earned (loadCharacter root arrival)) : Earned (loadCharacter root ch) := by
  have strayed := congrArg Character.strayed markless.2
  have redeemed := congrArg Character.redeemed markless.2
  have ashsworn := congrArg Character.ashsworn markless.2
  change ch.strayed = arrival.strayed at strayed
  change ch.redeemed = arrival.redeemed at redeemed
  change ch.ashsworn = arrival.ashsworn at ashsworn
  refine ⟨fun held => ?_, fun held => ?_⟩
  · change jsonBool root (str "strayed") ch.strayed = true
    change jsonBool root (str "redeemed") ch.redeemed = true at held
    rw [redeemed] at held
    rw [strayed]
    exact earned.redeemed held
  · change hunts (jsonString root (str "race") ch.race 16) = true
    change jsonBool root (str "ashsworn") ch.ashsworn = true at held
    rw [ashsworn] at held
    rw [markless.1]
    exact earned.ashsworn held

theorem marks_upheld (silent : ∀ n params, env.rpc n (str "loadCharacter") params = none) :
    Upheld env Climbs Earned Markless where
  ordered := climbs_ordered
  kept := fun _ _ => climbs_earned
  early := fun _ => markless_earned
  blank := ⟨rfl, rfl⟩
  arrives := ⟨rfl, rfl⟩
  raced := fun ch race markless => by
    have redeemed := congrArg Character.redeemed markless.2
    have ashsworn := congrArg Character.ashsworn markless.2
    exact ⟨fun held => Bool.noConfusion (held.symm.trans redeemed),
      fun held => Bool.noConfusion (held.symm.trans ashsworn)⟩
  loaded := fun _ _ => load_earned
  settled := fun _ => settle_earned
  fetched := fun s row hub => by
    obtain ⟨n, result, called, _⟩ := hub
    rw [silent] at called
    cases called
  spoken := fun _ _ _ _ _ => spoken_climbs
  beats := fun _ _ => beat_climbs

/-- On a disk that never tears a file and with no answers from a hub, in every run of any number
of connections: whoever is redeemed has strayed, and whoever is ash-sworn is of the hunted. -/
theorem marks_earned (env : Env) (disk : Disk) (events : List Event) (g : Server)
    (dependable : Dependable env)
    (silent : ∀ n params, env.rpc n (str "loadCharacter") params = none)
    (files : FitFiles Earned disk)
    (reached : Machine.Reaches (step env) (boot env disk) events g) :
    (∀ c, ((g.blocks c).redeemed = true → (g.blocks c).strayed = true) ∧
      ((g.blocks c).ashsworn = true → hunted (g.blocks c) = true)) ∧ FitFiles Earned g.disk := by
  have fits := fit_run (marks_upheld silent) dependable files reached
  exact ⟨fun c => ⟨(fits.sessions c).fit.redeemed, (fits.sessions c).fit.ashsworn⟩, fits.files⟩

theorem ada_disk_earned : FitFiles Earned adaDisk := by
  intro key root there
  by_cases own : key = str "ada"
  · subst own
    rw [adaDisk, Function.update_self] at there
    cases there
    rw [load_record]
    exact settle_earned ⟨fun _ => rfl, fun held => Bool.noConfusion held⟩
  · rw [adaDisk, Function.update_of_ne own] at there
    cases there

theorem marks_earned_ada : ∃ g,
    Machine.Reaches (step quietNode) (boot quietNode adaDisk) adaTitled g ∧
    (g.blocks 0).redeemed = true ∧ (g.blocks 0).strayed = true := by
  obtain ⟨g, g₃, g₄, reached, _, _, _, _, _, marked⟩ := ada_plays
  exact ⟨g, reached, marked, ((marks_earned quietNode adaDisk adaTitled g
    ⟨fun _ => .inl rfl, fun _ => .inl rfl⟩ (fun _ _ => rfl) ada_disk_earned reached).1 0).1 marked⟩

end Upright

section Records

variable {e : Event} {key : Bytes} {d : Block}

theorem holder_stays (one : OnePerFile g) (one' : OnePerFile g') (taken : step env g e = .ok g')
    (plays : Plays g c key) (plays' : Plays g' d key) : c = d := by
  by_cases closes : e = .close c
  · cases step_onward taken plays'.there with
    | fresh connects =>
      rw [closes] at connects
      cases connects
    | same opened _ peer =>
      have before : Plays g d key :=
        ⟨opened, peer.state.symm.trans plays'.playing, peer.name ▸ plays'.path⟩
      exact one key c d plays.uses before.uses
    | login message =>
      rw [closes] at message
      cases message
  · have opened := step_open taken plays.there closes
    cases step_onward taken opened with
    | fresh _ empty => exact absurd empty plays.there
    | same _ _ peer =>
      have after : Plays g' c key :=
        ⟨opened, peer.state.trans plays.playing, by rw [peer.name]; exact plays.path⟩
      exact one' key c d after.uses plays'.uses
    | login _ _ _ _ away => exact absurd plays.playing away

theorem kept_climbs {s s' : Session} (climbs : Climbs s.toCharacter s'.toCharacter) :
    Climbs s.kept s'.kept := by
  have settled := settle_climbs climbs
  rw [kept_settles, kept_settles]
  exact ⟨settled.race, settled.strayed, settled.redeemed, settled.ashsworn, settled.earned,
    settled.sworn⟩

theorem record_climbs {r : Character} (reliable : Reliable env) (one : OnePerFile g)
    (one' : OnePerFile g') (shelved : Shelved g) (taken : step env g e = .ok g')
    (there : (archive g).record key = some r) :
    ∃ r', (archive g').record key = some r' ∧ Climbs r r' := by
  by_cases handed : (archive g).lent key ∧ (archive g').lent key
  · obtain ⟨⟨c, plays⟩, d, plays'⟩ := handed
    cases holder_stays one one' taken plays plays'
    rw [archive_out one plays] at there
    cases there
    exact ⟨_, archive_out one' plays', kept_climbs (climbs_step taken plays.there plays.playing)⟩
  · have same := (archive_step reliable one one' shelved taken).same handed (by simp [there])
    exact ⟨r, same.trans there, climbs_self r⟩

/-- As long as no two connections past a name use one file, a character only climbs: what it has
sworn, strayed and redeemed is never undone, played or at rest. -/
theorem characters_climb (env : Env) (disk : Disk) (before later : List Event) (g g' : Server)
    (key : Bytes) (r : Character) (reliable : Reliable env) (written : SelfWritten disk)
    (one : Machine.Within (step env) OnePerFile (boot env disk) (before ++ later))
    (reached : Machine.Reaches (step env) (boot env disk) before g)
    (there : (archive g).record key = some r) (now : Machine.Reaches (step env) g later g') :
    ∃ r', (archive g').record key = some r' ∧ Climbs r r' := by
  have shelved := (archive_runs reliable (shelved_boot written)
    (Machine.within_front _ _ _ before later one) reached).1
  have rest : Machine.Within (step env) OnePerFile g later :=
    Machine.within_stretch one reached
  refine (Machine.simulates OnePerFile
    (fun g₁ => Shelved g₁ ∧ ∃ r', (archive g₁).record key = some r' ∧ Climbs r r') (fun g => g)
    (fun _ _ => True) ⟨shelved, r, there, climbs_self r⟩ ?_ rest now).1.2
  rintro g₁ e g₂ ⟨shelved, r₁, here, climbs⟩ one one' taken
  obtain ⟨r₂, onward, more⟩ := record_climbs reliable one one' shelved taken here
  exact ⟨⟨shelved_step reliable one shelved taken, r₂, onward, climbs_trans climbs more⟩, trivial⟩

/-- ada stays redeemed when she leaves. -/
theorem characters_climb_ada : ∃ g₁ r,
    Machine.Reaches (step quietNode) (boot quietNode adaDisk) adaTitled g₁ ∧
    step quietNode g₁ (.close 0) = .ok adaGone ∧ (archive g₁).record (str "ada") = some r ∧
    r.redeemed = true ∧
    ∃ r', (archive adaGone).record (str "ada") = some r' ∧ r'.redeemed = true := by
  obtain ⟨g₁, g₃, g₄, front, plays, closed, _, _, _, marked⟩ := ada_plays
  have one := Machine.within_front (step quietNode) OnePerFile (boot quietNode adaDisk)
    (adaTitled ++ [.close 0]) (adaBack ++ [.message 1 (str "password")]) (by simpa using ada_alone)
  have there := archive_out (one adaTitled (List.prefix_append _ _) g₁ front) plays
  have redeemed : (g₁.blocks 0).kept.redeemed = true := by
    rw [kept_settles]
    exact marked
  obtain ⟨r', back, climbs⟩ := characters_climb quietNode adaDisk adaTitled [.close 0] g₁
    adaGone (str "ada") _ quiet_reliable ada_disk_written one front there
    (Machine.reaches_snoc _ _ _ _ _ _ (Machine.reaches_nil _ _) closed)
  exact ⟨g₁, _, front, closed, there, redeemed, r', back, climbs.redeemed redeemed⟩

end Records

end HollowGrid
