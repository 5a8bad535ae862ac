import HollowGrid.Arcs

/-! What others can do to a player. They mend, give, forgive and send words, and nothing else of
theirs reaches a session that is not their own. -/
namespace HollowGrid

/-- What of a character the commands of others leave, and what they may add to. -/
structure Mild (a b : Character) : Prop where
  parts : ∀ q : Part, q.shared = false → q.of b = q.of a
  most : b.maxHp = a.maxHp
  life : a.hp ≤ b.hp
  pack : a.inventory <+: b.inventory
  morals : a.morality ≤ b.morality

theorem mild_self (a : Character) : Mild a a :=
  ⟨fun _ _ => rfl, rfl, Int.le_refl _, List.prefix_rfl, Int.le_refl _⟩

theorem mild_trans {a b c : Character} (first : Mild a b) (second : Mild b c) : Mild a c where
  parts := fun q unshared => (second.parts q unshared).trans (first.parts q unshared)
  most := second.most.trans first.most
  life := Int.le_trans first.life second.life
  pack := first.pack.trans second.pack
  morals := Int.le_trans first.morals second.morals

theorem mild_add (item : Bytes) (ch : Character) : Mild ch (invAdd item ch) := by
  unfold invAdd
  split
  · exact mild_self ch
  · refine ⟨fun q unshared => ?_, rfl, Int.le_refl _, List.prefix_append .., Int.le_refl _⟩
    cases q <;> first | rfl | cases unshared

theorem mild_mended {ch : Character} (bounded : ch.hp ≤ ch.maxHp) :
    Mild ch { ch with hp := min (ch.hp + 10) ch.maxHp } := by
  refine ⟨fun q unshared => ?_, rfl, ?_, List.prefix_rfl, Int.le_refl _⟩
  · cases q <;> first | rfl | cases unshared
  · change ch.hp ≤ min (ch.hp + 10) ch.maxHp
    omega

theorem mild_forgiven (ch : Character) : Mild ch { ch with morality := ch.morality + 5 } := by
  refine ⟨fun q unshared => ?_, rfl, Int.le_refl _, List.prefix_rfl, ?_⟩
  · cases q <;> first | rfl | cases unshared
  · change ch.morality ≤ ch.morality + 5
    omega

structure Lenient (c : Block) (g₀ g : Server) : Prop where
  character : Mild (g₀.blocks c).toCharacter (g.blocks c).toCharacter
  fight : (g.blocks c).toFight = (g₀.blocks c).toFight

def sparing (c d : Block) (q : Part) : Prop := d = c → q = .reply ∨ q = .arc

variable {env : Env} {g₀ g g' : Server} {c d : Block} {e : Event}

theorem lenient_start (c : Block) (g : Server) : Lenient c g g := ⟨mild_self _, rfl⟩

theorem mild_framed {may : Block → Part → Prop} {free : Table → Prop}
    (framed : Framed may free g g')
    (spares : ∀ q : Part, q ≠ .reply → q ≠ .arc → ¬may c q) : Lenient c g g' := by
  have same (q : Part) (unlike : q ≠ .reply) (fixed : q ≠ .arc) :=
    framed.parts c q (spares q unlike fixed)
  have life := same .life (by decide) (by decide)
  have most := congrArg Character.maxHp life
  have hp := congrArg Character.hp life
  have pack := congrArg Character.inventory (same .pack (by decide) (by decide))
  have morals := congrArg Character.morality (same .morals (by decide) (by decide))
  change (g'.blocks c).hp = (g.blocks c).hp at hp
  change (g'.blocks c).inventory = (g.blocks c).inventory at pack
  change (g'.blocks c).morality = (g.blocks c).morality at morals
  refine ⟨⟨fun q unshared => same q ?_ ?_, most, hp.symm.le, ?_, morals.symm.le⟩,
    framed.fights c (spares .fight (by decide) (by decide))⟩
  · rintro rfl
    cases unshared
  · rintro rfl
    cases unshared
  · rw [pack]

theorem lenient_trans {g₁ g₂ g₃ : Server} (first : Lenient c g₁ g₂) (second : Lenient c g₂ g₃) :
    Lenient c g₁ g₃ :=
  ⟨mild_trans first.character second.character, second.fight.trans first.fight⟩

theorem lenient_permits (env : Env) (c : Block) (g₀ : Server) : Permits False env (fun _ => True)
    (fun _ => True) (sparing c) (fun _ => True) (Lenient c g₀) :=
  lasting_permits env fun _ _ framed lenient =>
    lenient_trans lenient (mild_framed framed fun _ unlike fixed may =>
      (may rfl).elim unlike fixed)

theorem lenient_update {f : Character → Character}
    (mild : d = c → ∀ ch, (g₀.blocks c).maxHp = ch.maxHp → Mild ch (f ch)) :
    Keeps (Lenient c g₀) (fun _ => True) (update d f) Any := by
  refine Keeps.modify fun g lenient => ?_
  rw [Server.updated]
  by_cases own : c = d
  · subst own
    refine ⟨?_, ?_⟩
    · rw [g.setBlock_own]
      exact mild_trans lenient.character (mild rfl _ lenient.character.most.symm)
    · rw [g.setBlock_own]
      exact lenient.fight
  · refine ⟨?_, ?_⟩
    · rw [g.setBlock_other _ own]
      exact lenient.character
    · rw [g.setBlock_other _ own]
      exact lenient.fight

theorem lenient_on {m : Act Unit}
    (lenient : ∀ g₁, Leads (· = g₁) (fun _ => True) m fun _ => Lenient c g₁) :
    Keeps (Lenient c g₀) (fun _ => True) m Any :=
  Leads.kept fun g₁ before =>
    (lenient g₁).weaken (fun _ _ more => lenient_trans before more) g₁ rfl

theorem line_lenient (t : Text) : Keeps (Lenient c g₀) (fun _ => True) (queueLine d t) Any :=
  ((lenient_permits quietNode c g₀).reports trivial).line (sound_lax id)

section Commands

variable (other : d ≠ c)
include other

theorem own_lenient (f : Character → Character) :
    Keeps (Lenient c g₀) (fun _ => True) (update d f) Any :=
  lenient_update fun own => absurd own other

/-- Whoever is mended is short of life, and gets some. -/
theorem mend_lenient (arg : Ptr) : Keeps (Lenient c g₀) (fun _ => True) (cmdMend d arg) Any := by
  have p := lenient_permits quietNode c g₀
  refine Keeps.bind (p.reads d) fun s _ => Keeps.bind (p.finds_prefix _ _ _) fun found _ => ?_
  cases found with
  | none => exact line_lenient _
  | some b =>
    refine lenient_on fun g₁ => ?_
    have p := lenient_permits quietNode c g₁
    have r := p.reports (d := d) trivial
    refine Leads.reads (rfl : session b g₁ = .ok (g₁.blocks b, g₁)) ?_
    refine Leads.ite (fun _ => ?_) fun short => ?_
    · exact Leads.start (lenient_start c g₁) (Leads.stays (q := Any) (line_lenient _))
    refine Leads.ite (fun _ => ?_) fun _ => ?_
    · exact Leads.start (lenient_start c g₁) (Leads.stays (q := Any) (line_lenient _))
    refine Leads.seq (M := fun g => g.blocks c = g₁.blocks c) (Leads.modify ?_) ?_
    · rintro _ rfl
      exact Server.setBlock_other _ _ other.symm
    refine Leads.seq (M := Lenient c g₁) (Leads.modify fun g same => ?_) (Leads.stays (q := Any) ?_)
    · rw [Server.updated]
      by_cases own : c = b
      · subst own
        refine ⟨?_, ?_⟩
        · rw [g.setBlock_own, same]
          exact mild_mended (by omega)
        · rw [g.setBlock_own, same]
      · refine ⟨?_, ?_⟩
        · rw [g.setBlock_other _ own, same]
          exact mild_self _
        · rw [g.setBlock_other _ own, same]
    · refine Keeps.seq (line_lenient _) (Keeps.seq (p.tells trivial (sound_lax id)) r.vitals_now)

theorem give_lenient (arg : Ptr) :
    Keeps (Lenient c g₀) (fun _ => True) (cmdGive env d arg) Any := by
  have p := lenient_permits env c g₀
  refine Keeps.bind (p.reads d) fun s _ => ?_
  split
  · exact line_lenient _
  · refine Keeps.bind (p.finds_slot _ _ _) fun slot _ => ?_
    cases slot with
    | none => exact line_lenient _
    | some i =>
      refine Keeps.bind (p.finds_prefix _ _ _) fun found _ => ?_
      cases found with
      | none => exact line_lenient _
      | some b =>
        refine Keeps.bind (p.reads b) fun t _ => Keeps.seq (own_lenient other _) ?_
        refine Keeps.seq (lenient_update fun _ ch _ => mild_add _ ch) ?_
        refine Keeps.seq (p.saves trivial) (Keeps.seq (p.saves trivial) ?_)
        exact Keeps.seq (line_lenient _) (p.tells trivial (sound_lax id))

theorem forgive_lenient (arg : Ptr) :
    Keeps (Lenient c g₀) (fun _ => True) (cmdForgive env d arg) Any := by
  have p := lenient_permits env c g₀
  have r := p.reports (d := d) trivial
  refine Keeps.bind (p.reads d) fun s _ => Keeps.branch (line_lenient _) ?_
  refine Keeps.branch (line_lenient _) (Keeps.bind (p.finds_prefix _ _ _) fun found _ => ?_)
  cases found with
  | none => exact line_lenient _
  | some b =>
    refine Keeps.bind (p.reads b) fun t _ => Keeps.bind keeps_ledger fun l _ => ?_
    refine Keeps.branch (line_lenient _) (Keeps.branch ?_ (line_lenient _))
    refine Keeps.bind (p.reads d) fun s _ => Keeps.bind (p.reads b) fun t _ => ?_
    refine Keeps.seq (p.on_ledger _ fun t shut => absurd trivial shut) ?_
    refine Keeps.seq (lenient_update fun _ ch _ => mild_forgiven ch) ?_
    refine Keeps.seq (own_lenient other _) ?_
    refine Keeps.seq (p.echoes (clean_lax _) (clean_lax _) (clean_lax _)) (Keeps.seq ?_ ?_)
    · exact p.forgiven_path_kept trivial (fun _ => .inr rfl) False.elim t
    refine Keeps.seq (p.delivers_room _ _ (sound_lax id)) ?_
    exact Keeps.seq (line_lenient _) r.affects_now

theorem arms_lenient (arm : Arm) (arg : Ptr) :
    Keeps (Lenient c g₀) (fun _ => True) (exec env d arg arm) Any := by
  have p := lenient_permits env c g₀
  by_cases reaches : ∀ q ∈ arm.reaches, q = .reply
  · refine p.exec_kept trivial ?_ (fun b _ => clean_lax b) nofun nofun fun _ _ => trivial
    exact ⟨fun _ _ own => absurd own other, fun q reached _ _ _ => .inl (reaches q reached),
      fun _ _ => trivial⟩
  · cases arm with
    | mend => exact mend_lenient other arg
    | give => exact give_lenient other arg
    | forgive => exact forgive_lenient other arg
    | _ => simp [Arm.reaches] at reaches

theorem spoken_lenient {line : Bytes} {m : Act Unit} (said : Spoken env d line g m)
    (ended : m g = .ok ((), g')) : Lenient c g g' := by
  have p := lenient_permits env c g
  have kept : Keeps (Lenient c g) (fun _ => True) m Any := by
    cases said with
    | shows quiet => exact quiet _ _ (p.reports trivial)
    | walks => exact p.move_kept trivial (fun own => absurd own other) _
    | runs => exact arms_lenient other _ _
  exact (kept.result (lenient_start c g) ended).1

end Commands

/-- What is left of a session while it does nothing itself. -/
structure Unrobbed (a b : Session) : Prop where
  peer : Peer a b
  parts : ∀ q : Part, q.shared = false → q.beaten = false →
    q.of b.toCharacter = q.of a.toCharacter
  pack : a.inventory <+: b.inventory
  morals : a.morality ≤ b.morality
  climbs : Climbs a.toCharacter b.toCharacter

theorem unrobbed_self (a : Session) : Unrobbed a a :=
  ⟨peer_self a, fun _ _ _ => rfl, List.prefix_rfl, Int.le_refl _, climbs_self _⟩

theorem unrobbed_trans {s₁ s₂ s₃ : Session} (first : Unrobbed s₁ s₂) (second : Unrobbed s₂ s₃) :
    Unrobbed s₁ s₃ where
  peer := peer_trans first.peer second.peer
  parts := fun q unshared unbeaten =>
    (second.parts q unshared unbeaten).trans (first.parts q unshared unbeaten)
  pack := first.pack.trans second.pack
  morals := Int.le_trans first.morals second.morals
  climbs := climbs_trans first.climbs second.climbs

/-- An event that is not one of the connection. -/
def Event.away (c : Block) : Event → Prop
  | .message d _ => d ≠ c
  | .close d => d ≠ c
  | _ => True

theorem lenient_same (block : g'.blocks c = g.blocks c) : Lenient c g g' := by
  refine ⟨?_, ?_⟩
  · rw [block]
    exact mild_self _
  · rw [block]

/-- An event of another, but for a beat of the timer. -/
theorem lenient_step (away : e.away c) (still : e ≠ .tick) (taken : step env g e = .ok g')
    (there : g.socket c ≠ none) (playing : (g.blocks c).state = .play) : Lenient c g g' := by
  cases step_course taken with
  | @fresh d wsi _ empty same =>
    have other : c ≠ d := fun own => there (own ▸ empty)
    rw [same]
    exact lenient_same (opened_other g wsi other)
  | @login d text s' disk' _ _ absent _ _ others =>
    exact lenient_same (others c fun own => absent (own ▸ playing))
  | @command d line wsi m given _ said ended =>
    obtain ⟨text, message, _⟩ := given
    have other : d ≠ c := by
      rw [message] at away
      exact away
    have heard : Lenient c g (g.setWsi d wsi) :=
      lenient_same (Server.setBlock_other _ _ other.symm)
    exact lenient_trans heard (spoken_lenient other said ended)
  | beat ticks => exact absurd ticks still
  | quiet idle =>
    exact ⟨by rw [idle.character c]; exact mild_self _, idle.fight c⟩

theorem unrobbed_step (away : e.away c) (taken : step env g e = .ok g') (there : g.socket c ≠ none)
    (playing : (g.blocks c).state = .play) : Unrobbed (g.blocks c) (g'.blocks c) := by
  have closes : e ≠ .close c := by
    rintro rfl
    exact away rfl
  have peer : Peer (g.blocks c) (g'.blocks c) := by
    cases step_onward taken (step_open taken there closes) with
    | fresh _ empty => exact absurd empty there
    | same _ _ peer => exact peer
    | login _ _ _ _ absent => exact absurd playing absent
  have climbs := climbs_step taken there playing
  by_cases ticks : e = .tick
  · subst ticks
    cases step_course taken with
    | fresh connects => cases connects
    | login message => cases message
    | command given =>
      obtain ⟨_, message, _⟩ := given
      cases message
    | beat _ _ ended =>
      have kept : Keeps (Framed (fun _ q => q.beaten = true) (fun _ => True) g) (fun _ => True)
          (tickService env) Any :=
        beat_framed (fun _ => rfl) (fun _ => rfl) (fun _ => rfl) trivial trivial
      have framed := (kept.result (framed_start _ _ g) ended).1
      have pack := congrArg Character.inventory (framed.parts c .pack (by decide))
      have morals := congrArg Character.morality (framed.parts c .morals (by decide))
      change (g'.blocks c).inventory = (g.blocks c).inventory at pack
      change (g'.blocks c).morality = (g.blocks c).morality at morals
      exact ⟨peer, fun q _ unbeaten => framed.parts c q (by simp [unbeaten]), by rw [pack],
        morals.symm.le, climbs⟩
    | quiet idle =>
      have same := idle.character c
      refine ⟨peer, fun q _ _ => by rw [same], ?_, ?_, climbs⟩
      · rw [same]
      · rw [same]
  · obtain ⟨mild, _⟩ := lenient_step away ticks taken there playing
    exact ⟨peer, fun q unshared _ => mild.parts q unshared, mild.pack, mild.morals, climbs⟩

/-- The words of the player at c have room for what one event may add. -/
structure Roomy (c : Block) (g : Server) : Prop where
  morals : -2 ^ 63 ≤ (g.blocks c).morality ∧ (g.blocks c).morality + 5 < 2 ^ 63
  life : -2 ^ 63 ≤ (g.blocks c).hp ∧ (g.blocks c).hp + 10 < 2 ^ 63

theorem roomy_morals (roomy : Roomy c g) : s64 (g.blocks c).morality = (g.blocks c).morality :=
  s64_small roomy.morals.1 (by have high := roomy.morals.2; omega)

theorem roomy_life (roomy : Roomy c g) : s64 (g.blocks c).hp = (g.blocks c).hp :=
  s64_small roomy.life.1 (by have high := roomy.life.2; omega)

/-- While a player sends nothing and stays, no one takes anything from that character, whatever
the others do: what is theirs may only be added to. Without a beat of the timer no one moves
it, draws it into a fight or hurts it. -/
theorem neighbours_spare (env : Env) (g g' : Server) (c : Block) (later : List Event)
    (there : g.socket c ≠ none) (playing : (g.blocks c).state = .play)
    (away : ∀ e ∈ later, e.away c) (roomy : Machine.Within (step env) (Roomy c) g later)
    (now : Machine.Reaches (step env) g later g') :
    Unrobbed (g.blocks c) (g'.blocks c) ∧
    s64 (g.blocks c).morality ≤ s64 (g'.blocks c).morality ∧
    (.tick ∉ later → (g'.blocks c).room = (g.blocks c).room ∧
      (g'.blocks c).toFight = (g.blocks c).toFight ∧
      s64 (g.blocks c).hp ≤ s64 (g'.blocks c).hp) := by
  have first := roomy [] List.nil_prefix g (Machine.reaches_nil _ g)
  have last := roomy later (List.prefix_refl _) g' now
  rw [roomy_morals first, roomy_morals last, roomy_life first, roomy_life last]
  have stays (e : Event) (absent : e.away c) : e ≠ .close c := by
    rintro rfl
    exact absent rfl
  have unrobbed := Machine.lasts
    (fun g₁ => (g₁.socket c ≠ none ∧ (g₁.blocks c).state = .play) ∧
      Unrobbed (g.blocks c) (g₁.blocks c))
    (fun e => e.away c)
    (fun g₁ e g₂ held absent taken => ⟨seated_step taken held.1.1 held.1.2 (stays e absent),
      unrobbed_trans held.2 (unrobbed_step absent taken held.1.1 held.1.2)⟩)
    now ⟨⟨there, playing⟩, unrobbed_self _⟩ away
  refine ⟨unrobbed.2, unrobbed.2.morals, fun still => ?_⟩
  have lenient := Machine.lasts
    (fun g₁ => (g₁.socket c ≠ none ∧ (g₁.blocks c).state = .play) ∧ Lenient c g g₁)
    (fun e => e.away c ∧ e ≠ .tick)
    (fun g₁ e g₂ held absent taken => ⟨seated_step taken held.1.1 held.1.2 (stays e absent.1),
      lenient_trans held.2 (lenient_step absent.1 absent.2 taken held.1.1 held.1.2)⟩)
    now ⟨⟨there, playing⟩, lenient_start c g⟩ fun e member =>
      ⟨away e member, fun ticks => still (ticks ▸ member)⟩
  have room := congrArg Character.room (lenient.2.character.parts .place rfl)
  exact ⟨room, lenient.2.fight, lenient.2.character.life⟩

/-- Everyone on this disk has a shiv. -/
def armedDisk : Disk := fun _ => some (.json (characterRecord { ada with
  inventory := [str "shiv"], secretHash := bcryptLike (str "password") oneSalt }))

/-- bo comes into play and gives the shiv away. -/
def boGives : List Event :=
  returns 1 (str "bo") ++ [.message 1 (str "give shiv to ada"), .tick]

/-- ada has what bo gave her, and her gold. -/
theorem neighbours_spare_ada : ∃ g g',
    Machine.Reaches (step quietNode) (boot quietNode armedDisk) (returns 0 (str "ada")) g ∧
    Machine.Reaches (step quietNode) g boGives g' ∧
    (g'.blocks 0).inventory = [str "shiv", str "shiv"] ∧
    (g.blocks 0).inventory <+: (g'.blocks 0).inventory ∧
    (g'.blocks 0).gold = (g.blocks 0).gold := by
  obtain ⟨g', reached, given⟩ := Machine.ends_reaches (step quietNode) (boot quietNode armedDisk)
    (returns 0 (str "ada") ++ boGives)
    (fun g => decide ((g.blocks 0).inventory = [str "shiv", str "shiv"])) (by decide +kernel)
  obtain ⟨g, again, seated⟩ := Machine.ends_reaches (step quietNode) (boot quietNode armedDisk)
    (returns 0 (str "ada"))
    (fun g => decide (g.socket 0 ≠ none ∧ (g.blocks 0).state = .play)) (by decide +kernel)
  obtain ⟨h, front, later⟩ := Machine.reaches_split reached
  cases again.symm.trans front
  obtain ⟨there, playing⟩ := of_decide_eq_true seated
  have away (e : Event) (member : e ∈ boGives) : e.away 0 := by
    simp only [boGives, returns, List.cons_append, List.nil_append, List.mem_cons,
      List.not_mem_nil, or_false] at member
    rcases member with rfl | rfl | rfl | rfl | rfl <;> simp [Event.away]
  have small := Machine.within_checked (step quietNode)
    (fun g => (g.blocks 0).morality = 0 ∧ 0 ≤ (g.blocks 0).hp ∧ (g.blocks 0).hp ≤ 30)
    (boot quietNode armedDisk) (returns 0 (str "ada") ++ boGives) (by decide +kernel)
  have roomy : Machine.Within (step quietNode) (Roomy 0) g boGives := by
    intro start start_of h between
    obtain ⟨morals, low, high⟩ := Machine.within_stretch small front start start_of h between
    exact ⟨by omega, by omega⟩
  have spared := (neighbours_spare quietNode g g' 0 boGives there playing away roomy later).1
  have purse := congrArg Character.gold (spared.parts .purse rfl rfl)
  exact ⟨g, g', front, later, of_decide_eq_true given, spared.pack, purse⟩

end HollowGrid
