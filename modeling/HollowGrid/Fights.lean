import HollowGrid.Registry

/-! A fight is pulsed by the heartbeat, which goes by the session table alone. -/
namespace HollowGrid

/-- Whoever the event lets into play finds an empty slot. -/
def FindsSlot (env : Env) (g : Server) (e : Event) : Prop :=
  ∀ c text s', e = .message c text → e.valid g = true → text.length ≤ 255 →
    (g.blocks c).state = .passphrase → Enters env (cstr (trimmed text)) (g.blocks c) s' →
    none ∈ g.sessionTable

theorem registry_seated {env : Env} {disk : Disk} {events : List Event} {g : Server}
    (reached : Machine.Reaches (step env) (boot env disk) events g)
    (met : Machine.Meets (step env) (FindsSlot env) (boot env disk) events) : Registry g := by
  refine Machine.invariant_run (step env) (FindsSlot env) Registry (boot env disk)
    (registry_boot env disk) (fun g e g' reg finds taken => ?_) events met g reached
  refine registry_step reg taken fun c seated entered => ?_
  obtain ⟨text, s', message, short, enters, _⟩ := entered.phrase
  exact finds c text s' message entered.raised short entered.asked enters

/-- Every session in play that fights is one the heartbeat walks over. -/
theorem fights_listed (env : Env) (disk : Disk) (events : List Event) (g : Server)
    (reached : Machine.Reaches (step env) (boot env disk) events g)
    (met : Machine.Meets (step env) (FindsSlot env) (boot env disk) events) :
    ∀ c, g.socket c ≠ none → (g.blocks c).state = .play → (g.blocks c).inCombat = true →
      some c ∈ g.sessionTable ∧ ∃ pulsed, inTable g = .ok (pulsed, g) ∧ c ∈ pulsed := by
  intro c there seated _
  have reg := registry_seated reached met
  have listed : some c ∈ g.sessionTable := by
    rw [reg.listed c, mem_playing]
    obtain ⟨entry, member, rfl⟩ := List.mem_map.mp ((opened_iff g c).mp there)
    exact ⟨⟨entry.2, member⟩, seated⟩
  exact ⟨listed, _, rfl, List.mem_filterMap.mpr ⟨some c, listed, rfl⟩⟩

/-- The player at c goes down to the tunnels and attacks. -/
def goesHunting (c : Block) : List Event :=
  [.message c (str "down"), .message c (str "attack rat")]

theorem fights_listed_hunt : ∃ g, Machine.Reaches (step quietNode) (boot quietNode sharedDisk)
      (returns 0 (str "ada") ++ goesHunting 0) g ∧
    (g.blocks 0).inCombat = true ∧ some 0 ∈ g.sessionTable := by
  obtain ⟨g, reached, shown⟩ := Machine.ends_reaches (step quietNode) (boot quietNode sharedDisk)
    (returns 0 (str "ada") ++ goesHunting 0)
    (fun g => decide (g.socket 0 ≠ none ∧ (g.blocks 0).state = .play ∧
      (g.blocks 0).inCombat = true)) (by decide +kernel)
  obtain ⟨there, seated, fighting⟩ := of_decide_eq_true shown
  have slots := Machine.within_checked (step quietNode) (fun g => none ∈ g.sessionTable)
    (boot quietNode sharedDisk) (returns 0 (str "ada") ++ goesHunting 0) (by decide +kernel)
  have met := Machine.meets_within (step quietNode) _ (FindsSlot quietNode) _ _ slots
    fun g e _ free _ _ _ _ _ _ _ _ => free
  exact ⟨g, reached, fighting, (fights_listed _ _ _ g reached met 0 there seated fighting).1⟩

/-- With 33 in play the one without a slot fights on its own. -/
theorem fight_not_listed : ¬ ∀ events g,
    Machine.Reaches (step quietNode) (boot quietNode sharedDisk) events g →
    ∀ c, g.socket c ≠ none → (g.blocks c).state = .play → (g.blocks c).inCombat = true →
      some c ∈ g.sessionTable := by
  intro listed
  obtain ⟨g, reached, shown⟩ := Machine.ends_reaches (step quietNode) (boot quietNode sharedDisk)
    ((List.range 33).flatMap (fun c => returns c (str "ada")) ++ goesHunting 32)
    (fun g => decide (g.socket 32 ≠ none ∧ (g.blocks 32).state = .play ∧
      (g.blocks 32).inCombat = true ∧ some 32 ∉ g.sessionTable)) (by decide +kernel)
  obtain ⟨there, seated, fighting, missing⟩ := of_decide_eq_true shown
  exact missing (listed _ g reached 32 there seated fighting)

end HollowGrid
