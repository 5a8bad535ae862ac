import HollowGrid.Frames

/-! What TRAIT_READY and MKT_RESOLVED hold a player to, as long as one connection lasts. -/
namespace HollowGrid

/-- The ability of c recharges: c is told for how long, and nothing else has changed. -/
def Recharging (env : Env) (g g' : Server) (c : Block) : Prop :=
  ∃ wsi, g' = ({ g.setWsi c wsi with asked := g.asked + 1 } : Server).queued c
    (snprintf 500 (fmtAbilityRecharging "Requisition"
      (secondsLeft (g.blocks c).traitReady (env.now g.asked))))

/-- The player at c uses the ability, at the time given, and is not refused. -/
def AbilityUsed (env : Env) (g : Server) (e : Event) (g' : Server) (c : Block) (at_ms : Int) :
    Prop :=
  ∃ line arg, Delivered g e c line ∧ RunsArm g c line .ability arg ∧ env.now g.asked = at_ms ∧
    ¬Recharging env g g' c

def noChoice : Arm → Text
  | .join => lit "There is no one here to swear to." ++ crlf ++ crlf
  | _ => lit "There is no stand to take here." ++ crlf ++ crlf

/-- There is no choice for c to make: c is told so, and nothing else has changed. -/
def Turned (g g' : Server) (c : Block) (arm : Arm) : Prop :=
  ∃ wsi, g' = (g.setWsi c wsi).queued c (noChoice arm)

/-- The player at c makes the choice of the market, and is not refused. -/
def MarketChosen (g : Server) (e : Event) (g' : Server) (c : Block) : Prop :=
  ∃ line arm arg, Delivered g e c line ∧ RunsArm g c line arm arg ∧
    (arm = .join ∨ arm = .defend) ∧ (g.blocks c).room = roomMarket ∧ ¬Turned g g' c arm

/-- A clock that counts up from the epoch, and not for ever. -/
def Clock (env : Env) : Prop := ∀ n, 0 ≤ env.now n ∧ env.now n < 2 ^ 63

/-- The session may not use its ability before the time given. -/
structure Waits (at_ms : Int) (s : Session) : Prop where
  later : at_ms ≤ s.traitReady
  fits : s.traitReady < 2 ^ 64

theorem u64_small {n : Int} (low : 0 ≤ n) (high : n < 2 ^ 64) : u64 n = n :=
  Int.emod_eq_of_lt low (by omega)

section Ability

variable {env : Env} {c : Block} {g : Server}

theorem ability_refused
    (early : (g.blocks c).traitReady ≠ 0 ∧ u64 (env.now g.asked) < u64 (g.blocks c).traitReady) :
    emitAbility env c g = .ok ((), ({ g with asked := g.asked + 1 } : Server).queued c
      (snprintf 500 (fmtAbilityRecharging "Requisition"
        (secondsLeft (g.blocks c).traitReady (env.now g.asked))))) := by
  rw [emitAbility, bind_ok (rfl : nowMs env g = .ok (env.now g.asked, _)),
    bind_ok (rfl : session c { g with asked := g.asked + 1 } = .ok (g.blocks c, _)), if_pos early]
  rfl

/-- A waiting time and a purse outlast everything that does not write them. -/
theorem trait_last (env : Env) (c : Block) (n gold : Int) :
    Permits False env (fun _ => True) (fun _ => True) (fun _ q => q ≠ .trait ∧ q ≠ .purse)
      (fun _ => True) fun g => (g.blocks c).traitReady = n ∧ (g.blocks c).gold = gold :=
  lasting_permits env fun g g' framed held => by
    have purse := congrArg Character.gold (framed.parts c .purse (by simp))
    exact ⟨(framed.trait (by simp)).trans held.1, Eq.trans purse held.2⟩

/-- An accepted use pays and moves the time on, a refused one leaves both. -/
theorem ability_leads :
    Leads (· = g) (fun _ => True) (emitAbility env c) fun _ g' =>
      if (g.blocks c).traitReady ≠ 0 ∧ u64 (env.now g.asked) < u64 (g.blocks c).traitReady then
        (g'.blocks c).traitReady = (g.blocks c).traitReady ∧
          (g'.blocks c).gold = (g.blocks c).gold
      else (g'.blocks c).traitReady = env.now g.asked + 180000 ∧
        (g'.blocks c).gold = (g.blocks c).gold + 15 := by
  have r (n gold : Int) : Reports False env (fun _ => True) c
      fun g' => (g'.blocks c).traitReady = n ∧ (g'.blocks c).gold = gold :=
    (trait_last env c n gold).reports trivial
  apply Leads.bind (R := fun now g' => now = env.now g.asked ∧
    g' = ({ g with asked := g.asked + 1 } : Server))
  · rintro _ rfl
    exact ⟨rfl, rfl⟩
  intro now
  apply Leads.given
  rintro rfl
  apply Leads.reads (rfl : session c { g with asked := g.asked + 1 } = .ok (g.blocks c, _))
  split
  · apply Leads.start (P := fun g' => (g'.blocks c).traitReady = (g.blocks c).traitReady ∧
      (g'.blocks c).gold = (g.blocks c).gold) ⟨rfl, rfl⟩
    exact Leads.stays ((r _ _).said nofun)
  · apply Leads.seq (M := fun g' => (g'.blocks c).traitReady = env.now g.asked + 180000 ∧
      (g'.blocks c).gold = (g.blocks c).gold + 15)
    · apply Leads.modify
      rintro _ rfl
      rw [Server.updated, Server.setBlock_own]
      exact ⟨rfl, rfl⟩
    · exact Leads.stays (Keeps.seq ((r _ _).said nofun) (r _ _).vitals)

/-- A use that the ability allows comes no earlier than TRAIT_READY, and puts it off. -/
theorem used_waits {at_ms bound : Int} (clock : 0 ≤ at_ms ∧ at_ms < 2 ^ 63) {s : Session}
    (waits : Waits bound s) (positive : 0 < bound)
    (allowed : ¬(s.traitReady ≠ 0 ∧ u64 at_ms < u64 s.traitReady)) : bound ≤ at_ms := by
  obtain ⟨later, fits⟩ := waits
  rw [u64_small clock.1 (by omega), u64_small (by omega) fits] at allowed
  omega

theorem ability_waits {bound : Int} (clock : Clock env) (positive : 0 < bound)
    (waits : Waits bound (g.blocks c)) :
    Leads (· = g) (fun _ => True) (emitAbility env c) fun _ g' => Waits bound (g'.blocks c) := by
  apply Leads.weaken ability_leads
  intro _ g' ready
  have now := clock g.asked
  split at ready
  · exact ⟨ready.1 ▸ waits.later, ready.1 ▸ waits.fits⟩
  · rename_i allowed
    have after := used_waits now waits positive allowed
    exact ⟨by omega, by omega⟩

end Ability

section Market

variable {env : Env} {c : Block} {g : Server}

theorem choice_refused {arm : Arm} {arg : Ptr} (choice : arm = .join ∨ arm = .defend)
    (here : (g.blocks c).room = roomMarket) (made : (g.blocks c).mktResolved ≠ 0) :
    exec env c arg arm g = .ok ((), g.queued c (noChoice arm)) := by
  have start : session c g = .ok (g.blocks c, g) := rfl
  rcases choice with rfl | rfl
  · have away : (g.blocks c).room ≠ roomDais := by
      rw [here]
      decide
    change cmdJoin env c g = _
    rw [cmdJoin, bind_ok start, if_neg away, if_pos (.inr made)]
    rfl
  · change cmdDefend env c g = _
    rw [cmdDefend, bind_ok start, if_pos (.inr made)]
    rfl

theorem market_lasts (env : Env) (c : Block) (P : Int → Prop) :
    Permits False env (fun _ => True) (fun _ => True) (fun _ q => q ≠ .market) (fun _ => True)
      fun g => P (g.blocks c).mktResolved :=
  lasting_permits env fun g g' framed held => by
    rw [framed.market (by simp)]
    exact held

/-- A choice once made is never unmade, nor is another taken. -/
theorem join_market (P : Int → Prop) (chosen : P 1) (kept : (g.blocks c).mktResolved ≠ 0 →
    P (g.blocks c).mktResolved) (elsewhere : (g.blocks c).room ≠ roomMarket →
    P (g.blocks c).mktResolved) :
    Leads (· = g) (fun _ => True) (cmdJoin env c) fun _ g' => P (g'.blocks c).mktResolved := by
  have p := market_lasts env c P
  have r := p.reports (d := c) trivial
  apply Leads.reads (rfl : session c g = .ok (g.blocks c, g))
  apply Leads.ite
  · intro dais
    have away : (g.blocks c).room ≠ roomMarket := by
      rw [dais]
      decide
    exact Leads.start (elsewhere away)
      (Leads.stays (p.pledge_kept trivial (by simp) (by simp) (by simp) trivial))
  intro _
  apply Leads.ite
  · rintro (away | made)
    · exact Leads.start (elsewhere away) (Leads.stays (r.said nofun))
    · exact Leads.start (kept made) (Leads.stays (r.said nofun))
  intro _
  apply Leads.seq (M := fun g' => P (g'.blocks c).mktResolved)
  · apply Leads.modify
    rintro _ rfl
    rw [Server.updated, Server.setBlock_own]
    change P (takeCoin _ _).mktResolved
    unfold takeCoin
    split <;> exact chosen
  · apply Leads.stays (q := Any)
    apply Keeps.seq (r.said nofun)
    apply Keeps.seq r.affects
    apply Keeps.seq r.vitals
    apply Keeps.seq (p.oath_kept trivial)
    apply Keeps.seq (p.shifts _)
    exact Keeps.seq (p.arc_kept trivial (by simp)) (p.saves trivial)

theorem defend_market (P : Int → Prop) (chosen : P 2) (kept : (g.blocks c).mktResolved ≠ 0 →
    P (g.blocks c).mktResolved) (elsewhere : (g.blocks c).room ≠ roomMarket →
    P (g.blocks c).mktResolved) :
    Leads (· = g) (fun _ => True) (cmdDefend env c) fun _ g' => P (g'.blocks c).mktResolved := by
  have p := market_lasts env c P
  have r := p.reports (d := c) trivial
  apply Leads.reads (rfl : session c g = .ok (g.blocks c, g))
  apply Leads.ite
  · rintro (away | made)
    · exact Leads.start (elsewhere away) (Leads.stays (r.said nofun))
    · exact Leads.start (kept made) (Leads.stays (r.said nofun))
  intro _
  apply Leads.seq (M := fun g' => P (g'.blocks c).mktResolved)
  · apply Leads.modify
    rintro _ rfl
    rw [Server.updated, Server.setBlock_own]
    change P (invAdd _ _).mktResolved
    unfold invAdd
    split <;> exact chosen
  · apply Leads.stays (q := Any)
    apply Keeps.seq (r.said nofun)
    apply Keeps.seq r.affects
    apply Keeps.seq r.vitals
    exact Keeps.seq (p.shifts _) (p.saves trivial)

end Market

section Connection

variable {env : Env} {c : Block} {g₁ g g₂ : Server} {e₁ e₂ : Event} {mid : List Event}

theorem runs_step {line : Bytes} {arm : Arm} {arg : Ptr} (given : Delivered g₁ e₁ c line)
    (runs : RunsArm g₁ c line arm arg) (taken : step env g₁ e₁ = .ok g) : ∃ wsi,
    exec env c arg arm (g₁.setWsi c wsi) = .ok ((), g) := by
  obtain ⟨wsi, ran⟩ := delivered_run env given
  have heard : Idle g₁ (g₁.setWsi c wsi) := idle_block rfl rfl rfl rfl
  have same : ((g₁.setWsi c wsi).blocks c).room = (g₁.blocks c).room :=
    congrArg Character.room (heard.character c)
  have still : RunsArm (g₁.setWsi c wsi) c line arm arg :=
    ⟨runs.looks, runs.at_one, same ▸ runs.stays, runs.parsed⟩
  refine ⟨wsi, ?_⟩
  rw [← runs_arm env still]
  exact map_ok (ran.symm.trans taken)

theorem delivered_seated {line : Bytes} (given : Delivered g₁ e₁ c line) :
    g₁.socket c ≠ none ∧ (g₁.blocks c).state = .play ∧ e₁ ≠ .close c := by
  obtain ⟨text, rfl, raised, _, playing, _⟩ := given
  simp only [Event.valid, Bool.and_eq_true, decide_eq_true_eq] at raised
  exact ⟨raised.1.1, playing, by simp⟩

/-- Who uses the ability may, is paid, and waits for the next time. -/
theorem used_paid {at_ms : Int} (used : AbilityUsed env g₁ e₁ g c at_ms)
    (taken : step env g₁ e₁ = .ok g) :
    ¬((g₁.blocks c).traitReady ≠ 0 ∧ u64 at_ms < u64 (g₁.blocks c).traitReady) ∧
      (g.blocks c).traitReady = at_ms + 180000 ∧ (g.blocks c).gold = (g₁.blocks c).gold + 15 := by
  obtain ⟨line, arg, given, runs, rfl, done⟩ := used
  obtain ⟨wsi, ended⟩ := runs_step given runs taken
  have heard : Idle g₁ (g₁.setWsi c wsi) := idle_block rfl rfl rfl rfl
  have ready : ((g₁.setWsi c wsi).blocks c).traitReady = (g₁.blocks c).traitReady :=
    congrArg Character.traitReady (heard.character c)
  have gold : ((g₁.setWsi c wsi).blocks c).gold = (g₁.blocks c).gold :=
    congrArg Character.gold (heard.character c)
  have asked : (g₁.setWsi c wsi).asked = g₁.asked := rfl
  have allowed :
      ¬((g₁.blocks c).traitReady ≠ 0 ∧ u64 (env.now g₁.asked) < u64 (g₁.blocks c).traitReady) := by
    intro early
    have refused : emitAbility env c (g₁.setWsi c wsi) = _ :=
      ability_refused (by rw [ready, asked]; exact early)
    rw [ready] at refused
    have same := ended.symm.trans refused
    simp only [Except.ok.injEq, Prod.mk.injEq, true_and] at same
    exact done ⟨wsi, same⟩
  have led : Leads (· = g₁.setWsi c wsi) (fun _ => True) (emitAbility env c) _ := ability_leads
  have paid := led.result rfl ended
  rw [ready, gold, asked, if_neg allowed] at paid
  exact ⟨allowed, paid⟩

/-- Two uses over one connection are three minutes apart. -/
theorem ability_spaced (clock : Clock env) {at₁ at₂ : Int} {g₃ : Server}
    (first : AbilityUsed env g₁ e₁ g c at₁) (taken : step env g₁ e₁ = .ok g)
    (between : Machine.Reaches (step env) g mid g₂) (stays : .close c ∉ mid)
    (second : AbilityUsed env g₂ e₂ g₃ c at₂) (again : step env g₂ e₂ = .ok g₃) :
    at₁ + 180000 ≤ at₂ := by
  obtain ⟨_, ready, _⟩ := used_paid first taken
  obtain ⟨allowed₂, _⟩ := used_paid second again
  obtain ⟨line, arg, given, _, rfl, _⟩ := first
  obtain ⟨_, _, _, _, rfl, _⟩ := second
  have now := clock g₁.asked
  obtain ⟨there, playing, open_still⟩ := delivered_seated given
  obtain ⟨there', playing'⟩ := seated_step taken there playing open_still
  have waits : Waits (env.now g₁.asked + 180000) (g.blocks c) := ⟨by omega, by omega⟩
  have kept : Waits (env.now g₁.asked + 180000) (g₂.blocks c) := by
    apply part_run .trait rfl rfl (fun s s' same waits => ?_)
      (fun g g' line m said ended held => ?_)
      between there' playing' waits stays
    · have ready := congrArg Character.traitReady same
      change s'.traitReady = s.traitReady at ready
      exact ⟨ready ▸ waits.later, ready ▸ waits.fits⟩
    · by_cases uses : m = emitAbility env c
      · subst uses
        exact (ability_waits clock (by omega) held).result rfl ended
      · have framed : Framed (fun _ q => q ≠ .trait) (fun _ => True) g g' := by
          apply spoken_framed said ended nofun
          intro arm arg _ same
          have other : arm ≠ .ability := by
            rintro rfl
            exact uses same
          constructor
          · cases arm <;> first | exact absurd rfl other | decide
          · cases arm <;> simp [Arm.reaches]
          · exact fun _ _ => trivial
        have ready := framed.trait (d := c) (by simp)
        exact ⟨ready ▸ held.later, ready ▸ held.fits⟩
  exact used_waits (clock g₂.asked) kept (by omega) allowed₂

theorem choice_lasts {g' : Server} {line : Bytes} {m : Act Unit} (said : Spoken env c line g m)
    (ended : m g = .ok ((), g')) (made : (g.blocks c).mktResolved ≠ 0) :
    (g'.blocks c).mktResolved ≠ 0 := by
  by_cases joins : m = cmdJoin env c
  · subst joins
    exact (join_market (· ≠ 0) (by decide) (fun _ => made) fun _ => made).result rfl ended
  by_cases defends : m = cmdDefend env c
  · subst defends
    exact (defend_market (· ≠ 0) (by decide) (fun _ => made) fun _ => made).result rfl ended
  · have framed : Framed (fun _ q => q ≠ .market) (fun _ => True) g g' := by
      apply spoken_framed said ended nofun
      intro arm arg _ same
      have other : arm ≠ .join ∧ arm ≠ .defend := by
        constructor
        · rintro rfl
          exact joins same
        · rintro rfl
          exact defends same
      constructor
      · cases arm <;> first | exact absurd rfl other.1 | exact absurd rfl other.2 | decide
      · cases arm <;> simp [Arm.reaches]
      · exact fun _ _ => trivial
    rw [framed.market (by simp)]
    exact made

/-- Who makes the choice had none made, and has one made then. -/
theorem chosen_once (chosen : MarketChosen g₁ e₁ g c) (taken : step env g₁ e₁ = .ok g) :
    (g₁.blocks c).mktResolved = 0 ∧ (g.blocks c).mktResolved ≠ 0 := by
  obtain ⟨line, arm, arg, given, runs, choice, here, done⟩ := chosen
  obtain ⟨wsi, ended⟩ := runs_step given runs taken
  have heard : Idle g₁ (g₁.setWsi c wsi) := idle_block rfl rfl rfl rfl
  have room : ((g₁.setWsi c wsi).blocks c).room = roomMarket :=
    (congrArg Character.room (heard.character c)).trans here
  have same : ((g₁.setWsi c wsi).blocks c).mktResolved = (g₁.blocks c).mktResolved :=
    congrArg Character.mktResolved (heard.character c)
  constructor
  · by_contra made
    have refused : exec env c arg arm (g₁.setWsi c wsi) = _ :=
      choice_refused choice room (by rw [same]; exact made)
    have last := ended.symm.trans refused
    simp only [Except.ok.injEq, Prod.mk.injEq, true_and] at last
    exact done ⟨wsi, last⟩
  · rcases choice with rfl | rfl
    · exact (join_market (· ≠ 0) (by decide) id fun away => absurd room away).result rfl ended
    · exact (defend_market (· ≠ 0) (by decide) id fun away => absurd room away).result rfl ended

theorem market_once {g₃ : Server} (first : MarketChosen g₁ e₁ g c)
    (taken : step env g₁ e₁ = .ok g) (between : Machine.Reaches (step env) g mid g₂)
    (stays : .close c ∉ mid) (again : step env g₂ e₂ = .ok g₃) : ¬MarketChosen g₂ e₂ g₃ c := by
  intro second
  have unmade := (chosen_once second again).1
  have made := (chosen_once first taken).2
  obtain ⟨line, arm, arg, given, _⟩ := first
  obtain ⟨there, playing, open_still⟩ := delivered_seated given
  obtain ⟨there', playing'⟩ := seated_step taken there playing open_still
  revert unmade
  apply part_run (P := fun s => s.mktResolved ≠ 0) .market rfl rfl (fun s s' same held => ?_)
    (fun g g' line m said ended held => choice_lasts said ended held) between there' playing' made
    stays
  have still := congrArg Character.mktResolved same
  change s'.mktResolved = s.mktResolved at still
  rw [still]
  exact held

end Connection

/-- Whatever else the run does, the two limits hold over one connection of a character. A use
pays fifteen. -/
theorem limits_over_connection (env : Env) (clock : Clock env) (disk : Disk) (before : List Event)
    (e₁ : Event) (mid : List Event) (e₂ : Event) (g₁ g g₂ g₃ : Server) (c : Block)
    (_ : Machine.Reaches (step env) (boot env disk) before g₁) (taken : step env g₁ e₁ = .ok g)
    (between : Machine.Reaches (step env) g mid g₂) (stays : .close c ∉ mid)
    (again : step env g₂ e₂ = .ok g₃) :
    (∀ at₁ at₂, AbilityUsed env g₁ e₁ g c at₁ → AbilityUsed env g₂ e₂ g₃ c at₂ →
      at₁ + 180000 ≤ at₂ ∧ (g.blocks c).gold = (g₁.blocks c).gold + 15 ∧
        (g₃.blocks c).gold = (g₂.blocks c).gold + 15) ∧
    (MarketChosen g₁ e₁ g c → ¬MarketChosen g₂ e₂ g₃ c) :=
  ⟨fun _ _ first second => ⟨ability_spaced clock first taken between stays second again,
      (used_paid first taken).2.2, (used_paid second again).2.2⟩,
    fun first => market_once first taken between stays again⟩

/-- The word alone, from a player in play whom it stays in the room. -/
def abilityAsked (g : Server) (c : Block) : Bool :=
  decide ((Event.message c (str "ability")).valid g = true ∧ (g.blocks c).state = .play ∧
    roomMove (g.blocks c).room (str "ability") = .unknown)

/-- A word that is paid is a use. -/
theorem ability_used {env : Env} {g g' : Server} {c : Block} (asks : abilityAsked g c = true)
    (paid : (g'.blocks c).gold ≠ (g.blocks c).gold) :
    AbilityUsed env g (.message c (str "ability")) g' c (env.now g.asked) := by
  obtain ⟨raised, playing, stays⟩ := of_decide_eq_true asks
  have parsed : parse (str "ability") = some (.ability, none) := by decide +kernel
  refine ⟨str "ability", none, ⟨str "ability", rfl, raised, by decide, playing, by decide⟩,
    ⟨by decide, by decide, ?_, parsed⟩, rfl, ?_⟩
  · have plain : heading (str "ability") = str "ability" := by decide
    rw [plain]
    exact stays
  · rintro ⟨wsi, rfl⟩
    have heard : Idle g (g.setWsi c wsi) := idle_block rfl rfl rfl rfl
    refine paid ?_
    rw [Server.queued, Server.setBlock_own]
    exact congrArg Character.gold (heard.character c)

def slowNode : Env := { quietNode with now := fun n => min (200000 * (n : Int)) 1000000000000 }

theorem slow_clock : Clock slowNode := by
  intro n
  change 0 ≤ min (200000 * (n : Int)) 1000000000000 ∧
    min (200000 * (n : Int)) 1000000000000 < 2 ^ 63
  omega

/-- The purse of ada, and whether she may send the word. -/
def purseIs (gold : Int) (g : Server) : Bool :=
  abilityAsked g 0 && decide ((g.blocks 0).gold = gold)

theorem purse_parts {gold : Int} {g : Server} (shown : purseIs gold g = true) :
    abilityAsked g 0 = true ∧ (g.blocks 0).gold = gold := by
  obtain ⟨asks, purse⟩ := (Bool.and_eq_true ..).mp shown
  exact ⟨asks, of_decide_eq_true purse⟩

/-- Two uses of one player, with the clock gone on between them. -/
theorem limits_over_connection_wait : ∃ g₁ g₂ g₃ : Server,
    slowNode.now g₁.asked + 180000 ≤ slowNode.now g₂.asked ∧ (g₁.blocks 0).gold = 20 ∧
      (g₂.blocks 0).gold = 35 ∧ (g₃.blocks 0).gold = 50 := by
  have uses (events : List Event) (gold : Int)
      (passed : Machine.ends (step slowNode) (boot slowNode sharedDisk) events (purseIs gold) =
        true) :=
    Machine.ends_reaches (step slowNode) (boot slowNode sharedDisk) events _ passed
  obtain ⟨g₁, reached₁, shown₁⟩ := uses (returns 0 (str "ada")) 20 (by decide +kernel)
  obtain ⟨g₂, reached₂, shown₂⟩ :=
    uses (returns 0 (str "ada") ++ [.message 0 (str "ability")]) 35 (by decide +kernel)
  obtain ⟨g₃, reached₃, shown₃⟩ := uses (returns 0 (str "ada") ++ [.message 0 (str "ability")] ++
    [.message 0 (str "ability")]) 50 (by decide +kernel)
  obtain ⟨_, front₁, taken₁⟩ := Machine.reaches_snoc_cases _ _ _ _ _ reached₂
  cases reached₁.symm.trans front₁
  obtain ⟨_, front₂, taken₂⟩ := Machine.reaches_snoc_cases _ _ _ _ _ reached₃
  cases reached₂.symm.trans front₂
  obtain ⟨asks₁, purse₁⟩ := purse_parts shown₁
  obtain ⟨asks₂, purse₂⟩ := purse_parts shown₂
  obtain ⟨_, purse₃⟩ := purse_parts shown₃
  obtain ⟨spaced, _, _⟩ := (limits_over_connection slowNode slow_clock sharedDisk _ _ [] _
    g₁ g₂ g₂ g₃ 0 reached₁ taken₁ rfl List.not_mem_nil taken₂).1 _ _
    (ability_used asks₁ (by omega)) (ability_used asks₂ (by omega))
  exact ⟨g₁, g₂, g₃, spaced, purse₁, purse₂, purse₃⟩

/-- A player who comes back uses the ability again at once. -/
theorem ability_again_at_once : ¬ ∀ before e₁ mid e₂ (g₁ g g₂ g₃ : Server) c₁ c₂ at₁ at₂,
    Machine.Reaches (step quietNode) (boot quietNode sharedDisk) before g₁ →
    step quietNode g₁ e₁ = .ok g → Machine.Reaches (step quietNode) g mid g₂ →
    step quietNode g₂ e₂ = .ok g₃ → (g₁.blocks c₁).name = (g₂.blocks c₂).name →
    AbilityUsed quietNode g₁ e₁ g c₁ at₁ → AbilityUsed quietNode g₂ e₂ g₃ c₂ at₂ →
    at₁ + 180000 ≤ at₂ := by
  intro spaced
  have uses (events : List Event) (gold : Int)
      (passed : Machine.ends (step quietNode) (boot quietNode sharedDisk) events
        (fun g => purseIs gold g && decide ((g.blocks 0).name = str "ada")) = true) :=
    Machine.ends_reaches (step quietNode) (boot quietNode sharedDisk) events _ passed
  obtain ⟨g₁, reached₁, shown₁⟩ := uses (returns 0 (str "ada")) 20 (by decide +kernel)
  obtain ⟨g, reached, shown⟩ :=
    uses (returns 0 (str "ada") ++ [.message 0 (str "ability")]) 35 (by decide +kernel)
  obtain ⟨g₂, reached₂, shown₂⟩ := uses (returns 0 (str "ada") ++ [.message 0 (str "ability")] ++
    .close 0 :: returns 0 (str "ada")) 35 (by decide +kernel)
  obtain ⟨g₃, reached₃, shown₃⟩ := uses (returns 0 (str "ada") ++ [.message 0 (str "ability")] ++
    .close 0 :: returns 0 (str "ada") ++ [.message 0 (str "ability")]) 50 (by decide +kernel)
  obtain ⟨_, front₁, taken⟩ := Machine.reaches_snoc_cases _ _ _ _ _ reached
  cases reached₁.symm.trans front₁
  obtain ⟨_, front, between⟩ := Machine.reaches_split reached₂
  cases reached.symm.trans front
  obtain ⟨_, front₂, again⟩ := Machine.reaches_snoc_cases _ _ _ _ _ reached₃
  cases reached₂.symm.trans front₂
  rw [Bool.and_eq_true] at shown₁ shown shown₂ shown₃
  obtain ⟨asks₁, purse₁⟩ := purse_parts shown₁.1
  obtain ⟨_, purse⟩ := purse_parts shown.1
  obtain ⟨asks₂, purse₂⟩ := purse_parts shown₂.1
  obtain ⟨_, purse₃⟩ := purse_parts shown₃.1
  have far := spaced _ _ _ _ g₁ g g₂ g₃ 0 0 _ _ reached₁ taken between again
    ((of_decide_eq_true shown₁.2).trans (of_decide_eq_true shown₂.2).symm)
    (ability_used asks₁ (by omega)) (ability_used asks₂ (by omega))
  change (0 : Int) + 180000 ≤ 0 at far
  omega

end HollowGrid
