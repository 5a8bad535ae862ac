import HollowGrid.Caches
import HollowGrid.Frames
import HollowGrid.Trades
import HollowGrid.Lib.Simulation
import Mathlib.Algebra.Order.BigOperators.Group.Finset

/-! The gold of a server. Only a theft and the ability make any, only a purchase uses it up, and
no purse and no cell ever goes below zero. -/
namespace HollowGrid

variable {env : Env} {players : Finset Block} {g g' : Server} {c : Block} {e : Event}

def offPurse (_ : Block) (q : Part) : Prop := q ≠ .purse

/-- What is said of the purse of c outlasts every write that leaves it alone. -/
theorem purse_last (env : Env) (c : Block) (gold : Int) :
    Permits False env (fun _ => True) (fun _ => True) offPurse (fun _ => True)
      fun g => (g.blocks c).gold = gold :=
  lasting_permits env fun _ _ framed held => by
    have same := congrArg Character.gold (framed.parts c .purse (by simp [offPurse]))
    exact same.trans held

theorem steal_mints : Leads (· = g) (fun _ => True) (cmdSteal env c) fun _ g' =>
    (g'.blocks c).gold = (g.blocks c).gold ∨ (g'.blocks c).gold = (g.blocks c).gold + 12 := by
  have before := (purse_last env c (g.blocks c).gold).reports (d := c) trivial
  have p := purse_last env c ((g.blocks c).gold + 12)
  have r := p.reports (d := c) trivial
  refine Leads.reads (rfl : session c g = .ok (g.blocks c, g)) (Leads.ite (fun _ => ?_) fun _ => ?_)
  · refine (Leads.start (P := fun g' => (g'.blocks c).gold = (g.blocks c).gold) rfl ?_).weaken
      fun _ _ same => .inl same
    exact Leads.stays (before.line (sound_lax id))
  · refine Leads.weaken (R := fun _ g' => (g'.blocks c).gold = (g.blocks c).gold + 12) ?_
      fun _ _ more => .inr more
    refine Leads.seq (M := fun g' => (g'.blocks c).gold = (g.blocks c).gold + 12)
      (Leads.modify ?_) (Leads.stays (q := Any) ?_)
    · rintro _ rfl
      rw [Server.updated, Server.setBlock_own]
    refine Keeps.seq (p.on_ledger _ fun _ shut => absurd trivial shut) ?_
    refine Keeps.seq (p.saves trivial) (Keeps.seq (p.delivers_room _ _ (sound_lax id)) ?_)
    refine Keeps.seq (r.line (sound_lax id)) (Keeps.seq r.vitals_now (Keeps.seq r.affects_now ?_))
    exact p.arc_kept trivial (by simp [offPurse])

theorem ability_mints : Leads (· = g) (fun _ => True) (emitAbility env c) fun _ g' =>
    (g'.blocks c).gold = (g.blocks c).gold ∨ (g'.blocks c).gold = (g.blocks c).gold + 15 := by
  have before := (purse_last env c (g.blocks c).gold).reports (d := c) trivial
  have r := (purse_last env c ((g.blocks c).gold + 15)).reports (d := c) trivial
  refine Leads.bind (R := fun now g' => g' = ({ g with asked := g.asked + 1 } : Server)) ?_ ?_
  · rintro _ rfl
    rfl
  intro now
  refine Leads.reads (rfl : session c { g with asked := g.asked + 1 } = .ok (g.blocks c, _)) ?_
  refine Leads.ite (fun _ => ?_) fun _ => ?_
  · refine (Leads.start (P := fun g' => (g'.blocks c).gold = (g.blocks c).gold) rfl ?_).weaken
      fun _ _ same => .inl same
    exact Leads.stays (before.said (sound_lax id))
  · refine Leads.weaken (R := fun _ g' => (g'.blocks c).gold = (g.blocks c).gold + 15) ?_
      fun _ _ more => .inr more
    refine Leads.seq (M := fun g' => (g'.blocks c).gold = (g.blocks c).gold + 15)
      (Leads.modify ?_) (Leads.stays (q := Any) ?_)
    · rintro _ rfl
      rw [Server.updated, Server.setBlock_own]
    exact Keeps.seq (r.said (sound_lax id)) r.vitals

/-- The gold that one command of a player may make. -/
def Arm.mints : Arm → Int
  | .steal => 12
  | .ability => 15
  | _ => 0

def Changed (c : Block) (amount : Int) (g g' : Server) : Prop :=
  Coins (Function.update (fun d => (g.blocks d).gold) c ((g.blocks c).gold + amount))
    g.ledger.cacheGold g'

section Framed

variable {may : Block → Part → Prop} {free : Table → Prop} {d : Block}

theorem framed_purse (framed : Framed may free g g') (shut : ¬may d .purse) :
    (g'.blocks d).gold = (g.blocks d).gold := by
  have same := congrArg Character.gold (framed.parts d .purse shut)
  exact same

theorem framed_cells (framed : Framed may free g g') (shut : ¬free .caches) :
    g'.ledger.cacheGold = g.ledger.cacheGold := by
  have same := congrArg Ledger.cacheGold (framed.ledger .caches shut)
  exact same

theorem changed_framed {amount : Int} (framed : Framed may free g g')
    (others : ∀ d, d ≠ c → ¬may d .purse) (cells : ¬free .caches)
    (own : (g'.blocks c).gold = (g.blocks c).gold + amount) : Changed c amount g g' := by
  refine ⟨fun d => ?_, framed_cells framed cells⟩
  by_cases here : d = c
  · subst here
    rw [Function.update_self, own]
  · rw [Function.update_of_ne here]
    exact framed_purse framed (others d here)

theorem unpaid_framed (framed : Framed may free g g') (purses : ∀ d, ¬may d .purse)
    (cells : ¬free .caches) : Unpaid g g' :=
  ⟨fun d => framed_purse framed (purses d), framed_cells framed cells⟩

end Framed

theorem changed_wealth {amount : Int} (part : c ∈ players) (changed : Changed c amount g g') :
    wealth players g' = wealth players g + amount := by
  unfold wealth
  rw [Finset.sum_congr rfl fun d _ => changed.1 d, changed.2,
    sum_moved part (fun d => (g.blocks d).gold)]
  omega

theorem changed_solvent {amount : Int} (solvent : Solvent players g)
    (afford : 0 ≤ (g.blocks c).gold + amount) (changed : Changed c amount g g') :
    Solvent players g' := by
  refine ⟨fun d member => ?_, fun cell inside => ?_⟩
  · rw [changed.1 d]
    by_cases own : d = c
    · subst own
      rwa [Function.update_self]
    · rw [Function.update_of_ne own]
      exact solvent.purses d member
  · rw [changed.2]
    exact solvent.cells cell inside

theorem unpaid_solvent (solvent : Solvent players g) (unpaid : Unpaid g g') :
    Solvent players g' :=
  ⟨fun d member => by rw [unpaid.1 d]; exact solvent.purses d member,
    fun cell inside => by rw [unpaid.2]; exact solvent.cells cell inside⟩

theorem own_framed (arm : Arm) (arg : Ptr) (cells : Table.caches ∉ arm.tables)
    (ended : exec env c arg arm g = .ok ((), g')) :
    Framed (fun d q => d = c ∨ q ≠ .purse) (· ≠ .caches) g g' := by
  have within : arm.Within c (fun _ => True) (fun d q => d = c ∨ q ≠ .purse) (· ≠ .caches) := by
    refine ⟨fun _ _ => .inl rfl, fun q reached d _ => .inr ?_, fun t written => ?_⟩
    · rintro rfl
      exact Bool.noConfusion (reaches_shared arm _ reached)
    · rintro rfl
      exact cells written
  exact ((exec_framed within).result (framed_start _ _ g) ended).1

theorem changed_deal (amount : Int) {bound : Int} (part : c ∈ players) (solvent : Solvent players g)
    (most : amount ≤ bound) (afford : 0 ≤ (g.blocks c).gold + amount)
    (changed : Changed c amount g g') :
    wealth players g' ≤ wealth players g + bound ∧ Solvent players g' := by
  refine ⟨?_, changed_solvent solvent afford changed⟩
  rw [changed_wealth part changed]
  omega

theorem buy_deal {arg : Ptr} (part : c ∈ players) (solvent : Solvent players g)
    (ended : cmdBuy env c arg g = .ok ((), g')) :
    wealth players g' ≤ wealth players g + 0 ∧ Solvent players g' := by
  have framed := own_framed .buy arg (by decide) ended
  have others (d : Block) (other : d ≠ c) : ¬(d = c ∨ Part.purse ≠ .purse) := by simp [other]
  obtain ⟨g₁, ran, sale⟩ := buy_sale env c arg g
  cases ran.symm.trans ended
  have purse := solvent.purses c part
  cases sale with
  | paid item price named rich done =>
    have costs := (ware_costs named).1
    have gold := congrArg Character.gold done
    have added : (invAdd (str item) { (g.blocks c).toCharacter with
        gold := (g.blocks c).gold - price }).gold = (g.blocks c).gold - price := by
      unfold invAdd
      split <;> rfl
    rw [added] at gold
    exact changed_deal (-price) part solvent (by omega) (by omega)
      (changed_framed framed others (by simp) (by rw [← Int.sub_eq_add_neg]; exact gold))
  | refused _ told =>
    exact changed_deal 0 part solvent (by omega) (by omega)
      (changed_framed framed others (by simp) (by rw [refused_gold told, Int.add_zero]))

theorem hoard_deal {h : Hoard} (part : h.player ∈ players) (solvent : Solvent players g)
    (ended : h.run env g = .ok ((), g')) :
    wealth players g' ≤ wealth players g + 0 ∧ Solvent players g' := by
  have taken : h.step env g = .ok g' := by
    rw [Hoard.step, ended]
    rfl
  obtain ⟨same, sound, _⟩ := hoard_step part solvent taken
  exact ⟨by omega, sound⟩

/-- What a player has done by a command is paid for, but for what it makes. -/
theorem arm_deal {arm : Arm} {arg : Ptr} (part : c ∈ players) (solvent : Solvent players g)
    (ended : exec env c arg arm g = .ok ((), g')) :
    wealth players g' ≤ wealth players g + arm.mints ∧ Solvent players g' := by
  have purse := solvent.purses c part
  have others (d : Block) (other : d ≠ c) : ¬(d = c ∨ Part.purse ≠ .purse) := by simp [other]
  by_cases idle : Part.purse ∉ arm.writes ∧ Table.caches ∉ arm.tables
  · have within : arm.Within c (fun _ => True) offPurse (· ≠ .caches) := by
      refine ⟨fun q wrote => ?_, fun q reached d _ => ?_, fun t written => ?_⟩
      · rintro rfl
        exact idle.1 wrote
      · rintro rfl
        exact Bool.noConfusion (reaches_shared arm _ reached)
      · rintro rfl
        exact idle.2 written
    have framed := ((exec_framed within).result (framed_start _ _ g) ended).1
    have unpaid := unpaid_framed framed (by simp [offPurse]) (by simp)
    have some_mint : 0 ≤ arm.mints := by
      unfold Arm.mints
      split <;> decide
    rw [unpaid_wealth unpaid]
    exact ⟨by omega, unpaid_solvent solvent unpaid⟩
  · cases arm with
    | buy => exact buy_deal part solvent ended
    | cache => exact hoard_deal (h := .cache c arg) part solvent ended
    | gather => exact hoard_deal (h := .gather c) part solvent ended
    | steal =>
      have framed := own_framed .steal arg (by decide) ended
      rcases steal_mints.result rfl ended with same | more
      · exact changed_deal 0 part solvent (by decide) (by omega)
          (changed_framed framed others (by simp) (by rw [same, Int.add_zero]))
      · exact changed_deal 12 part solvent (by decide) (by omega)
          (changed_framed framed others (by simp) more)
    | ability =>
      have framed := own_framed .ability arg (by decide) ended
      rcases ability_mints.result rfl ended with same | more
      · exact changed_deal 0 part solvent (by decide) (by omega)
          (changed_framed framed others (by simp) (by rw [same, Int.add_zero]))
      · exact changed_deal 15 part solvent (by decide) (by omega)
          (changed_framed framed others (by simp) more)
    | _ => exact absurd ⟨by decide, by decide⟩ idle

/-- The gold that a line of a player may make. -/
def lineMints (line : Bytes) : Int :=
  match parse line with
  | some (arm, _) => arm.mints
  | none => 0

def Event.mints : Event → Int
  | .message _ text => lineMints (cstr (trimmed text))
  | _ => 0

theorem line_mints_some (line : Bytes) : 0 ≤ lineMints line := by
  unfold lineMints
  split
  · unfold Arm.mints
    split <;> decide
  · exact Int.le_refl 0

theorem mints_some (e : Event) : 0 ≤ e.mints := by
  cases e with
  | message _ text => exact line_mints_some _
  | _ => exact Int.le_refl 0

theorem deal_rests {bound : Int} (solvent : Solvent players g)
    (purses : ∀ d ∈ players, (g'.blocks d).gold = (g.blocks d).gold)
    (cells : g'.ledger.cacheGold = g.ledger.cacheGold) (some_bound : 0 ≤ bound) :
    wealth players g' ≤ wealth players g + bound ∧ Solvent players g' := by
  have same : wealth players g' = wealth players g := by
    unfold wealth
    rw [Finset.sum_congr rfl purses, cells]
  refine ⟨by omega, fun d member => ?_, fun cell inside => ?_⟩
  · rw [purses d member]
    exact solvent.purses d member
  · rw [cells]
    exact solvent.cells cell inside

theorem spoken_deal {line : Bytes} {m : Act Unit} (part : c ∈ players) (solvent : Solvent players g)
    (said : Spoken env c line g m) (ended : m g = .ok ((), g')) :
    wealth players g' ≤ wealth players g + lineMints line ∧ Solvent players g' := by
  have rests (framed : Framed offPurse (· ≠ .caches) g g') :
      wealth players g' ≤ wealth players g + lineMints line ∧ Solvent players g' :=
    deal_rests solvent (fun d _ => framed_purse framed (by simp [offPurse]))
      (framed_cells framed (by simp)) (line_mints_some line)
  have p := framed_permits env offPurse (· ≠ .caches) g
  cases said with
  | shows quiet =>
    exact rests ((quiet _ _ (p.reports trivial)).result (framed_start _ _ g) ended).1
  | walks =>
    exact rests ((move_framed (by simp [offPurse])).result (framed_start _ _ g) ended).1
  | runs _ parsed =>
    have deal := arm_deal part solvent ended
    unfold lineMints
    rw [parsed]
    exact deal

theorem event_deal (seated : ∀ c ∈ players, g.socket c ≠ none ∧ (g.blocks c).state = .play)
    (solvent : Solvent players g) (senders : ∀ c text, e = .message c text → c ∈ players)
    (taken : step env g e = .ok g') :
    wealth players g' ≤ wealth players g + e.mints ∧ Solvent players g' := by
  cases step_course taken with
  | @fresh d wsi _ empty same =>
    rw [same]
    refine deal_rests solvent (fun c member => ?_) rfl (mints_some e)
    have other : c ≠ d := fun own => (seated c member).1 (own ▸ empty)
    rw [opened_other g wsi other]
  | @login d text s' disk' message _ away =>
    exact absurd (seated d (senders d text message)).2 away
  | @command d line wsi m given _ said ended =>
    obtain ⟨text, rfl, _, _, _, rfl⟩ := given
    have heard (b : Block) : ((g.setWsi d wsi).blocks b).gold = (g.blocks b).gold :=
      congrArg Character.gold ((idle_block rfl rfl rfl rfl : Idle g (g.setWsi d wsi)).character b)
    have start : wealth players (g.setWsi d wsi) ≤ wealth players g + 0 ∧
        Solvent players (g.setWsi d wsi) :=
      deal_rests solvent (fun b _ => heard b) rfl (Int.le_refl 0)
    have deal := spoken_deal (senders d text rfl) start.2 said ended
    refine ⟨?_, deal.2⟩
    change _ ≤ _ + lineMints (cstr (trimmed text))
    omega
  | beat _ _ ended =>
    have kept : Keeps (Framed offPurse (· ≠ .caches) g) (fun _ => True) (tickService env) Any := by
      apply beat_framed <;> simp [offPurse]
    have framed := (kept.result (framed_start _ _ g) ended).1
    exact deal_rests solvent (fun d _ => framed_purse framed (by simp [offPurse]))
      (framed_cells framed (by simp)) (mints_some e)
  | quiet idle =>
    exact deal_rests solvent (fun d _ => congrArg Character.gold (idle.character d))
      (congrArg Ledger.cacheGold idle.ledger) (mints_some e)

/-- The gold of the players and of the cells over a stretch that only they have a word in. -/
theorem stretch_deal {players : Finset Block} {later : List Event}
    (seated : ∀ c ∈ players, g.socket c ≠ none ∧ (g.blocks c).state = .play)
    (solvent : Solvent players g) (senders : ∀ c text, .message c text ∈ later → c ∈ players)
    (stays : ∀ c ∈ players, .close c ∉ later) (now : Machine.Reaches (step env) g later g') :
    wealth players g' ≤ wealth players g + (later.map Event.mints).sum ∧ Solvent players g' := by
  induction later generalizing g with
  | nil =>
    cases now
    exact ⟨by simp, solvent⟩
  | cons e rest ih =>
    obtain ⟨next, taken, onward⟩ := Machine.reaches_cons now
    have deal := event_deal seated solvent
      (fun c text message => senders c text (message ▸ List.mem_cons_self)) taken
    have still (c : Block) (member : c ∈ players) :
        next.socket c ≠ none ∧ (next.blocks c).state = .play :=
      seated_step taken (seated c member).1 (seated c member).2 fun closes =>
        stays c member (closes ▸ List.mem_cons_self)
    have later_deal := ih still deal.2
      (fun c text member => senders c text (List.mem_cons_of_mem e member))
      (fun c member closes => stays c member (List.mem_cons_of_mem e closes)) onward
    rw [List.map_cons, List.sum_cons]
    exact ⟨by omega, later_deal.2⟩

theorem solvent_bounded (solvent : Solvent players g) :
    (∀ c ∈ players, (g.blocks c).gold ≤ wealth players g) ∧
      ∀ cell < 64, g.ledger.cacheGold cell ≤ wealth players g := by
  have cells (cell : Nat) (inside : cell ∈ Finset.range 64) : 0 ≤ g.ledger.cacheGold cell :=
    solvent.cells cell (Finset.mem_range.mp inside)
  have some_gold := Finset.sum_nonneg solvent.purses
  have some_cells := Finset.sum_nonneg cells
  unfold wealth
  constructor
  · intro c member
    have most := Finset.single_le_sum solvent.purses member
    omega
  · intro cell inside
    have most := Finset.single_le_sum cells (Finset.mem_range.mpr inside)
    omega

/-- Over a stretch in which the players stay and no one else has a word, the gold of the players
and of the caches grows by no more than the thefts and the abilities bring. No purse and no cell
goes below zero or out of its word. -/
theorem gold_made (env : Env) (players : Finset Block) (g g' : Server) (later : List Event)
    (seated : ∀ c ∈ players, g.socket c ≠ none ∧ (g.blocks c).state = .play)
    (solvent : Solvent players g) (senders : ∀ c text, .message c text ∈ later → c ∈ players)
    (stays : ∀ c ∈ players, .close c ∉ later)
    (few : wealth players g + (later.map Event.mints).sum < 2 ^ 63)
    (now : Machine.Reaches (step env) g later g') :
    wealth players g' ≤ wealth players g + (later.map Event.mints).sum ∧
    (∀ c ∈ players, 0 ≤ s64 (g'.blocks c).gold ∧ s64 (g'.blocks c).gold = (g'.blocks c).gold) ∧
    ∀ cell < 64, 0 ≤ s64 (g'.ledger.cacheGold cell) ∧
      s64 (g'.ledger.cacheGold cell) = g'.ledger.cacheGold cell := by
  obtain ⟨grown, sound⟩ := stretch_deal seated solvent senders stays now
  obtain ⟨purses, cells⟩ := solvent_bounded sound
  have worded {n : Int} (low : 0 ≤ n) (high : n ≤ wealth players g') : 0 ≤ s64 n ∧ s64 n = n := by
    have same : s64 n = n := s64_small (by omega) (by omega)
    exact ⟨low.trans_eq same.symm, same⟩
  exact ⟨grown, fun c member => worded (sound.purses c member) (purses c member),
    fun cell inside => worded (sound.cells cell inside) (cells cell inside)⟩

/-- A player with five gold at the market. -/
def marketGuest : Server where
  connections := [(0, 1)]
  blocks := fun _ => { state := .play, name := str "ada", room := roomMarket, gold := 5 }
  disk := fun _ => none

theorem gold_made_market : ∃ g, Machine.Reaches (step quietNode) marketGuest
      [.message 0 (str "steal")] g ∧ (g.blocks 0).gold = 17 ∧
    wealth {0} g ≤
      wealth {0} marketGuest + ([Event.message 0 (str "steal")].map Event.mints).sum := by
  obtain ⟨g, reached, richer⟩ := Machine.ends_reaches (step quietNode) marketGuest
    [.message 0 (str "steal")] (fun g => decide ((g.blocks 0).gold = 17)) (by decide +kernel)
  have solvent : Solvent {0} marketGuest :=
    ⟨fun _ _ => Int.natCast_nonneg 5, fun _ _ => Int.le_refl 0⟩
  refine ⟨g, reached, of_decide_eq_true richer, (gold_made quietNode {0} marketGuest g
    [.message 0 (str "steal")] (fun c member => ?_) solvent (fun c text member => ?_)
    (fun c _ => by simp) (by decide) reached).1⟩
  · rw [Finset.mem_singleton.mp member]
    exact ⟨by decide, rfl⟩
  · obtain ⟨rfl, _⟩ := Event.message.inj (List.mem_singleton.mp member)
    exact Finset.mem_singleton_self 0

end HollowGrid
