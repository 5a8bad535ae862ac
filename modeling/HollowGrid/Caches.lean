import HollowGrid.Permits
import HollowGrid.Callback
import Mathlib.Algebra.BigOperators.Group.Finset.Piecewise

/-! The gold of the players and of the caches, over every order of cache and gather. -/
namespace HollowGrid

/-- The purses of all sessions and the cells of cache_gold. -/
def Coins (purse : Block → Int) (cells : Nat → Int) (g : Server) : Prop :=
  (∀ d, (g.blocks d).gold = purse d) ∧ g.ledger.cacheGold = cells

section Kept

variable {E : Fault → Prop} {purse : Block → Int} {cells : Nat → Int}

theorem coins_block {g : Server} (coins : Coins purse cells g) {c : Block} {s : Session}
    (same : s.gold = (g.blocks c).gold) : Coins purse cells (g.setBlock c s) := by
  constructor
  · intro d
    by_cases own : d = c
    · subst own
      rw [g.setBlock_own, same]
      exact coins.1 d
    · rw [g.setBlock_other s own]
      exact coins.1 d
  · exact coins.2

theorem queue_coins (c : Block) (t : Text) : Keeps (Coins purse cells) E (queue c t) Any :=
  Keeps.modify fun _ coins => coins_block coins rfl

theorem line_coins (c : Block) (t : Text) : Keeps (Coins purse cells) E (queueLine c t) Any :=
  keeps_when (queue_coins c _)

theorem vitals_coins (c : Block) : Keeps (Coins purse cells) E (emitVitalsNow c) Any :=
  Keeps.bind (keeps_session c) fun _ _ => queue_coins c _

theorem affects_coins (c : Block) : Keeps (Coins purse cells) E (emitAffectsNow c) Any :=
  Keeps.bind (keeps_session c) fun _ _ => queue_coins c _

theorem save_coins (env : Env) (c : Block) : Keeps (Coins purse cells) E (storeSave env c) Any := by
  intro g coins
  rw [store_save_run]
  obtain ⟨disk, asked, _, same⟩ := saved_disk env c g
  rw [same]
  exact ⟨coins, trivial⟩

theorem echo_coins (env : Env) (node kind text : Bytes) :
    Keeps (Coins purse cells) E (gridRecordLocalEcho env node kind text) Any := by
  apply Keeps.bind (R := Any)
  · intro g coins
    exact ⟨coins, trivial⟩
  · intro at_ms _
    apply Keeps.modify
    intro g coins
    exact coins

theorem update_coins (purse : Block → Int) (cells : Nat → Int) (c : Block)
    (f : Character → Character) (amount : Int) (paid : ∀ ch, (f ch).gold = ch.gold + amount) :
    Leads (Coins purse cells) E (update c f) fun _ =>
      Coins (Function.update purse c (purse c + amount)) cells := by
  apply Leads.modify
  intro g coins
  constructor
  · intro d
    by_cases own : d = c
    · subst own
      rw [Server.updated, Server.setBlock_own, Function.update_self, paid, coins.1]
    · rw [Server.updated, Server.setBlock_other _ _ own, Function.update_of_ne own]
      exact coins.1 d
  · exact coins.2

end Kept

def cacheTaken (s : Session) (arg : Ptr) : Option (Nat × Int) :=
  let gold := atoll (argument arg)
  if gold ≤ 0 ∨ s.gold < gold then none else (cacheCell s.room).map fun cell => (cell, gold)

def gatherTaken (s : Session) (l : Ledger) : Option (Nat × Int) :=
  if 0 < cachePeek l s.room then (cacheCell s.room).map fun cell => (cell, cachePeek l s.room)
  else none

/-- One of the two commands, by the player at c. -/
inductive Hoard
  | cache (c : Block) (arg : Ptr)
  | gather (c : Block)

namespace Hoard

def player : Hoard → Block
  | cache c _ => c
  | gather c => c

def run (env : Env) : Hoard → Act Unit
  | cache c arg => cmdCache env c arg
  | gather c => cmdGather env c

/-- The cell that takes part and the gold that goes into it, of an accepted command. -/
def moved (g : Server) : Hoard → Option (Nat × Int)
  | cache c arg => cacheTaken (g.blocks c) arg
  | gather c => (gatherTaken (g.blocks c) g.ledger).map fun found => (found.1, -found.2)

def step (env : Env) (g : Server) (h : Hoard) : Except Fault Server := (h.run env g).map Prod.snd

end Hoard

def Paid (g : Server) (c : Block) (cell : Nat) (gold : Int) (g' : Server) : Prop :=
  Coins (Function.update (fun d => (g.blocks d).gold) c ((g.blocks c).gold - gold))
    (Function.update g.ledger.cacheGold cell (g.ledger.cacheGold cell + gold)) g'

/-- Nothing has moved. -/
def Unpaid (g g' : Server) : Prop := Coins (fun d => (g.blocks d).gold) g.ledger.cacheGold g'

theorem cell_bound {room : Int} {cell : Nat} (found : cacheCell room = some cell) : cell < 64 := by
  unfold cacheCell at found
  split at found
  · cases found
    omega
  · cases found

section Commands

variable {E : Fault → Prop} (env : Env) (c : Block) (g : Server)

theorem unpaid_start : Unpaid g g := ⟨fun _ => rfl, rfl⟩

theorem cache_paid (arg : Ptr) {cell : Nat} {gold : Int}
    (taken : cacheTaken (g.blocks c) arg = some (cell, gold)) :
    Leads (· = g) E (cmdCache env c arg) fun _ => Paid g c cell gold := by
  simp only [cacheTaken, Option.ite_none_left_eq_some, not_or, not_le, not_lt,
    Option.map_eq_some_iff, Prod.mk.injEq] at taken
  obtain ⟨⟨some_gold, held⟩, _, found, same, rfl⟩ := taken
  cases same
  apply Leads.reads (rfl : session c g = .ok (g.blocks c, g))
  simp only [if_neg (not_le.mpr some_gold), if_neg (not_lt.mpr held), found]
  have pays := update_coins (E := E) (fun d => (g.blocks d).gold) g.ledger.cacheGold c
    (fun ch => { ch with gold := ch.gold - atoll (argument arg), morality := ch.morality + 2 })
    (-atoll (argument arg)) fun ch => sub_eq_add_neg ..
  apply Leads.seq (Leads.start (unpaid_start g) pays)
  apply Leads.seq (M := Paid g c cell (atoll (argument arg)))
  · apply Leads.modify
    rintro g' ⟨purses, cells⟩
    refine ⟨purses, ?_⟩
    change (cacheAdd g'.ledger cell _).cacheGold = _
    rw [cacheAdd, cells]
  · apply Leads.stays
    apply Keeps.seq (save_coins env c)
    apply Keeps.seq (echo_coins env _ _ _)
    apply Keeps.seq (line_coins c _)
    exact Keeps.seq (vitals_coins c) (affects_coins c)

theorem cache_refused (arg : Ptr) (refused : cacheTaken (g.blocks c) arg = none) :
    Leads (· = g) E (cmdCache env c arg) fun _ => Unpaid g := by
  apply Leads.reads (rfl : session c g = .ok (g.blocks c, g))
  apply Leads.start (unpaid_start g)
  apply Leads.ite
  · intro _
    exact Leads.stays (line_coins c _)
  · intro some_gold
    apply Leads.ite
    · intro _
      exact Leads.stays (line_coins c _)
    · intro held
      have nowhere : cacheCell (g.blocks c).room = none := by
        simpa [cacheTaken, some_gold, held] using refused
      rw [nowhere]
      exact Leads.pure fun _ holds => holds

theorem gather_paid {cell : Nat} {gold : Int}
    (taken : gatherTaken (g.blocks c) g.ledger = some (cell, gold)) :
    Leads (· = g) E (cmdGather env c) fun _ => Paid g c cell (-gold) := by
  simp only [gatherTaken, Option.ite_none_right_eq_some, Option.map_eq_some_iff,
    Prod.mk.injEq] at taken
  obtain ⟨full, _, found, same, rfl⟩ := taken
  cases same
  apply Leads.reads (rfl : session c g = .ok (g.blocks c, g))
  apply Leads.reads (rfl : getLedger g = .ok (g.ledger, g))
  simp only [found, if_pos full]
  have held : cachePeek g.ledger (g.blocks c).room = g.ledger.cacheGold cell := by
    rw [cachePeek, found]
  rw [held]
  have gains := update_coins (E := E) (fun d => (g.blocks d).gold)
    (Function.update g.ledger.cacheGold cell 0) c
    (fun ch => { ch with gold := ch.gold + g.ledger.cacheGold cell })
    (g.ledger.cacheGold cell) fun _ => rfl
  apply Leads.seq (M := Coins (fun d => (g.blocks d).gold)
    (Function.update g.ledger.cacheGold cell 0))
  · apply Leads.modify
    rintro _ rfl
    exact ⟨fun _ => rfl, rfl⟩
  apply Leads.seq gains
  have paid : Coins (Function.update (fun d => (g.blocks d).gold) c
      ((g.blocks c).gold + g.ledger.cacheGold cell)) (Function.update g.ledger.cacheGold cell 0) =
      Paid g c cell (-g.ledger.cacheGold cell) := by
    unfold Paid
    rw [sub_neg_eq_add, add_neg_cancel]
  rw [paid]
  apply Leads.stays
  apply Keeps.seq (save_coins env c)
  apply Keeps.bind (keeps_session c)
  intro s _
  exact Keeps.seq (line_coins c _) (vitals_coins c)

theorem gather_refused (refused : gatherTaken (g.blocks c) g.ledger = none) :
    Leads (· = g) E (cmdGather env c) fun _ => Unpaid g := by
  apply Leads.reads (rfl : session c g = .ok (g.blocks c, g))
  apply Leads.reads (rfl : getLedger g = .ok (g.ledger, g))
  apply Leads.start (unpaid_start g)
  simp only
  cases found : cacheCell (g.blocks c).room with
  | none => exact Leads.stays (line_coins c _)
  | some cell =>
    have empty : ¬0 < cachePeek g.ledger (g.blocks c).room := by
      intro full
      simp [gatherTaken, full, found] at refused
    simp only [if_neg empty]
    exact Leads.stays (line_coins c _)

end Commands

/-- What a hoarding command does: an accepted one pays, a refused one moves nothing, and
neither faults. -/
theorem hoard_leads (env : Env) (g : Server) (h : Hoard) :
    Leads (· = g) (fun _ => False) (h.run env) fun _ g' =>
      match h.moved g with
      | some (cell, gold) => Paid g h.player cell gold g'
      | none => Unpaid g g' := by
  cases h with
  | cache c arg =>
    change Leads _ _ (cmdCache env c arg) _
    cases taken : cacheTaken (g.blocks c) arg with
    | none =>
      simp only [Hoard.moved, taken]
      exact cache_refused env c g arg taken
    | some found =>
      simp only [Hoard.moved, taken]
      exact cache_paid env c g arg taken
  | gather c =>
    change Leads _ _ (cmdGather env c) _
    cases taken : gatherTaken (g.blocks c) g.ledger with
    | none =>
      simp only [Hoard.moved, taken, Option.map_none]
      exact gather_refused env c g taken
    | some found =>
      simp only [Hoard.moved, taken, Option.map_some]
      exact gather_paid env c g taken

/-- All the gold of the players and of the 64 cells. -/
def wealth (players : Finset Block) (g : Server) : Int :=
  ∑ d ∈ players, (g.blocks d).gold + ∑ cell ∈ Finset.range 64, g.ledger.cacheGold cell

/-- Nobody owes and no cell does. -/
structure Solvent (players : Finset Block) (g : Server) : Prop where
  purses : ∀ d ∈ players, 0 ≤ (g.blocks d).gold
  cells : ∀ cell < 64, 0 ≤ g.ledger.cacheGold cell

theorem sum_moved {α : Type} [DecidableEq α] {s : Finset α} {i : α} (member : i ∈ s) (f : α → Int)
    (amount : Int) :
    ∑ j ∈ s, Function.update f i (f i + amount) j = ∑ j ∈ s, f j + amount := by
  rw [Finset.sum_update_of_mem member, ← Finset.add_sum_erase s f member,
    Finset.sdiff_singleton_eq_erase]
  omega

theorem paid_wealth {players : Finset Block} {g g' : Server} {c : Block} {cell : Nat} {gold : Int}
    (part : c ∈ players) (inside : cell < 64) (paid : Paid g c cell gold g') :
    wealth players g' = wealth players g := by
  unfold wealth
  rw [Finset.sum_congr rfl fun d _ => paid.1 d, paid.2, sub_eq_add_neg,
    sum_moved part (fun d => (g.blocks d).gold), sum_moved (Finset.mem_range.mpr inside)]
  omega

theorem unpaid_wealth {players : Finset Block} {g g' : Server} (unpaid : Unpaid g g') :
    wealth players g' = wealth players g := by
  unfold wealth
  rw [Finset.sum_congr rfl fun d _ => unpaid.1 d, unpaid.2]

theorem paid_solvent {players : Finset Block} {g g' : Server} {c : Block} {cell : Nat} {gold : Int}
    (solvent : Solvent players g) (purse : gold ≤ (g.blocks c).gold)
    (stored : 0 ≤ g.ledger.cacheGold cell + gold) (paid : Paid g c cell gold g') :
    Solvent players g' := by
  constructor
  · intro d member
    rw [paid.1 d]
    by_cases own : d = c
    · subst own
      rw [Function.update_self]
      omega
    · rw [Function.update_of_ne own]
      exact solvent.purses d member
  · intro other inside
    rw [paid.2]
    by_cases own : other = cell
    · subst own
      rw [Function.update_self]
      exact stored
    · rw [Function.update_of_ne own]
      exact solvent.cells other inside

/-- What an accepted command may move: into a real cell, no more than the purse holds, and
out of it no more than is there. -/
theorem moved_bounds {players : Finset Block} {g : Server} {h : Hoard} {cell : Nat} {gold : Int}
    (solvent : Solvent players g) (part : h.player ∈ players)
    (moved : h.moved g = some (cell, gold)) :
    cell < 64 ∧ gold ≤ (g.blocks h.player).gold ∧ 0 ≤ g.ledger.cacheGold cell + gold := by
  cases h with
  | cache c arg =>
    simp only [Hoard.moved, cacheTaken, Option.ite_none_left_eq_some, not_or, not_le, not_lt,
      Option.map_eq_some_iff, Prod.mk.injEq] at moved
    obtain ⟨⟨some_gold, held⟩, _, found, same, rfl⟩ := moved
    cases same
    have inside := cell_bound found
    have full := solvent.cells cell inside
    refine ⟨inside, held, ?_⟩
    omega
  | gather c =>
    simp only [Hoard.moved, gatherTaken, Option.map_eq_some_iff, Option.ite_none_right_eq_some,
      Prod.exists, Prod.mk.injEq] at moved
    obtain ⟨_, _, ⟨full, _, found, same, rfl⟩, same', rfl⟩ := moved
    cases same
    cases same'
    have held : cachePeek g.ledger (g.blocks c).room = g.ledger.cacheGold cell := by
      rw [cachePeek, found]
    have purse := solvent.purses c part
    rw [held] at full ⊢
    refine ⟨cell_bound found, ?_, ?_⟩
    · change -g.ledger.cacheGold cell ≤ (g.blocks c).gold
      omega
    · omega

theorem hoard_step {players : Finset Block} {env : Env} {g g' : Server} {h : Hoard}
    (part : h.player ∈ players) (solvent : Solvent players g) (taken : h.step env g = .ok g') :
    wealth players g' = wealth players g ∧ Solvent players g' ∧
        (h.moved g = none → Unpaid g g') := by
  have led := hoard_leads env g h g rfl
  unfold Hoard.step at taken
  cases ended : h.run env g with
  | error fault => simp [ended, Except.map] at taken
  | ok r =>
    simp only [ended, Except.map, Except.ok.injEq] at taken
    subst taken
    rw [ended] at led
    cases moved : h.moved g with
    | none =>
      simp only [moved] at led
      refine ⟨unpaid_wealth led, ⟨?_, ?_⟩, fun _ => led⟩
      · intro d member
        rw [led.1 d]
        exact solvent.purses d member
      · intro cell inside
        rw [led.2]
        exact solvent.cells cell inside
    | some found =>
      obtain ⟨cell, gold⟩ := found
      simp only [moved] at led
      obtain ⟨inside, purse, stored⟩ := moved_bounds solvent part moved
      exact ⟨paid_wealth part inside led, paid_solvent solvent purse stored led, nofun⟩

theorem hoard_total (env : Env) (g : Server) (h : Hoard) : ∃ g', h.step env g = .ok g' := by
  have led := hoard_leads env g h g rfl
  unfold Hoard.step
  cases ended : h.run env g with
  | ok r => exact ⟨r.2, rfl⟩
  | error fault =>
    rw [ended] at led
    exact led.elim

/-- Every order of cache and gather runs through, keeps the gold of players and cells
together and every part of it from going below zero, and a refused command moves none. -/
theorem gold_conserved (env : Env) (players : Finset Block) (hoards : List Hoard)
    (part : ∀ h ∈ hoards, h.player ∈ players) (start : Server) (solvent : Solvent players start) :
    (∃ g, Machine.Reaches (Hoard.step env) start hoards g) ∧
    ∀ before h after g, hoards = before ++ h :: after →
      Machine.Reaches (Hoard.step env) start before g →
      ∃ g', h.step env g = .ok g' ∧ wealth players g' = wealth players start ∧
        Solvent players g' ∧ (h.moved g = none → Unpaid g g') := by
  have kept : ∀ before, before <+: hoards → ∀ g,
      Machine.Reaches (Hoard.step env) start before g →
      wealth players g = wealth players start ∧ Solvent players g := by
    intro before
    induction before using List.reverseRecOn with
    | nil =>
      intro _ g reached
      cases reached
      exact ⟨rfl, solvent⟩
    | append_singleton before h ih =>
      intro front g reached
      obtain ⟨s, earlier, taken⟩ := Machine.reaches_snoc_cases _ _ _ _ _ reached
      obtain ⟨same, sound⟩ := ih ((List.prefix_append before [h]).trans front) s earlier
      have member : h.player ∈ players := part h (front.subset (by simp))
      obtain ⟨moved, still, _⟩ := hoard_step member sound taken
      exact ⟨moved.trans same, still⟩
  constructor
  · clear kept solvent part
    induction hoards generalizing start with
    | nil => exact ⟨start, rfl⟩
    | cons h rest ih =>
      obtain ⟨next, taken⟩ := hoard_total env start h
      obtain ⟨g, reached⟩ := ih next
      exact ⟨g, by simpa [Machine.Reaches, Machine.run, taken] using reached⟩
  · intro before h after g split reached
    obtain ⟨g', taken⟩ := hoard_total env g h
    obtain ⟨same, sound⟩ := kept before ⟨h :: after, split.symm⟩ g reached
    have member : h.player ∈ players := part h (by simp [split])
    obtain ⟨moved, still, refused⟩ := hoard_step member sound taken
    exact ⟨g', taken, moved.trans same, still, refused⟩

/-- Five coins go into the nexus and come out again, at another player's hand. -/
theorem gold_conserved_two : ∃ g g', Machine.Reaches (Hoard.step quietNode)
      { blocks := fun _ => { gold := 20 }, disk := fun _ => none } [.cache 0 (some (str "5"))] g ∧
    (Hoard.gather 1).step quietNode g = .ok g' ∧
    wealth {0, 1} g' =
      wealth {0, 1} { blocks := fun _ => { gold := 20 }, disk := fun _ => none } := by
  have solvent : Solvent {0, 1} { blocks := fun _ => { gold := 20 }, disk := fun _ => none } :=
    ⟨fun _ _ => (by decide : (0 : Int) ≤ 20), fun _ _ => Int.le_refl 0⟩
  obtain ⟨g, reached⟩ := (gold_conserved quietNode {0, 1} [.cache 0 (some (str "5"))] (by decide)
    _ solvent).1
  obtain ⟨g', taken, same, _⟩ := (gold_conserved quietNode {0, 1}
    [.cache 0 (some (str "5")), .gather 1] (by decide) _ solvent).2 [.cache 0 (some (str "5"))]
    (.gather 1) [] g rfl reached
  exact ⟨g, g', reached, taken, same⟩

end HollowGrid
