import HollowGrid.Lib.Machine
import HollowGrid.Lib.Transfer
import HollowGrid.Tally
import Mathlib.Data.List.GetD

/-! Runs of give commands: where the items of all sessions are, and when one is lost. -/
namespace HollowGrid

open Machine

/-- A session issues a give with an argument. -/
abbrev Give := Block × Ptr

def giveStep (env : Env) (g : Server) (e : Give) : Except Fault Server :=
  (cmdGive env e.1 e.2 g).map Prod.snd

def slotFound (env : Env) (g : Server) (word : Bytes) (items : List Bytes) : Option Nat :=
  match invFindSlot env word 0 items g with
  | .ok (slot, _) => slot
  | .error _ => none

/-- The slot and the player of a give that finds both. -/
def giveMove (env : Env) (g : Server) (e : Give) : Option (Nat × Block) :=
  (giveTokens (argument e.2)).bind fun tokens =>
    (slotFound env g tokens.1 (g.blocks e.1).inventory).bind fun i =>
      (foundBy g (g.blocks e.1).room tokens.2 (some (g.blocks e.1).name)).map fun d => (i, d)

/-- The inventory of each session. -/
def Server.held (g : Server) : Block → List Bytes := fun d => (g.blocks d).inventory

/-- Every item fits a slot of 16 bytes. -/
def Slotted (g : Server) : Prop := ∀ d, ∀ item ∈ g.held d, item.length ≤ 15

/-- The item that is found goes to the player that is found. Where one of them is not found, or
the player has no slot left, nothing moves. -/
def GiveFair (env : Env) (g g' : Server) (e : Give) : Prop :=
  match giveMove env g e with
  | none => ∀ d, g'.held d = g.held d
  | some (i, d) =>
    if (g.held d).length < invSlots then ∃ item, Transfer g.held g'.held e.1 d i item
    else ∀ k, g'.held k = g.held k

/-- The player that is found has a slot left, and the item that is found has a name. -/
def GiveRoom (env : Env) (g : Server) (e : Give) : Prop :=
  ∀ i d, giveMove env g e = some (i, d) →
    (g.held d).length < invSlots ∧ (g.held e.1)[i]? ≠ some []

structure Untaken (g g' : Server) : Prop where
  held : ∀ d, g'.held d = g.held d
  table : g'.sessionTable = g.sessionTable

section Step

variable {env : Env} {c d : Block} {g g₀ : Server} {e : Give}

theorem slot_range (env : Env) (word : Bytes) (items : List Bytes) (n : Nat) (g : Server) :
    ∃ slot asked, invFindSlot env word n items g = .ok (slot, { g with asked := asked }) ∧
      ∀ i, slot = some i → n ≤ i ∧ i < n + items.length := by
  induction items generalizing n g with
  | nil => exact ⟨none, g.asked, rfl, by simp⟩
  | cons item rest ih =>
    unfold invFindSlot
    split
    · exact ⟨none, g.asked, rfl, by simp⟩
    split
    · exact ⟨some n, g.asked, rfl, by simp⟩
    · have moved : ask env.clobbers g =
          .ok (env.clobbers g.asked, { g with asked := g.asked + 1 }) :=
        rfl
      have flag : ask env.zeroFlag { g with asked := g.asked + 1 } =
          .ok (env.zeroFlag (g.asked + 1), { g with asked := g.asked + 2 }) := rfl
      rw [bind_ok moved, bind_ok flag]
      by_cases hit : (if env.clobbers g.asked then env.zeroFlag (g.asked + 1)
        else startsFold word item) = true
      · rw [if_pos hit]
        exact ⟨some n, g.asked + 2, rfl, by simp⟩
      · rw [if_neg hit]
        obtain ⟨slot, asked, ended, within⟩ := ih (n + 1) { g with asked := g.asked + 2 }
        refine ⟨slot, asked, ended, fun i same => ?_⟩
        have := within i same
        simp only [List.length_cons]
        omega

theorem found_other {room : Int} {word : Bytes} {name : Bytes}
    (found : foundBy g room word (some name) = some d) :
    some d ∈ g.sessionTable ∧ sameFold (g.blocks d).name name = false := by
  have reads := prefix_reads g room word (some name)
  rw [found, findPlayerPrefix] at reads
  split at reads
  · cases reads
  · rw [bind_ok (rfl : listed g = .ok (_, g))] at reads
    have only : (((g.sessionTable.filterMap id).map fun d => (d, g.blocks d)).filter fun d =>
        mayMatch room word (some name) d.2) = [(d, g.blocks d)] := by
      revert reads
      cases sought : (((g.sessionTable.filterMap id).map fun d => (d, g.blocks d)).filter fun d =>
          mayMatch room word (some name) d.2) with
      | nil =>
        intro reads
        cases reads
      | cons first rest =>
        cases rest with
        | cons second rest =>
          intro reads
          cases reads
        | nil =>
          intro reads
          have same : first.1 = d := by
            cases reads
            rfl
          have member : first ∈ (g.sessionTable.filterMap id).map fun d => (d, g.blocks d) :=
            (List.mem_filter.mp (sought ▸ List.mem_singleton.mpr rfl)).1
          obtain ⟨k, _, rfl⟩ := List.mem_map.mp member
          cases same
          rfl
    have member := List.mem_filter.mp (only ▸ List.mem_singleton.mpr rfl)
    obtain ⟨k, listed, same⟩ := List.mem_map.mp member.1
    cases same
    refine ⟨by simpa using listed, ?_⟩
    have matched := member.2
    simp only [mayMatch, Option.any_some, Bool.and_eq_true, Bool.not_eq_true'] at matched
    exact matched.1.2

theorem untaken_queue (g₀ : Server) (c : Block) (t : Text) :
    Keeps (Untaken g₀) (fun _ => False) (queue c t) Any := by
  refine Keeps.modify fun g same => ⟨fun d => ?_, same.table⟩
  by_cases own : d = c
  · subst own
    rw [← same.held d, Server.held, Server.queued, Server.setBlock_own]
    rfl
  · rw [← same.held d, Server.held, Server.queued, Server.setBlock_other _ _ own]
    rfl

theorem untaken_line (g₀ : Server) (c : Block) (t : Text) :
    Keeps (Untaken g₀) (fun _ => False) (queueLine c t) Any :=
  Keeps.branch (untaken_queue g₀ c _) (Keeps.pure trivial)

theorem untaken_save (g₀ : Server) (env : Env) (c : Block) :
    Keeps (Untaken g₀) (fun _ => False) (storeSave env c) Any := by
  intro g same
  rw [store_save_run]
  obtain ⟨disk, asked, _, saved⟩ := saved_disk env c g
  rw [saved]
  exact ⟨⟨same.held, same.table⟩, trivial⟩

theorem found_asked (g : Server) (n : Nat) (room : Int) (word : Bytes) (except : Ptr) :
    foundBy { g with asked := n } room word except = foundBy g room word except := by
  unfold foundBy findPlayerPrefix
  by_cases bare : word = []
  · simp only [if_pos bare]
    rfl
  · simp only [if_neg bare]
    rw [bind_ok (rfl : listed { g with asked := n } = .ok (_, { g with asked := n })),
      bind_ok (rfl : listed g = .ok (_, g))]
    generalize List.filter _ _ = found
    rcases found with _ | ⟨d, _ | _⟩ <;> rfl

theorem untaken_refl (g : Server) : Untaken g g := ⟨fun _ => rfl, rfl⟩

theorem refused (g : Server) (n : Nat) (c : Block) (t : Text) :
    ∃ g', (queueLine c t { g with asked := n }).map Prod.snd = .ok g' ∧ Untaken g g' := by
  have kept := untaken_line g c t
  cases ended : queueLine c t { g with asked := n } with
  | ok r =>
    obtain ⟨⟨⟩, last⟩ := r
    exact ⟨last, rfl, (kept.result (show Untaken g { g with asked := n } from ⟨fun _ => rfl, rfl⟩)
      ended).1⟩
  | error stopped =>
    exact (kept.fault (show Untaken g { g with asked := n } from ⟨fun _ => rfl, rfl⟩) ended).elim

theorem give_run (env : Env) (g : Server) (e : Give) :
    ∃ g', giveStep env g e = .ok g' ∧
      match giveMove env g e with
      | none => Untaken g g'
      | some (i, d) => Untaken
          ((g.updated e.1 (invRemove i)).updated d (invAdd ((g.held e.1).getD i []))) g' := by
  obtain ⟨c, arg⟩ := e
  have start : session c g = .ok (g.blocks c, g) := rfl
  simp only [giveStep, giveMove, cmdGive]
  rw [bind_ok start]
  cases giveTokens (argument arg) with
  | none => exact refused g g.asked c _
  | some tokens =>
    obtain ⟨slot, n, sought, _⟩ := slot_range env tokens.1 (g.blocks c).inventory 0 g
    simp only [Option.bind_some, slotFound, sought]
    rw [bind_ok sought]
    cases slot with
    | none => exact refused g n c _
    | some i =>
      simp only [Option.bind_some]
      rw [bind_ok (prefix_reads { g with asked := n } _ _ _), found_asked]
      cases foundBy g (g.blocks c).room tokens.2 (some (g.blocks c).name) with
      | none => exact refused g n c _
      | some d =>
        simp only [Option.map_some]
        let moved := ((({ g with asked := n } : Server).updated c (invRemove i)).updated d
          (invAdd ((g.blocks c).inventory.getD i [])))
        have told (item name self : Bytes) : Keeps (Untaken moved) (fun _ => False)
            (storeSave env c >>= fun _ => storeSave env d >>= fun _ =>
              queueLine c (snprintf 160
                (lit "You give " ++ raw item ++ lit " to " ++ raw name ++ lit ".")) >>= fun _ =>
              queue d (snprintf 160
                (raw self ++ lit " gives you " ++ raw item ++ lit "." ++ crlf))) Any :=
          Keeps.seq (untaken_save moved env c) (Keeps.seq (untaken_save moved env d)
            (Keeps.seq (untaken_line moved c _) (untaken_queue moved d _)))
        have carried := told ((g.blocks c).inventory.getD i []) (g.blocks d).name (g.blocks c).name
        rw [bind_ok (rfl : session d { g with asked := n } =
          .ok (g.blocks d, { g with asked := n }))]
        rw [bind_ok (rfl : update c (invRemove i) { g with asked := n } =
            .ok ((), ({ g with asked := n } : Server).updated c (invRemove i))),
          bind_ok (rfl : update d (invAdd ((g.blocks c).inventory.getD i []))
            (({ g with asked := n } : Server).updated c (invRemove i)) = .ok ((), moved))]
        cases ended : (storeSave env c >>= fun _ => storeSave env d >>= fun _ =>
              queueLine c (snprintf 160 (lit "You give " ++
                raw ((g.blocks c).inventory.getD i []) ++ lit " to " ++ raw (g.blocks d).name ++
                  lit ".")) >>= fun _ =>
              queue d (snprintf 160 (raw (g.blocks c).name ++ lit " gives you " ++
                raw ((g.blocks c).inventory.getD i []) ++ lit "." ++ crlf))) moved with
        | error stopped => exact (carried.fault (untaken_refl moved) ended).elim
        | ok r =>
          obtain ⟨⟨⟩, last⟩ := r
          refine ⟨last, rfl, ?_⟩
          have same := (carried.result (untaken_refl moved) ended).1
          exact ⟨same.held, same.table⟩

theorem move_parts {i : Nat} (moves : giveMove env g e = some (i, d)) :
    d ≠ e.1 ∧ some d ∈ g.sessionTable ∧ i < (g.held e.1).length := by
  simp only [giveMove, Option.bind_eq_some_iff, Option.map_eq_some_iff, Prod.mk.injEq] at moves
  obtain ⟨tokens, _, slot, sought, k, found, rfl, rfl⟩ := moves
  obtain ⟨listed, other⟩ := found_other found
  refine ⟨fun same => ?_, listed, ?_⟩
  · rw [same] at other
    simp [sameFold] at other
  · obtain ⟨found_slot, n, ended, within⟩ :=
      slot_range env tokens.1 (g.blocks e.1).inventory 0 g
    rw [slotFound, ended] at sought
    have range := within slot sought
    simp only [Server.held]
    omega

theorem inventory_updated (g : Server) (c k : Block) (f : Character → Character) :
    (g.updated c f).held k =
      if k = c then (f (g.blocks c).toCharacter).inventory else g.held k := by
  unfold Server.held Server.updated
  split
  · rename_i own
    rw [own, Server.setBlock_own]
  · rename_i other
    rw [Server.setBlock_other _ _ other]

theorem move_held {i : Nat} {g' : Server} (moves : giveMove env g e = some (i, d))
    (after : Untaken ((g.updated e.1 (invRemove i)).updated d
      (invAdd ((g.held e.1).getD i []))) g') :
    g'.held e.1 = (g.held e.1).eraseIdx i ∧
      g'.held d = (invAdd ((g.held e.1).getD i []) (g.blocks d).toCharacter).inventory ∧
      ∀ k, k ≠ e.1 → k ≠ d → g'.held k = g.held k := by
  obtain ⟨apart, _, _⟩ := move_parts moves
  refine ⟨?_, ?_, fun k not_giver not_taker => ?_⟩
  · rw [after.held, inventory_updated, if_neg apart.symm, inventory_updated, if_pos rfl]
    rfl
  · rw [after.held, inventory_updated, if_pos rfl, Server.updated,
      Server.setBlock_other _ _ apart]
  · rw [after.held, inventory_updated, if_neg not_taker, inventory_updated, if_neg not_giver]

theorem give_fair_iff {g' : Server} (slotted : Slotted g) (taken : giveStep env g e = .ok g') :
    GiveFair env g g' e ↔ GiveRoom env g e := by
  obtain ⟨last, ran, effect⟩ := give_run env g e
  cases ran.symm.trans taken
  cases moves : giveMove env g e with
  | none =>
    rw [moves] at effect
    refine iff_of_true ?_ fun i d found => by rw [moves] at found; cases found
    rw [GiveFair, moves]
    exact effect.held
  | some found =>
    obtain ⟨i, d⟩ := found
    rw [moves] at effect
    obtain ⟨apart, _, inside⟩ := move_parts moves
    obtain ⟨gave, got, others⟩ := move_held moves effect
    have had : (g.held e.1)[i]? = some (g.held e.1)[i] := List.getElem?_eq_getElem inside
    have item : (g.held e.1).getD i [] = (g.held e.1)[i] := List.getD_eq_getElem _ _ inside
    have short : (g.held e.1)[i].take 15 = (g.held e.1)[i] :=
      List.take_of_length_le (slotted e.1 _ (List.getElem_mem inside))
    constructor
    · intro fair _ _ same
      cases moves.symm.trans same
      by_contra refused
      have dropped : g.held d = g'.held d := by
        rw [got, item, invAdd, if_pos]
        · rfl
        · by_contra taken
          rw [not_or] at taken
          exact refused ⟨by have := taken.2; exact not_le.mp this, by simpa [had] using taken.1⟩
      have lost : (g'.held e.1).length + 1 = (g.held e.1).length := by
        rw [gave, List.length_eraseIdx_of_lt inside]
        omega
      rw [GiveFair, moves] at fair
      by_cases free : (g.held d).length < invSlots
      · obtain ⟨gained, moved⟩ := (if_pos free).mp fair
        have longer := congrArg List.length moved.got
        rw [← dropped, List.length_append, List.length_singleton] at longer
        omega
      · have nothing := (if_neg free).mp fair
        rw [nothing e.1] at lost
        omega
    · intro room
      obtain ⟨free, named⟩ := room i d moves
      rw [GiveFair, moves]
      refine (if_pos free).mpr ⟨(g.held e.1)[i], apart, had, gave, ?_, others⟩
      rw [got, item, invAdd, if_neg, short]
      · rfl
      · rintro (bare | full)
        · exact named (by rw [had, bare])
        · exact absurd free (not_lt.mpr full)

theorem give_conserves {g' : Server} {owners : Finset Block}
    (players : ∀ d, some d ∈ g.sessionTable → d ∈ owners) (giver : e.1 ∈ owners)
    (slotted : Slotted g) (room : GiveRoom env g e) (taken : giveStep env g e = .ok g') :
    holdings owners g'.held = holdings owners g.held := by
  obtain ⟨last, ran, effect⟩ := give_run env g e
  cases ran.symm.trans taken
  cases moves : giveMove env g e with
  | none =>
    rw [moves] at effect
    exact holdings_same effect.held
  | some found =>
    obtain ⟨i, d⟩ := found
    rw [moves] at effect
    have fair := (give_fair_iff slotted taken).mpr room
    rw [GiveFair, moves] at fair
    obtain ⟨item, moved⟩ := (if_pos (room i d moves).1).mp fair
    exact moved.conserves giver (players d (move_parts moves).2.1)

theorem give_table {g' : Server} (taken : giveStep env g e = .ok g') :
    g'.sessionTable = g.sessionTable := by
  obtain ⟨last, ran, effect⟩ := give_run env g e
  cases ran.symm.trans taken
  cases moves : giveMove env g e with
  | none =>
    rw [moves] at effect
    exact effect.table
  | some found =>
    rw [moves] at effect
    exact effect.table

theorem give_slotted {g' : Server} (slotted : Slotted g) (taken : giveStep env g e = .ok g') :
    Slotted g' := by
  obtain ⟨last, ran, effect⟩ := give_run env g e
  cases ran.symm.trans taken
  cases moves : giveMove env g e with
  | none =>
    rw [moves] at effect
    intro k item member
    rw [effect.held] at member
    exact slotted k item member
  | some found =>
    obtain ⟨i, d⟩ := found
    rw [moves] at effect
    obtain ⟨gave, got, others⟩ := move_held moves effect
    intro k item member
    by_cases giver : k = e.1
    · rw [giver, gave] at member
      exact slotted e.1 item (List.mem_of_mem_eraseIdx member)
    by_cases taker : k = d
    · rw [taker, got, invAdd] at member
      split at member
      · exact slotted d item member
      · rcases List.mem_append.mp member with old | new
        · exact slotted d item old
        · rw [List.mem_singleton.mp new, List.length_take]
          omega
    · rw [others k giver taker] at member
      exact slotted k item member

end Step

section Runs

variable {env : Env}

/-- In a run of gives from any state, every give moves one item or none, and the items of all
players together are the same after it, exactly when every player found has room for the item
found. -/
theorem gives_conserve_iff (env : Env) (owners : Finset Block) (start : Server)
    (events : List Give) (slotted : Slotted start)
    (players : ∀ d, some d ∈ start.sessionTable → d ∈ owners)
    (givers : ∀ e ∈ events, e.1 ∈ owners) :
    ((∀ before e after g g', events = before ++ e :: after →
        Reaches (giveStep env) start before g → giveStep env g e = .ok g' →
        GiveFair env g g' e ∧ holdings owners g'.held = holdings owners g.held) ↔
      Meets (giveStep env) (GiveRoom env) start events) ∧
    (Meets (giveStep env) (GiveRoom env) start events → ∀ g,
      Reaches (giveStep env) start events g →
        holdings owners g.held = holdings owners start.held) := by
  have standing (before : List Give) (g : Server)
      (reached : Reaches (giveStep env) start before g) :
      Slotted g ∧ g.sessionTable = start.sessionTable :=
    invariant_every_run (giveStep env) (fun g => Slotted g ∧ g.sessionTable = start.sessionTable)
      start ⟨slotted, rfl⟩
      (fun s e next holds taken => ⟨give_slotted holds.1 taken, (give_table taken).trans holds.2⟩)
      before g reached
  refine ⟨⟨fun fair => ?_, fun met => ?_⟩, fun met g reached => ?_⟩
  · intro before e after g split reached
    obtain ⟨g', taken, _⟩ := give_run env g e
    exact (give_fair_iff (standing before g reached).1 taken).mp
      (fair before e after g g' split reached taken).1
  · intro before e after g g' split reached taken
    obtain ⟨slots, table⟩ := standing before g reached
    have room := met before e after g split reached
    refine ⟨(give_fair_iff slots taken).mpr room, ?_⟩
    exact give_conserves (fun d listed => players d (table ▸ listed)) (givers e (by simp [split]))
      slots room taken
  · have conserved : ∀ events : List Give, (∀ e ∈ events, e.1 ∈ owners) →
        Meets (giveStep env) (GiveRoom env) start events → ∀ g,
          Reaches (giveStep env) start events g →
            holdings owners g.held = holdings owners start.held := by
      intro events givers met
      induction events using List.reverseRecOn with
      | nil =>
        intro g reached
        cases reached
        rfl
      | append_singleton events e ih =>
        intro g reached
        obtain ⟨last, front, taken⟩ := reaches_snoc_cases (giveStep env) start g events e reached
        obtain ⟨slots, table⟩ := standing events last front
        have kept := ih (fun e member => givers e (List.mem_append_left _ member))
          (meets_front (giveStep env) (GiveRoom env) start events [e] met) last front
        rw [← kept]
        exact give_conserves (fun d listed => players d (table ▸ listed)) (givers e (by simp))
          slots (met events e [] last rfl front) taken
    exact conserved events givers met g reached

/-- Ada has a shiv, and Bo in the same room has what he has. -/
def neighbours (bag : List Bytes) : Server where
  blocks := fun d =>
    if d = 1 then { name := str "Ada", inventory := [str "shiv"] }
    else { name := str "Bo", inventory := bag }
  sessionTable := [some 1, some 2]
  disk := fun _ => none

def adaGives : Give := (1, some (str "shiv Bo"))

theorem neighbours_slotted {bag : List Bytes} (short : ∀ item ∈ bag, item.length ≤ 15) :
    Slotted (neighbours bag) := by
  intro d item member
  unfold Server.held neighbours at member
  simp only at member
  split at member
  · rw [List.mem_singleton.mp member]
    decide
  · exact short item member

theorem gives_conserve_iff_ada :
    ((∀ before e after g g', [adaGives] = before ++ e :: after →
        Reaches (giveStep quietNode) (neighbours []) before g →
        giveStep quietNode g e = .ok g' →
        GiveFair quietNode g g' e ∧ holdings {1, 2} g'.held = holdings {1, 2} g.held) ↔
      Meets (giveStep quietNode) (GiveRoom quietNode) (neighbours []) [adaGives]) ∧
    (Meets (giveStep quietNode) (GiveRoom quietNode) (neighbours []) [adaGives] → ∀ g,
      Reaches (giveStep quietNode) (neighbours []) [adaGives] g →
        holdings {1, 2} g.held = holdings {1, 2} (neighbours []).held) :=
  gives_conserve_iff quietNode {1, 2} (neighbours []) [adaGives]
    (neighbours_slotted (by simp)) (by simp [neighbours]) (by simp [adaGives])

/-- Bo's bag is full: the shiv leaves Ada's and is nowhere. -/
theorem full_bag_loses : ¬ ∀ (env : Env) (g g' : Server) (e : Give), Slotted g →
    giveStep env g e = .ok g' → GiveFair env g g' e := by
  intro always
  obtain ⟨g', taken, _⟩ := give_run quietNode (neighbours (List.replicate 16 (str "helm"))) adaGives
  have slotted : Slotted (neighbours (List.replicate 16 (str "helm"))) :=
    neighbours_slotted fun item member => by
      rw [(List.mem_replicate.mp member).2]
      decide
  have room := (give_fair_iff slotted taken).mp (always _ _ _ _ slotted taken)
  have moves : giveMove quietNode (neighbours (List.replicate 16 (str "helm"))) adaGives =
      some (0, 2) := by
    decide +kernel
  have free := (room 0 2 moves).1
  revert free
  decide +kernel

end Runs

end HollowGrid
