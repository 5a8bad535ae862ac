import HollowGrid.Permits
import HollowGrid.Unanswered

/-! What a buy takes and what it gives. -/
namespace HollowGrid

/-- What the argument of a buy names in a room, and its price. -/
def ware (room : Int) (arg : Ptr) : Option (String × Int) :=
  if room = roomTavern then
    if arg.any fun word => contains word (str "dust") then some ("dust", 10) else none
  else if room = roomWorkshop then
    if sameFold (str "helm") (argument arg) then some ("helm", 14)
    else if sameFold (str "plating") (argument arg) then some ("plating", 18)
    else if sameFold (str "rebar") (argument arg) then some ("rebar", 20)
    else none
  else none

structure Bought (c : Block) (item : String) (price : Int) (g g' : Server) : Prop where
  gold : (g'.blocks c).gold = (g.blocks c).gold - price
  inventory : (g'.blocks c).inventory = (g.blocks c).inventory ++ [str item]

def RefusedBuy (c : Block) (g g' : Server) : Prop :=
  ∃ line, line ≠ [] ∧ g' = g.queued c (line ++ crlf)

/-- The item for its price, or a line that says no. -/
def FairBuy (c : Block) (arg : Ptr) (g g' : Server) : Prop :=
  (∃ item price, ware (g.blocks c).room arg = some (item, price) ∧ Bought c item price g g') ∨
    RefusedBuy c g g'

/-- What the code makes of a buy: who has the gold pays, and is given what there is a slot for. -/
inductive Sale (c : Block) (arg : Ptr) (g g' : Server) : Prop
  | paid (item : String) (price : Int) (named : ware (g.blocks c).room arg = some (item, price))
      (rich : price ≤ (g.blocks c).gold)
      (done : (g'.blocks c).toCharacter =
        invAdd (str item) { (g.blocks c).toCharacter with gold := (g.blocks c).gold - price })
  | refused (poor : ∀ item price, ware (g.blocks c).room arg = some (item, price) →
      (g.blocks c).gold < price) (told : RefusedBuy c g g')

section Trades

variable {env : Env} {c : Block} {g : Server} {arg : Ptr}

theorem queued_character (g : Server) (c d : Block) (t : Text) :
    ((g.queued c t).blocks d).toCharacter = (g.blocks d).toCharacter := by
  by_cases own : d = c
  · subst own
    rw [Server.queued, Server.setBlock_own]
  · rw [Server.queued, Server.setBlock_other _ _ own]

theorem line_runs {t : Text} (fits : t.length + 3 ≤ 4096) :
    queueLine c t g = .ok ((), g.queued c (t ++ crlf)) := by
  rw [queueLine, when, if_pos fits]
  rfl

theorem sale_refused {t : Text} (fits : t.length + 3 ≤ 4096) (some_text : t ≠ [])
    (poor : ∀ item price, ware (g.blocks c).room arg = some (item, price) →
      (g.blocks c).gold < price) : ∃ g', queueLine c t g = .ok ((), g') ∧ Sale c arg g g' :=
  ⟨_, line_runs fits, .refused poor ⟨t, some_text, rfl⟩⟩

/-- What both shops do once the gold is counted: the save and the lines leave the character as
the purchase made it. -/
theorem paid_runs (env : Env) (c : Block) (g : Server) (f : Character → Character) (t : Text) :
    ∃ g', (do
        update c f
        storeSave env c
        queueLine c (snprintf 160 t)
        emitVitalsNow c) g = .ok ((), g') ∧
      (g'.blocks c).toCharacter = f (g.blocks c).toCharacter := by
  have own : ((g.updated c f).blocks c).toCharacter = f (g.blocks c).toCharacter := by
    rw [Server.updated, Server.setBlock_own]
  obtain ⟨disk, asked, _, saved⟩ := saved_disk env c (g.updated c f)
  let told := ((g.updated c f).saved env c).queued c (snprintf 160 t ++ crlf)
  let vitals := snprintf 4096 (fmtVitals (told.blocks c) (roomId (told.blocks c).room))
  refine ⟨told.queued c vitals, ?_, ?_⟩
  · rw [bind_ok (rfl : update c f g = .ok ((), g.updated c f)),
      bind_ok (store_save_run env c (g.updated c f)), bind_ok (line_runs (cut_fits t (by decide)))]
    rfl
  · rw [queued_character, queued_character, saved]
    exact own

theorem sale_paid (env : Env) {item : String} {price : Int}
    (named : ware (g.blocks c).room arg = some (item, price))
    (rich : price ≤ (g.blocks c).gold) (t : Text) :
    ∃ g', (do
        update c fun ch => invAdd (str item) { ch with gold := ch.gold - price }
        storeSave env c
        queueLine c (snprintf 160 t)
        emitVitalsNow c) g = .ok ((), g') ∧ Sale c arg g g' := by
  obtain ⟨g', ran, done⟩ := paid_runs env c g
    (fun ch => invAdd (str item) { ch with gold := ch.gold - price }) t
  exact ⟨g', ran, .paid item price named rich done⟩

theorem workshop_sale {item pretty : String} {price : Int}
    (named : ware (g.blocks c).room arg = some (item, price)) :
    ∃ g', pay env c price item pretty g = .ok ((), g') ∧ Sale c arg g g' := by
  rw [pay, bind_ok (rfl : session c g = .ok (g.blocks c, g))]
  by_cases poor : (g.blocks c).gold < price
  · rw [if_pos poor]
    refine sale_refused (cut_fits _ (by decide)) (by simp [snprintf, lit, str]) ?_
    rw [named]
    rintro _ _ ⟨⟩
    exact poor
  · rw [if_neg poor]
    exact sale_paid env named (Int.not_lt.mp poor) _

theorem nothing_named (none_named : ware (g.blocks c).room arg = none) :
    ∀ item price, ware (g.blocks c).room arg = some (item, price) → (g.blocks c).gold < price := by
  rw [none_named]
  nofun

theorem buy_sale (env : Env) (c : Block) (arg : Ptr) (g : Server) :
    ∃ g', cmdBuy env c arg g = .ok ((), g') ∧ Sale c arg g g' := by
  rw [cmdBuy, bind_ok (rfl : session c g = .ok (g.blocks c, g))]
  by_cases tavern : (g.blocks c).room = roomTavern
  · rw [if_pos tavern]
    by_cases dust : (arg.any fun word => contains word (str "dust")) = true
    · have named : ware (g.blocks c).room arg = some ("dust", 10) := by
        rw [ware, if_pos tavern, if_pos dust]
      rw [if_pos dust]
      by_cases poor : (g.blocks c).gold < 10
      · rw [if_pos poor]
        refine sale_refused (by decide) (by decide) ?_
        rw [named]
        rintro _ _ ⟨⟩
        exact poor
      · rw [if_neg poor]
        exact sale_paid env named (Int.not_lt.mp poor) _
    · have none_named : ware (g.blocks c).room arg = none := by
        rw [ware, if_pos tavern, if_neg dust]
      rw [if_neg dust]
      exact sale_refused (by decide) (by decide) (nothing_named none_named)
  rw [if_neg tavern]
  by_cases workshop : (g.blocks c).room = roomWorkshop
  · have wares : ware (g.blocks c).room arg =
        if sameFold (str "helm") (argument arg) then some ("helm", 14)
        else if sameFold (str "plating") (argument arg) then some ("plating", 18)
        else if sameFold (str "rebar") (argument arg) then some ("rebar", 20)
        else none := by rw [ware, if_neg tavern, if_pos workshop]
    rw [if_pos workshop, buyWorkshop]
    by_cases helm : sameFold (str "helm") (argument arg) = true
    · rw [if_pos helm] at wares ⊢
      exact workshop_sale wares
    rw [if_neg helm] at wares ⊢
    by_cases plating : sameFold (str "plating") (argument arg) = true
    · rw [if_pos plating] at wares ⊢
      exact workshop_sale wares
    rw [if_neg plating] at wares ⊢
    by_cases rebar : sameFold (str "rebar") (argument arg) = true
    · rw [if_pos rebar] at wares ⊢
      exact workshop_sale wares
    rw [if_neg rebar] at wares ⊢
    exact sale_refused (by decide) (by decide) (nothing_named wares)
  · rw [if_neg workshop]
    refine sale_refused (by decide) (by decide) (nothing_named ?_)
    rw [ware, if_neg tavern, if_neg workshop]

theorem refused_gold {g' : Server} (refused : RefusedBuy c g g') :
    (g'.blocks c).gold = (g.blocks c).gold := by
  obtain ⟨line, _, rfl⟩ := refused
  exact congrArg Character.gold (queued_character g c c _)

theorem ware_costs {room : Int} {item : String} {price : Int}
    (named : ware room arg = some (item, price)) : 0 < price ∧ str item ≠ [] ∧
      (str item).take 15 = str item := by
  unfold ware at named
  split at named
  · split at named <;> cases named
    decide
  split at named
  · split at named
    · cases named
      decide
    split at named
    · cases named
      decide
    split at named <;> cases named
    decide
  · cases named

/-- A buy is an exchange or a refusal exactly when who can pay for a ware of the room has a slot
left. -/
theorem buy_fair_iff (env : Env) (c : Block) (arg : Ptr) (g : Server) :
    ∃ g', cmdBuy env c arg g = .ok ((), g') ∧ (FairBuy c arg g g' ↔
      ∀ item price, ware (g.blocks c).room arg = some (item, price) →
        price ≤ (g.blocks c).gold → (g.blocks c).inventory.length < invSlots) := by
  obtain ⟨g', ran, sale⟩ := buy_sale env c arg g
  refine ⟨g', ran, ?_⟩
  cases sale with
  | refused poor told =>
    refine iff_of_true (.inr told) fun item price named rich => ?_
    have short := poor item price named
    omega
  | paid item price named rich done =>
    obtain ⟨costs, some_name, short_name⟩ := ware_costs named
    constructor
    · intro fair item' price' named' _
      cases named.symm.trans named'
      by_contra full
      have kept : invAdd (str item) { (g.blocks c).toCharacter with
          gold := (g.blocks c).gold - price } =
          { (g.blocks c).toCharacter with gold := (g.blocks c).gold - price } :=
        if_pos (.inr (Nat.not_lt.mp full))
      rw [kept] at done
      have gold := congrArg Character.gold done
      have pack := congrArg Character.inventory done
      rcases fair with ⟨item', price', _, bought⟩ | told
      · have more := congrArg List.length (pack.symm.trans bought.inventory)
        simp at more
      · have same := refused_gold told
        simp only at gold
        omega
    · intro room
      have free := room item price named rich
      have full : ¬(str item = [] ∨ invSlots ≤ (g.blocks c).inventory.length) := by
        rintro (unnamed | full)
        · exact some_name unnamed
        · omega
      have added : invAdd (str item) { (g.blocks c).toCharacter with
          gold := (g.blocks c).gold - price } =
          { (g.blocks c).toCharacter with
            gold := (g.blocks c).gold - price
            inventory := (g.blocks c).inventory ++ [(str item).take 15] } := if_neg full
      rw [added, short_name] at done
      exact .inl ⟨item, price, named, congrArg Character.gold done,
        congrArg Character.inventory done⟩

def ladenGuest : Server where
  blocks := fun _ =>
    { room := roomTavern, gold := 20, inventory := List.replicate 16 (str "shiv") }
  disk := fun _ => none

/-- The dealer keeps the coin of who can carry no more. -/
theorem full_bag_pays : ¬ ∀ (env : Env) (c : Block) (arg : Ptr) (g g' : Server),
    ((g.blocks c).room = roomTavern ∨ (g.blocks c).room = roomWorkshop) →
      cmdBuy env c arg g = .ok ((), g') → FairBuy c arg g g' := by
  intro always
  obtain ⟨g', ran, fair⟩ := buy_fair_iff quietNode 0 (some (str "dust")) ladenGuest
  have room := fair.mp (always _ _ _ _ _ (.inl rfl) ran) "dust" 10 (by decide) (by decide)
  exact absurd room (by decide)

end Trades

end HollowGrid
