import Mathlib.Data.Int.Order.Basic
import Mathlib.Logic.Function.Basic
import Mathlib.Logic.Relation

/-! A machine with a stack that holds its own return addresses, and a check of code for its
discipline: what it pushes it pops, and it is aligned where it calls C. -/
namespace HollowGrid.Stack

/-- What an instruction does to the stack pointer, to the registers that a callee saves and to
control. Blocks are named by their labels. -/
inductive Op (ρ β κ τ : Type)
  | push (r : Option ρ)
  | pop (r : Option ρ)
  | sub (words : Nat)
  | add (words : Nat)
  | set (r : ρ)
  | store (first count : Nat)
  | calls (k : κ) (lent : Nat)
  | call (b : β)
  | jump (b : β)
  | jumpIf (t : τ) (b : β)
  | leap (k : κ)
  | ret
  deriving DecidableEq

/-- A word of the stack or of a register: a number, or an address to go on from. A C function goes
on with the stack pointer it was entered with, the words above that it may write, and the registers
it has to put back. -/
inductive Word (ρ β κ τ : Type)
  | plain (n : Nat)
  | code (ops : List (Op ρ β κ τ))
  | c (k : κ) (sp : Int) (lent : Nat) (kept : ρ → Word ρ β κ τ)
  | outside

structure State (ρ β κ τ : Type) where
  pc : Word ρ β κ τ
  sp : Int
  regs : ρ → Word ρ β κ τ
  mem : Int → Word ρ β κ τ
  entered : List Int

structure Program (ρ β κ τ : Type) where
  block : β → List (Op ρ β κ τ)
  backs : κ → β → Prop
  may : τ → Bool → Prop

variable {ρ β κ τ : Type}

/-- A C function that was entered at sp leaves the words from there on, but for those it is lent. -/
def Spares (m m' : Int → Word ρ β κ τ) (sp : Int) (lent : Nat) : Prop :=
  ∀ a, sp ≤ a → a < sp + 8 ∨ sp + 8 + 8 * lent ≤ a → m' a = m a

/-- One instruction, or what a C function does between its entry and its return. The list at the
end is where the functions that have not returned were entered. -/
inductive Step [DecidableEq ρ] (p : Program ρ β κ τ) : State ρ β κ τ → State ρ β κ τ → Prop
  | push {r ops sp regs m es} : Step p ⟨.code (.push (some r) :: ops), sp, regs, m, es⟩
      ⟨.code ops, sp - 8, regs, Function.update m (sp - 8) (regs r), es⟩
  | pushes {ops sp regs m es} (v : Word ρ β κ τ) :
      Step p ⟨.code (.push none :: ops), sp, regs, m, es⟩
      ⟨.code ops, sp - 8, regs, Function.update m (sp - 8) v, es⟩
  | pop {r ops sp regs m es} : Step p ⟨.code (.pop (some r) :: ops), sp, regs, m, es⟩
      ⟨.code ops, sp + 8, Function.update regs r (m sp), m, es⟩
  | pops {ops sp regs m es} : Step p ⟨.code (.pop none :: ops), sp, regs, m, es⟩
      ⟨.code ops, sp + 8, regs, m, es⟩
  | sub {n ops sp regs m es} : Step p ⟨.code (.sub n :: ops), sp, regs, m, es⟩
      ⟨.code ops, sp - 8 * n, regs, m, es⟩
  | add {n ops sp regs m es} : Step p ⟨.code (.add n :: ops), sp, regs, m, es⟩
      ⟨.code ops, sp + 8 * n, regs, m, es⟩
  | set {r ops sp regs m es} (v : Word ρ β κ τ) : Step p ⟨.code (.set r :: ops), sp, regs, m, es⟩
      ⟨.code ops, sp, Function.update regs r v, m, es⟩
  | store {first count : Nat} {sp : Int} {ops regs m es} (m' : Int → Word ρ β κ τ)
      (same : ∀ a : Int, a < sp + 8 * first ∨ sp + 8 * first + 8 * count ≤ a → m' a = m a) :
      Step p ⟨.code (.store first count :: ops), sp, regs, m, es⟩ ⟨.code ops, sp, regs, m', es⟩
  | calls {k lent ops sp regs m es} : Step p ⟨.code (.calls k lent :: ops), sp, regs, m, es⟩
      ⟨.c k (sp - 8) lent regs, sp - 8, regs, Function.update m (sp - 8) (.code ops),
        (sp - 8) :: es⟩
  | call {b ops sp regs m es} : Step p ⟨.code (.call b :: ops), sp, regs, m, es⟩
      ⟨.code (p.block b), sp - 8, regs, Function.update m (sp - 8) (.code ops), (sp - 8) :: es⟩
  | jump {b ops sp regs m es} : Step p ⟨.code (.jump b :: ops), sp, regs, m, es⟩
      ⟨.code (p.block b), sp, regs, m, es⟩
  | jumps {t b ops sp regs m es} (may : p.may t true) :
      Step p ⟨.code (.jumpIf t b :: ops), sp, regs, m, es⟩ ⟨.code (p.block b), sp, regs, m, es⟩
  | falls {t b ops sp regs m es} (may : p.may t false) :
      Step p ⟨.code (.jumpIf t b :: ops), sp, regs, m, es⟩ ⟨.code ops, sp, regs, m, es⟩
  | leap {k ops sp regs m es} : Step p ⟨.code (.leap k :: ops), sp, regs, m, es⟩
      ⟨.c k sp 0 regs, sp, regs, m, es⟩
  | ret {ops sp regs m es} : Step p ⟨.code (.ret :: ops), sp, regs, m, es⟩
      ⟨m sp, sp + 8, regs, m, es.tail⟩
  | back {k b at_sp lent kept sp regs m es} (n : Nat) (regs' : ρ → Word ρ β κ τ)
      (m' : Int → Word ρ β κ τ) (backs : p.backs k b) (spares : Spares m m' at_sp lent) :
      Step p ⟨.c k at_sp lent kept, sp, regs, m, es⟩
        ⟨.code (p.block b), at_sp - 16 - 16 * n, regs',
          Function.update m' (at_sp - 16 - 16 * n) (.c k at_sp lent kept),
          (at_sp - 16 - 16 * n) :: es⟩
  | leave {k at_sp lent kept sp regs m es} (m' : Int → Word ρ β κ τ)
      (spares : Spares m m' at_sp lent) :
      Step p ⟨.c k at_sp lent kept, sp, regs, m, es⟩ ⟨m' at_sp, at_sp + 8, kept, m', es.tail⟩

def Reaches [DecidableEq ρ] (p : Program ρ β κ τ) : State ρ β κ τ → State ρ β κ τ → Prop :=
  Relation.ReflTransGen (Step p)

/-- What code is checked against: the words that a block finds between its stack pointer and the
return address of its function, each with the register it saves; the registers that its function
need not put back; the tests whose outcome is known; the C functions whose callbacks are checked. -/
structure Plan (ρ β κ τ : Type) where
  slots : β → Option (List (Option ρ))
  spoils : β → List ρ
  decided : τ → Option Bool
  fair : κ → Bool

def flows [DecidableEq ρ] (pl : Plan ρ β κ τ) (spoils : List ρ) :
    List (Op ρ β κ τ) → List (Option ρ) → Bool
  | .push none :: ops, slots => flows pl spoils ops (none :: slots)
  | .push (some r) :: ops, slots =>
    flows pl spoils ops ((if some r ∈ slots ∨ r ∈ spoils then none else some r) :: slots)
  | .pop none :: ops, none :: slots => flows pl spoils ops slots
  | .pop (some r) :: ops, q :: slots =>
    decide (q = some r ∨ (q = none ∧ r ∈ spoils)) && flows pl spoils ops slots
  | .sub n :: ops, slots => flows pl spoils ops (List.replicate n none ++ slots)
  | .add n :: ops, slots =>
    decide (n ≤ slots.length ∧ ∀ q ∈ slots.take n, q = none) && flows pl spoils ops (slots.drop n)
  | .set r :: ops, slots => decide (some r ∈ slots ∨ r ∈ spoils) && flows pl spoils ops slots
  | .store first count :: ops, slots =>
    decide (first + count ≤ slots.length ∧ ∀ q ∈ (slots.drop first).take count, q = none) &&
      flows pl spoils ops slots
  | .calls k lent :: ops, slots =>
    decide (slots.length % 2 = 1 ∧ lent ≤ slots.length ∧ ∀ q ∈ slots.take lent, q = none) &&
      pl.fair k && flows pl spoils ops slots
  | .call b :: ops, slots =>
    decide (slots.length % 2 = 1 ∧ pl.slots b = some [] ∧
      ∀ r ∈ pl.spoils b, some r ∈ slots ∨ r ∈ spoils) && flows pl spoils ops slots
  | .jump b :: _, slots => decide (pl.slots b = some slots ∧ pl.spoils b = spoils)
  | .jumpIf t b :: ops, slots =>
    decide (pl.decided t = some false ∨ (pl.slots b = some slots ∧ pl.spoils b = spoils)) &&
      (decide (pl.decided t = some true) || flows pl spoils ops slots)
  | .leap k :: _, slots => decide (slots = []) && pl.fair k
  | .ret :: _, slots => decide (slots = [])
  | _, _ => false

section Flows

variable [DecidableEq ρ] {pl : Plan ρ β κ τ} {ops : List (Op ρ β κ τ)} {slots : List (Option ρ)}
  {spoils : List ρ}

theorem flows_push {r : ρ} : flows pl spoils (.push (some r) :: ops) slots =
    flows pl spoils ops ((if some r ∈ slots ∨ r ∈ spoils then none else some r) :: slots) := rfl

theorem flows_pushes :
    flows pl spoils (.push none :: ops) slots = flows pl spoils ops (none :: slots) := rfl

theorem flows_pop {r : ρ} {q : Option ρ} : flows pl spoils (.pop (some r) :: ops) (q :: slots) =
    (decide (q = some r ∨ (q = none ∧ r ∈ spoils)) && flows pl spoils ops slots) := rfl

theorem flows_pops :
    flows pl spoils (.pop none :: ops) (none :: slots) = flows pl spoils ops slots := rfl

theorem flows_pops_kept {r : ρ} :
    flows pl spoils (.pop none :: ops) (some r :: slots) = false := rfl

/-- Nothing is popped beyond the slots. -/
theorem flows_pop_empty {q : Option ρ} : flows pl spoils (.pop q :: ops) [] = false := by
  cases q with
  | none => rfl
  | some r => rfl

theorem flows_sub {n : Nat} : flows pl spoils (.sub n :: ops) slots =
    flows pl spoils ops (List.replicate n none ++ slots) := rfl

theorem flows_add {n : Nat} : flows pl spoils (.add n :: ops) slots =
    (decide (n ≤ slots.length ∧ ∀ q ∈ slots.take n, q = none) &&
      flows pl spoils ops (slots.drop n)) := rfl

theorem flows_set {r : ρ} : flows pl spoils (.set r :: ops) slots =
    (decide (some r ∈ slots ∨ r ∈ spoils) && flows pl spoils ops slots) := rfl

theorem flows_store {first count : Nat} : flows pl spoils (.store first count :: ops) slots =
    (decide (first + count ≤ slots.length ∧ ∀ q ∈ (slots.drop first).take count, q = none) &&
      flows pl spoils ops slots) := rfl

theorem flows_calls {k : κ} {lent : Nat} : flows pl spoils (.calls k lent :: ops) slots =
    (decide (slots.length % 2 = 1 ∧ lent ≤ slots.length ∧ ∀ q ∈ slots.take lent, q = none) &&
      pl.fair k && flows pl spoils ops slots) := rfl

theorem flows_call {b : β} : flows pl spoils (.call b :: ops) slots =
    (decide (slots.length % 2 = 1 ∧ pl.slots b = some [] ∧
      ∀ r ∈ pl.spoils b, some r ∈ slots ∨ r ∈ spoils) && flows pl spoils ops slots) := rfl

theorem flows_jump {b : β} : flows pl spoils (.jump b :: ops) slots =
    decide (pl.slots b = some slots ∧ pl.spoils b = spoils) := rfl

theorem flows_jump_if {t : τ} {b : β} : flows pl spoils (.jumpIf t b :: ops) slots =
    (decide (pl.decided t = some false ∨ (pl.slots b = some slots ∧ pl.spoils b = spoils)) &&
      (decide (pl.decided t = some true) || flows pl spoils ops slots)) := rfl

theorem flows_leap {k : κ} :
    flows pl spoils (.leap k :: ops) slots = (decide (slots = []) && pl.fair k) := rfl

theorem flows_ret : flows pl spoils (.ret :: ops) slots = decide (slots = []) := rfl

end Flows

structure Follows [DecidableEq ρ] (p : Program ρ β κ τ) (pl : Plan ρ β κ τ) : Prop where
  blocks : ∀ b slots, pl.slots b = some slots → flows pl (pl.spoils b) (p.block b) slots = true
  backs : ∀ k b, pl.fair k = true → p.backs k b → pl.slots b = some [] ∧ pl.spoils b = []
  tests : ∀ t b, p.may t b → pl.decided t ≠ some !b

/-- The stack stands as the plan has it: each function that has not returned finds its return
address where it was entered and the registers it saved in its slots, and goes on when what was
called from it puts back the registers. -/
inductive Stands [DecidableEq ρ] (pl : Plan ρ β κ τ) (top : Int) (first : ρ → Word ρ β κ τ) :
    (Int → Word ρ β κ τ) → Word ρ β κ τ → Int → (ρ → Word ρ β κ τ) → List Int → Prop
  | outside {m} : Stands pl top first m .outside (top + 8) first []
  | asm {m ops slots spoils es} {regs own : ρ → Word ρ β κ τ} {sp e : Int}
      (flow : flows pl spoils ops slots = true) (entry : e % 16 = 8)
      (place : sp = e - 8 * slots.length)
      (saved : ∀ (i : Nat) r, slots[i]? = some (some r) → m (sp + 8 * i) = own r)
      (kept : ∀ r, some r ∉ slots → r ∉ spoils → regs r = own r)
      (below : ∀ regs', (∀ r, r ∉ spoils → regs' r = own r) →
        Stands pl top first m (m e) (e + 8) regs' es) :
      Stands pl top first m (.code ops) sp regs (e :: es)
  | c {m k lent kept regs es} {e sp : Int} (entry : e % 16 = 8) (under : sp ≤ e)
      (below : ∀ m', Spares m m' e lent → Stands pl top first m' (m e) (e + 8) kept es)
      (fair : pl.fair k = true) :
      Stands pl top first m (.c k e lent kept) sp regs (e :: es)

section Soundness

variable [DecidableEq ρ] {p : Program ρ β κ τ} {pl : Plan ρ β κ τ} {top sp e : Int}
  {first regs own : ρ → Word ρ β κ τ} {m m' : Int → Word ρ β κ τ} {w : Word ρ β κ τ}
  {ops : List (Op ρ β κ τ)} {slots : List (Option ρ)} {spoils : List ρ} {es : List Int}

/-- What is below the stack pointer does not matter. -/
theorem Stands.congr (stands : Stands pl top first m w sp regs es)
    (same : ∀ a, sp ≤ a → m' a = m a) : Stands pl top first m' w sp regs es := by
  induction stands generalizing m' with
  | outside => exact .outside
  | asm flow entry place saved kept below ih =>
    refine .asm flow entry place (fun i r held => ?_) kept fun regs' back => ?_
    · rw [same _ (by omega)]
      exact saved i r held
    · rw [same _ (by omega)]
      exact ih regs' back fun a high => same a (by omega)
  | c entry under below fair ih =>
    refine .c entry under (fun m'' spares => ?_) fair
    rw [same _ under]
    exact below m'' fun a high out => (spares a high out).trans (same a (Int.le_trans under high))

/-- A function goes on when words that save nothing were written. -/
theorem stands_lent {lent : Nat} (flow : flows pl spoils ops slots = true) (entry : e % 16 = 8)
    (place : sp = e - 8 * slots.length)
    (saved : ∀ (i : Nat) r, slots[i]? = some (some r) → m (sp + 8 * i) = own r)
    (kept : ∀ r, some r ∉ slots → r ∉ spoils → regs r = own r)
    (below : ∀ regs', (∀ r, r ∉ spoils → regs' r = own r) →
      Stands pl top first m (m e) (e + 8) regs' es)
    (free : lent ≤ slots.length ∧ ∀ q ∈ slots.take lent, q = none)
    (same : ∀ a, sp + 8 * lent ≤ a → m' a = m a) :
    Stands pl top first m' (.code ops) sp regs (e :: es) := by
  refine .asm flow entry place (fun i r held => ?_) kept fun regs' back => ?_
  · have later : lent ≤ i := by
      by_contra early
      have among : some r ∈ slots.take lent := by
        refine List.mem_of_getElem? (i := i) ?_
        rw [List.getElem?_take_of_lt (Nat.lt_of_not_le early)]
        exact held
      exact absurd (free.2 _ among) (by simp)
    rw [same _ (by omega)]
    exact saved i r held
  · rw [same e (by omega)]
    exact (below regs' back).congr fun a high => same a (by omega)

theorem stands_pushed {q : Option ρ} {v : Word ρ β κ τ}
    (flow : flows pl spoils ops (q :: slots) = true) (entry : e % 16 = 8)
    (place : sp = e - 8 * slots.length)
    (saved : ∀ (i : Nat) r, slots[i]? = some (some r) → m (sp + 8 * i) = own r)
    (kept : ∀ r, some r ∉ slots → r ∉ spoils → regs r = own r)
    (below : ∀ regs', (∀ r, r ∉ spoils → regs' r = own r) →
      Stands pl top first m (m e) (e + 8) regs' es)
    (value : ∀ r, q = some r → v = own r) :
    Stands pl top first (Function.update m (sp - 8) v) (.code ops) (sp - 8) regs (e :: es) := by
  have high (a : Int) (above : sp ≤ a) : Function.update m (sp - 8) v a = m a :=
    Function.update_of_ne (by omega) _ _
  refine .asm flow entry (by rw [List.length_cons]; omega) (fun i r held => ?_)
    (fun r out whole => kept r (fun among => out (List.mem_cons_of_mem _ among)) whole)
    fun regs' back => ?_
  · cases i with
    | zero =>
      rw [List.getElem?_cons_zero, Option.some.injEq] at held
      rw [Int.natCast_zero, Int.mul_zero, Int.add_zero, Function.update_self]
      exact value r held
    | succ i =>
      have next : sp - 8 + 8 * ((i + 1 : Nat) : Int) = sp + 8 * i := by omega
      rw [next, high _ (by omega)]
      exact saved i r held
  · rw [high e (by omega)]
    exact (below regs' back).congr fun a above => high a (by omega)

theorem stands_dropped {n : Nat} {regs' : ρ → Word ρ β κ τ} (enough : n ≤ slots.length)
    (flow : flows pl spoils ops (slots.drop n) = true) (entry : e % 16 = 8)
    (place : sp = e - 8 * slots.length)
    (saved : ∀ (i : Nat) r, slots[i]? = some (some r) → m (sp + 8 * i) = own r)
    (kept : ∀ r, some r ∉ slots.drop n → r ∉ spoils → regs' r = own r)
    (below : ∀ regs', (∀ r, r ∉ spoils → regs' r = own r) →
      Stands pl top first m (m e) (e + 8) regs' es) :
    Stands pl top first m (.code ops) (sp + 8 * n) regs' (e :: es) := by
  refine .asm flow entry (by rw [List.length_drop]; omega) (fun i r held => ?_) kept below
  have next : sp + 8 * (n : Int) + 8 * i = sp + 8 * ((n + i : Nat) : Int) := by omega
  rw [List.getElem?_drop] at held
  rw [next]
  exact saved (n + i) r held

theorem stands_push {r : ρ}
    (stands : Stands pl top first m (.code (.push (some r) :: ops)) sp regs es) :
    Stands pl top first (Function.update m (sp - 8) (regs r)) (.code ops) (sp - 8) regs es := by
  cases stands with | asm flow entry place saved kept below =>
  rw [flows_push] at flow
  refine stands_pushed flow entry place saved kept below fun q same => ?_
  split at same
  · cases same
  · rename_i fresh
    cases same
    exact kept r (fun among => fresh (.inl among)) fun among => fresh (.inr among)

theorem stands_pushes (v : Word ρ β κ τ)
    (stands : Stands pl top first m (.code (.push none :: ops)) sp regs es) :
    Stands pl top first (Function.update m (sp - 8) v) (.code ops) (sp - 8) regs es := by
  cases stands with | asm flow entry place saved kept below =>
  rw [flows_pushes] at flow
  exact stands_pushed flow entry place saved kept below nofun

theorem stands_pop {r : ρ}
    (stands : Stands pl top first m (.code (.pop (some r) :: ops)) sp regs es) :
    Stands pl top first m (.code ops) (sp + 8) (Function.update regs r (m sp)) es := by
  cases stands with | @asm _ _ slots spoils _ _ own _ e flow entry place saved kept below =>
  cases slots with
  | nil => simp [flows_pop_empty] at flow
  | cons q slots =>
    simp only [flows_pop, Bool.and_eq_true, decide_eq_true_eq] at flow
    have some_word : 1 ≤ (q :: slots).length := by simp
    refine stands_dropped some_word flow.2 entry place saved
      (fun x out whole => ?_) below
    by_cases this : x = r
    · subst this
      rw [Function.update_self]
      rcases flow.1 with rfl | spoilt
      · simpa using saved 0 x rfl
      · exact absurd spoilt.2 whole
    · rw [Function.update_of_ne this]
      refine kept x (fun among => ?_) whole
      rcases List.mem_cons.mp among with rfl | among
      · rcases flow.1 with same | spoilt
        · exact this (Option.some.inj same)
        · cases spoilt.1
      · exact out among

theorem stands_pops (stands : Stands pl top first m (.code (.pop none :: ops)) sp regs es) :
    Stands pl top first m (.code ops) (sp + 8) regs es := by
  cases stands with | @asm _ _ slots spoils _ _ own _ e flow entry place saved kept below =>
  cases slots with
  | nil => simp [flows_pop_empty] at flow
  | cons q slots =>
    cases q with
    | some r => simp [flows_pops_kept] at flow
    | none =>
      rw [flows_pops] at flow
      have some_word : 1 ≤ ((none : Option ρ) :: slots).length := by simp
      exact stands_dropped some_word flow entry place saved
        (fun x out whole => kept x (by simpa using out) whole) below

theorem stands_sub {n : Nat} (stands : Stands pl top first m (.code (.sub n :: ops)) sp regs es) :
    Stands pl top first m (.code ops) (sp - 8 * n) regs es := by
  cases stands with | @asm _ _ slots spoils _ _ own _ e flow entry place saved kept below =>
  rw [flows_sub] at flow
  refine .asm flow entry (by simp; omega) (fun i q held => ?_)
    (fun q out whole => kept q (fun among => out (List.mem_append_right _ among)) whole) below
  by_cases room : i < n
  · rw [List.getElem?_append_left (by simpa using room), List.getElem?_replicate, if_pos room]
      at held
    cases held
  · have back : sp - 8 * (n : Int) + 8 * i = sp + 8 * ((i - n : Nat) : Int) := by omega
    rw [List.getElem?_append_right (by simpa using room), List.length_replicate] at held
    rw [back]
    exact saved (i - n) q held

theorem stands_add {n : Nat} (stands : Stands pl top first m (.code (.add n :: ops)) sp regs es) :
    Stands pl top first m (.code ops) (sp + 8 * n) regs es := by
  cases stands with | @asm _ _ slots spoils _ _ own _ e flow entry place saved kept below =>
  simp only [flows_add, Bool.and_eq_true, decide_eq_true_eq] at flow
  obtain ⟨⟨enough, free⟩, flow⟩ := flow
  refine stands_dropped enough flow entry place saved (fun x out whole => ?_) below
  refine kept x (fun among => ?_) whole
  rw [← List.take_append_drop n slots, List.mem_append] at among
  exact among.elim (fun front => absurd (free _ front) (by simp)) out

theorem stands_set {r : ρ} (v : Word ρ β κ τ)
    (stands : Stands pl top first m (.code (.set r :: ops)) sp regs es) :
    Stands pl top first m (.code ops) sp (Function.update regs r v) es := by
  cases stands with | asm flow entry place saved kept below =>
  simp only [flows_set, Bool.and_eq_true, decide_eq_true_eq] at flow
  refine .asm flow.2 entry place saved (fun q out whole => ?_) below
  have other : q ≠ r := by
    rintro rfl
    exact flow.1.elim out whole
  rw [Function.update_of_ne other]
  exact kept q out whole

theorem stands_store {from_word count : Nat}
    (same : ∀ a : Int, a < sp + 8 * from_word ∨ sp + 8 * from_word + 8 * count ≤ a → m' a = m a)
    (stands : Stands pl top first m (.code (.store from_word count :: ops)) sp regs es) :
    Stands pl top first m' (.code ops) sp regs es := by
  cases stands with | @asm _ _ slots spoils _ _ own _ e flow entry place saved kept below =>
  simp only [flows_store, Bool.and_eq_true, decide_eq_true_eq] at flow
  obtain ⟨⟨enough, free⟩, flow⟩ := flow
  refine .asm flow entry place (fun i r held => ?_) kept fun regs' back => ?_
  · have apart : i < from_word ∨ from_word + count ≤ i := by
      by_contra among
      have listed : some r ∈ (slots.drop from_word).take count := by
        refine List.mem_of_getElem? (i := i - from_word) ?_
        rw [List.getElem?_take_of_lt (by omega), List.getElem?_drop,
          Nat.add_sub_cancel' (by omega)]
        exact held
      exact absurd (free _ listed) (by simp)
    rw [same _ (by omega)]
    exact saved i r held
  · rw [same e (by omega)]
    exact (below regs' back).congr fun a above => same a (by omega)

theorem stands_calls {k : κ} {lent : Nat}
    (stands : Stands pl top first m (.code (.calls k lent :: ops)) sp regs es) :
    Stands pl top first (Function.update m (sp - 8) (.code ops)) (.c k (sp - 8) lent regs)
      (sp - 8) regs ((sp - 8) :: es) := by
  cases stands with | asm flow entry place saved kept below =>
  simp only [flows_calls, Bool.and_eq_true, decide_eq_true_eq] at flow
  obtain ⟨⟨⟨odd, enough, free⟩, fair⟩, flow⟩ := flow
  refine .c (by omega) le_rfl (fun m' spares => ?_) fair
  rw [Function.update_self, Int.sub_add_cancel]
  refine stands_lent flow entry place saved kept below ⟨enough, free⟩ fun a above => ?_
  rw [spares a (by omega) (by omega)]
  exact Function.update_of_ne (by omega) _ _

theorem stands_call {b : β} (follows : Follows p pl)
    (stands : Stands pl top first m (.code (.call b :: ops)) sp regs es) :
    Stands pl top first (Function.update m (sp - 8) (.code ops)) (.code (p.block b))
      (sp - 8) regs ((sp - 8) :: es) := by
  cases stands with | asm flow entry place saved kept below =>
  simp only [flows_call, Bool.and_eq_true, decide_eq_true_eq] at flow
  obtain ⟨⟨odd, known, covers⟩, flow⟩ := flow
  refine .asm (follows.blocks _ _ known) (by omega) (by simp) (by simp)
    (fun _ _ _ => rfl) fun regs' back => ?_
  rw [Function.update_self, Int.sub_add_cancel]
  refine (Stands.asm flow entry place saved (fun r out whole => ?_) below).congr fun a above =>
    Function.update_of_ne (by omega) _ _
  have safe : r ∉ pl.spoils b := fun among => (covers r among).elim out whole
  rw [back r safe]
  exact kept r out whole

theorem stands_jump {b : β} (follows : Follows p pl)
    (stands : Stands pl top first m (.code (.jump b :: ops)) sp regs es) :
    Stands pl top first m (.code (p.block b)) sp regs es := by
  cases stands with | asm flow entry place saved kept below =>
  simp only [flows_jump, decide_eq_true_eq] at flow
  exact .asm (flow.2 ▸ follows.blocks _ _ flow.1) entry place saved kept below

theorem stands_jumps {t : τ} {b : β} (follows : Follows p pl) (may : p.may t true)
    (stands : Stands pl top first m (.code (.jumpIf t b :: ops)) sp regs es) :
    Stands pl top first m (.code (p.block b)) sp regs es := by
  cases stands with | asm flow entry place saved kept below =>
  simp only [flows_jump_if, Bool.and_eq_true, decide_eq_true_eq] at flow
  have target := flow.1.resolve_left (follows.tests _ _ may)
  exact .asm (target.2 ▸ follows.blocks _ _ target.1) entry place saved kept below

theorem stands_falls {t : τ} {b : β} (follows : Follows p pl) (may : p.may t false)
    (stands : Stands pl top first m (.code (.jumpIf t b :: ops)) sp regs es) :
    Stands pl top first m (.code ops) sp regs es := by
  cases stands with | asm flow entry place saved kept below =>
  simp only [flows_jump_if, Bool.and_eq_true, Bool.or_eq_true, decide_eq_true_eq] at flow
  exact .asm (flow.2.resolve_left (follows.tests _ _ may)) entry place saved kept below

theorem stands_leap {k : κ} (stands : Stands pl top first m (.code (.leap k :: ops)) sp regs es) :
    Stands pl top first m (.c k sp 0 regs) sp regs es := by
  cases stands with | asm flow entry place saved kept below =>
  simp only [flows_leap, Bool.and_eq_true, decide_eq_true_eq] at flow
  obtain ⟨rfl, fair⟩ := flow
  obtain rfl : sp = _ := by simpa using place
  refine .c entry le_rfl (fun m' spares => ?_) fair
  exact (below regs fun r whole => kept r List.not_mem_nil whole).congr fun a above =>
    spares a (by omega) (by omega)

theorem stands_ret (stands : Stands pl top first m (.code (.ret :: ops)) sp regs es) :
    Stands pl top first m (m sp) (sp + 8) regs es.tail := by
  cases stands with | asm flow entry place saved kept below =>
  simp only [flows_ret, decide_eq_true_eq] at flow
  subst flow
  obtain rfl : sp = _ := by simpa using place
  exact below regs fun r whole => kept r List.not_mem_nil whole

theorem stands_back {k : κ} {b : β} {lent n : Nat} {kept regs' : ρ → Word ρ β κ τ}
    (follows : Follows p pl) (backs : p.backs k b) (spares : Spares m m' e lent)
    (stands : Stands pl top first m (.c k e lent kept) sp regs es) :
    Stands pl top first (Function.update m' (e - 16 - 16 * n) (.c k e lent kept)) (.code
      (p.block b)) (e - 16 - 16 * n) regs' ((e - 16 - 16 * n) :: es) := by
  cases stands with | c entry under below fair =>
  obtain ⟨known, clean⟩ := follows.backs _ _ fair backs
  have high (a : Int) (above : e ≤ a) :
      Function.update m' (e - 16 - 16 * n) (.c k e lent kept) a = m' a :=
    Function.update_of_ne (by omega) _ _
  refine .asm (follows.blocks _ _ known) (by omega) (by simp) (by simp)
    (fun _ _ _ => rfl) fun regs'' _ => ?_
  rw [Function.update_self]
  refine .c entry (by omega) (fun m'' spares' => ?_) fair
  rw [high e le_rfl, spares e le_rfl (.inl (by omega))]
  refine below m'' fun a above out => ?_
  rw [spares' a above out, high a above, spares a above out]

theorem stands_leave {k : κ} {lent : Nat} {kept : ρ → Word ρ β κ τ} (spares : Spares m m' e lent)
    (stands : Stands pl top first m (.c k e lent kept) sp regs es) :
    Stands pl top first m' (m' e) (e + 8) kept es.tail := by
  cases stands with | c entry under below fair =>
  rw [spares e le_rfl (.inl (by omega))]
  exact below m' spares

/-- What an instruction or a C function makes of a stack that stands. -/
theorem stands_step (follows : Follows p pl) {s s' : State ρ β κ τ} (step : Step p s s')
    (stands : Stands pl top first s.mem s.pc s.sp s.regs s.entered) :
    Stands pl top first s'.mem s'.pc s'.sp s'.regs s'.entered := by
  cases step with
  | push => exact stands_push stands
  | pushes v => exact stands_pushes v stands
  | pop => exact stands_pop stands
  | pops => exact stands_pops stands
  | sub => exact stands_sub stands
  | add => exact stands_add stands
  | set v => exact stands_set v stands
  | store m' same => exact stands_store same stands
  | calls => exact stands_calls stands
  | call => exact stands_call follows stands
  | jump => exact stands_jump follows stands
  | jumps may => exact stands_jumps follows may stands
  | falls may => exact stands_falls follows may stands
  | leap => exact stands_leap stands
  | ret => exact stands_ret stands
  | back n regs' m' backs spares => exact stands_back follows backs spares stands
  | leave m' spares => exact stands_leave spares stands

theorem stands_run (follows : Follows p pl) {s s' : State ρ β κ τ} (run : Reaches p s s')
    (stands : Stands pl top first s.mem s.pc s.sp s.regs s.entered) :
    Stands pl top first s'.mem s'.pc s'.sp s'.regs s'.entered := by
  induction run with
  | refl => exact stands
  | tail _ step ih => exact stands_step follows step ih

end Soundness

/-- A function as its caller enters it: the stack pointer is 8 above a multiple of 16, and the
return address is there. -/
def start (p : Program ρ β κ τ) (b : β) (n : Int) (regs : ρ → Word ρ β κ τ)
    (m : Int → Word ρ β κ τ) : State ρ β κ τ :=
  ⟨.code (p.block b), 16 * n + 8, regs, Function.update m (16 * n + 8) .outside, [16 * n + 8]⟩

/-- Every run from the state calls C with an aligned stack, returns from each function where it was
entered, and is back in the caller with its stack pointer and the registers. A leap to a C function
is made where a call of it would have left the stack pointer. -/
structure Disciplined [DecidableEq ρ] (p : Program ρ β κ τ) (s₀ : State ρ β κ τ) (saved : List ρ) :
    Prop where
  aligned : ∀ s k lent ops, Reaches p s₀ s → s.pc = .code (.calls k lent :: ops) → s.sp % 16 = 0
  leaps : ∀ s k ops, Reaches p s₀ s → s.pc = .code (.leap k :: ops) →
    s.sp % 16 = 8 ∧ s.entered.head? = some s.sp
  balanced : ∀ s ops, Reaches p s₀ s → s.pc = .code (.ret :: ops) → s.entered.head? = some s.sp
  restored : ∀ s, Reaches p s₀ s → s.pc = .outside →
    s.sp = s₀.sp + 8 ∧ ∀ r ∈ saved, s.regs r = s₀.regs r

section Discipline

variable [DecidableEq ρ] {p : Program ρ β κ τ} {pl : Plan ρ β κ τ} {b : β}

theorem stands_start (follows : Follows p pl) (known : pl.slots b = some [])
    (clean : pl.spoils b = []) (n : Int) (regs : ρ → Word ρ β κ τ) (m : Int → Word ρ β κ τ) :
    Stands pl (16 * n + 8) regs (start p b n regs m).mem (start p b n regs m).pc
      (start p b n regs m).sp (start p b n regs m).regs (start p b n regs m).entered := by
  refine .asm (follows.blocks b [] known) (by omega) (by simp [start]) (by simp)
    (fun _ _ _ => rfl) fun regs' back => ?_
  have same : regs' = regs := funext fun r => back r (by rw [clean]; exact List.not_mem_nil)
  have returns : (start p b n regs m).mem (16 * n + 8) = .outside := Function.update_self ..
  rw [same, returns]
  exact .outside

/-- A program that keeps a plan is disciplined from each function that puts back all registers. -/
theorem disciplined (follows : Follows p pl) (known : pl.slots b = some [])
    (clean : pl.spoils b = []) (n : Int) (regs : ρ → Word ρ β κ τ) (m : Int → Word ρ β κ τ)
    (saved : List ρ) : Disciplined p (start p b n regs m) saved := by
  have stands (s : State ρ β κ τ) (run : Reaches p (start p b n regs m) s) :
      Stands pl (16 * n + 8) regs s.mem s.pc s.sp s.regs s.entered :=
    stands_run follows run (stands_start follows known clean n regs m)
  constructor
  · rintro ⟨_, sp, regs', m', es⟩ k lent ops run rfl
    cases stands _ run with | asm flow entry place =>
    simp only [flows_calls, Bool.and_eq_true, decide_eq_true_eq] at flow
    dsimp only at place ⊢
    omega
  · rintro ⟨_, sp, regs', m', es⟩ k ops run rfl
    cases stands _ run with | asm flow entry place =>
    simp only [flows_leap, Bool.and_eq_true, decide_eq_true_eq] at flow
    rw [flow.1] at place
    obtain rfl : sp = _ := by simpa using place
    exact ⟨entry, rfl⟩
  · rintro ⟨_, sp, regs', m', es⟩ ops run rfl
    cases stands _ run with | asm flow entry place =>
    simp only [flows_ret, decide_eq_true_eq] at flow
    rw [flow] at place
    obtain rfl : sp = _ := by simpa using place
    rfl
  · rintro ⟨_, sp, regs', m', es⟩ run rfl
    cases stands _ run with | outside =>
    exact ⟨rfl, fun _ _ => rfl⟩

end Discipline

section Runs

variable [DecidableEq ρ] {p : Program ρ β κ τ} {ops later : List (Op ρ β κ τ)} {k : κ} {lent : Nat}
  {sp e : Int} {regs : ρ → Word ρ β κ τ} {m : Int → Word ρ β κ τ} {es : List Int}

theorem calls_run : Reaches p ⟨.code (.calls k lent :: ops), sp, regs, m, es⟩
    ⟨.code ops, sp, regs, Function.update m (sp - 8) (.code ops), es⟩ := by
  have left : Step p ⟨.c k (sp - 8) lent regs, sp - 8, regs,
      Function.update m (sp - 8) (.code ops), (sp - 8) :: es⟩ _ := .leave _ fun _ _ _ => rfl
  rw [Function.update_self, Int.sub_add_cancel] at left
  exact .head .calls (.single left)

theorem ret_run (back : m sp = .code later) : Reaches p ⟨.code (.ret :: ops), sp, regs, m, e :: es⟩
    ⟨.code later, sp + 8, regs, m, es⟩ := by
  have returned : Step p ⟨.code (.ret :: ops), sp, regs, m, e :: es⟩ _ := .ret
  rw [back] at returned
  exact .single returned

end Runs

end HollowGrid.Stack
