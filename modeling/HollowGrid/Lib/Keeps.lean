import Mathlib.Data.List.Basic

/-! Rules of pre- and postconditions for programs with a state and faults. A
program keeps I when it never leaves I, whatever its result; the results it may
return and the faults it may stop with are part of the statement. It leads from P
to Q when the two conditions differ. -/
namespace HollowGrid

variable {σ ε α β : Type}

/-- From a state in I the program ends in I with a result in Q, or stops with a
fault in E. -/
def Keeps (I : σ → Prop) (E : ε → Prop) (m : StateT σ (Except ε) α) (Q : α → Prop) : Prop :=
  ∀ s, I s → match m s with
    | .ok (a, s') => I s' ∧ Q a
    | .error fault => E fault

def Any (_ : α) : Prop := True

/-- A first part that ends hands its result and its state to the rest. -/
theorem bind_ok {m : StateT σ (Except ε) α} {f : α → StateT σ (Except ε) β} {s s' : σ} {a : α}
    (ended : m s = .ok (a, s')) : (m >>= f) s = f a s' := by
  simp only [Bind.bind, StateT.bind, Except.bind, ended]

namespace Keeps

variable {I : σ → Prop} {E : ε → Prop} {Q R : α → Prop} {S : β → Prop}

theorem result {m : StateT σ (Except ε) α} (kept : Keeps I E m Q) {s s' : σ} {a : α}
    (holds : I s) (ended : m s = .ok (a, s')) : I s' ∧ Q a := by
  have h := kept s holds
  rw [ended] at h
  exact h

theorem fault {m : StateT σ (Except ε) α} (kept : Keeps I E m Q) {s : σ} {stopped : ε}
    (holds : I s) (ended : m s = .error stopped) : E stopped := by
  have h := kept s holds
  rw [ended] at h
  exact h

theorem pure {a : α} (q : Q a) : Keeps I E (Pure.pure a) Q :=
  fun _ holds => ⟨holds, q⟩

theorem weaken {m : StateT σ (Except ε) α} (kept : Keeps I E m R) (implied : ∀ a, R a → Q a) :
    Keeps I E m Q := by
  intro s holds
  have h := kept s holds
  cases ended : m s with
  | ok r =>
    rw [ended] at h
    exact ⟨h.1, implied r.1 h.2⟩
  | error fault =>
    rw [ended] at h
    exact h

theorem bind {m : StateT σ (Except ε) α} {f : α → StateT σ (Except ε) β}
    (first : Keeps I E m R) (rest : ∀ a, R a → Keeps I E (f a) S) : Keeps I E (m >>= f) S := by
  intro s holds
  have h := first s holds
  simp only [Bind.bind, StateT.bind, Except.bind]
  cases ended : m s with
  | ok r =>
    rw [ended] at h
    exact rest r.1 h.2 r.2 h.1
  | error fault =>
    rw [ended] at h
    exact h

/-- The rule for a statement whose result is not used. -/
theorem seq {m : StateT σ (Except ε) α} {n : StateT σ (Except ε) β}
    (first : Keeps I E m Any) (rest : Keeps I E n S) : Keeps I E (m >>= fun _ => n) S :=
  bind first fun _ _ => rest

theorem ite {p : Prop} [Decidable p] {m n : StateT σ (Except ε) α}
    (yes : p → Keeps I E m Q) (no : ¬p → Keeps I E n Q) :
    Keeps I E (if p then m else n) Q := by
  split
  · exact yes ‹_›
  · exact no ‹_›

/-- The rule for a branch whose condition does not matter. -/
theorem branch {p : Prop} [Decidable p] {m n : StateT σ (Except ε) α}
    (yes : Keeps I E m Q) (no : Keeps I E n Q) : Keeps I E (if p then m else n) Q :=
  ite (fun _ => yes) fun _ => no

theorem throw {stopped : ε} (allowed : E stopped) :
    Keeps I E (MonadExcept.throw stopped : StateT σ (Except ε) α) Q :=
  fun _ _ => allowed

theorem get : Keeps I E (MonadState.get : StateT σ (Except ε) σ) I :=
  fun _ holds => ⟨holds, holds⟩

theorem modify {f : σ → σ} (preserved : ∀ s, I s → I (f s)) :
    Keeps I E (modifyGet (fun s => (PUnit.unit, f s)) : StateT σ (Except ε) PUnit) Any :=
  fun s holds => ⟨preserved s holds, trivial⟩

theorem for_each {xs : List β} {f : β → StateT σ (Except ε) PUnit}
    (each : ∀ x ∈ xs, Keeps I E (f x) Any) : Keeps I E (xs.forM f) Any := by
  induction xs with
  | nil => exact pure trivial
  | cons x rest ih =>
    refine seq (each x List.mem_cons_self) (ih fun y member => ?_)
    exact each y (List.mem_cons_of_mem x member)

end Keeps
/-- From a state in P the program ends with a result and a state in Q, or stops with a
fault in E. -/
def Leads (P : σ → Prop) (E : ε → Prop) (m : StateT σ (Except ε) α) (Q : α → σ → Prop) : Prop :=
  ∀ s, P s → match m s with
    | .ok (a, s') => Q a s'
    | .error fault => E fault

namespace Leads

variable {P M : σ → Prop} {E : ε → Prop} {Q R : α → σ → Prop} {S : β → σ → Prop}

theorem result {m : StateT σ (Except ε) α} (led : Leads P E m Q) {s s' : σ} {a : α}
    (holds : P s) (ended : m s = .ok (a, s')) : Q a s' := by
  have h := led s holds
  rw [ended] at h
  exact h

theorem fault {m : StateT σ (Except ε) α} (led : Leads P E m Q) {s : σ} {stopped : ε}
    (holds : P s) (ended : m s = .error stopped) : E stopped := by
  have h := led s holds
  rw [ended] at h
  exact h

theorem of_keeps {m : StateT σ (Except ε) α} {q : α → Prop} (kept : Keeps P E m q) :
    Leads P E m fun a s => P s ∧ q a :=
  kept

theorem pure {a : α} (q : ∀ s, P s → Q a s) : Leads P E (Pure.pure a) Q := q

theorem weaken {m : StateT σ (Except ε) α} (led : Leads P E m R) (implied : ∀ a s, R a s → Q a s) :
    Leads P E m Q := by
  intro s holds
  have h := led s holds
  cases ended : m s with
  | ok r =>
    rw [ended] at h
    exact implied r.1 r.2 h
  | error fault =>
    rw [ended] at h
    exact h

theorem stays {m : StateT σ (Except ε) α} {q : α → Prop} (kept : Keeps P E m q) :
    Leads P E m fun _ => P :=
  (of_keeps kept).weaken fun _ _ h => h.1

/-- What one run leads to from two conditions. -/
theorem both {m : StateT σ (Except ε) α} (first : Leads P E m Q) (second : Leads M E m R) :
    Leads (fun s => P s ∧ M s) E m fun a s => Q a s ∧ R a s := by
  rintro s ⟨one, other⟩
  have h := first s one
  have h' := second s other
  cases ended : m s with
  | ok r =>
    rw [ended] at h h'
    exact ⟨h, h'⟩
  | error fault =>
    rw [ended] at h
    exact h

/-- A program that leads back where it starts. -/
theorem kept {m : StateT σ (Except ε) α} (led : Leads P E m fun _ => P) : Keeps P E m Any :=
  fun s holds => by
    have h := led s holds
    cases ended : m s with
    | ok r =>
      rw [ended] at h
      exact ⟨h, trivial⟩
    | error fault =>
      rw [ended] at h
      exact h

theorem bind {m : StateT σ (Except ε) α} {f : α → StateT σ (Except ε) β}
    (first : Leads P E m R) (rest : ∀ a, Leads (R a) E (f a) S) : Leads P E (m >>= f) S := by
  intro s holds
  have h := first s holds
  simp only [Bind.bind, StateT.bind, Except.bind]
  cases ended : m s with
  | ok r =>
    rw [ended] at h
    exact rest r.1 r.2 h
  | error fault =>
    rw [ended] at h
    exact h

theorem cases {m : StateT σ (Except ε) α} (first : Leads P E m Q) (second : Leads M E m Q) :
    Leads (fun s => P s ∨ M s) E m Q := by
  rintro s (holds | holds)
  · exact first s holds
  · exact second s holds

theorem given {m : StateT σ (Except ε) α} {p : Prop} (under : p → Leads P E m Q) :
    Leads (fun s => p ∧ P s) E m Q :=
  fun s holds => under holds.1 s holds.2

theorem some_one {γ : Type} {m : StateT σ (Except ε) α} {A : γ → σ → Prop}
    (each : ∀ x, Leads (A x) E m Q) : Leads (fun s => ∃ x, A x s) E m Q := by
  rintro s ⟨x, holds⟩
  exact each x s holds

theorem after {m : StateT σ (Except ε) α} {q : α → Prop} {f : α → StateT σ (Except ε) β}
    (first : Keeps P E m q) (rest : ∀ a, q a → Leads P E (f a) S) : Leads P E (m >>= f) S :=
  bind (of_keeps first) fun a s h => rest a h.2 s h.1

theorem seq {m : StateT σ (Except ε) α} {n : StateT σ (Except ε) β}
    (first : Leads P E m fun _ => M) (rest : Leads M E n S) :
    Leads P E (m >>= fun _ => n) S :=
  bind first fun _ => rest

theorem ite {p : Prop} [Decidable p] {m n : StateT σ (Except ε) α}
    (yes : p → Leads P E m Q) (no : ¬p → Leads P E n Q) :
    Leads P E (if p then m else n) Q := by
  split
  · exact yes ‹_›
  · exact no ‹_›

theorem start {m : StateT σ (Except ε) α} {s : σ} (holds : P s) (led : Leads P E m Q) :
    Leads (· = s) E m Q := by
  intro s' same
  rw [same]
  exact led s holds

/-- A first part that only looks at the state. -/
theorem reads {m : StateT σ (Except ε) α} {f : α → StateT σ (Except ε) β} {s : σ} {a : α}
    (found : m s = .ok (a, s)) (rest : Leads (· = s) E (f a) S) :
    Leads (· = s) E (m >>= f) S := by
  intro s' same
  rw [same, bind_ok found]
  exact rest s rfl

theorem runs (m : StateT σ (Except ε) α) (s : σ) :
    Leads (· = s) (fun _ => True) m fun a s' => m s = .ok (a, s') := by
  rintro _ rfl
  cases m _ with
  | error fault => trivial
  | ok r => rfl

theorem modify {f : σ → σ} {Q : PUnit → σ → Prop} (reached : ∀ s, P s → Q PUnit.unit (f s)) :
    Leads P E (modifyGet (fun s => (PUnit.unit, f s)) : StateT σ (Except ε) PUnit) Q :=
  reached

end Leads
end HollowGrid
