import Mathlib.Data.List.Induction
import Mathlib.Data.List.Infix

/-! Runs of a machine whose step may fault. Nothing here is about one program:
the state, the event and the fault are parameters. -/
namespace HollowGrid.Machine

variable {σ α ε : Type}

/-- Events are taken in order. A fault ends the run. -/
def run (step : σ → α → Except ε σ) : σ → List α → Except ε σ
  | s, [] => .ok s
  | s, e :: rest =>
    match step s e with
    | .ok next => run step next rest
    | .error fault => .error fault

/-- s is reached from the start by the events of the list, with no fault. -/
def Reaches (step : σ → α → Except ε σ) (start : σ) (events : List α) (s : σ) : Prop :=
  run step start events = .ok s

/-- Every event of the run meets the condition in the state it is taken in. -/
def Meets (step : σ → α → Except ε σ) (condition : σ → α → Prop) (start : σ)
    (events : List α) : Prop :=
  ∀ before e after s, events = before ++ e :: after → Reaches step start before s →
    condition s e

/-- Every state on the way of the run is within the bound, the last one included. -/
def Within (step : σ → α → Except ε σ) (bound : σ → Prop) (start : σ) (events : List α) : Prop :=
  ∀ before, before <+: events → ∀ s, Reaches step start before s → bound s

/-- The run ends with no fault, in a state that passes the test. -/
def ends (step : σ → α → Except ε σ) (start : σ) (events : List α) (test : σ → Bool) : Bool :=
  match run step start events with
  | .ok s => test s
  | .error _ => false

theorem ends_reaches (step : σ → α → Except ε σ) (start : σ) (events : List α) (test : σ → Bool)
    (passed : ends step start events test = true) :
    ∃ s, Reaches step start events s ∧ test s = true := by
  unfold ends at passed
  split at passed
  · rename_i s reached
    exact ⟨s, reached, passed⟩
  · cases passed

/-- Every event of the run passes the test in the state it is taken in. -/
def passes (step : σ → α → Except ε σ) (test : σ → α → Bool) : σ → List α → Bool
  | _, [] => true
  | s, e :: rest =>
    test s e && match step s e with
      | .ok next => passes step test next rest
      | .error _ => true

theorem run_append (step : σ → α → Except ε σ) (s middle : σ) (front back : List α)
    (reached : run step s front = .ok middle) :
    run step s (front ++ back) = run step middle back := by
  induction front generalizing s with
  | nil =>
    cases reached
    rfl
  | cons e rest ih =>
    simp only [List.cons_append, run] at reached ⊢
    cases h : step s e with
    | ok next =>
      rw [h] at reached
      exact ih next reached
    | error fault => simp [h] at reached

theorem reaches_nil (step : σ → α → Except ε σ) (s : σ) : Reaches step s [] s := rfl

theorem reaches_snoc (step : σ → α → Except ε σ) (start s next : σ) (events : List α) (e : α)
    (reached : Reaches step start events s) (taken : step s e = .ok next) :
    Reaches step start (events ++ [e]) next := by
  unfold Reaches
  rw [run_append step start s events [e] reached]
  simp [run, taken]

theorem reaches_cons {step : σ → α → Except ε σ} {start last : σ} {e : α} {events : List α}
    (reached : Reaches step start (e :: events) last) :
    ∃ next, step start e = .ok next ∧ Reaches step next events last := by
  simp only [Reaches, run] at reached
  cases taken : step start e with
  | ok next =>
    rw [taken] at reached
    exact ⟨next, rfl, reached⟩
  | error fault => simp [taken] at reached

/-- A run passes through the states of its starts. -/
theorem reaches_split {step : σ → α → Except ε σ} {start last : σ} {front back : List α}
    (reached : Reaches step start (front ++ back) last) :
    ∃ s, Reaches step start front s ∧ Reaches step s back last := by
  induction front generalizing start with
  | nil => exact ⟨start, rfl, reached⟩
  | cons e rest ih =>
    obtain ⟨next, taken, later⟩ := reaches_cons reached
    obtain ⟨s, front_part, back_part⟩ := ih later
    exact ⟨s, by simpa [Reaches, run, taken] using front_part, back_part⟩

theorem reaches_snoc_cases (step : σ → α → Except ε σ) (start next : σ) (events : List α) (e : α)
    (reached : Reaches step start (events ++ [e]) next) :
    ∃ s, Reaches step start events s ∧ step s e = .ok next := by
  induction events generalizing start with
  | nil =>
    refine ⟨start, rfl, ?_⟩
    cases h : step start e with
    | ok s => simpa [Reaches, run, h] using reached
    | error fault => simp [Reaches, run, h] at reached
  | cons first rest ih =>
    cases h : step start first with
    | ok s =>
      have tail : Reaches step s (rest ++ [e]) next := by
        simpa [Reaches, run, h] using reached
      obtain ⟨last, front, taken⟩ := ih s tail
      exact ⟨last, by simpa [Reaches, run, h] using front, taken⟩
    | error fault => simp [Reaches, run, h] at reached

theorem run_fault (step : σ → α → Except ε σ) (start : σ) (events : List α) (fault : ε)
    (stopped : run step start events = .error fault) :
    ∃ before e after s, events = before ++ e :: after ∧ Reaches step start before s ∧
      step s e = .error fault := by
  induction events generalizing start with
  | nil => cases stopped
  | cons first rest ih =>
    cases taken : step start first with
    | ok next =>
      obtain ⟨before, e, after, s, rfl, reached, faulted⟩ :=
        ih next (by simpa only [run, taken] using stopped)
      refine ⟨first :: before, e, after, s, rfl, ?_, faulted⟩
      simpa only [Reaches, run, taken] using reached
    | error other =>
      simp only [run, taken, Except.error.injEq] at stopped
      subst stopped
      exact ⟨[], first, rest, start, rfl, rfl, taken⟩

theorem meets_front (step : σ → α → Except ε σ) (condition : σ → α → Prop) (start : σ)
    (front back : List α) (met : Meets step condition start (front ++ back)) :
    Meets step condition start front := by
  intro before e after s split reached
  exact met before e (after ++ back) s (by simp [split]) reached

/-- An invariant that speaks of the events taken so far. -/
theorem history_run (step : σ → α → Except ε σ) (Inv : List α → σ → Prop) (start : σ)
    (initial : Inv [] start)
    (preserved : ∀ events s e next, Reaches step start events s → Inv events s →
      step s e = .ok next → Inv (events ++ [e]) next)
    (events : List α) (s : σ) (reached : Reaches step start events s) : Inv events s := by
  induction events using List.reverseRecOn generalizing s with
  | nil =>
    cases reached
    exact initial
  | append_singleton events e ih =>
    obtain ⟨last, front, taken⟩ := reaches_snoc_cases step start s events e reached
    exact preserved events last e s front (ih last front) taken

/-- An invariant of the steps that meet the condition holds in every state a run
of such steps reaches. -/
theorem invariant_run (step : σ → α → Except ε σ) (condition : σ → α → Prop)
    (Inv : σ → Prop) (start : σ) (initial : Inv start)
    (preserved : ∀ s e next, Inv s → condition s e → step s e = .ok next → Inv next)
    (events : List α) (met : Meets step condition start events) (s : σ)
    (reached : Reaches step start events s) : Inv s := by
  induction events using List.reverseRecOn generalizing s with
  | nil =>
    cases reached
    exact initial
  | append_singleton events e ih =>
    obtain ⟨last, front, taken⟩ := reaches_snoc_cases step start s events e reached
    have holds := ih (meets_front step condition start events [e] met) last front
    exact preserved last e s holds (met events e [] last rfl front) taken

theorem within_front (step : σ → α → Except ε σ) (bound : σ → Prop) (start : σ)
    (front back : List α) (within : Within step bound start (front ++ back)) :
    Within step bound start front :=
  fun before start_of s reached =>
    within before (start_of.trans (List.prefix_append front back)) s reached

theorem meets_within (step : σ → α → Except ε σ) (bound : σ → Prop) (condition : σ → α → Prop)
    (start : σ) (events : List α) (within : Within step bound start events)
    (implied : ∀ s e, e ∈ events → bound s → condition s e) :
    Meets step condition start events := by
  intro before e after s split reached
  refine implied s e (by simp [split]) (within before ?_ s reached)
  rw [split]
  exact List.prefix_append before (e :: after)

theorem meets_passed (step : σ → α → Except ε σ) (test : σ → α → Bool) (condition : σ → α → Prop)
    (implied : ∀ s e, test s e = true → condition s e) (start : σ) (events : List α)
    (passed : passes step test start events = true) : Meets step condition start events := by
  induction events generalizing start with
  | nil =>
    intro before e after s split
    simp at split
  | cons first rest ih =>
    simp only [passes, Bool.and_eq_true] at passed
    intro before e after s split reached
    cases before with
    | nil =>
      cases split
      cases reached
      exact implied start first passed.1
    | cons d front =>
      simp only [List.cons_append, List.cons.injEq] at split
      obtain ⟨rfl, split⟩ := split
      cases taken : step start first with
      | ok next =>
        rw [taken] at passed
        refine ih next passed.2 front e after s split ?_
        simpa only [Reaches, run, taken] using reached
      | error fault => simp [Reaches, run, taken] at reached

theorem invariant_within (step : σ → α → Except ε σ) (bound Inv : σ → Prop) (start : σ)
    (initial : Inv start)
    (preserved : ∀ s e next, Inv s → bound next → step s e = .ok next → Inv next)
    (events : List α) (within : Within step bound start events) (s : σ)
    (reached : Reaches step start events s) : Inv s := by
  induction events using List.reverseRecOn generalizing s with
  | nil =>
    cases reached
    exact initial
  | append_singleton events e ih =>
    obtain ⟨last, front, taken⟩ := reaches_snoc_cases step start s events e reached
    have holds := ih (within_front step bound start events [e] within) last front
    exact preserved last e s holds (within _ (List.prefix_refl _) s reached) taken

/-- A bound that a test of every start of the run confirms. -/
theorem within_checked (step : σ → α → Except ε σ) (bound : σ → Prop) [DecidablePred bound]
    (start : σ) (events : List α)
    (checked : (events.inits.all fun before => ends step start before fun s => bound s) = true) :
    Within step bound start events := by
  intro before start_of s reached
  have passed := List.all_eq_true.mp checked before ((List.mem_inits _ _).mpr start_of)
  obtain ⟨last, there, fits⟩ := ends_reaches step start before _ passed
  cases there.symm.trans reached
  exact of_decide_eq_true fits

theorem invariant_every_run (step : σ → α → Except ε σ) (Inv : σ → Prop) (start : σ)
    (initial : Inv start)
    (preserved : ∀ s e next, Inv s → step s e = .ok next → Inv next)
    (events : List α) (s : σ) (reached : Reaches step start events s) : Inv s :=
  invariant_run step (fun _ _ => True) Inv start initial
    (fun s e next holds _ taken => preserved s e next holds taken)
    events (fun _ _ _ _ _ _ => trivial) s reached

end HollowGrid.Machine
