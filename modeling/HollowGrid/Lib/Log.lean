import HollowGrid.Lib.Machine

/-! Logs of runs. Each event marks the log with what happened in it, and two marks of a log
stand in a relation when the first one leaves something owed until the second. -/
namespace HollowGrid.Machine

variable {σ α β ε : Type}

/-- What the events of a run mark its log with, in their order. -/
def log (step : σ → α → Except ε σ) (mark : σ → α → List β) : σ → List α → List β
  | _, [] => []
  | s, e :: rest =>
    mark s e ++
      match step s e with
      | .ok next => log step mark next rest
      | .error _ => []

theorem log_append (step : σ → α → Except ε σ) (mark : σ → α → List β) {start s : σ}
    {front : List α} (back : List α) (reached : Reaches step start front s) :
    log step mark start (front ++ back) = log step mark start front ++ log step mark s back := by
  induction front generalizing start with
  | nil =>
    cases reached
    rfl
  | cons first rest ih =>
    obtain ⟨next, taken, later⟩ := reaches_cons reached
    simp only [List.cons_append, log, taken, ih later, List.append_assoc]

theorem log_single (step : σ → α → Except ε σ) (mark : σ → α → List β) (s : σ) (e : α) :
    log step mark s [e] = mark s e := by
  rw [log]
  cases step s e <;> exact List.append_nil _

theorem log_snoc (step : σ → α → Except ε σ) (mark : σ → α → List β) {start s : σ}
    {events : List α} (e : α) (reached : Reaches step start events s) :
    log step mark start (events ++ [e]) = log step mark start events ++ mark s e := by
  rw [log_append step mark [e] reached, log_single]

theorem mem_log_first {step : σ → α → Except ε σ} {mark : σ → α → List β} {s : σ} {e : α} {b : β}
    (rest : List α) (marked : b ∈ mark s e) : b ∈ log step mark s (e :: rest) :=
  List.mem_append_left _ marked

/-- One event keeps the invariant and what is owed, its marks come when what is owed to them
is due, and they leave it owed anew. -/
structure Spaced (step : σ → α → Except ε σ) (mark : σ → α → List β) (condition : σ → α → Prop)
    (Inv : σ → Prop) (Owed : β → σ → Prop) (R : β → β → Prop) : Prop where
  keeps : ∀ s e next, Inv s → condition s e → step s e = .ok next → Inv next
  within : ∀ s e next, Inv s → step s e = .ok next → (mark s e).Pairwise R
  due : ∀ s e next, Inv s → step s e = .ok next → ∀ b, Owed b s → ∀ b' ∈ mark s e, R b b'
  owes : ∀ s e next, Inv s → condition s e → step s e = .ok next → ∀ b ∈ mark s e, Owed b next
  stays : ∀ s e next, Inv s → condition s e → step s e = .ok next → ∀ b, Owed b s → Owed b next

theorem spaced_log {step : σ → α → Except ε σ} {mark : σ → α → List β} {condition : σ → α → Prop}
    {Inv : σ → Prop} {Owed : β → σ → Prop} {R : β → β → Prop}
    (spaced : Spaced step mark condition Inv Owed R) {start s : σ} {events : List α}
    (initial : Inv start) (met : Meets step condition start events)
    (reached : Reaches step start events s) : (log step mark start events).Pairwise R := by
  have whole : Inv s ∧ (log step mark start events).Pairwise R ∧
      ∀ b ∈ log step mark start events, Owed b s := by
    induction events using List.reverseRecOn generalizing s with
    | nil =>
      cases reached
      exact ⟨initial, .nil, nofun⟩
    | append_singleton events e ih =>
      obtain ⟨last, front, taken⟩ := reaches_snoc_cases step start s events e reached
      obtain ⟨inv, pairs, owed⟩ := ih (meets_front step condition start events [e] met) front
      have meets := met events e [] last rfl front
      rw [log_snoc step mark e front]
      refine ⟨spaced.keeps last e s inv meets taken, ?_, fun b member => ?_⟩
      · rw [List.pairwise_append]
        refine ⟨pairs, spaced.within last e s inv taken, fun b before b' now => ?_⟩
        exact spaced.due last e s inv taken b (owed b before) b' now
      · rcases List.mem_append.mp member with before | now
        · exact spaced.stays last e s inv meets taken b (owed b before)
        · exact spaced.owes last e s inv meets taken b now
  exact whole.2.1

end HollowGrid.Machine
