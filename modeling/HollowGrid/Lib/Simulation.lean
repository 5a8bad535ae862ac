import HollowGrid.Lib.Machine
import Mathlib.Logic.Relation

/-! Stretches of a run, and the moves that a run makes of what its states stand for. -/
namespace HollowGrid.Machine

variable {σ τ α ε : Type} {step : σ → α → Except ε σ}

theorem lasts (P : σ → Prop) (allowed : α → Prop)
    (preserved : ∀ s e next, P s → allowed e → step s e = .ok next → P next)
    {events : List α} {s last : σ} (reached : Reaches step s events last) (holds : P s)
    (each : ∀ e ∈ events, allowed e) : P last := by
  induction events generalizing s with
  | nil =>
    cases reached
    exact holds
  | cons e rest ih =>
    obtain ⟨next, taken, later⟩ := reaches_cons reached
    have kept := preserved s e next holds (each e List.mem_cons_self) taken
    exact ih later kept fun other member => each other (List.mem_cons_of_mem e member)

/-- A run within the bound keeps the invariant, and what its states stand for makes moves. -/
theorem simulates (bound Inv : σ → Prop) (stands : σ → τ) (Move : τ → τ → Prop) {start : σ}
    (initial : Inv start)
    (preserved : ∀ s e next, Inv s → bound s → bound next → step s e = .ok next →
      Inv next ∧ Move (stands s) (stands next))
    {events : List α} (within : Within step bound start events) {s : σ}
    (reached : Reaches step start events s) :
    Inv s ∧ Relation.ReflTransGen Move (stands start) (stands s) := by
  induction events using List.reverseRecOn generalizing s with
  | nil =>
    cases reached
    exact ⟨initial, .refl⟩
  | append_singleton events e ih =>
    obtain ⟨last, front, taken⟩ := reaches_snoc_cases step start s events e reached
    obtain ⟨holds, moves⟩ := ih (within_front step bound start events [e] within) front
    have before := within events (List.prefix_append events [e]) last front
    have after := within _ (List.prefix_refl _) s reached
    obtain ⟨kept, move⟩ := preserved last e s holds before after taken
    exact ⟨kept, moves.tail move⟩

theorem within_stretch {bound : σ → Prop} {start s : σ} {front back : List α}
    (within : Within step bound start (front ++ back))
    (reached : Reaches step start front s) : Within step bound s back := by
  intro before start_of last there
  refine within (front ++ before) ?_ last ?_
  · exact (List.prefix_append_right_inj front).mpr start_of
  · rw [Reaches, run_append step start s front before reached]
    exact there

end HollowGrid.Machine
