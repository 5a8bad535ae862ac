import Mathlib.Data.List.Basic

/-! Streams put together out of texts that may be cut, and the heads that messages open with. A
sealed text completes no head the stream broke off in and starts none of its own. -/
namespace HollowGrid

variable {α : Type} {head a b p t u w : List α}

def Differs (p t : List α) : Prop :=
  ∃ (j : Nat) (x y : α), p[j]? = some x ∧ t[j]? = some y ∧ x ≠ y

/-- However the stream goes on, what follows a head that stands in it is good. -/
def Settled (head : List α) (Good : List α → Prop) (t : List α) : Prop :=
  ∀ front back rest, front.length + head.length ≤ t.length →
    t ++ rest = front ++ (head ++ back) → Good back

/-- No head starts in the text, whatever follows it. -/
def Shut (head u : List α) : Prop := ∀ i < u.length, Differs head (u.drop i)

structure Sealed (head u : List α) : Prop where
  shut : Shut head u
  fresh : ∀ k, 0 < k → k < head.length → Differs (head.drop k) u

def Mute (head t : List α) : Prop := ∀ x ∈ t, ∃ y, head[0]? = some y ∧ y ≠ x

section Differing

theorem differs_append (differ : Differs p t) (rest : List α) : Differs p (t ++ rest) := by
  obtain ⟨j, x, y, here, there, other⟩ := differ
  refine ⟨j, x, y, here, ?_, other⟩
  rw [List.getElem?_append_left (List.getElem?_eq_some_iff.mp there).1, there]

theorem differs_parted (differ : Differs p u) : ¬p <+: u := by
  rintro ⟨t, rfl⟩
  obtain ⟨j, x, y, here, there, other⟩ := differ
  rw [List.getElem?_append_left (List.getElem?_eq_some_iff.mp here).1, here] at there
  exact other (Option.some.inj there)

end Differing

section Streams

variable {Good : List α → Prop}

theorem settled_nil (opens : head ≠ []) : Settled head Good [] := by
  intro front back rest fits _
  have size := List.length_pos_of_ne_nil opens
  simp only [List.length_nil] at fits
  omega

/-- A text behind a stream completes a head only where it goes on with one. -/
theorem settled_append (fresh : ∀ k, 0 < k → k < head.length → ¬head.drop k <+: u)
    (first : Settled head Good w) (second : Settled head Good u) :
    Settled head Good (w ++ u) := by
  intro front back rest fits same
  rw [List.append_assoc] at same
  rw [List.length_append] at fits
  rcases List.append_eq_append_iff.mp same with ⟨mid, rfl, later⟩ | ⟨half, rfl, later⟩
  · -- the head stands in the text
    rw [List.length_append] at fits
    exact second mid back rest (by omega) later
  by_cases inside : front.length + head.length ≤ (front ++ half).length
  · -- the head stands in the stream
    exact first front back (u ++ rest) inside (by simpa using later.symm)
  · -- the stream breaks off within the head
    rw [List.length_append] at fits inside
    rcases Nat.eq_zero_or_pos half.length with none | some
    · obtain rfl := List.length_eq_zero_iff.mp none
      exact second [] back rest (by simp at fits ⊢; omega) later.symm
    have split := congrArg (List.drop half.length) later
    rw [List.drop_left, List.drop_append_of_le_length (by omega)] at split
    refine absurd ?_ (fresh half.length some (by omega))
    exact List.prefix_of_prefix_length_le ⟨back, split⟩ ⟨rest, rfl⟩ (by simp; omega)

/-- A message opens with a letter that nothing else of it has. -/
theorem settled_message {x : α} {tail more : List α} (alone : x ∉ tail ++ more)
    (good : ∀ rest, Good (more ++ rest)) (settled : Settled (x :: tail) Good w) :
    Settled (x :: tail) Good (w ++ (x :: tail ++ more)) := by
  refine settled_append (fun k later part start => ?_) settled fun front back rest fits same => ?_
  · obtain ⟨y, short, cut⟩ : ∃ y short, (x :: tail).drop k = y :: short :=
      ⟨_, _, List.drop_eq_getElem_cons part⟩
    have member : y ∈ tail := by
      obtain ⟨n, rfl⟩ := Nat.exists_eq_succ_of_ne_zero (Nat.ne_of_gt later)
      rw [Nat.succ_eq_add_one, List.drop_succ_cons] at cut
      exact List.mem_of_mem_drop (cut ▸ List.mem_cons_self)
    obtain ⟨t, whole⟩ := cut ▸ start
    obtain rfl := (List.cons.inj whole).1
    exact alone (List.mem_append_left _ member)
  · cases front with
    | nil =>
      rw [List.append_assoc] at same
      exact List.append_cancel_left same ▸ good rest
    | cons y front =>
      simp only [List.length_cons, List.length_append, List.cons_append, List.cons.injEq] at fits same
      have cell := congrArg (fun t => t[front.length]?) same.2
      simp only [List.getElem?_append_right (Nat.le_refl _), Nat.sub_self, List.getElem?_cons_zero]
        at cell
      rw [List.getElem?_append_left (by simp; omega)] at cell
      exact absurd (List.mem_of_getElem? cell) alone

theorem Sealed.cut (opens : head ≠ []) (text : Sealed head u) (n : Nat) :
    Settled head Good (u.take n) := by
  intro front back rest fits same
  have size := List.length_pos_of_ne_nil opens
  have inside : front ++ head <+: u.take n :=
    List.prefix_of_prefix_length_le ⟨back, by simp [same]⟩ ⟨rest, rfl⟩ (by simpa using fits)
  obtain ⟨tail, whole⟩ := inside.trans (List.take_prefix n u)
  have within : front.length < u.length := by
    rw [← whole]
    simp
    omega
  refine absurd ⟨tail, ?_⟩ (differs_parted (text.shut _ within))
  rw [← whole]
  simp

theorem Sealed.settled (opens : head ≠ []) (text : Sealed head u) (settled : Settled head Good w)
    (n : Nat) : Settled head Good (w ++ u.take n) :=
  settled_append (fun k later part start =>
    differs_parted (text.fresh k later part) (start.trans (List.take_prefix n u)))
    settled (text.cut opens n)

end Streams

section Texts

theorem mute_nil : Mute head [] := by
  intro x member
  cases member

theorem mute_append (first : Mute head a) (second : Mute head b) : Mute head (a ++ b) := by
  intro x member
  rcases List.mem_append.mp member with front | back
  · exact first x front
  · exact second x back

theorem mute_subset (mute : Mute head t) (subset : ∀ x ∈ a, x ∈ t) : Mute head a :=
  fun x member => mute x (subset x member)

theorem mute_shut (mute : Mute head b) : Shut head b := by
  intro i within
  obtain ⟨y, here, other⟩ := mute _ (List.getElem_mem within)
  refine ⟨0, y, _, here, ?_, other⟩
  rw [List.getElem?_drop, Nat.add_zero, List.getElem?_eq_getElem within]

theorem shut_append (first : Shut head a) (second : Shut head b) : Shut head (a ++ b) := by
  intro i within
  rw [List.drop_append]
  by_cases inside : i < a.length
  · exact differs_append (first i inside) _
  · rw [List.drop_eq_nil_of_le (Nat.not_lt.mp inside), List.nil_append]
    rw [List.length_append] at within
    exact second _ (by omega)

theorem shut_flatten {pieces : List (List α)} (each : ∀ p ∈ pieces, Shut head p) :
    Shut head pieces.flatten := by
  induction pieces with
  | nil => exact fun i within => absurd within (Nat.not_lt_zero i)
  | cons p rest ih =>
    exact shut_append (each p List.mem_cons_self) (ih fun q member => each q (by simp [member]))

theorem sealed_append (text : Sealed head a) (rest : Shut head b) : Sealed head (a ++ b) where
  shut := shut_append text.shut rest
  fresh := fun k later part => differs_append (text.fresh k later part) b

theorem sealed_behind (opens : head ≠ []) (strange : ∀ x ∈ a, x ∉ head) (text : Sealed head b) :
    Sealed head (a ++ b) := by
  have mute : Mute head a := by
    intro x member
    obtain ⟨y, rest, rfl⟩ := List.exists_cons_of_ne_nil opens
    exact ⟨y, rfl, fun same => strange x member (same ▸ List.mem_cons_self)⟩
  refine ⟨shut_append (mute_shut mute) text.shut, fun k later part => ?_⟩
  cases a with
  | nil => exact text.fresh k later part
  | cons x rest =>
    have here : head[k]? = some head[k] := List.getElem?_eq_getElem part
    refine ⟨0, head[k], x, by rw [List.getElem?_drop, Nat.add_zero, here], rfl, fun same => ?_⟩
    exact strange x List.mem_cons_self (same ▸ List.getElem_mem part)

end Texts

end HollowGrid
