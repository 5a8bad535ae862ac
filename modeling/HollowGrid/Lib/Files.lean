import HollowGrid.Lib.Bytes
import Mathlib.Data.List.Induction
import Mathlib.Logic.Function.Basic

/-! Files under the calls that write them, and the replacement of a file by a rename:
what stands under a path after any number of the calls. -/
namespace HollowGrid.Files

/-- A synced file is one that a crash leaves as it is. -/
structure Entry where
  content : Bytes
  synced : Bool
  deriving DecidableEq, Repr

inductive Call (P : Type)
  | create (path : P)
  | append (path : P) (bytes : Bytes)
  | sync (path : P)
  | close (path : P)
  | rename (source target : P)
  | opened (path : P)
  | failed
  deriving DecidableEq, Repr

variable {P : Type} [DecidableEq P]

def Call.apply (files : P → Option Entry) : Call P → P → Option Entry
  | create path => Function.update files path (some ⟨[], false⟩)
  | append path bytes =>
    Function.update files path ((files path).map fun e => ⟨e.content ++ bytes, false⟩)
  | sync path => Function.update files path ((files path).map fun e => ⟨e.content, true⟩)
  | rename source target =>
    Function.update (Function.update files target (files source)) source none
  | close _ => files
  | opened _ => files
  | failed => files

/-- What stands under the paths after the calls. -/
def after (files : P → Option Entry) (calls : List (Call P)) : P → Option Entry :=
  calls.foldl Call.apply files

def Call.Spares (path : P) : Call P → Prop
  | create p | append p _ | sync p => p ≠ path
  | rename source target => source ≠ path ∧ target ≠ path
  | _ => True

variable {files : P → Option Entry} {path temp final : P} {calls front back : List (Call P)}

theorem after_append : after files (front ++ back) = after (after files front) back :=
  List.foldl_append

theorem after_snoc (call : Call P) :
    after files (calls ++ [call]) = call.apply (after files calls) := by
  rw [after_append]
  rfl

theorem Call.spared {call : Call P} (spares : call.Spares path) :
    call.apply files path = files path := by
  cases call with
  | create p => exact Function.update_of_ne (Ne.symm spares) _ _
  | append p bytes => exact Function.update_of_ne (Ne.symm spares) _ _
  | sync p => exact Function.update_of_ne (Ne.symm spares) _ _
  | rename source target =>
    obtain ⟨off_source, off_target⟩ := spares
    rw [Call.apply, Function.update_of_ne (Ne.symm off_source),
      Function.update_of_ne (Ne.symm off_target)]
  | close p => rfl
  | opened p => rfl
  | failed => rfl

theorem after_spared (spares : ∀ call ∈ calls, call.Spares path) :
    after files calls path = files path := by
  induction calls generalizing files with
  | nil => rfl
  | cons call rest ih =>
    have first : call.apply files path = files path := Call.spared (spares call (by simp))
    rw [after, List.foldl_cons]
    exact (ih fun c member => spares c (List.mem_cons_of_mem _ member)).trans first

theorem taken_spared (spares : ∀ call ∈ calls, call.Spares path) (n : Nat) :
    after files (calls.take n) path = files path :=
  after_spared fun call member => spares call (List.mem_of_mem_take member)

theorem after_written (parts : List Bytes) :
    after files (.create path :: parts.map (.append path)) path =
      some ⟨parts.flatten, false⟩ := by
  induction parts using List.reverseRecOn with
  | nil => simp [after, Call.apply]
  | append_singleton parts last ih =>
    rw [List.map_append, ← List.cons_append, List.map_singleton, after_snoc, Call.apply,
      Function.update_self, ih]
    simp

/-- A written file that is synced and closed. -/
def written (path : P) (parts : List Bytes) : List (Call P) :=
  .create path :: parts.map (.append path) ++ [.sync path, .close path]

theorem after_synced (parts : List Bytes) :
    after files (written path parts) path = some ⟨parts.flatten, true⟩ := by
  have apart : ([.sync path, .close path] : List (Call P)) = [.sync path] ++ [.close path] := rfl
  rw [written, apart, ← List.append_assoc, after_snoc, Call.apply, after_snoc, Call.apply,
    Function.update_self, after_written]
  rfl

omit [DecidableEq P] in
theorem written_inj {parts others : List Bytes}
    (same : written path parts ++ front = written path others ++ back) : parts = others := by
  simp only [written, List.cons_append, List.append_assoc, List.cons.injEq, true_and] at same
  induction parts generalizing others with
  | nil =>
    cases others with
    | nil => rfl
    | cons part rest => simp at same
  | cons part rest ih =>
    cases others with
    | nil => simp at same
    | cons other others =>
      simp only [List.map_cons, List.cons_append, List.cons.injEq, Call.append.injEq,
        true_and] at same
      rw [same.1, ih same.2]

omit [DecidableEq P] in
theorem written_spares (parts : List Bytes) (apart : temp ≠ final) :
    ∀ call ∈ written temp parts, call.Spares final := by
  intro call member
  simp only [written, List.cons_append, List.mem_cons, List.mem_append, List.mem_map,
    List.not_mem_nil, or_false] at member
  rcases member with rfl | ⟨part, _, rfl⟩ | rfl | rfl
  · exact apart
  · exact apart
  · exact apart
  · trivial

/-- When the calls before the rename and after it spare the final path, what stands there at
any point is the old file or what the renamed one held. -/
theorem replaced (files : P → Option Entry) (spares : ∀ call ∈ front, call.Spares final)
    (kept : ∀ call ∈ back, call.Spares final) (apart : temp ≠ final) (n : Nat) :
    after files ((front ++ .rename temp final :: back).take n) final = files final ∨
      after files ((front ++ .rename temp final :: back).take n) final =
        after files front temp := by
  by_cases early : n ≤ front.length
  · rw [List.take_append_of_le_length early]
    exact .inl (taken_spared spares n)
  · obtain ⟨k, rfl⟩ : ∃ k, n = front.length + (k + 1) := ⟨n - front.length - 1, by omega⟩
    refine .inr ?_
    rw [List.take_length_add_append, List.take_succ_cons, after_append]
    have moved : (Call.rename temp final).apply (after files front) final =
        after files front temp := by
      rw [Call.apply, Function.update_of_ne (Ne.symm apart), Function.update_self]
    rw [after, List.foldl_cons]
    exact (taken_spared kept k).trans moved

end HollowGrid.Files
