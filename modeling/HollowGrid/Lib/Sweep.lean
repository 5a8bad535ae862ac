import Mathlib.Data.List.Basic
import Mathlib.Data.List.Perm.Subperm
import Mathlib.Algebra.GroupWithZero.Nat
import Mathlib.Algebra.Ring.Int.Defs

/-! Two loops over a table: one moves the rows that stay together in place, one counts the rows
of each key in the order in which the keys turn up. -/
namespace HollowGrid.Sweep

variable {α κ : Type}

/-- The rounds left: i is the row looked at, k the place for the next row that stays. -/
def sweep (drop : α → Bool) : Nat → Nat → Nat → List α → List α × Nat
  | 0, _, k, table => (table, k)
  | rounds + 1, i, k, table =>
    match table[i]? with
    | none => (table, k)
    | some row =>
      if drop row then sweep drop rounds (i + 1) k table
      else sweep drop rounds (i + 1) (k + 1) (if k = i then table else table.set k row)

/-- A row that is put in its own place changes nothing. -/
theorem put_set {table : List α} {i k : Nat} {row : α} (there : table[i]? = some row) :
    (if k = i then table else table.set k row) = table.set k row := by
  split
  · rename_i same
    subst same
    obtain ⟨inside, rfl⟩ := List.getElem?_eq_some_iff.mp there
    exact (List.set_getElem_self inside).symm
  · rfl

/-- What is in front of k when the loop is over: what was there, then the rows that stay. -/
theorem sweep_keeps (drop : α → Bool) (rounds i k : Nat) (table : List α) (behind : k ≤ i)
    (inside : i + rounds ≤ table.length) :
    (sweep drop rounds i k table).1.take (sweep drop rounds i k table).2 =
      table.take k ++ ((table.drop i).take rounds).filter (fun row => !drop row) ∧
    (sweep drop rounds i k table).2 =
      k + (((table.drop i).take rounds).filter (fun row => !drop row)).length := by
  induction rounds generalizing i k table with
  | zero => simp [sweep]
  | succ rounds ih =>
    have here : i < table.length := by omega
    have there : table[i]? = some (table[i]) := List.getElem?_eq_getElem here
    have next : (table.drop i).take (rounds + 1) =
        table[i] :: (table.drop (i + 1)).take rounds := by
      rw [List.drop_eq_getElem_cons here, List.take_succ_cons]
    rw [sweep, there, next]
    by_cases goes : drop table[i] = true
    · simp only [List.filter_cons, goes, Bool.not_true]
      exact ih (i + 1) k table (by omega) (by omega)
    · have stays : (!drop table[i]) = true := by simpa using goes
      simp only [if_neg goes, put_set there, List.filter_cons, stays, if_true]
      have moved := ih (i + 1) (k + 1) (table.set k table[i]) (by omega) (by simp; omega)
      have front : (table.set k table[i]).take (k + 1) = table.take k ++ [table[i]] := by
        rw [List.take_add_one, List.take_set_of_le (Nat.le_refl k),
          List.getElem?_set_self (by omega)]
        rfl
      have back : (table.set k table[i]).drop (i + 1) = table.drop (i + 1) :=
        List.drop_set_of_lt (by omega)
      rw [front, back] at moved
      refine ⟨by simpa using moved.1, ?_⟩
      rw [moved.2, List.length_cons]
      omega

section Counts

variable [DecidableEq κ]

def tally (cap : Nat) : List (κ × Int) → List κ → List (κ × Int)
  | rows, [] => rows
  | rows, key :: rest =>
    if rows.any fun row => row.1 = key then
      tally cap (rows.map fun row => if row.1 = key then (row.1, row.2 + 1) else row) rest
    else if cap ≤ rows.length then tally cap rows rest
    else tally cap (rows ++ [(key, 1)]) rest

/-- Every key once, where it turns up first, with the number of its rows. -/
def counts (keys : List κ) : List (κ × Int) :=
  keys.eraseDups.map fun key => (key, (keys.count key : Int))

/-- The keys that no row has. -/
def fresh (rows : List (κ × Int)) (keys : List κ) : List κ :=
  keys.filter fun key => !(rows.any fun row => row.1 = key)

theorem fresh_counted (rows : List (κ × Int)) (key : κ) (rest : List κ) :
    fresh (rows.map fun row => if row.1 = key then (row.1, row.2 + 1) else row) rest =
      fresh rows rest := by
  refine congrArg (fun p => rest.filter p) (funext fun other => ?_)
  rw [List.any_map]
  refine congrArg (fun p => !rows.any p) (funext fun row => ?_)
  simp only [Function.comp_apply]
  split <;> rfl

theorem fresh_added (rows : List (κ × Int)) (key : κ) (rest : List κ) :
    fresh (rows ++ [(key, 1)]) rest = (fresh rows rest).filter fun other => !(other == key) := by
  rw [fresh, fresh, List.filter_filter]
  refine congrArg (fun p => rest.filter p) (funext fun other => ?_)
  by_cases same : other = key
  · simp [same]
  · simp [same, Ne.symm same]

theorem tally_from (cap : Nat) (rows : List (κ × Int)) (keys : List κ)
    (few : rows.length + (fresh rows keys).eraseDups.length ≤ cap) :
    tally cap rows keys = rows.map (fun row => (row.1, row.2 + (keys.count row.1 : Int))) ++
      (fresh rows keys).eraseDups.map fun key => (key, (keys.count key : Int)) := by
  induction keys generalizing rows with
  | nil => simp [tally, fresh]
  | cons key rest ih =>
    rw [tally]
    by_cases known : (rows.any fun row => row.1 = key) = true
    · have passed : fresh rows (key :: rest) = fresh rows rest := by
        rw [fresh, List.filter_cons_of_neg (by simp [known])]
        rfl
      rw [passed] at few ⊢
      rw [if_pos known, ih _ (by rw [fresh_counted]; simpa using few), fresh_counted, List.map_map]
      congr 1
      · refine List.map_congr_left fun row _ => ?_
        by_cases same : row.1 = key
        · simp [same]
          omega
        · simp [same, List.count_cons_of_ne (Ne.symm same)]
      · refine List.map_congr_left fun other member => ?_
        have unknown := (List.mem_filter.mp (List.mem_eraseDups.mp member)).2
        have apart : key ≠ other := by
          rintro rfl
          simp [known] at unknown
        rw [List.count_cons_of_ne apart]
    · have added : fresh rows (key :: rest) = key :: fresh rows rest := by
        rw [fresh, List.filter_cons_of_pos (by simp [known])]
        rfl
      rw [added, List.eraseDups_cons, ← fresh_added] at few ⊢
      have room : ¬cap ≤ rows.length := by
        simp only [List.length_cons] at few
        omega
      rw [if_neg known, if_neg room, ih _ (by simpa [Nat.add_assoc, Nat.add_comm 1] using few)]
      simp only [List.map_append, List.map_cons, List.map_nil, List.append_assoc,
        List.cons_append, List.nil_append]
      have unknown : ∀ row ∈ rows, key ≠ row.1 := by
        intro row member same
        exact known (List.any_eq_true.mpr ⟨row, member, by simp [same]⟩)
      congr 1
      · refine List.map_congr_left fun row member => ?_
        rw [List.count_cons_of_ne (unknown row member)]
      congr 1
      · simp [List.count_cons_self]
        omega
      · refine List.map_congr_left fun other member => ?_
        have other_key := List.mem_eraseDups.mp member
        rw [fresh_added] at other_key
        have apart : key ≠ other := by
          rintro rfl
          simp at other_key
        rw [List.count_cons_of_ne apart]

theorem tally_counts (cap : Nat) (keys : List κ) (few : keys.eraseDups.length ≤ cap) :
    tally cap [] keys = counts keys := by
  have all : fresh [] keys = keys := by simp [fresh]
  rw [tally_from cap [] keys (by simpa [all] using few), all]
  rfl

/-- The numbers of rows come to the number of keys. -/
theorem counts_total (keys : List κ) : ((counts keys).map Prod.snd).sum = keys.length := by
  induction size : keys.length using Nat.strongRecOn generalizing keys with
  | ind size ih =>
    cases keys with
    | nil =>
      subst size
      rfl
    | cons key rest =>
      have later := ih _ (by
        have shorter := List.length_filter_le (fun other => !(other == key)) rest
        simp only [List.length_cons] at size
        omega) (rest.filter fun other => !(other == key)) rfl
      have others : ((rest.filter fun other => !(other == key)).eraseDups.map fun other =>
          ((key :: rest).count other : Int)) =
          (counts (rest.filter fun other => !(other == key))).map Prod.snd := by
        rw [counts, List.map_map]
        refine List.map_congr_left fun other member => ?_
        have apart := (List.mem_filter.mp (List.mem_eraseDups.mp member)).2
        simp only [Bool.not_eq_true', beq_eq_false_iff_ne] at apart
        simp only [Function.comp_apply]
        rw [List.count_cons_of_ne (Ne.symm apart), List.count_filter (by simp [apart])]
      have parts := List.length_eq_countP_add_countP (fun other => other == key) (l := rest)
      rw [counts, List.eraseDups_cons, List.map_cons, List.map_cons, List.map_map, List.sum_cons]
      change _ + (List.map (fun other => ((key :: rest).count other : Int)) _).sum = _
      rw [others, later, List.count_cons_self]
      rw [List.countP_eq_length_filter (p := fun other => ¬(other == key) = true)] at parts
      simp only [List.length_cons] at size
      simp only [Bool.not_eq_true, Bool.decide_eq_false] at parts
      rw [← size, parts]
      simp only [List.count]
      omega

theorem counts_keys (keys : List κ) : (counts keys).map Prod.fst = keys.eraseDups := by
  simp [counts, Function.comp_def]

theorem counts_distinct (keys : List κ) : ((counts keys).map Prod.fst).Nodup := by
  rw [counts_keys]
  induction size : keys.length using Nat.strongRecOn generalizing keys with
  | ind size ih =>
    cases keys with
    | nil => exact List.nodup_nil
    | cons key rest =>
      rw [List.eraseDups_cons, List.nodup_cons]
      refine ⟨fun member => ?_, ih _ ?_ (rest.filter fun other => !(other == key)) rfl⟩
      · have others := (List.mem_filter.mp (List.mem_eraseDups.mp member)).2
        simp at others
      · have shorter := List.length_filter_le (fun other => !(other == key)) rest
        simp only [List.length_cons] at size
        omega

theorem counts_fewer {some_keys keys : List κ} (part : some_keys ⊆ keys) :
    (counts some_keys).length ≤ (counts keys).length := by
  have distinct := counts_distinct some_keys
  rw [counts_keys] at distinct
  have within : some_keys.eraseDups ⊆ keys.eraseDups := fun key member =>
    List.mem_eraseDups.mpr (part (List.mem_eraseDups.mp member))
  simpa [counts] using (List.subperm_of_subset distinct within).length_le

end Counts

end HollowGrid.Sweep
