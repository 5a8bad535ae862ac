import HollowGrid.Callback
import Mathlib.Algebra.GroupWithZero.Nat
import Mathlib.Data.List.Induction

/-! The loops of ffi/format.c that put rows into a JSON buffer, and where their write index
can go. -/
namespace HollowGrid

/-- The write index of a loop, and the end of all that was stored so far. -/
structure Cursor where
  o : Nat
  stored : Nat

namespace Cursor

/-- After json[o++] = '['. -/
def start : Cursor := ⟨1, 1⟩

/-- sizeof(json) - o, a size_t. -/
def left (size o : Nat) : Nat := (size + 18446744073709551616 - o) % 18446744073709551616

/-- snprintf stores as much of the row as the size it is given holds, and o is moved on by
the length of the whole row. -/
def row (size : Nat) (c : Cursor) (text : Text) : Cursor :=
  { o := c.o + text.length, stored := max c.stored (c.o + min (text.length + 1) (left size c.o)) }

/-- json[o++] = ']' and json[o] = '\0' -/
def close (c : Cursor) : Cursor := { o := c.o + 1, stored := max c.stored (c.o + 2) }

end Cursor

/-- The loop over rows already formatted, without the closing stores. -/
def rollLoop (size : Nat) (rows : List Text) : Cursor := rows.foldl (Cursor.row size) Cursor.start

/-- At every step of the loop two bytes are left at the index, so the size passed on does not
wrap and nothing is stored outside the buffer. -/
structure RollInside (size : Nat) (rows : List Text) : Prop where
  index : ∀ done, done <+: rows → (rollLoop size done).o + 2 ≤ size
  no_wrap : ∀ done, done <+: rows →
    (rollLoop size done).o + Cursor.left size (rollLoop size done).o = size
  inside : (rollLoop size rows).close.stored ≤ size

/-- The rows, their brackets and a NUL are no longer than the buffer. -/
def RowsFit (size : Nat) (rows : List Text) : Prop := (rows.map List.length).sum + 3 ≤ size

section Loop

variable {size : Nat} {rows : List Text}

theorem loop_snoc (size : Nat) (rows : List Text) (text : Text) :
    rollLoop size (rows ++ [text]) = (rollLoop size rows).row size text := by
  simp [rollLoop]

theorem loop_index (size : Nat) (rows : List Text) :
    (rollLoop size rows).o = (rows.map List.length).sum + 1 := by
  induction rows using List.reverseRecOn with
  | nil => rfl
  | append_singleton rows text ih =>
    rw [loop_snoc, Cursor.row, ih]
    simp only [List.map_append, List.map_cons, List.map_nil, List.sum_append, List.sum_cons,
      List.sum_nil]
    omega

theorem left_inside {o : Nat} (small : size < 18446744073709551616) (low : o ≤ size)
    (moved : 0 < o) : Cursor.left size o = size - o := by
  unfold Cursor.left
  omega

theorem part_fits (fits : RowsFit size rows) {done : List Text} (part : done <+: rows) :
    RowsFit size done := by
  obtain ⟨rest, rfl⟩ := part
  simp only [RowsFit, List.map_append, List.sum_append] at fits ⊢
  omega

theorem loop_stored (small : size < 18446744073709551616) (fits : RowsFit size rows) :
    (rollLoop size rows).stored ≤ size := by
  induction rows using List.reverseRecOn with
  | nil =>
    simp only [RowsFit, List.map_nil, List.sum_nil] at fits
    simp only [rollLoop, List.foldl_nil, Cursor.start]
    omega
  | append_singleton rows text ih =>
    have before := part_fits fits (List.prefix_append rows [text])
    have kept := ih before
    have index := loop_index size rows
    have room : Cursor.left size (rollLoop size rows).o = size - (rollLoop size rows).o :=
      left_inside small (by rw [RowsFit] at before; omega) (by omega)
    rw [loop_snoc, Cursor.row, room]
    simp only [RowsFit] at before
    simp only
    omega

theorem loop_inside_iff (small : size < 18446744073709551616) (rows : List Text) :
    RollInside size rows ↔ RowsFit size rows := by
  constructor
  · intro safe
    have last := safe.index rows (List.prefix_refl rows)
    rw [loop_index] at last
    exact last
  · intro fits
    have index (done : List Text) (part : done <+: rows) : (rollLoop size done).o + 2 ≤ size := by
      have within := part_fits fits part
      rw [loop_index]
      exact within
    refine ⟨index, fun done part => ?_, ?_⟩
    · have moved := loop_index size done
      have low := index done part
      rw [left_inside small (by omega) (by omega)]
      omega
    · exact max_le (loop_stored small fits) (index rows (List.prefix_refl rows))

theorem flat_fits : (lit "[" ++ rows.flatten).length + 2 ≤ size ↔ RowsFit size rows := by
  have bracket : (lit "[").length = 1 := rfl
  rw [RowsFit, List.length_append, List.length_flatten, bracket]
  omega

end Loop

/-- The commands with such a loop. -/
inductive RollCommand
  | saved
  | fallen
  | gridstats
  | gridprune

namespace RollCommand

def run (env : Env) (c : Block) : RollCommand → Act Unit
  | saved => emitSavedRollNow env c
  | fallen => emitFallenRollNow env c
  | gridstats => emitGridstatsCmdNow env c
  | gridprune => emitGridpruneCmdNow env c

/-- sizeof of its JSON buffer -/
def size : RollCommand → Nat
  | saved | fallen => 1200
  | gridstats | gridprune => 800

/-- What a first part reads, and what it leaves. -/
def read {α : Type} (m : Act (Option α)) (g : Server) : Option α × Server :=
  match m g with
  | .ok (answer, g') => (answer, g')
  | .error _ => (none, g)

def savedRows (env : Env) (g : Server) : List Fallen :=
  (read (gridRecentRescued env 12 12) g).1.getD []

def fallenRows (env : Env) (g : Server) : List Fallen :=
  (read (gridRecentFallen env 12 12) g).1.getD []

def statsRows (env : Env) (g : Server) : List (Bytes × Int) :=
  (read (gridLedgerStats env 32) g).1.getD []

def pruneRows (env : Env) (g : Server) : List (Bytes × Int) :=
  let (first, counted) := read (gridLedgerStats env 32) g
  let (pruned, after) := read (gridPruneLedger env) counted
  if first.isSome ∧ pruned.isSome then statsRows env after else []

/-- The rows it formats, as the hub or the tables answer. None where it has no loop to run. -/
def rows (env : Env) (g : Server) : RollCommand → List Text
  | saved => jsonRows (fun _ => rescuedJson) 0 (savedRows env g)
  | fallen => jsonRows (fun _ => fallenJson) 0 (fallenRows env g)
  | gridstats => jsonRows (fun _ => kindJson) 0 (statsRows env g)
  | gridprune => jsonRows (fun _ => kindJson) 0 (pruneRows env g)

def fallenBytes (row : Fallen) : Nat :=
  (escaped 48 row.world).length + (escaped 40 row.name).length + (escaped 40 row.third).length +
    (decimal row.at_ms).length

def kindBytes (row : Bytes × Int) : Nat := (escaped 40 row.1).length + (decimal row.2).length

/-- What rows come to with the keys of each and the commas between them. -/
def weight {α : Type} (keys : Nat) (bytes : α → Nat) (rows : List α) : Nat :=
  (rows.map fun row => keys + bytes row).sum + (rows.length - 1)

/-- The bytes the rows of a command come to. -/
def total (env : Env) (g : Server) : RollCommand → Nat
  | saved => weight 41 fallenBytes (savedRows env g)
  | fallen => weight 38 fallenBytes (fallenRows env g)
  | gridstats => weight 20 kindBytes (statsRows env g)
  | gridprune => weight 20 kindBytes (pruneRows env g)

end RollCommand

section Lengths

theorem rows_weight {α : Type} {row : α → Text} {keys : Nat} {bytes : α → Nat}
    (long : ∀ x, (row x).length = keys + bytes x) (rows : List α) :
    ((jsonRows (fun _ => row) 0 rows).map List.length).sum =
      RollCommand.weight keys bytes rows := by
  have later (n : Nat) (rows : List α) :
      ((jsonRows (fun _ => row) (n + 1) rows).map List.length).sum =
        (rows.map fun x => keys + bytes x).sum + rows.length := by
    induction rows generalizing n with
    | nil => rfl
    | cons x rest ih =>
      have first : (comma (n + 1)).length = 1 := rfl
      simp only [jsonRows, List.map_cons, List.sum_cons, List.length_append, List.length_cons,
        first, long, ih]
      omega
  cases rows with
  | nil => rfl
  | cons x rest =>
    simp only [jsonRows, RollCommand.weight, List.map_cons, List.sum_cons, List.length_append,
      List.length_cons, long, later]
    simp only [comma, if_true, List.length_nil]
    omega

theorem number_length (n : Int) : (number n).length = (decimal n).length := List.length_map _

theorem rescued_length (row : Fallen) :
    (rescuedJson row).length = 41 + RollCommand.fallenBytes row := by
  have keys : (lit r#"{"world":""#).length = 10 ∧ (lit r#"","name":""#).length = 10 ∧
    (lit r#"","savedBy":""#).length = 13 ∧ (lit r#"","at":"#).length = 7 ∧
    (lit "\x7d").length = 1 :=
    ⟨length_lit _, length_lit _, length_lit _, length_lit _, length_lit _⟩
  simp only [rescuedJson, RollCommand.fallenBytes, List.length_append, number_length, keys]
  omega

theorem fallen_length (row : Fallen) :
    (fallenJson row).length = 38 + RollCommand.fallenBytes row := by
  have keys : (lit r#"{"name":""#).length = 9 ∧ (lit r#"","world":""#).length = 11 ∧
    (lit r#"","room":""#).length = 10 ∧ (lit r#"","at":"#).length = 7 ∧
    (lit "\x7d").length = 1 :=
    ⟨length_lit _, length_lit _, length_lit _, length_lit _, length_lit _⟩
  simp only [fallenJson, RollCommand.fallenBytes, List.length_append, number_length, keys]
  omega

theorem kind_length (row : Bytes × Int) :
    (kindJson row).length = 20 + RollCommand.kindBytes row := by
  have keys : (lit r#"{"kind":""#).length = 9 ∧ (lit r#"","count":"#).length = 10 ∧
    (lit "\x7d").length = 1 := ⟨length_lit _, length_lit _, length_lit _⟩
  simp only [kindJson, RollCommand.kindBytes, List.length_append, number_length, keys]
  omega

theorem rows_total (q : RollCommand) (env : Env) (g : Server) :
    ((q.rows env g).map List.length).sum = q.total env g := by
  cases q with
  | saved => exact rows_weight rescued_length _
  | fallen => exact rows_weight fallen_length _
  | gridstats => exact rows_weight kind_length _
  | gridprune => exact rows_weight kind_length _

end Lengths

section Runs

def Total {α : Type} (m : Act α) : Prop := Keeps (fun _ => True) (fun _ => False) m Any

variable {env : Env} {c : Block} {g : Server}

theorem total_ends {α : Type} {m : Act α} (total : Total m) (g : Server) :
    ∃ a g', m g = .ok (a, g') := by
  cases ended : m g with
  | ok r => exact ⟨r.1, r.2, rfl⟩
  | error stopped => exact (total.fault trivial ended).elim

theorem total_pure {α : Type} (a : α) : Total (pure a) := fun _ _ => ⟨trivial, trivial⟩

theorem total_bind {α β : Type} {m : Act α} {f : α → Act β} (first : Total m)
    (rest : ∀ a, Total (f a)) : Total (m >>= f) :=
  Keeps.bind first fun a _ => rest a

theorem total_if {α : Type} {p : Prop} [Decidable p] {m n : Act α} (yes : Total m) (no : Total n) :
    Total (if p then m else n) :=
  Keeps.branch yes no

theorem total_each {β : Type} (xs : List β) {f : β → Act Unit} (each : ∀ x, Total (f x)) :
    Total (xs.forM f) :=
  Keeps.for_each fun x _ => each x

theorem total_queue (c : Block) (t : Text) : Total (queue c t) :=
  Keeps.modify fun _ _ => trivial

theorem total_line (c : Block) (t : Text) : Total (queueLine c t) :=
  total_if (total_queue c _) (total_pure ())

theorem read_ends {α : Type} {m : Act (Option α)} (total : Total m) (g : Server) :
    m g = .ok ((RollCommand.read m g).1, (RollCommand.read m g).2) := by
  obtain ⟨answer, after, ended⟩ := total_ends total g
  rw [RollCommand.read, ended]

theorem total_ask {α : Type} (answers : Nat → α) : Total (ask answers) :=
  fun _ _ => ⟨trivial, trivial⟩

theorem total_grid : Total getGrid := fun _ _ => ⟨trivial, trivial⟩

theorem total_call (method : String) (params : List Json) : Total (rpcCall env method params) :=
  total_if (total_ask _) (total_pure _)

theorem total_rescued : Total (gridRecentRescued env 12 12) :=
  total_if (total_bind (total_call _ _) fun _ => total_pure _)
    (total_bind total_grid fun _ => total_pure _)

theorem total_fallen : Total (gridRecentFallen env 12 12) :=
  total_if (total_bind (total_call _ _) fun _ => total_pure _)
    (total_bind total_grid fun _ => total_pure _)

theorem total_stats : Total (gridLedgerStats env 32) :=
  total_if (total_bind (total_call _ _) fun _ => total_pure _)
    (total_bind total_grid fun _ => total_pure _)

theorem total_prune : Total (gridPruneLedger env) :=
  total_if (total_bind (total_call _ _) fun _ => total_pure _)
    (total_bind total_grid fun _ =>
      total_bind (fun _ _ => ⟨trivial, trivial⟩) fun _ => total_pure _)

theorem total_lines (c : Block) (rows : List Fallen) : Total (fallenLines c rows) :=
  total_if (total_line c _) (total_bind (total_line c _) fun _ => total_each _ fun _ =>
    total_line c _)

theorem total_runs {α : Type} {m : Act α} (total : Total m) (g : Server) :
    m g ≠ .error .outOfBounds := by
  obtain ⟨a, after, ended⟩ := total_ends total g
  rw [ended]
  simp

theorem roll_runs {cap : Nat} {rows : List Text} {rest : Text → Act Unit}
    (total : ∀ json, Total (rest json)) (g : Server) :
    (rollJson cap rows >>= rest) g ≠ .error .outOfBounds ↔ RowsFit cap rows := by
  rw [← flat_fits]
  by_cases fits : (lit "[" ++ rows.flatten).length + 2 ≤ cap
  · have handed : rollJson cap rows g = .ok (lit "[" ++ rows.flatten ++ lit "]", g) := by
      rw [rollJson, if_pos fits]
      rfl
    rw [bind_ok handed]
    exact iff_of_true (total_runs (total _) g) fits
  · have stopped : (rollJson cap rows >>= rest) g = .error .outOfBounds := by
      rw [rollJson, if_neg fits]
      rfl
    rw [stopped]
    exact iff_of_false (fun differs => differs rfl) fits

theorem no_rows_fit {size : Nat} (large : 3 ≤ size) : RowsFit size [] := by
  rw [RowsFit]
  simpa using large

theorem command_runs (q : RollCommand) :
    q.run env c g ≠ .error .outOfBounds ↔ RowsFit q.size (q.rows env g) := by
  cases q with
  | saved =>
    simp only [RollCommand.run, RollCommand.rows, RollCommand.savedRows, RollCommand.size,
      emitSavedRollNow]
    rw [bind_ok (read_ends total_rescued g)]
    generalize (RollCommand.read (gridRecentRescued env 12 12) g).1 = answer
    by_cases none_left : answer.getD [] = []
    · rw [if_pos none_left, none_left]
      exact iff_of_true (total_runs (total_line c _) _) (no_rows_fit (by decide))
    · rw [if_neg none_left]
      obtain ⟨_, told, headed⟩ := total_ends (total_line c
        (lit "The Grid keeps these, pulled back out of the cages:")) _
      rw [bind_ok headed]
      obtain ⟨_, listed, lines⟩ := total_ends (total_each (answer.getD []) fun row =>
        total_line c (snprintf 160
          (lit "  - " ++ raw row.name ++ lit ", freed by " ++ raw row.third))) told
      rw [bind_ok lines]
      exact roll_runs (fun _ => total_queue c _) listed
  | fallen =>
    simp only [RollCommand.run, RollCommand.rows, RollCommand.fallenRows, RollCommand.size,
      emitFallenRollNow]
    rw [bind_ok (read_ends total_fallen g)]
    obtain ⟨_, listed, lines⟩ := total_ends (total_lines c
      ((RollCommand.read (gridRecentFallen env 12 12) g).1.getD [])) _
    rw [bind_ok lines]
    exact roll_runs (fun _ => total_queue c _) listed
  | gridstats =>
    simp only [RollCommand.run, RollCommand.rows, RollCommand.statsRows, RollCommand.size,
      emitGridstatsCmdNow]
    rw [bind_ok (read_ends total_stats g)]
    cases (RollCommand.read (gridLedgerStats env 32) g).1 with
    | none => exact iff_of_true (total_runs (total_line c _) _) (no_rows_fit (by decide))
    | some rows =>
      exact roll_runs (fun _ => total_bind (total_queue c _) fun _ =>
        total_bind (total_line c _) fun _ => total_each _ fun _ => total_line c _) _
  | gridprune =>
    simp only [RollCommand.run, RollCommand.rows, RollCommand.pruneRows, RollCommand.statsRows,
      RollCommand.size, emitGridpruneCmdNow]
    rw [bind_ok (read_ends total_stats g)]
    generalize RollCommand.read (gridLedgerStats env 32) g = counted
    obtain ⟨first, counted⟩ := counted
    cases first with
    | none => exact iff_of_true (total_runs (total_line c _) _) (no_rows_fit (by decide))
    | some old =>
      simp only
      rw [bind_ok (read_ends total_prune counted)]
      generalize RollCommand.read (gridPruneLedger env) counted = pruned
      obtain ⟨pruned, after⟩ := pruned
      cases pruned with
      | none => exact iff_of_true (total_runs (total_line c _) _) (no_rows_fit (by decide))
      | some removed =>
        simp only
        rw [bind_ok (read_ends total_stats after)]
        exact roll_runs (fun _ => total_bind (total_queue c _) fun _ =>
          total_bind (total_line c _) fun _ => total_line c _) _

/-- The loops keep two bytes at their index, and the commands store nothing outside their
buffers, exactly when the formatted rows fit there together. -/
theorem rolls_inside_iff (q : RollCommand) (env : Env) (c : Block) (g : Server) :
    (RollInside q.size (q.rows env g) ∧ q.run env c g ≠ .error .outOfBounds) ↔
      q.total env g + 3 ≤ q.size := by
  have small : q.size < 18446744073709551616 := by cases q <;> decide
  rw [loop_inside_iff small, command_runs, RowsFit, rows_total]
  exact and_self_iff

/-- Twelve rescues from the pit by one survivor of a name of 32 bytes. -/
def longRescues : List Fallen :=
  List.replicate 12 ⟨basaltRelay, str "Mira", str "Bartholomeworthingtonsmithfields", 1700000000000⟩

/-- A LocalHub with twelve of them overruns the buffer of the rescued roll. -/
theorem rescues_overrun : ¬ ∀ (q : RollCommand) (env : Env) (c : Block) (g : Server),
    RollInside q.size (q.rows env g) ∧ q.run env c g ≠ .error .outOfBounds := by
  intro always
  have fits := (rolls_inside_iff .saved quietNode 0
    { disk := sharedDisk, grid := { rescued := longRescues } }).mp (always ..)
  revert fits
  decide +kernel

end Runs

end HollowGrid
