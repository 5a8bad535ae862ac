import HollowGrid.Lib.Sweep
import HollowGrid.Listings
import HollowGrid.Rolls
import HollowGrid.Unanswered
import HollowGrid.Identity

/-! The tending of the trace store: hg_grid_local_ledger_stats and hg_grid_local_prune of
asm/grid_local.asm, and what gridprune tells the keeper of them. -/
namespace HollowGrid

open JsonText

/-- The loop of hg_grid_local_prune over the first n rows of gl_traces. -/
def pruneTable (table : List Trace) (n : Nat) : List Trace × Nat :=
  Sweep.sweep (fun t => pruneKindAmbient t.kind) n 0 0 table

/-- Every kind once, where it comes first, with the number of its traces. -/
def kindCounts (traces : List Trace) : List (Bytes × Int) := Sweep.counts (traces.map Trace.kind)

/-- What gl_traces can hold, with at most 32 kinds. -/
structure TraceStore (h : LocalHub) : Prop where
  few : h.traces.length ≤ maxTraces
  kinds : ∀ t ∈ h.traces, FitsField 24 t.kind
  distinct : (kindCounts h.traces).length ≤ 32

/-- The traces that a prune is to keep. -/
def lasting (traces : List Trace) : List Trace :=
  traces.filter fun t => t.kind ≠ str "ghost" ∧ t.kind ≠ str "passage" ∧ t.kind ≠ str "recall"

def kindMembers (row : Bytes × Int) : List Member :=
  [slotField "kind" 40 row.1, numberMember "count" row.2]

def prunedFields (removed before after : Int) (rows : List (Bytes × Int)) :
    List (Bytes × Value) :=
  [(str "removed", .num removed), (str "before", .num before), (str "after", .num after),
    (str "kinds", rowsValue (rows.map kindMembers))]

def prunedText (removed before after : Int) (rows : List (Bytes × Int)) : Text :=
  lit r#"@event grid.ledger_pruned {"removed":"# ++ number removed ++ lit r#","before":"# ++
    number before ++ lit r#","after":"# ++ number after ++ lit r#","kinds":"# ++
    jsonText kindJson rows ++ lit "\x7d" ++ crlf

def prunedLine (removed : Int) : Text :=
  lit "Pruned " ++ number removed ++ lit " ambient trace(s) (ghost, passage, recall)."

def ledgerLine (before after : Int) : Text :=
  lit "The ledger went from " ++ number before ++ lit " to " ++ number after ++
    lit " trace(s); only meaningful memory remains."

/-- The keeper is told of numbers that agree with one another and with the rows, in an event
and in two lines. -/
def PruneTold (env : Env) (c : Block) (g : Server) : Prop :=
  ∃ removed before after : Int, ∃ event,
    emitGridpruneCmdNow env c g = (do
      queue c event
      queueLine c (prunedLine removed)
      queueLine c (ledgerLine before after))
        { g with grid := { g.grid with traces := lasting g.grid.traces } } ∧
    EventLine "grid.ledger_pruned" event
      (prunedFields removed before after (kindCounts (lasting g.grid.traces))) ∧
    before = g.grid.traces.length ∧ before - removed = after ∧
    after = ((kindCounts (lasting g.grid.traces)).map Prod.snd).sum

/-- The reading counts, the loop keeps what is to be kept and nothing else happens, and the
keeper is told so. -/
structure PruneRight (env : Env) (c : Block) (g : Server) : Prop where
  stats : gridLedgerStats env 32 g = .ok (some (kindCounts g.grid.traces), g)
  table : ∀ rest, (pruneTable (g.grid.traces ++ rest) g.grid.traces.length).2 =
      (lasting g.grid.traces).length ∧
    (pruneTable (g.grid.traces ++ rest) g.grid.traces.length).1.take
      (lasting g.grid.traces).length = lasting g.grid.traces
  pruned : gridPruneLedger env g =
    .ok (some ((g.grid.traces.length : Int) - (lasting g.grid.traces).length),
      { g with grid := { g.grid with traces := lasting g.grid.traces } })
  again : g.grid.prune.prune = g.grid.prune
  told : PruneTold env c g

section Pruning

variable {env : Env} {c : Block} {g : Server} {h : LocalHub}

theorem ambient_kind (kind : Bytes) : (!pruneKindAmbient kind) =
    decide (kind ≠ str "ghost" ∧ kind ≠ str "passage" ∧ kind ≠ str "recall") := by
  simp [pruneKindAmbient, pruneKinds]

theorem prune_lasting (h : LocalHub) : h.prune = { h with traces := lasting h.traces } := by
  simp only [LocalHub.prune, lasting, ambient_kind]

theorem prune_again (h : LocalHub) : h.prune.prune = h.prune := by
  simp [LocalHub.prune, List.filter_filter]

theorem table_pruned (traces rest : List Trace) :
    (pruneTable (traces ++ rest) traces.length).2 = (lasting traces).length ∧
    (pruneTable (traces ++ rest) traces.length).1.take (lasting traces).length =
      lasting traces := by
  have kept := Sweep.sweep_keeps (fun t : Trace => pruneKindAmbient t.kind) traces.length 0 0
    (traces ++ rest) (Nat.le_refl 0) (by simp)
  simp only [List.drop_zero, List.take_left, List.take_zero, List.nil_append, Nat.zero_add] at kept
  have same : traces.filter (fun t => !pruneKindAmbient t.kind) = lasting traces := by
    simp only [lasting, ambient_kind]
  rw [same] at kept
  exact ⟨kept.2, by rw [← kept.2]; exact kept.1⟩

/-- The nested loops of hg_grid_local_ledger_stats count kinds. -/
theorem ledger_tally (cap : Nat) (rows : List (Bytes × Int)) (traces : List Trace)
    (kinds : ∀ t ∈ traces, FitsField 24 t.kind) :
    LocalHub.ledgerRows cap rows traces = Sweep.tally cap rows (traces.map Trace.kind) := by
  induction traces generalizing rows with
  | nil => rfl
  | cons t rest ih =>
    have fits := kinds t List.mem_cons_self
    have copied : safeCopy 32 t.kind = t.kind :=
      safe_copy_fits ⟨Nat.lt_of_lt_of_le fits.short (by decide), fits.ends⟩
    have later := fun rows => ih rows fun t member => kinds t (List.mem_cons_of_mem _ member)
    simp only [LocalHub.ledgerRows, List.map_cons, Sweep.tally, copied, later]

theorem ledger_counts (store : TraceStore h) :
    LocalHub.ledgerRows 32 [] h.traces = kindCounts h.traces := by
  rw [ledger_tally 32 [] h.traces store.kinds]
  have few := store.distinct
  rw [kindCounts, Sweep.counts, List.length_map] at few
  exact Sweep.tally_counts 32 _ few

theorem counts_number (traces : List Trace) :
    ((kindCounts traces).map Prod.snd).sum = traces.length := by
  rw [kindCounts, Sweep.counts_total, List.length_map]

theorem kind_total (traces : List Trace) (few : traces.length ≤ maxTraces) :
    kindTotal (kindCounts traces) = traces.length := by
  rw [kindTotal, counts_number, toInt32]
  simp only [maxTraces] at few
  omega

theorem lasting_few (traces : List Trace) : (lasting traces).length ≤ traces.length :=
  List.length_filter_le _ _

theorem lasting_store (store : TraceStore h) :
    TraceStore { h with traces := lasting h.traces } where
  few := Nat.le_trans (lasting_few h.traces) store.few
  kinds t member := store.kinds t (List.mem_of_mem_filter member)
  distinct :=
    Nat.le_trans (Sweep.counts_fewer (List.map_subset _ (List.filter_subset_self _)))
      store.distinct

theorem kind_bytes (row : Bytes × Int) : bytes (kindJson row) = objectText (kindMembers row) := by
  unfold kindJson
  simp only [bytes_join, bytes_lit, bytes_number, escaped_bytes]
  simp [str, objectText, kindMembers, Member.body, slotField, numberMember]

theorem pruned_bytes (removed before after : Int) (rows : List (Bytes × Int)) :
    bytes (prunedText removed before after rows) = str "@event " ++ str "grid.ledger_pruned" ++
      [32] ++ objectText [numberMember "removed" removed, numberMember "before" before,
        numberMember "after" after, rowsField "kinds" (rows.map kindMembers)] ++ [13, 10] := by
  unfold prunedText
  simp only [bytes_join, bytes_lit, bytes_number, rows_bytes fun row _ => kind_bytes row, crlf]
  simp [str, objectText, Member.body, rowsField, numberMember]

theorem json_weight (rows : List (Bytes × Int)) :
    (jsonText kindJson rows).length = RollCommand.weight 20 RollCommand.kindBytes rows + 2 := by
  have brackets : (lit "[").length = 1 ∧ (lit "]").length = 1 := ⟨length_lit _, length_lit _⟩
  rw [jsonText, List.length_append, List.length_append, List.length_flatten, rows_weight kind_length,
    brackets.1, brackets.2]
  omega

def prunedMembers (removed before after : Int) (rows : List (Bytes × Int)) : List Member :=
  [numberMember "removed" removed, numberMember "before" before, numberMember "after" after,
    rowsField "kinds" (rows.map kindMembers)]

theorem pruned_legible (removed before after : Int) {rows : List (Bytes × Int)}
    (few : rows.length ≤ 32) : ∀ m ∈ prunedMembers removed before after rows, Legible 33 m := by
  have kinds : Legible 33 (rowsField "kinds" (rows.map kindMembers)) := by
    refine rows_legible (by decide) (fun row listed => ?_) (fun row listed => ?_)
      (by decide : 1 ≤ 2) (by simp; omega)
    · obtain ⟨kind, _, rfl⟩ := List.mem_map.mp listed
      simp [kindMembers]
    · obtain ⟨kind, _, rfl⟩ := List.mem_map.mp listed
      simp only [kindMembers, List.forall_mem_cons, List.not_mem_nil, false_implies, implies_true,
        and_true]
      exact ⟨slot_legible (by decide) 40 kind.1 (by decide),
        number_legible (by decide) kind.2 (by decide)⟩
  simp only [prunedMembers, List.forall_mem_cons, List.not_mem_nil, false_implies, implies_true,
    and_true]
  exact ⟨number_legible (by decide) removed (by decide),
    number_legible (by decide) before (by decide), number_legible (by decide) after (by decide),
    kinds⟩

def InWord (n : Int) : Prop := -2 ^ 63 ≤ n ∧ n < 2 ^ 63

theorem pruned_event {removed before after : Int} {rows : List (Bytes × Int)}
    (few : rows.length ≤ 32) (fits : (jsonText kindJson rows).length < 800)
    (first : InWord removed) (second : InWord before) (third : InWord after) :
    EventLine "grid.ledger_pruned" (snprintf 960 (prunedText removed before after rows))
      (prunedFields removed before after rows) := by
  have long : max 33 (prunedMembers removed before after rows).length ≤
      (objectText (prunedMembers removed before after rows)).length := by
    have keys : 10 ≤ (str "removed").length + 3 ∧ 9 ≤ (str "before").length + 3 ∧
      8 ≤ (str "after").length + 3 ∧ 8 ≤ (str "kinds").length + 3 := by decide
    have a := body_long (numberMember "removed" removed) keys.1
    have b := body_long (numberMember "before" before) keys.2.1
    have c := body_long (numberMember "after" after) keys.2.2.1
    have d := body_long (rowsField "kinds" (rows.map kindMembers)) keys.2.2.2
    simp [prunedMembers, objectText, List.intercalate]
    omega
  refine (composed_iff 960 _ (by decide) (by simp [prunedMembers])
    (pruned_legible removed before after few) (pruned_bytes removed before after rows) long).mpr
    ⟨?_, rfl⟩
  have keys : (lit r#"@event grid.ledger_pruned {"removed":"#).length = 37 ∧
    (lit r#","before":"#).length = 10 ∧ (lit r#","after":"#).length = 9 ∧
    (lit r#","kinds":"#).length = 9 ∧ (lit "\x7d").length = 1 ∧ crlf.length = 2 :=
    ⟨length_lit _, length_lit _, length_lit _, length_lit _, length_lit _, length_lit _⟩
  have a := decimal_length first
  have b := decimal_length second
  have c := decimal_length third
  simp only [prunedText, List.length_append, number_length, keys]
  omega

theorem pruned_line {removed : Int} (word : InWord removed) :
    snprintf 160 (prunedLine removed) = prunedLine removed := by
  have keys : (lit "Pruned ").length = 7 ∧
    (lit " ambient trace(s) (ghost, passage, recall).").length = 43 := ⟨length_lit _, length_lit _⟩
  have places := decimal_length word
  refine List.take_of_length_le ?_
  simp only [prunedLine, List.length_append, number_length, keys]
  omega

theorem ledger_line {before after : Int} (first : InWord before) (second : InWord after) :
    snprintf 160 (ledgerLine before after) = ledgerLine before after := by
  have keys : (lit "The ledger went from ").length = 21 ∧ (lit " to ").length = 4 ∧
    (lit " trace(s); only meaningful memory remains.").length = 42 :=
    ⟨length_lit _, length_lit _, length_lit _⟩
  have places := decimal_length first
  have others := decimal_length second
  refine List.take_of_length_le ?_
  simp only [ledgerLine, List.length_append, number_length, keys]
  omega

theorem stats_local (near : env.remote = false) (store : TraceStore g.grid) :
    gridLedgerStats env 32 g = .ok (some (kindCounts g.grid.traces), g) := by
  rw [gridLedgerStats, near, ← ledger_counts store]
  rfl

def prunedServer (g : Server) : Server :=
  { g with grid := { g.grid with traces := lasting g.grid.traces } }

theorem prune_local (near : env.remote = false) : gridPruneLedger env g =
    .ok (some ((g.grid.traces.length : Int) - (lasting g.grid.traces).length), prunedServer g) := by
  have kept := prune_lasting g.grid
  have run : gridPruneLedger env g =
      .ok (some ((g.grid.traces.length : Int) - g.grid.prune.traces.length),
        { g with grid := g.grid.prune }) := by
    rw [gridPruneLedger, near]
    rfl
  rw [run, kept]
  rfl

theorem prune_rows (near : env.remote = false) (store : TraceStore g.grid) :
    RollCommand.pruneRows env g = kindCounts (lasting g.grid.traces) := by
  have second : gridLedgerStats env 32 (prunedServer g) =
      .ok (some (kindCounts (lasting g.grid.traces)), prunedServer g) :=
    stats_local near (lasting_store store)
  simp [RollCommand.pruneRows, RollCommand.read, RollCommand.statsRows, stats_local near store,
    prune_local near, second]

theorem fits_weight (rows : List (Bytes × Int)) :
    RowsFit 800 (jsonRows (fun _ => kindJson) 0 rows) ↔
      RollCommand.weight 20 RollCommand.kindBytes rows + 3 ≤ 800 := by
  rw [RowsFit, rows_weight kind_length]

theorem prune_told (near : env.remote = false) (store : TraceStore g.grid)
    (fits : RowsFit 800 (jsonRows (fun _ => kindJson) 0 (kindCounts (lasting g.grid.traces)))) :
    PruneTold env c g := by
  have kept := lasting_store store
  have few := lasting_few g.grid.traces
  have full := store.few
  have second : gridLedgerStats env 32 (prunedServer g) =
      .ok (some (kindCounts (lasting g.grid.traces)), prunedServer g) := stats_local near kept
  have before := kind_total g.grid.traces store.few
  have after := kind_total (lasting g.grid.traces) kept.few
  let removed : Int := (g.grid.traces.length : Int) - (lasting g.grid.traces).length
  simp only [maxTraces] at full
  have words : InWord removed ∧ InWord (g.grid.traces.length : Int) ∧
      InWord ((lasting g.grid.traces).length : Int) := by
    simp only [InWord, removed]
    omega
  obtain ⟨a, b, c'⟩ := words
  have short : (jsonText kindJson (kindCounts (lasting g.grid.traces))).length < 800 := by
    rw [fits_weight] at fits
    rw [json_weight]
    omega
  refine ⟨removed, g.grid.traces.length, (lasting g.grid.traces).length, _, ?_,
    pruned_event kept.distinct short a b c', rfl, by simp only [removed]; omega,
    (counts_number _).symm⟩
  rw [← pruned_line a, ← ledger_line b c', emitGridpruneCmdNow, bind_ok (stats_local near store)]
  simp only
  rw [bind_ok (prune_local near)]
  simp only
  rw [bind_ok second]
  simp only [Option.getD_some]
  rw [bind_ok (roll_ends (flat_fits.mpr fits) _), before, after]
  rfl

/-- The tending of the store is exact, and the keeper is told so, exactly when the rows of what
is kept fit the buffer they are formatted in. -/
theorem prune_right_iff (near : env.remote = false) (store : TraceStore g.grid) (c : Block) :
    PruneRight env c g ↔ RollCommand.weight 20 RollCommand.kindBytes
      (kindCounts (lasting g.grid.traces)) + 3 ≤ 800 := by
  rw [← fits_weight]
  constructor
  · intro right
    have safe : RollCommand.gridprune.run env c g ≠ .error .outOfBounds := by
      obtain ⟨_, _, _, event, run, _⟩ := right.told
      rw [RollCommand.run, run]
      exact total_runs (total_bind (total_queue c event) fun _ =>
        total_bind (total_line c _) fun _ => total_line c _) _
    have fits := (command_runs .gridprune).mp safe
    rwa [RollCommand.rows, prune_rows near store] at fits
  · intro fits
    exact ⟨stats_local near store, table_pruned g.grid.traces, prune_local near,
      prune_again g.grid, prune_told near store fits⟩

/-- A ghost between two marks. -/
def markedServer : Server :=
  { disk := fun _ => none
    grid :=
      { traces :=
          [⟨str "Dustfall", str "gate", str "mark", str "held", 30⟩,
            ⟨str "Dustfall", str "gate", str "ghost", str "a pale shape", 20⟩,
            ⟨str "Dustfall", str "gate", str "mark", str "kept", 10⟩] } }

theorem prune_right_marked : PruneRight quietNode 0 markedServer ↔
    RollCommand.weight 20 RollCommand.kindBytes
      (kindCounts (lasting markedServer.grid.traces)) + 3 ≤ 800 := by
  have kinds : ∀ t ∈ markedServer.grid.traces, t.kind.length < 24 ∧ 0 ∉ t.kind := by
    decide +kernel
  exact prune_right_iff rfl
    ⟨by decide, fun t member => ⟨(kinds t member).1, (kinds t member).2⟩, by decide +kernel⟩ 0

def manyKinds : List Trace :=
  (List.range 32).map fun i =>
    ⟨str "Dustfall", str "gate", UInt8.ofNat (65 + i) :: List.replicate 22 97, str "held", 10⟩

/-- Their rows are longer than the buffer, and the prune does not end. -/
theorem many_kinds_overrun : ¬ ∀ (env : Env) (c : Block) (g : Server), env.remote = false →
    TraceStore g.grid → PruneRight env c g := by
  intro always
  have store : TraceStore { traces := manyKinds } := by
    have kinds : ∀ t ∈ manyKinds, t.kind.length < 24 ∧ 0 ∉ t.kind := by decide +kernel
    exact ⟨by decide, fun t member => ⟨(kinds t member).1, (kinds t member).2⟩, by decide +kernel⟩
  have fits := (prune_right_iff rfl store 0).mp
    (always quietNode 0 { disk := fun _ => none, grid := { traces := manyKinds } } rfl store)
  revert fits
  decide +kernel

end Pruning

end HollowGrid
