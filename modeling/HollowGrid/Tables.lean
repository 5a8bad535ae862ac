import HollowGrid.Counts
import HollowGrid.Lib.Keys
import HollowGrid.Lib.Memory

/-! The deed and pair tables of asm/social_ledger.asm as rows of bytes, and what every run of their
calls leaves in them. A name of at most 39 bytes ends within its field. -/
namespace HollowGrid

open Memory

def deedEntrySize : Nat := 144
def deedEntryCounts : Nat := 40
def pairSize : Nat := 80
def pairB : Nat := 40
def nameField : Nat := 40

/-- deed_n and deeds. -/
structure DeedTable where
  n : Nat := 0
  deeds : Memory := fun _ => 0

/-- forgiven_n and forgiven, or kept_n and kept. -/
structure PairTable where
  n : Nat := 0
  pairs : Memory := fun _ => 0

def countAddress (k kind : Nat) : Nat := k * deedEntrySize + deedEntryCounts + kind * 8

namespace DeedTable

def find (t : DeedTable) (player : Bytes) : Option Nat :=
  (List.range t.n).find? fun k =>
    sameFold (t.deeds.textAt (k * deedEntrySize) nameField) player

/-- inc qword of a counter -/
def increment (t : DeedTable) (k kind : Nat) : DeedTable :=
  let at_count := countAddress k kind
  { t with deeds := t.deeds.store at_count (quad (t.deeds.wordAt at_count + 1)) }

/-- .new: the row is cleared before its name goes in. -/
def openRow (t : DeedTable) (player : Bytes) : DeedTable :=
  let at_row := t.n * deedEntrySize
  let cleared := t.deeds.store at_row (List.replicate deedEntrySize 0)
  ⟨t.n + 1, strncpy cleared at_row player nameField⟩

end DeedTable

/-- hg_add_deed_h(player, kind) -/
def hgAddDeed (t : DeedTable) (player : Ptr) (kind : Nat) : DeedTable :=
  match player with
  | none => t
  | some player =>
    if player = [] then t
    else
      match t.find player with
      | some k => t.increment k kind
      | none => if deedMaxEntries ≤ t.n then t else (t.openRow player).increment t.n kind

/-- hg_deed_count_h(player, kind): the low half of the counter, in eax. -/
def hgDeedCount (t : DeedTable) (player : Bytes) (kind : Nat) : Int :=
  match t.find player with
  | some k => toInt32 (t.deeds.wordAt (countAddress k kind))
  | none => 0

/-- The loop over sp2_deed_names. -/
def deedIndex (kind : Bytes) : Option Nat := Deed.all.findIdx? fun deed => str deed.name = kind

/-- hg_deed_add_str(player, kind) -/
def hgDeedAddStr (t : DeedTable) (player kind : Ptr) : DeedTable :=
  match player, kind with
  | some player, some kind =>
    match deedIndex kind with
    | some i => hgAddDeed t (some player) i
    | none => t
  | _, _ => t

/-- hg_deed_count_str(player, kind) -/
def hgDeedCountStr (t : DeedTable) (player kind : Ptr) : Int :=
  match player, kind with
  | some player, some kind =>
    match deedIndex kind with
    | some i => hgDeedCount t player i
    | none => 0
  | _, _ => 0

namespace PairTable

def has (t : PairTable) (a b : Bytes) : Bool :=
  (List.range t.n).any fun k =>
    sameFold (t.pairs.textAt (k * pairSize) nameField) a &&
      sameFold (t.pairs.textAt (k * pairSize + pairB) nameField) b

def mark (cap : Nat) (t : PairTable) (a b : Bytes) : PairTable :=
  if t.has a b then t
  else if cap ≤ t.n then t
  else
    let at_row := t.n * pairSize
    ⟨t.n + 1, strncpy (strncpy t.pairs at_row a nameField) (at_row + pairB) b nameField⟩

end PairTable

structure Tables where
  deeds : DeedTable := {}
  forgiven : PairTable := {}
  kept : PairTable := {}

def hgForgivenHas (t : Tables) (a b : Bytes) : Bool := t.forgiven.has a b

def hgForgivenMark (t : Tables) (a b : Bytes) : Tables :=
  { t with forgiven := t.forgiven.mark 256 a b }

def hgKeptHas (t : Tables) (a b : Bytes) : Bool := t.kept.has a b

def hgKeptMark (t : Tables) (a b : Bytes) : Tables := { t with kept := t.kept.mark 128 a b }

inductive TableCall
  | addDeed (player : Bytes) (kind : Deed)
  | deedAddStr (player kind : Bytes)
  | forgivenMark (a b : Bytes)
  | keptMark (a b : Bytes)
  deriving DecidableEq, Repr

namespace TableCall

def run (t : Tables) : TableCall → Tables
  | addDeed player kind => { t with deeds := hgAddDeed t.deeds (some player) kind.index }
  | deedAddStr player kind => { t with deeds := hgDeedAddStr t.deeds (some player) (some kind) }
  | forgivenMark a b => hgForgivenMark t a b
  | keptMark a b => hgKeptMark t a b

def deed : TableCall → Option (Bytes × Deed)
  | addDeed player kind => some (player, kind)
  | deedAddStr player kind => (Deed.all.find? fun deed => str deed.name = kind).map (player, ·)
  | _ => none

def forgives : TableCall → Option (Bytes × Bytes)
  | forgivenMark a b => some (a, b)
  | _ => none

def keeps : TableCall → Option (Bytes × Bytes)
  | keptMark a b => some (a, b)
  | _ => none

def names : TableCall → List Bytes
  | addDeed player _ | deedAddStr player _ => [player]
  | forgivenMark a b | keptMark a b => [a, b]

end TableCall

def runTables (calls : List TableCall) : Tables := calls.foldl TableCall.run {}

/-- A non-empty C string of at most 39 bytes. -/
def FieldName (name : Bytes) : Prop := name ≠ [] ∧ name.length ≤ 39 ∧ 0 ∉ name

/-- The additions under a name in any case. -/
def additions (calls : List TableCall) (player : Bytes) (kind : Deed) : Nat :=
  (calls.filterMap TableCall.deed).countP fun done => sameFold done.1 player && done.2 == kind

def lowerPair (pair : Bytes × Bytes) : Bytes × Bytes := (lower pair.1, lower pair.2)

/-- No table is asked for more names or pairs, but for case, than it has rows. -/
structure WithinRows (calls : List TableCall) : Prop where
  players : ((calls.filterMap TableCall.deed).map fun done => lower done.1).dedup.length ≤ 64
  forgiven : ((calls.filterMap TableCall.forgives).map lowerPair).dedup.length ≤ 256
  kept : ((calls.filterMap TableCall.keeps).map lowerPair).dedup.length ≤ 128

section Rows

variable {rows : List (Bytes × List Int)} {player : Bytes} {kind : Deed}

def rowIndex (rows : List (Bytes × List Int)) (player : Bytes) : Option Nat :=
  rows.findIdx? fun row => sameFold row.1 player

def bumpRow (kind : Deed) (row : Bytes × List Int) : Bytes × List Int := (row.1, bump kind row.2)

theorem bump_rows_found {k : Nat} (found : rowIndex rows player = some k) (room : Nat) :
    bumpRows player kind room rows = rows.modify k (bumpRow kind) := by
  induction rows generalizing k room with
  | nil => cases found
  | cons row rest ih =>
    rw [rowIndex, List.findIdx?_cons] at found
    rw [bumpRows]
    split at found
    · rename_i own
      cases found
      rw [if_pos own]
      rfl
    · rename_i other
      obtain ⟨j, later, rfl⟩ := Option.map_eq_some_iff.mp found
      rw [if_neg other, ih later]
      rfl

theorem bump_rows_new {room : Nat} (missing : rowIndex rows player = none)
    (place : rows.length < room) :
    bumpRows player kind room rows = rows ++ [(player.take 40, bump kind noDeeds)] := by
  induction rows generalizing room with
  | nil => rw [bumpRows, if_neg (by simpa using Nat.ne_of_gt place), List.nil_append]
  | cons row rest ih =>
    rw [rowIndex, List.findIdx?_cons] at missing
    rw [bumpRows]
    split at missing
    · cases missing
    · rename_i other
      rw [if_neg other, ih (Option.map_eq_none_iff.mp missing) (by
        rw [List.length_cons] at place
        omega)]
      rfl

theorem bump_rows_full {room : Nat} (missing : rowIndex rows player = none)
    (full : room ≤ rows.length) : bumpRows player kind room rows = rows := by
  induction rows generalizing room with
  | nil => rw [bumpRows, if_pos (by simpa using full)]
  | cons row rest ih =>
    rw [rowIndex, List.findIdx?_cons] at missing
    rw [bumpRows]
    split at missing
    · cases missing
    · rename_i other
      rw [if_neg other, ih (Option.map_eq_none_iff.mp missing) (by
        rw [List.length_cons] at full
        omega)]

theorem modify_last {α : Type} (rows : List α) (row : α) (f : α → α) :
    (rows ++ [row]).modify rows.length f = rows ++ [f row] := by
  induction rows with
  | nil => rfl
  | cons head rest ih => exact congrArg (head :: ·) ih

end Rows

structure DeedsRead (t : DeedTable) (rows : List (Bytes × List Int)) : Prop where
  n : t.n = rows.length
  few : rows.length ≤ deedMaxEntries
  whole : ∀ row ∈ rows, row.2.length = 13
  names : ∀ k (held : k < rows.length),
    t.deeds.textAt (k * deedEntrySize) nameField = rows[k].1
  counts : ∀ k (held : k < rows.length) (kind : Deed),
    t.deeds.wordAt (countAddress k kind.index) =
      (rows[k].2.getD kind.index 0 % 18446744073709551616).toNat

section Deeds

variable {t : DeedTable} {rows : List (Bytes × List Int)} {player : Bytes} {kind : Deed} {k : Nat}

theorem find_row (reads : DeedsRead t rows) (player : Bytes) :
    t.find player = rowIndex rows player := by
  have same (k : Nat) (held : k < rows.length) :
      sameFold (t.deeds.textAt (k * deedEntrySize) nameField) player =
        sameFold rows[k].1 player := by rw [reads.names k held]
  cases found : rowIndex rows player with
  | none =>
    have missing := List.findIdx?_eq_none_iff.mp found
    refine List.find?_eq_none.mpr fun k member => ?_
    have held : k < rows.length := reads.n ▸ List.mem_range.mp member
    rw [same k held, missing _ (List.getElem_mem held)]
    exact Bool.false_ne_true
  | some k =>
    obtain ⟨held, own, before⟩ := List.findIdx?_eq_some_iff_getElem.mp found
    refine List.find?_range_eq_some.mpr ⟨(same k held).trans own, ?_, fun j earlier => ?_⟩
    · exact List.mem_range.mpr (reads.n ▸ held)
    · rw [same j (Nat.lt_trans earlier held)]
      simpa using before j earlier

theorem count_apart {j k kind kind' : Nat} (small : kind < 13) (small' : kind' < 13)
    (other : ¬(j = k ∧ kind' = kind)) :
    Apart (countAddress j kind', 8) (countAddress k kind, 8) := by
  simp only [Apart, countAddress, deedEntrySize, deedEntryCounts]
  omega

theorem name_apart {j k kind : Nat} (small : kind < 13) :
    Apart (j * deedEntrySize, nameField) (countAddress k kind, 8) := by
  simp only [Apart, countAddress, deedEntrySize, deedEntryCounts, nameField]
  omega

/-- One counter moves, and nothing else is read otherwise. -/
theorem increment_reads (reads : DeedsRead t rows) (held : k < rows.length) (kind : Deed) :
    DeedsRead (t.increment k kind.index) (rows.modify k (bumpRow kind)) := by
  have small := index_in_row kind
  refine ⟨?_, ?_, fun row member => ?_, fun j inside => ?_, fun j inside kind' => ?_⟩
  · rw [List.length_modify]
    exact reads.n
  · rw [List.length_modify]
    exact reads.few
  · obtain ⟨j, inside, rfl⟩ := List.mem_iff_getElem.mp member
    rw [List.length_modify] at inside
    have before := reads.whole _ (List.getElem_mem inside)
    rw [List.getElem_modify]
    split
    · rw [bumpRow, bump, List.length_modify]
      exact before
    · exact before
  · rw [List.length_modify] at inside
    rw [List.getElem_modify]
    have kept : (t.increment k kind.index).deeds.textAt (j * deedEntrySize) nameField =
        rows[j].1 :=
      (text_congr (store_apart (by rw [quad_length]; exact name_apart small))).trans
        (reads.names j inside)
    split
    · exact kept
    · exact kept
  · rw [List.length_modify] at inside
    rw [List.getElem_modify]
    have before := reads.counts j inside kind'
    by_cases own : j = k ∧ kind'.index = kind.index
    · obtain ⟨rfl, same⟩ := own
      obtain rfl := index_inj same
      have counted := bump_count (reads.whole _ (List.getElem_mem held)) kind' kind'
      rw [if_pos rfl, DeedTable.increment, word_store, bumpRow, counted, if_pos rfl, before]
      omega
    · have kept : (t.increment k kind.index).deeds.wordAt (countAddress j kind'.index) =
          t.deeds.wordAt (countAddress j kind'.index) :=
        word_congr (store_apart (by
          rw [quad_length]
          exact count_apart small (index_in_row kind') own))
      rw [kept, before]
      split
      · rename_i here
        have other : kind ≠ kind' := fun same => own ⟨here.symm, same ▸ rfl⟩
        have counted := bump_count (reads.whole _ (List.getElem_mem inside)) kind kind'
        rw [bumpRow, counted, if_neg other, Int.add_zero]
      · rfl

/-- A new row changes none of the rows before it. -/
theorem opened_apart {n j a size : Nat} {m : Memory} (below : j < n)
    (high : a + size ≤ (j + 1) * deedEntrySize) :
    Agree (strncpy (m.store (n * deedEntrySize) (List.replicate deedEntrySize 0))
      (n * deedEntrySize) player nameField) m a size := by
  simp only [deedEntrySize, nameField] at high ⊢
  refine (strncpy_apart (.inl ?_)).trans (store_apart (.inl ?_))
  · simp only
    omega
  · simp only
    omega

theorem opened_reads (reads : DeedsRead t rows) (room : rows.length < deedMaxEntries)
    (named : FieldName player) : DeedsRead (t.openRow player) (rows ++ [(player, noDeeds)]) := by
  refine ⟨?_, ?_, fun row member => ?_, fun j inside => ?_, fun j inside kind => ?_⟩
  · rw [DeedTable.openRow, List.length_append, List.length_singleton, reads.n]
  · rw [List.length_append, List.length_singleton]
    exact room
  · rcases List.mem_append.mp member with held | new
    · exact reads.whole row held
    · rw [List.mem_singleton.mp new]
      rfl
  · rw [List.length_append, List.length_singleton] at inside
    rw [DeedTable.openRow, reads.n]
    by_cases own : j = rows.length
    · subst own
      rw [List.getElem_concat_length rfl]
      exact strncpy_text named.2.2 (Nat.lt_succ_of_le named.2.1)
    · have held : j < rows.length := by omega
      rw [List.getElem_append_left held, ← reads.names j held]
      refine text_congr (opened_apart held ?_)
      simp only [deedEntrySize, nameField]
      omega
  · rw [List.length_append, List.length_singleton] at inside
    rw [DeedTable.openRow, reads.n]
    have small := index_in_row kind
    by_cases own : j = rows.length
    · subst own
      rw [List.getElem_concat_length rfl]
      have behind : Apart (countAddress rows.length kind.index, 8)
          (rows.length * deedEntrySize, nameField) := by
        simp only [Apart, countAddress, deedEntrySize, deedEntryCounts, nameField]
        omega
      have zeros : (t.deeds.store (rows.length * deedEntrySize)
          (List.replicate deedEntrySize 0)).wordAt (countAddress rows.length kind.index) = 0 := by
        refine word_zeros fun i byte => ?_
        rw [countAddress, Nat.add_assoc, Nat.add_assoc, store_inside (by
          simp only [List.length_replicate, deedEntrySize, deedEntryCounts]
          omega), List.getElem_replicate]
      have none_yet : noDeeds.getD kind.index 0 = 0 := by cases kind <;> rfl
      rw [none_yet]
      exact (word_congr (strncpy_apart behind)).trans zeros
    · have held : j < rows.length := by omega
      rw [List.getElem_append_left held, ← reads.counts j held kind]
      refine word_congr (opened_apart held ?_)
      simp only [countAddress, deedEntrySize, deedEntryCounts]
      omega

/-- One call over the bytes is one bump over the rows. -/
theorem add_reads (reads : DeedsRead t rows) (named : FieldName player) (kind : Deed) :
    DeedsRead (hgAddDeed t (some player) kind.index)
      (bumpRows player kind deedMaxEntries rows) := by
  rw [hgAddDeed, if_neg named.1, find_row reads]
  cases found : rowIndex rows player with
  | some k =>
    obtain ⟨held, -, -⟩ := List.findIdx?_eq_some_iff_getElem.mp found
    rw [bump_rows_found found]
    exact increment_reads reads held kind
  | none =>
    by_cases full : deedMaxEntries ≤ t.n
    · rw [if_pos full, bump_rows_full found (reads.n ▸ full)]
      exact reads
    · have room : rows.length < deedMaxEntries := reads.n ▸ Nat.not_le.mp full
      have short : player.length ≤ 40 := Nat.le_succ_of_le named.2.1
      have opened := opened_reads reads room named
      have moved := increment_reads opened (k := rows.length) (by simp) kind
      rw [if_neg full, bump_rows_new found room, List.take_of_length_le short, reads.n]
      rw [modify_last] at moved
      exact moved

theorem count_reads (reads : DeedsRead t rows) (player : Bytes) (kind : Deed) :
    hgDeedCount t player kind.index = toInt32 (rowCount rows player kind) := by
  rw [hgDeedCount, find_row reads, rowCount, List.find?_eq_bind_findIdx?_getElem?, ← rowIndex]
  cases found : rowIndex rows player with
  | none => rfl
  | some k =>
    obtain ⟨held, -, -⟩ := List.findIdx?_eq_some_iff_getElem.mp found
    simp only [Option.bind_some, List.getElem?_eq_getElem held, reads.counts k held kind, toInt32]
    omega

end Deeds

structure PairsRead (t : PairTable) (pairs : List (Bytes × Bytes)) : Prop where
  n : t.n = pairs.length
  left : ∀ k (held : k < pairs.length),
    t.pairs.textAt (k * pairSize) nameField = pairs[k].1
  right : ∀ k (held : k < pairs.length),
    t.pairs.textAt (k * pairSize + pairB) nameField = pairs[k].2

section Pairs

variable {t : PairTable} {pairs : List (Bytes × Bytes)} {a b : Bytes}

theorem has_reads (reads : PairsRead t pairs) (a b : Bytes) : t.has a b = hasPair pairs a b := by
  rw [Bool.eq_iff_iff, PairTable.has, hasPair, List.any_eq_true, List.any_eq_true]
  constructor
  · rintro ⟨k, member, same⟩
    have held : k < pairs.length := reads.n ▸ List.mem_range.mp member
    rw [reads.left k held, reads.right k held] at same
    exact ⟨_, List.getElem_mem held, same⟩
  · rintro ⟨pair, member, same⟩
    obtain ⟨k, held, rfl⟩ := List.mem_iff_getElem.mp member
    refine ⟨k, List.mem_range.mpr (reads.n ▸ held), ?_⟩
    rwa [reads.left k held, reads.right k held]

/-- A new pair changes none of the rows before it. -/
theorem marked_apart {n j at_row : Nat} {m : Memory} (below : j < n)
    (high : at_row + nameField ≤ (j + 1) * pairSize) :
    Agree (strncpy (strncpy m (n * pairSize) a nameField) (n * pairSize + pairB) b nameField) m
      at_row nameField := by
  simp only [pairSize, pairB, nameField] at high ⊢
  refine (strncpy_apart (.inl ?_)).trans (strncpy_apart (.inl ?_))
  · simp only
    omega
  · simp only
    omega

theorem mark_reads (reads : PairsRead t pairs) (cap : Nat) (first : FieldName a)
    (second : FieldName b) : PairsRead (t.mark cap a b) (markPair cap pairs a b) := by
  have left_whole : a.take 40 = a := List.take_of_length_le (Nat.le_succ_of_le first.2.1)
  have right_whole : b.take 40 = b := List.take_of_length_le (Nat.le_succ_of_le second.2.1)
  rw [PairTable.mark, markPair, has_reads reads, reads.n, left_whole, right_whole]
  split
  · exact reads
  split
  · exact reads
  refine ⟨?_, fun k inside => ?_, fun k inside => ?_⟩
  · rw [List.length_append, List.length_singleton]
  · rw [List.length_append, List.length_singleton] at inside
    by_cases own : k = pairs.length
    · subst own
      rw [List.getElem_concat_length rfl]
      have behind : Apart (pairs.length * pairSize, nameField)
          (pairs.length * pairSize + pairB, nameField) := .inl (Nat.le_refl _)
      exact (text_congr (strncpy_apart behind)).trans
        (strncpy_text first.2.2 (Nat.lt_succ_of_le first.2.1))
    · have held : k < pairs.length := by omega
      rw [List.getElem_append_left held, ← reads.left k held]
      refine text_congr (marked_apart held ?_)
      simp only [pairSize, nameField]
      omega
  · rw [List.length_append, List.length_singleton] at inside
    by_cases own : k = pairs.length
    · subst own
      rw [List.getElem_concat_length rfl]
      exact strncpy_text second.2.2 (Nat.lt_succ_of_le second.2.1)
    · have held : k < pairs.length := by omega
      rw [List.getElem_append_left held, ← reads.right k held]
      refine text_congr (marked_apart held ?_)
      simp only [pairSize, pairB, nameField]
      omega

theorem has_pair_lower (pairs : List (Bytes × Bytes)) (a b : Bytes) :
    hasPair pairs a b = true ↔ lowerPair (a, b) ∈ pairs.map lowerPair := by
  rw [hasPair, List.any_eq_true, List.mem_map]
  refine exists_congr fun pair => and_congr_right fun _ => ?_
  rw [Bool.and_eq_true, same_fold_iff, same_fold_iff, lowerPair, lowerPair, Prod.mk.injEq]

def pairsOf (cap : Nat) (marks : List (Bytes × Bytes)) : List (Bytes × Bytes) :=
  marks.foldl (fun pairs mark => markPair cap pairs mark.1 mark.2) []

theorem pairs_keys (cap : Nat) {marks : List (Bytes × Bytes)}
    (named : ∀ mark ∈ marks, FieldName mark.1 ∧ FieldName mark.2) :
    (pairsOf cap marks).map lowerPair = Keys.table cap (marks.map lowerPair) := by
  induction marks using List.reverseRecOn with
  | nil => rfl
  | append_singleton marks mark ih =>
    have before := ih fun x member => named x (List.mem_append_left _ member)
    obtain ⟨first, second⟩ := named mark (by simp)
    rw [List.map_append, List.map_singleton, Keys.table_snoc, ← before, pairsOf, List.foldl_append,
      ← pairsOf, List.foldl_cons, List.foldl_nil, markPair, Keys.insert,
      List.take_of_length_le (Nat.le_succ_of_le first.2.1),
      List.take_of_length_le (Nat.le_succ_of_le second.2.1), List.length_map]
    simp only [has_pair_lower]
    split
    · rfl
    split
    · rfl
    · simp

theorem pairs_hold {cap : Nat} {marks : List (Bytes × Bytes)}
    (named : ∀ mark ∈ marks, FieldName mark.1 ∧ FieldName mark.2)
    (fits : (marks.map lowerPair).dedup.length ≤ cap) (a b : Bytes) :
    hasPair (pairsOf cap marks) a b = true ↔
      ∃ mark ∈ marks, sameFold mark.1 a = true ∧ sameFold mark.2 b = true := by
  rw [has_pair_lower, pairs_keys cap named, (Keys.table_holds fits).2, List.mem_map]
  refine exists_congr fun mark => and_congr_right fun _ => ?_
  rw [same_fold_iff, same_fold_iff, lowerPair, lowerPair, Prod.mk.injEq]

end Pairs

section Rows

variable {rows : List (Bytes × List Int)} {dones : List (Bytes × Deed)}

def rowsOf (dones : List (Bytes × Deed)) : List (Bytes × List Int) :=
  dones.foldl (fun rows done => bumpRows done.1 done.2 deedMaxEntries rows) []

def rowKeys (rows : List (Bytes × List Int)) : List Bytes := rows.map fun row => lower row.1

theorem rows_snoc (dones : List (Bytes × Deed)) (done : Bytes × Deed) :
    rowsOf (dones ++ [done]) = bumpRows done.1 done.2 deedMaxEntries (rowsOf dones) := by
  rw [rowsOf, List.foldl_append]
  rfl

theorem rows_whole (dones : List (Bytes × Deed)) : ∀ row ∈ rowsOf dones, row.2.length = 13 := by
  induction dones using List.reverseRecOn with
  | nil => simp [rowsOf]
  | append_singleton dones done ih =>
    rw [rows_snoc]
    exact bump_rows_whole _ _ _ _ ih

theorem row_missing (rows : List (Bytes × List Int)) (player : Bytes) :
    rowIndex rows player = none ↔ lower player ∉ rowKeys rows := by
  simp only [rowIndex, List.findIdx?_eq_none_iff, rowKeys, List.mem_map, not_exists, not_and]
  refine forall_congr' fun row => forall_congr' fun _ => ?_
  rw [← Bool.not_eq_true, same_fold_iff]

theorem modify_keys (rows : List (Bytes × List Int)) (k : Nat) (kind : Deed) :
    rowKeys (rows.modify k (bumpRow kind)) = rowKeys rows := by
  induction rows generalizing k with
  | nil => cases k <;> rfl
  | cons row rest ih =>
    cases k with
    | zero => rfl
    | succ k => exact congrArg (lower row.1 :: ·) (ih k)

theorem rows_keys (named : ∀ done ∈ dones, FieldName done.1) :
    rowKeys (rowsOf dones) = Keys.table deedMaxEntries (dones.map fun done => lower done.1) := by
  induction dones using List.reverseRecOn with
  | nil => rfl
  | append_singleton dones done ih =>
    have before := ih fun x member => named x (List.mem_append_left _ member)
    have short : done.1.length ≤ 40 := Nat.le_succ_of_le (named done (by simp)).2.1
    have rows_length : (rowKeys (rowsOf dones)).length = (rowsOf dones).length := by
      rw [rowKeys, List.length_map]
    rw [List.map_append, List.map_singleton, Keys.table_snoc, ← before, rows_snoc, Keys.insert]
    cases found : rowIndex (rowsOf dones) done.1 with
    | some k =>
      have held : lower done.1 ∈ rowKeys (rowsOf dones) := by
        by_contra missing
        rw [(row_missing _ _).mpr missing] at found
        cases found
      rw [bump_rows_found found, modify_keys, if_pos held]
    | none =>
      rw [if_neg ((row_missing _ _).mp found), rows_length]
      by_cases full : deedMaxEntries ≤ (rowsOf dones).length
      · rw [bump_rows_full found full, if_pos full]
      · rw [bump_rows_new found (Nat.not_le.mp full), if_neg full,
          List.take_of_length_le short, rowKeys, List.map_append]
        rfl

theorem rows_place {player : Bytes} (named : ∀ done ∈ dones, FieldName done.1)
    (fits : ((dones.map fun done => lower done.1) ++ [lower player]).dedup.length ≤
      deedMaxEntries) :
    hasPlace deedMaxEntries (rowsOf dones) player = true := by
  rw [hasPlace, Bool.or_eq_true, decide_eq_true_eq]
  rcases Keys.next_placed fits with held | room
  · rw [← rows_keys named, rowKeys, List.mem_map] at held
    obtain ⟨row, member, same⟩ := held
    exact .inl (List.any_eq_true.mpr ⟨row, member, (same_fold_iff _ _).mpr same⟩)
  · rw [← rows_keys named, rowKeys, List.length_map] at room
    exact .inr room

theorem rows_count (named : ∀ done ∈ dones, FieldName done.1)
    (fits : (dones.map fun done => lower done.1).dedup.length ≤ deedMaxEntries) (player : Bytes)
    (kind : Deed) : rowCount (rowsOf dones) player kind =
      dones.countP fun done => sameFold done.1 player && done.2 == kind := by
  induction dones using List.reverseRecOn with
  | nil => rfl
  | append_singleton dones done ih =>
    rw [List.map_append, List.map_singleton] at fits
    have earlier : ∀ x ∈ dones, FieldName x.1 := fun x member =>
      named x (List.mem_append_left _ member)
    have counted := ih earlier (Nat.le_trans
      (Keys.distinct_le fun x member => List.mem_append_left _ member) fits)
    have short : done.1.length ≤ 40 := Nat.le_succ_of_le (named done (by simp)).2.1
    rw [rows_snoc, bump_rows_count short _ _ _ _ _ (rows_whole dones), counted,
      rows_place earlier fits, List.countP_append, List.countP_singleton, Nat.cast_add]
    simp [and_comm]

end Rows

section Run

variable {calls : List TableCall}

theorem index_all (k : Nat) (held : k < Deed.all.length) : Deed.all[k].index = k := by
  revert k
  decide

/-- The place in sp2_deed_names is the number of the kind. -/
theorem deed_index (word : Bytes) :
    deedIndex word = (Deed.all.find? fun deed => str deed.name = word).map Deed.index := by
  rw [List.find?_eq_bind_findIdx?_getElem?, ← deedIndex]
  cases found : deedIndex word with
  | none => rfl
  | some k =>
    obtain ⟨held, -, -⟩ := List.findIdx?_eq_some_iff_getElem.mp found
    rw [Option.bind_some, List.getElem?_eq_getElem held, Option.map_some, index_all k held]

theorem names_found : ∀ kind ∈ Deed.all, deedIndex (str kind.name) = some kind.index := by
  decide +kernel

structure TablesRead (t : Tables) (calls : List TableCall) : Prop where
  deeds : DeedsRead t.deeds (rowsOf (calls.filterMap TableCall.deed))
  forgiven : PairsRead t.forgiven (pairsOf 256 (calls.filterMap TableCall.forgives))
  kept : PairsRead t.kept (pairsOf 128 (calls.filterMap TableCall.keeps))

theorem runs_snoc (calls : List TableCall) (call : TableCall) :
    runTables (calls ++ [call]) = call.run (runTables calls) := by
  rw [runTables, List.foldl_append]
  rfl

theorem pairs_snoc (cap : Nat) (marks : List (Bytes × Bytes)) (mark : Bytes × Bytes) :
    pairsOf cap (marks ++ [mark]) = markPair cap (pairsOf cap marks) mark.1 mark.2 := by
  rw [pairsOf, List.foldl_append]
  rfl

theorem deeds_read {t : DeedTable} (done : Bytes × Deed) {dones : List (Bytes × Deed)}
    (reads : DeedsRead t (rowsOf dones)) (named : FieldName done.1) :
    DeedsRead (hgAddDeed t (some done.1) done.2.index) (rowsOf (dones ++ [done])) := by
  rw [rows_snoc]
  exact add_reads reads named done.2

theorem skip_last {α β : Type} {f : α → Option β} {x : α} (skipped : f x = none) (xs : List α) :
    (xs ++ [x]).filterMap f = xs.filterMap f := by
  rw [List.filterMap_append, List.filterMap_cons_none skipped, List.filterMap_nil, List.append_nil]

theorem call_reads {t : Tables} (reads : TablesRead t calls) {call : TableCall}
    (named : ∀ name ∈ call.names, FieldName name) :
    TablesRead (call.run t) (calls ++ [call]) := by
  obtain ⟨deeds, forgiven, kept⟩ := reads
  cases call with
  | addDeed player kind =>
    refine ⟨?_, ?_, ?_⟩
    · rw [List.filterMap_append]
      exact deeds_read (player, kind) deeds (named player (by simp [TableCall.names]))
    · rw [skip_last rfl]
      exact forgiven
    · rw [skip_last rfl]
      exact kept
  | deedAddStr player word =>
    have own := named player (by simp [TableCall.names])
    refine ⟨?_, ?_, ?_⟩
    · have index := deed_index word
      cases found : Deed.all.find? fun deed => str deed.name = word with
      | none =>
        rw [found] at index
        simpa [TableCall.run, hgDeedAddStr, index, TableCall.deed, found] using deeds
      | some kind =>
        rw [found] at index
        simpa [TableCall.run, hgDeedAddStr, index, TableCall.deed, found]
          using deeds_read (player, kind) deeds own
    · rw [skip_last rfl]
      exact forgiven
    · rw [skip_last rfl]
      exact kept
  | forgivenMark a b =>
    refine ⟨?_, ?_, ?_⟩
    · rw [skip_last rfl]
      exact deeds
    · rw [List.filterMap_append]
      refine (pairs_snoc 256 _ (a, b)).symm ▸ mark_reads forgiven 256 ?_ ?_
      · exact named a (by simp [TableCall.names])
      · exact named b (by simp [TableCall.names])
    · rw [skip_last rfl]
      exact kept
  | keptMark a b =>
    refine ⟨?_, ?_, ?_⟩
    · rw [skip_last rfl]
      exact deeds
    · rw [skip_last rfl]
      exact forgiven
    · rw [List.filterMap_append]
      refine (pairs_snoc 128 _ (a, b)).symm ▸ mark_reads kept 128 ?_ ?_
      · exact named a (by simp [TableCall.names])
      · exact named b (by simp [TableCall.names])

theorem start_reads : TablesRead (runTables []) [] where
  deeds := ⟨rfl, Nat.zero_le _, by simp [rowsOf], fun k held => absurd held (Nat.not_lt_zero k),
    fun k held => absurd held (Nat.not_lt_zero k)⟩
  forgiven := ⟨rfl, fun k held => absurd held (Nat.not_lt_zero k),
    fun k held => absurd held (Nat.not_lt_zero k)⟩
  kept := ⟨rfl, fun k held => absurd held (Nat.not_lt_zero k),
    fun k held => absurd held (Nat.not_lt_zero k)⟩

theorem run_reads (named : ∀ call ∈ calls, ∀ name ∈ call.names, FieldName name) :
    TablesRead (runTables calls) calls := by
  induction calls using List.reverseRecOn with
  | nil => exact start_reads
  | append_singleton calls call ih =>
    rw [runs_snoc]
    exact call_reads (ih fun x member => named x (List.mem_append_left _ member))
      (named call (by simp))

theorem deed_named (named : ∀ call ∈ calls, ∀ name ∈ call.names, FieldName name) :
    ∀ done ∈ calls.filterMap TableCall.deed, FieldName done.1 := by
  intro done member
  obtain ⟨call, held, made⟩ := List.mem_filterMap.mp member
  refine named call held _ ?_
  cases call with
  | addDeed player kind =>
    cases made
    simp [TableCall.names]
  | deedAddStr player word =>
    obtain ⟨kind, -, rfl⟩ := Option.map_eq_some_iff.mp made
    simp [TableCall.names]
  | forgivenMark a b => cases made
  | keptMark a b => cases made

theorem forgives_named (named : ∀ call ∈ calls, ∀ name ∈ call.names, FieldName name) :
    ∀ mark ∈ calls.filterMap TableCall.forgives, FieldName mark.1 ∧ FieldName mark.2 := by
  intro mark member
  obtain ⟨call, held, made⟩ := List.mem_filterMap.mp member
  have own := named call held
  cases call <;> cases made
  exact ⟨own _ (by simp [TableCall.names]), own _ (by simp [TableCall.names])⟩

theorem keeps_named (named : ∀ call ∈ calls, ∀ name ∈ call.names, FieldName name) :
    ∀ mark ∈ calls.filterMap TableCall.keeps, FieldName mark.1 ∧ FieldName mark.2 := by
  intro mark member
  obtain ⟨call, held, made⟩ := List.mem_filterMap.mp member
  have own := named call held
  cases call <;> cases made
  exact ⟨own _ (by simp [TableCall.names]), own _ (by simp [TableCall.names])⟩

/-- The count of a kind is its additions, as a 32-bit int. -/
theorem count_of_run (named : ∀ call ∈ calls, ∀ name ∈ call.names, FieldName name)
    (fits : WithinRows calls) (player : Bytes) (kind : Deed) :
    hgDeedCount (runTables calls).deeds player kind.index =
      toInt32 (additions calls player kind) := by
  rw [count_reads (run_reads named).deeds, rows_count (deed_named named) fits.players, additions]

theorem forgiven_of_run (named : ∀ call ∈ calls, ∀ name ∈ call.names, FieldName name)
    (fits : WithinRows calls) (a b : Bytes) : hgForgivenHas (runTables calls) a b = true ↔
      ∃ x y, .forgivenMark x y ∈ calls ∧ sameFold x a = true ∧ sameFold y b = true := by
  rw [hgForgivenHas, has_reads (run_reads named).forgiven,
    pairs_hold (forgives_named named) fits.forgiven]
  constructor
  · rintro ⟨mark, member, same⟩
    obtain ⟨call, held, made⟩ := List.mem_filterMap.mp member
    cases call <;> cases made
    exact ⟨_, _, held, same⟩
  · rintro ⟨x, y, held, same⟩
    exact ⟨(x, y), List.mem_filterMap.mpr ⟨_, held, rfl⟩, same⟩

theorem kept_of_run (named : ∀ call ∈ calls, ∀ name ∈ call.names, FieldName name)
    (fits : WithinRows calls) (a b : Bytes) : hgKeptHas (runTables calls) a b = true ↔
      ∃ x y, .keptMark x y ∈ calls ∧ sameFold x a = true ∧ sameFold y b = true := by
  rw [hgKeptHas, has_reads (run_reads named).kept, pairs_hold (keeps_named named) fits.kept]
  constructor
  · rintro ⟨mark, member, same⟩
    obtain ⟨call, held, made⟩ := List.mem_filterMap.mp member
    cases call <;> cases made
    exact ⟨_, _, held, same⟩
  · rintro ⟨x, y, held, same⟩
    exact ⟨(x, y), List.mem_filterMap.mpr ⟨_, held, rfl⟩, same⟩

theorem count_str_known (t : DeedTable) (player : Bytes) (kind : Deed) :
    hgDeedCountStr t (some player) (some (str kind.name)) = hgDeedCount t player kind.index := by
  have index := names_found kind (List.mem_of_getElem? (all_index kind))
  simp only [hgDeedCountStr, index]

theorem count_str_unknown (t : DeedTable) (player : Bytes) {word : Bytes}
    (unknown : ∀ kind : Deed, str kind.name ≠ word) :
    hgDeedCountStr t (some player) (some word) = 0 := by
  have missing : deedIndex word = none := by
    rw [deed_index, Option.map_eq_none_iff, List.find?_eq_none]
    intro kind _
    simpa using unknown kind
  simp only [hgDeedCountStr, missing]

end Run

/-- The tables are maps of the names in any case, while the names and pairs fit their rows. -/
theorem tables_of_run (calls : List TableCall)
    (named : ∀ call ∈ calls, ∀ name ∈ call.names, FieldName name) (fits : WithinRows calls) :
    (∀ player kind,
      hgDeedCount (runTables calls).deeds player kind.index =
          toInt32 (additions calls player kind) ∧
        hgDeedCountStr (runTables calls).deeds (some player) (some (str kind.name)) =
          toInt32 (additions calls player kind)) ∧
      (∀ player word, (∀ kind : Deed, str kind.name ≠ word) →
        hgDeedCountStr (runTables calls).deeds (some player) (some word) = 0) ∧
      (∀ a b, hgForgivenHas (runTables calls) a b = true ↔
        ∃ x y, .forgivenMark x y ∈ calls ∧ sameFold x a = true ∧ sameFold y b = true) ∧
      ∀ a b, hgKeptHas (runTables calls) a b = true ↔
        ∃ x y, .keptMark x y ∈ calls ∧ sameFold x a = true ∧ sameFold y b = true := by
  refine ⟨fun player kind => ?_, fun player word unknown => ?_, ?_, ?_⟩
  · have counted := count_of_run named fits player kind
    exact ⟨counted, (count_str_known _ player kind).trans counted⟩
  · exact count_str_unknown _ player unknown
  · exact forgiven_of_run named fits
  · exact kept_of_run named fits

def adaMends : TableCall := .addDeed (str "ada") .mended

def mixedCalls : List TableCall :=
  [adaMends, .deedAddStr (str "Ada") (str "mended"), .forgivenMark (str "ada") (str "bo"),
    .keptMark (str "bo") (str "ada")]

theorem mixed_named : ∀ call ∈ mixedCalls, ∀ name ∈ call.names, FieldName name := by
  unfold FieldName
  decide +kernel

theorem mixed_fit : WithinRows mixedCalls := ⟨by decide, by decide, by decide⟩

theorem tables_of_mixed_calls :
    hgDeedCount (runTables mixedCalls).deeds (str "ADA") Deed.mended.index = 2 ∧
      hgForgivenHas (runTables mixedCalls) (str "Ada") (str "Bo") = true ∧
      hgKeptHas (runTables mixedCalls) (str "Bo") (str "Ada") = true := by
  obtain ⟨counts, -, forgiven, kept⟩ := tables_of_run mixedCalls mixed_named mixed_fit
  refine ⟨?_, (forgiven _ _).mpr ?_, (kept _ _).mpr ?_⟩
  · rw [(counts (str "ADA") .mended).1]
    decide +kernel
  · exact ⟨str "ada", str "bo", by simp [mixedCalls], by decide, by decide⟩
  · exact ⟨str "bo", str "ada", by simp [mixedCalls], by decide, by decide⟩

theorem ada_named : ∀ name ∈ adaMends.names, FieldName name := by
  have names : adaMends.names = [str "ada"] := rfl
  rw [names, List.forall_mem_singleton]
  exact ⟨by decide, by decide, by decide⟩

theorem mends_deeds (n : Nat) : (List.replicate n adaMends).filterMap TableCall.deed =
    List.replicate n (str "ada", Deed.mended) :=
  List.filterMap_replicate_of_some rfl

theorem mends_fit (n : Nat) : WithinRows (List.replicate n adaMends) := by
  have one (x : Bytes) : (List.replicate n x).dedup.length ≤ 64 := by
    rcases Nat.eq_zero_or_pos n with rfl | pos
    · exact Nat.zero_le 64
    · rw [List.replicate_dedup (Nat.ne_of_gt pos)]
      exact Nat.le_add_left 1 63
  refine ⟨?_, ?_, ?_⟩
  · rw [mends_deeds, List.map_replicate]
    exact one _
  · rw [List.filterMap_replicate_of_none rfl]
    decide
  · rw [List.filterMap_replicate_of_none rfl]
    decide

theorem mends_added (n : Nat) :
    additions (List.replicate n adaMends) (str "ada") .mended = n := by
  rw [additions, mends_deeds, List.countP_replicate, if_pos (by decide)]

theorem mends_named (n : Nat) :
    ∀ call ∈ List.replicate n adaMends, ∀ name ∈ call.names, FieldName name := by
  intro call member
  rw [List.eq_of_mem_replicate member]
  exact ada_named

/-- The count is an int: at 2^31 additions it is negative. -/
theorem count_wraps :
    (∀ call ∈ List.replicate 2147483648 adaMends, ∀ name ∈ call.names, FieldName name) ∧
      WithinRows (List.replicate 2147483648 adaMends) ∧
      additions (List.replicate 2147483648 adaMends) (str "ada") .mended = 2147483648 ∧
      hgDeedCount (runTables (List.replicate 2147483648 adaMends)).deeds (str "ada")
        Deed.mended.index = -2147483648 := by
  have named := mends_named 2147483648
  have fits := mends_fit 2147483648
  have added := mends_added 2147483648
  have counted := count_of_run named fits (str "ada") .mended
  rw [added] at counted
  exact ⟨named, fits, added, counted⟩

end HollowGrid
