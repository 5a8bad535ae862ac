import HollowGrid.Stores

/-! Readers of the gridcast ring: hg_grid_local_casts_since goes through the slots in the order
of the table. -/
namespace HollowGrid

namespace Stores

def cCast (row : Cast) : Cast :=
  ⟨row.id, safeCopy 48 row.world, safeCopy 33 row.sender, safeCopy 240 row.text⟩

/-- .lp of hg_grid_local_casts_since with the slots that are left. Ids are compared as signed
words. -/
def scanCasts (s : Stores) (cursor : Int) (cap : Nat) : Nat → List Cast → Except Fault (List Cast)
  | 0, found => .ok found
  | left + 1, found => do
    let row ← inTableOr s.casts[s.castCount - (left + 1)]?
    if toInt32 row.id ≤ cursor then scanCasts s cursor cap left found
    else if cap ≤ found.length then .ok found
    else scanCasts s cursor cap left (found ++ [cCast row])

/-- .trim only cuts the count. -/
def castsSince (s : Stores) (cursor limit : Int) (cap : Nat) : Except Fault (List Cast) := do
  let found ← scanCasts s cursor cap s.castCount []
  return found.take (if limit ≤ 0 ∨ found.length ≤ limit.toNat then found.length else limit.toNat)

end Stores

/-- The casts a ring of 200 still has, oldest first. -/
def retained (history : List Cast) : List Cast := history.drop (history.length - maxCasts)

def pending (history : List Cast) (cursor : Int) : List Cast :=
  (retained history).filter fun row => cursor < (row.id : Int)

/-- The call returns the oldest casts after the cursor, in the order of their ids. -/
def ReadsOldest (history : List Cast) (s : Stores) (cursor limit : Int) (cap : Nat) : Prop :=
  s.castsSince cursor limit cap = .ok (firstRows limit cap (pending history cursor))

/-- The ring has not gone round, or it stands at its start, or nothing from before its last
turn is after the cursor. -/
def InOrder (made : Nat) (cursor : Int) (cap : Nat) : Prop :=
  made ≤ maxCasts ∨ made % maxCasts = 0 ∨ ((made - made % maxCasts : Nat) : Int) ≤ cursor ∨ cap = 0

/-- A reader that keeps the largest id it has been given, and what it has been given. -/
structure Reader where
  stores : Stores
  cursor : Int
  seen : List Cast

inductive Turn
  | cast (world sender text : Bytes)
  | read (limit : Int) (cap : Nat)
  deriving DecidableEq, Repr

def Reader.turn (r : Reader) : Turn → Except Fault Reader
  | .cast world sender text => do
    let stores ← r.stores.gridcast world sender text
    return { r with stores := stores }
  | .read limit cap => do
    let rows ← r.stores.castsSince r.cursor limit cap
    return { r with
      cursor := rows.foldl (fun largest row => max largest (row.id : Int)) r.cursor
      seen := r.seen ++ rows }

/-- The casts among the turns. -/
def Turn.records (turns : List Turn) : List Record :=
  turns.filterMap fun turn =>
    match turn with
    | .cast world sender text => some (.cast world sender text)
    | .read .. => none

/-- A read of a ring that stands in order. -/
def Turn.inOrder (r : Reader) : Turn → Prop
  | .cast .. => True
  | .read _ cap => InOrder r.stores.nextCast r.cursor cap

section Casts

variable {s : Stores} {calls : List Record}

theorem cast_row (calls : List Record) (row : Cast) (member : row ∈ Record.casts calls) :
    Stores.cCast row = row := by
  obtain ⟨i, within, same⟩ := List.mem_mapIdx.mp member
  have made : ((Record.spoken calls)[i]) ∈ Record.spoken calls := List.getElem_mem within
  obtain ⟨call, _, spoken⟩ := List.mem_filterMap.mp made
  cases call with
  | cast world sender text =>
    simp only [Option.some.injEq] at spoken
    rw [← same, ← spoken]
    simp only [Stores.cCast, safe_copy_twice _ (Nat.le_refl _)]
  | _ => cases spoken

/-- Ids are the numbers of the casts, so they increase. -/
theorem cast_id {calls : List Record} {i : Nat} {row : Cast}
    (found : (Record.casts calls)[i]? = some row) : row.id = i + 1 := by
  rw [Record.casts, List.getElem?_mapIdx] at found
  obtain ⟨_, _, rfl⟩ := Option.map_eq_some_iff.mp found
  rfl

theorem casts_increase (calls : List Record) :
    (Record.casts calls).Pairwise fun a b => a.id < b.id := by
  rw [List.pairwise_iff_getElem]
  intro i j first second before
  rw [cast_id (List.getElem?_eq_getElem first), cast_id (List.getElem?_eq_getElem second)]
  omega

theorem scan_rows (s : Stores) (cursor : Int) (cap left : Nat) (found : List Cast)
    (within : left ≤ s.castCount) (sized : s.castCount ≤ s.casts.length)
    (room : found.length ≤ cap) :
    s.scanCasts cursor cap left found = .ok (found ++
      ((((s.casts.take s.castCount).drop (s.castCount - left)).filter
        fun row => cursor < toInt32 row.id).map Stores.cCast).take (cap - found.length)) := by
  induction left generalizing found with
  | zero =>
    rw [List.drop_eq_nil_of_le (by rw [List.length_take]; omega)]
    simp [Stores.scanCasts]
  | succ left ih =>
    have slot : s.castCount - (left + 1) < s.casts.length := by omega
    have here : s.castCount - (left + 1) < (s.casts.take s.castCount).length := by
      rw [List.length_take]
      omega
    have next : s.castCount - (left + 1) + 1 = s.castCount - left := by omega
    rw [Stores.scanCasts, List.getElem?_eq_getElem slot, List.drop_eq_getElem_cons here,
      List.getElem_take, next]
    simp only [inTableOr, Bind.bind, Except.bind]
    by_cases old : toInt32 (s.casts[s.castCount - (left + 1)]).id ≤ cursor
    · rw [if_pos old, ih found (by omega) room, List.filter_cons_of_neg (by simpa using old)]
    · rw [if_neg old, List.filter_cons_of_pos (by simpa using old), List.map_cons]
      by_cases full : cap ≤ found.length
      · rw [if_pos full, Nat.sub_eq_zero_of_le full, List.take_zero, List.append_nil]
      · obtain ⟨more, rest⟩ : ∃ n, cap - found.length = n + 1 := ⟨cap - found.length - 1, by omega⟩
        have after : cap - (found ++ [Stores.cCast s.casts[s.castCount - (left + 1)]]).length =
            more := by
          rw [List.length_append, List.length_singleton]
          omega
        rw [if_neg full, ih _ (by omega) (by rw [List.length_append, List.length_singleton]; omega),
          after, rest, List.take_succ_cons, List.append_assoc, List.singleton_append]

theorem trim_rows (limit : Int) (cap : Nat) (rows : List Cast) :
    (rows.take cap).take (if limit ≤ 0 ∨ (rows.take cap).length ≤ limit.toNat then
      (rows.take cap).length else limit.toNat) = firstRows limit cap rows := by
  rw [firstRows, List.take_take, List.length_take]
  by_cases limited : 0 < limit
  · have above : ¬limit ≤ 0 := by omega
    rw [if_pos limited]
    rw [List.take_eq_take_iff]
    by_cases short : min cap rows.length ≤ limit.toNat
    · rw [if_pos (.inr short)]
      omega
    · rw [if_neg (by simp [above, short])]
      omega
  · rw [if_neg limited, if_pos (.inl (by omega)), List.take_eq_take_iff]
    omega

/-- The table in the order of its slots, cut to the rows after the cursor. -/
def found (s : Stores) (cursor : Int) : List Cast :=
  (s.casts.take s.castCount).filter fun row => cursor < (row.id : Int)

theorem table_rows (keep : s.Keep calls) (few : (Record.casts calls).length < 2147483648) :
    ∀ row ∈ s.casts.take s.castCount, row ∈ Record.casts calls := by
  have newest := keep.casts (by rw [← casts_length]; omega)
  intro row member
  by_cases short : (Record.casts calls).length ≤ maxCasts
  · rw [Ring.newest_short newest short] at member
    exact member
  · rw [Ring.newest_full (by decide) newest (by omega)] at member
    rcases List.mem_append.mp member with last | before
    · exact List.mem_of_mem_drop last
    · exact List.mem_of_mem_drop (List.mem_of_mem_take before)

theorem casts_since_rows (keep : s.Keep calls) (few : (Record.casts calls).length < 2147483648)
    (cursor limit : Int) (cap : Nat) :
    s.castsSince cursor limit cap = .ok (firstRows limit cap (found s cursor)) := by
  have newest := keep.casts (by rw [← casts_length]; omega)
  have rows := table_rows keep few
  have plain : (((s.casts.take s.castCount).drop (s.castCount - s.castCount)).filter
      fun row => cursor < toInt32 row.id).map Stores.cCast = found s cursor := by
    rw [Nat.sub_self, List.drop_zero, found]
    have signed : ∀ row ∈ s.casts.take s.castCount, toInt32 row.id = row.id := by
      intro row member
      obtain ⟨i, within⟩ := List.getElem?_of_mem (rows row member)
      have id := cast_id within
      have bound := (List.getElem?_eq_some_iff.mp within).1
      simp only [toInt32]
      omega
    rw [List.filter_congr (fun row member => by rw [signed row member])]
    have same : ∀ row ∈ (s.casts.take s.castCount).filter fun row => cursor < (row.id : Int),
        Stores.cCast row = row := fun row member =>
      cast_row calls row (rows row (List.mem_of_mem_filter member))
    rw [List.map_congr_left same, List.map_id_fun', id]
  have used := newest.used
  have sized := newest.sized
  have scanned := scan_rows s cursor cap s.castCount [] (Nat.le_refl _) (by omega) (Nat.zero_le cap)
  rw [plain, List.nil_append, List.length_nil, Nat.sub_zero] at scanned
  rw [Stores.castsSince, scanned]
  exact congrArg Except.ok (trim_rows limit cap _)

theorem mem_after {n : Nat} {row : Cast} (member : row ∈ (Record.casts calls).drop n) :
    n < row.id := by
  obtain ⟨i, within⟩ := List.getElem?_of_mem member
  rw [List.getElem?_drop] at within
  have id := cast_id within
  omega

theorem mem_until {n m : Nat} {row : Cast} (member : row ∈ ((Record.casts calls).drop n).take m) :
    row.id ≤ n + m := by
  obtain ⟨i, within⟩ := List.getElem?_of_mem member
  have bound := (List.getElem?_eq_some_iff.mp within).1
  rw [List.length_take] at bound
  rw [List.getElem?_take, if_pos (by omega), List.getElem?_drop] at within
  have id := cast_id within
  omega

theorem first_rows_head {a b : Cast} {front back : List Cast} {limit : Int} {cap : Nat}
    (room : cap ≠ 0) (same : firstRows limit cap (a :: front) = firstRows limit cap (b :: back)) :
    a = b := by
  have one (x : Cast) (rest : List Cast) : (firstRows limit cap (x :: rest)).head? = some x := by
    rw [firstRows, List.length_cons]
    obtain ⟨n, count⟩ : ∃ n, min cap (if 0 < limit then limit.toNat else rest.length + 1) =
        n + 1 := by
      refine ⟨min cap (if 0 < limit then limit.toNat else rest.length + 1) - 1, ?_⟩
      split <;> omega
    rw [count, List.take_succ_cons, List.head?_cons]
  have heads := congrArg List.head? same
  rw [one, one] at heads
  exact Option.some.inj heads

def lastTurn (history : List Cast) : List Cast :=
  history.drop (history.length - history.length % maxCasts)

def turnBefore (history : List Cast) : List Cast :=
  (history.drop (history.length - maxCasts)).take (maxCasts - history.length % maxCasts)

theorem retained_turns {history : List Cast} (full : maxCasts ≤ history.length) :
    retained history = turnBefore history ++ lastTurn history := by
  have small := Nat.mod_lt history.length (by decide : 0 < maxCasts)
  have start : history.length - maxCasts + (maxCasts - history.length % maxCasts) =
      history.length - history.length % maxCasts := by omega
  rw [retained, turnBefore, lastTurn, ← start, ← List.drop_drop, List.take_append_drop]

theorem last_turn_ids {row : Cast} (member : row ∈ lastTurn (Record.casts calls)) :
    (Record.casts calls).length - (Record.casts calls).length % maxCasts < row.id :=
  mem_after member

theorem turn_before_ids (full : maxCasts ≤ (Record.casts calls).length) {row : Cast}
    (member : row ∈ turnBefore (Record.casts calls)) :
    row.id ≤ (Record.casts calls).length - (Record.casts calls).length % maxCasts := by
  have small := Nat.mod_lt (Record.casts calls).length (by decide : 0 < maxCasts)
  have older := mem_until member
  omega

theorem turn_begun (full : maxCasts ≤ (Record.casts calls).length)
    (begun : (Record.casts calls).length % maxCasts ≠ 0) :
    (∃ row ∈ lastTurn (Record.casts calls),
      row.id = (Record.casts calls).length - (Record.casts calls).length % maxCasts + 1) ∧
    ∃ row ∈ turnBefore (Record.casts calls),
      row.id = (Record.casts calls).length - (Record.casts calls).length % maxCasts := by
  have small := Nat.mod_lt (Record.casts calls).length (by decide : 0 < maxCasts)
  constructor
  · have within : (Record.casts calls).length - (Record.casts calls).length % maxCasts <
        (Record.casts calls).length := by omega
    have there := List.getElem?_eq_getElem within
    refine ⟨_, List.mem_of_getElem? (i := 0) ?_, cast_id there⟩
    rw [lastTurn, List.getElem?_drop, Nat.add_zero, there]
  · have within : (Record.casts calls).length - (Record.casts calls).length % maxCasts - 1 <
        (Record.casts calls).length := by omega
    have there := List.getElem?_eq_getElem within
    have place : (Record.casts calls).length - maxCasts +
        (maxCasts - (Record.casts calls).length % maxCasts - 1) =
          (Record.casts calls).length - (Record.casts calls).length % maxCasts - 1 := by omega
    refine ⟨_, List.mem_of_getElem?
      (i := maxCasts - (Record.casts calls).length % maxCasts - 1) ?_, (cast_id there).trans ?_⟩
    · rw [turnBefore, List.getElem?_take, if_pos (by omega), List.getElem?_drop, place, there]
    · omega

theorem reads_oldest_iff (keep : s.Keep calls) (few : (Record.casts calls).length < 2147483648)
    (cursor limit : Int) (cap : Nat) :
    ReadsOldest (Record.casts calls) s cursor limit cap ↔
      InOrder (Record.casts calls).length cursor cap := by
  have newest := keep.casts (by rw [← casts_length]; omega)
  rw [ReadsOldest, casts_since_rows keep few cursor limit cap, Except.ok.injEq, found, pending]
  by_cases short : (Record.casts calls).length ≤ maxCasts
  · rw [Ring.newest_short newest short, retained, Nat.sub_eq_zero_of_le short, List.drop_zero]
    exact ⟨fun _ => .inl short, fun _ => rfl⟩
  · have full : maxCasts ≤ (Record.casts calls).length := by omega
    have table : s.casts.take s.castCount =
        lastTurn (Record.casts calls) ++ turnBefore (Record.casts calls) :=
      Ring.newest_full (by decide) newest full
    rw [table, retained_turns full, List.filter_append, List.filter_append]
    constructor
    · intro same
      by_contra wrapped
      simp only [InOrder, not_or] at wrapped
      obtain ⟨_, begun, behind, room⟩ := wrapped
      obtain ⟨⟨first, in_last, first_id⟩, last, in_before, last_id⟩ := turn_begun full begun
      have newer : first ∈ (lastTurn (Record.casts calls)).filter
          fun row => cursor < (row.id : Int) :=
        List.mem_filter.mpr ⟨in_last, by simp only [first_id, decide_eq_true_eq]; omega⟩
      have older : last ∈ (turnBefore (Record.casts calls)).filter
          fun row => cursor < (row.id : Int) :=
        List.mem_filter.mpr ⟨in_before, by simp only [last_id, decide_eq_true_eq]; omega⟩
      obtain ⟨a, front, newest_first⟩ := List.exists_cons_of_ne_nil (List.ne_nil_of_mem newer)
      obtain ⟨b, back, oldest_first⟩ := List.exists_cons_of_ne_nil (List.ne_nil_of_mem older)
      rw [newest_first, oldest_first, List.cons_append, List.cons_append] at same
      have heads := first_rows_head room same
      subst heads
      have above := last_turn_ids (List.mem_of_mem_filter (newest_first ▸ List.mem_cons_self))
      have below :=
        turn_before_ids full (List.mem_of_mem_filter (oldest_first ▸ List.mem_cons_self))
      omega
    · intro ordered
      rcases ordered with fits | started | ahead | closed
      · exact absurd fits short
      · rw [lastTurn, started, Nat.sub_zero, List.drop_length, List.filter_nil, List.nil_append,
          List.append_nil]
      · have none_before : (turnBefore (Record.casts calls)).filter
            (fun row => cursor < (row.id : Int)) = [] := by
          refine List.filter_eq_nil_iff.mpr fun row member => ?_
          have older := turn_before_ids full member
          simp only [decide_eq_true_eq]
          omega
        rw [none_before, List.nil_append, List.append_nil]
      · simp only [closed, firstRows, Nat.zero_min, List.take_zero]

theorem largest_id (rows : List Cast) (cursor : Int) :
    cursor ≤ rows.foldl (fun largest row => max largest (row.id : Int)) cursor ∧
      (∀ row ∈ rows, (row.id : Int) ≤
        rows.foldl (fun largest row => max largest (row.id : Int)) cursor) ∧
      (rows.foldl (fun largest row => max largest (row.id : Int)) cursor = cursor ∨
        ∃ row ∈ rows, (row.id : Int) =
          rows.foldl (fun largest row => max largest (row.id : Int)) cursor) := by
  induction rows generalizing cursor with
  | nil => exact ⟨Int.le_refl cursor, nofun, .inl rfl⟩
  | cons a rest ih =>
    obtain ⟨above, members, reached⟩ := ih (max cursor a.id)
    rw [List.foldl_cons]
    refine ⟨by omega, ?_, ?_⟩
    · intro row member
      rcases List.mem_cons.mp member with rfl | later
      · omega
      · exact members row later
    · rcases reached with start | ⟨row, later, same⟩
      · by_cases larger : cursor < a.id
        · refine .inr ⟨a, List.mem_cons_self, ?_⟩
          omega
        · refine .inl ?_
          omega
      · exact .inr ⟨row, List.mem_cons_of_mem a later, same⟩

theorem among_first {rows : List Cast} (increase : rows.Pairwise fun a b => a.id < b.id) {n : Nat}
    {row last : Cast} (member : row ∈ rows) (first : last ∈ rows.take n)
    (below : row.id ≤ last.id) :
    row ∈ rows.take n := by
  rw [← List.take_append_drop n rows] at member increase
  rcases List.mem_append.mp member with there | later
  · exact there
  · have after := (List.pairwise_append.mp increase).2.2 last first row later
    omega

theorem retained_snoc {history : List Cast} {a row : Cast}
    (member : row ∈ retained (history ++ [a])) :
    row ∈ retained history ∨ row = a := by
  rw [retained, List.length_append, List.length_singleton] at member
  by_cases short : history.length + 1 - maxCasts ≤ history.length
  · rw [List.drop_append_of_le_length short] at member
    rcases List.mem_append.mp member with older | new
    · refine .inl ?_
      rw [retained]
      have fewer : history.length + 1 - maxCasts =
          history.length - maxCasts +
            (history.length + 1 - maxCasts - (history.length - maxCasts)) := by
        omega
      rw [fewer, ← List.drop_drop] at older
      exact List.mem_of_mem_drop older
    · exact .inr (List.mem_singleton.mp new)
  · simp only [maxCasts] at short
    omega

/-- What a reader has been given: each cast once, and none left out that the ring still has. -/
structure CaughtUp (cursor : Int) (history : List Cast) (r : Reader) : Prop where
  above : cursor ≤ r.cursor
  made : r.cursor = cursor ∨ r.cursor ≤ history.length
  once : (r.seen.map Cast.id).Pairwise (· < ·)
  given : ∀ row ∈ r.seen, (row.id : Int) ≤ r.cursor
  whole : ∀ row ∈ retained history, cursor < (row.id : Int) → (row.id : Int) ≤ r.cursor →
    row ∈ r.seen

theorem seen_start (cursor : Int) (s : Stores) (history : List Cast) :
    CaughtUp cursor history ⟨s, cursor, []⟩ :=
  ⟨Int.le_refl cursor, .inl rfl, .nil, nofun, fun _ _ after before => by simp only at before; omega⟩

theorem seen_read {cursor limit : Int} {cap : Nat} {r : Reader}
    (seen : CaughtUp cursor (Record.casts calls) r) :
    CaughtUp cursor (Record.casts calls)
      { r with
        cursor := (firstRows limit cap (pending (Record.casts calls) r.cursor)).foldl
          (fun largest row => max largest (row.id : Int)) r.cursor
        seen := r.seen ++ firstRows limit cap (pending (Record.casts calls) r.cursor) } := by
  obtain ⟨n, first⟩ : ∃ n, firstRows limit cap (pending (Record.casts calls) r.cursor) =
      (pending (Record.casts calls) r.cursor).take n := ⟨_, rfl⟩
  rw [first]
  obtain ⟨forward, members, reached⟩ :=
    largest_id ((pending (Record.casts calls) r.cursor).take n) r.cursor
  have increase : (pending (Record.casts calls) r.cursor).Pairwise fun a b => a.id < b.id :=
    ((casts_increase calls).drop).filter _
  have later : ∀ row ∈ (pending (Record.casts calls) r.cursor).take n,
      r.cursor < (row.id : Int) := by
    intro row member
    simpa using (List.mem_filter.mp (List.mem_of_mem_take member)).2
  constructor
  · have above := seen.above
    simp only
    omega
  · rcases reached with same | ⟨row, member, same⟩
    · rcases seen.made with start | made
      · exact .inl (same.trans start)
      · exact .inr (Int.le_trans (Int.le_of_eq same) made)
    · refine .inr ?_
      have there := List.mem_of_mem_drop (List.mem_of_mem_filter (List.mem_of_mem_take member))
      obtain ⟨i, within⟩ := List.getElem?_of_mem there
      have bound := (List.getElem?_eq_some_iff.mp within).1
      have id := cast_id within
      simp only
      omega
  · rw [List.map_append]
    refine List.pairwise_append.mpr ⟨seen.once, ?_, ?_⟩
    · exact List.pairwise_map.mpr increase.take
    · intro a before b after
      obtain ⟨old, given, rfl⟩ := List.mem_map.mp before
      obtain ⟨new, member, rfl⟩ := List.mem_map.mp after
      have reached := seen.given old given
      have beyond := later new member
      omega
  · intro row member
    rcases List.mem_append.mp member with old | new
    · exact Int.le_trans (seen.given row old) forward
    · exact members row new
  · intro row member after before
    refine List.mem_append.mpr ?_
    by_cases old : (row.id : Int) ≤ r.cursor
    · exact .inl (seen.whole row member after old)
    · have waits : row ∈ pending (Record.casts calls) r.cursor :=
        List.mem_filter.mpr ⟨member, by simpa using old⟩
      rcases reached with same | ⟨last, among, same⟩
      · simp only [same] at before
        omega
      · refine .inr (among_first increase waits among ?_)
        simp only at before
        omega

theorem seen_cast {cursor : Int} {r : Reader} (seen : CaughtUp cursor (Record.casts calls) r)
    (stores : Stores) (world sender text : Bytes) :
    CaughtUp cursor (Record.casts (calls ++ [.cast world sender text]))
      { r with stores := stores } where
  above := seen.above
  made := by
    rw [casts_snoc, List.length_append, List.length_singleton]
    rcases seen.made with start | made
    · exact .inl start
    · exact .inr (by simp only; omega)
  once := seen.once
  given := seen.given
  whole := by
    intro row member after before
    rw [casts_snoc] at member
    rcases retained_snoc member with older | rfl
    · exact seen.whole row older after before
    · have count := casts_length calls
      simp only at after before
      have made := seen.made
      omega

theorem keep_reached {made : List Record} {start : Stores}
    (begun : Machine.Reaches (fun s call => Record.into s call) Stores.cleared made start) :
    start.Keep made := by
  obtain ⟨s, reached, keep⟩ := calls_keep made
  cases reached.symm.trans begun
  exact keep

theorem turn_cases {r next : Reader} {turn : Turn} (keep : r.stores.Keep calls)
    (taken : r.turn turn = .ok next) :
    (∃ world sender text stores, turn = .cast world sender text ∧
      stores.Keep (calls ++ [.cast world sender text]) ∧ next = { r with stores := stores }) ∨
    ∃ limit cap rows, turn = .read limit cap ∧ r.stores.castsSince r.cursor limit cap = .ok rows ∧
      next = { r with
        cursor := rows.foldl (fun largest row => max largest (row.id : Int)) r.cursor
        seen := r.seen ++ rows } := by
  cases turn with
  | cast world sender text =>
    obtain ⟨stores, made, kept, _⟩ := cast_keeps keep world sender text
    rw [Reader.turn, made] at taken
    cases taken
    exact .inl ⟨world, sender, text, stores, rfl, kept, rfl⟩
  | read limit cap =>
    rw [Reader.turn] at taken
    cases read : r.stores.castsSince r.cursor limit cap with
    | error fault =>
      rw [read] at taken
      cases taken
    | ok rows =>
      rw [read] at taken
      cases taken
      exact .inr ⟨limit, cap, rows, rfl, read, rfl⟩

theorem records_snoc (turns : List Turn) (turn : Turn) :
    Turn.records (turns ++ [turn]) = Turn.records turns ++ Turn.records [turn] :=
  List.filterMap_append

theorem turns_keep {made : List Record} {start : Stores} {cursor : Int} (keep : start.Keep made)
    (turns : List Turn) (r : Reader)
    (reached : Machine.Reaches Reader.turn ⟨start, cursor, []⟩ turns r) :
    r.stores.Keep (made ++ Turn.records turns) := by
  refine Machine.history_run Reader.turn
    (fun turns r => r.stores.Keep (made ++ Turn.records turns)) _ ?_ ?_ turns r reached
  · simpa [Turn.records] using keep
  · intro turns r turn next _ kept taken
    rw [records_snoc, ← List.append_assoc]
    rcases turn_cases kept taken with ⟨world, sender, text, stores, rfl, after, rfl⟩ |
      ⟨limit, cap, rows, rfl, _, rfl⟩
    · exact after
    · simpa [Turn.records] using kept

theorem turns_seen {made : List Record} {start : Stores} {cursor : Int} (keep : start.Keep made)
    (turns : List Turn) (r : Reader)
    (reached : Machine.Reaches Reader.turn ⟨start, cursor, []⟩ turns r)
    (few : (Record.casts (made ++ Turn.records turns)).length < 2147483648)
    (ordered : Machine.Meets Reader.turn Turn.inOrder ⟨start, cursor, []⟩ turns) :
    CaughtUp cursor (Record.casts (made ++ Turn.records turns)) r := by
  refine Machine.history_run Reader.turn (fun turns r =>
    (Record.casts (made ++ Turn.records turns)).length < 2147483648 →
    Machine.Meets Reader.turn Turn.inOrder ⟨start, cursor, []⟩ turns →
    CaughtUp cursor (Record.casts (made ++ Turn.records turns)) r) _ ?_ ?_ turns r reached few
      ordered
  · exact fun _ _ => seen_start cursor start _
  · intro turns r turn next reached seen taken few ordered
    have kept := turns_keep keep turns r reached
    have in_order := ordered turns turn [] r rfl reached
    have front := Machine.meets_front _ _ _ _ _ ordered
    rw [records_snoc, ← List.append_assoc] at few ⊢
    rcases turn_cases kept taken with ⟨world, sender, text, stores, rfl, _, rfl⟩ |
      ⟨limit, cap, rows, rfl, read, rfl⟩
    · have one_more : Turn.records [.cast world sender text] = [.cast world sender text] := rfl
      rw [one_more] at few ⊢
      rw [casts_snoc, List.length_append, List.length_singleton] at few
      exact seen_cast (seen (by omega) front) stores world sender text
    · have no_more : Turn.records [.read limit cap] = [] := rfl
      rw [no_more, List.append_nil] at few ⊢
      have next := kept.next
      have count := casts_length (made ++ Turn.records turns)
      have made_all : r.stores.nextCast = (Record.casts (made ++ Turn.records turns)).length := by
        omega
      simp only [Turn.inOrder, made_all] at in_order
      have right := (reads_oldest_iff kept few r.cursor limit cap).mpr in_order
      cases right.symm.trans read
      exact seen_read (seen few front)

/-- Each call is right exactly when the ring stands in order for it, and a reader all of whose
calls are so is given each cast once and misses none that is still there. -/
theorem casts_in_order (made : List Record) (start : Stores) (cursor : Int) (turns : List Turn)
    (r : Reader)
    (begun : Machine.Reaches (fun s call => Record.into s call) Stores.cleared made start)
    (reached : Machine.Reaches Reader.turn ⟨start, cursor, []⟩ turns r)
    (few : (Record.casts (made ++ Turn.records turns)).length < 2147483648) :
    (∀ limit cap,
      ReadsOldest (Record.casts (made ++ Turn.records turns)) r.stores r.cursor limit cap ↔
        InOrder (Record.casts (made ++ Turn.records turns)).length r.cursor cap) ∧
    (Machine.Meets Reader.turn Turn.inOrder ⟨start, cursor, []⟩ turns →
      (r.seen.map Cast.id).Pairwise (· < ·) ∧
      ∀ row ∈ retained (Record.casts (made ++ Turn.records turns)),
        cursor < (row.id : Int) → (row.id : Int) ≤ r.cursor → row ∈ r.seen) := by
  have keep := keep_reached begun
  constructor
  · exact reads_oldest_iff (turns_keep keep turns r reached) few r.cursor
  · intro ordered
    have seen := turns_seen keep turns r reached few ordered
    exact ⟨seen.once, seen.whole⟩

theorem casts_in_order_one :
    ∃ start r,
      Machine.Reaches (fun s call => Record.into s call) Stores.cleared
        [.cast (str "Basalt Relay") (str "Ada") (str "hi")] start ∧
      Machine.Reaches Reader.turn ⟨start, 0, []⟩
        [.read 5 8, .cast (str "Basalt Relay") (str "Bo") (str "yes")] r ∧
      ∀ limit cap, ReadsOldest (Record.casts [.cast (str "Basalt Relay") (str "Ada") (str "hi"),
          .cast (str "Basalt Relay") (str "Bo") (str "yes")]) r.stores r.cursor limit cap ↔
        InOrder 2 r.cursor cap := by
  have ran : Machine.ends (fun s call => Record.into s call) Stores.cleared
      [.cast (str "Basalt Relay") (str "Ada") (str "hi")] (fun start =>
        Machine.ends Reader.turn ⟨start, 0, []⟩
          [.read 5 8, .cast (str "Basalt Relay") (str "Bo") (str "yes")] fun _ => true) = true := by
    decide +kernel
  obtain ⟨start, begun, read⟩ := Machine.ends_reaches _ _ _ _ ran
  obtain ⟨r, reached, _⟩ := Machine.ends_reaches _ _ _ _ read
  exact ⟨start, r, begun, reached, (casts_in_order _ start 0 _ r begun reached (by decide)).1⟩

/-- With 201 casts made, a reader that stands at 0 and asks for one is given the last. -/
theorem wrapped_ring_skips :
    ∃ start r, Machine.Reaches (fun s call => Record.into s call) Stores.cleared
        (List.replicate 201 (.cast (str "Basalt Relay") (str "Ada") (str "hi"))) start ∧
      Machine.Reaches Reader.turn ⟨start, 0, []⟩ [.read 1 8] r ∧ r.seen.map Cast.id = [201] ∧
      ¬ReadsOldest (Record.casts (List.replicate 201
        (.cast (str "Basalt Relay") (str "Ada") (str "hi")))) start 0 1 8 := by
  have ran : Machine.ends (fun s call => Record.into s call) Stores.cleared
      (List.replicate 201 (.cast (str "Basalt Relay") (str "Ada") (str "hi"))) (fun start =>
        Machine.ends Reader.turn ⟨start, 0, []⟩ [.read 1 8] fun r =>
          r.seen.map Cast.id == [201]) = true := by
    decide +kernel
  obtain ⟨start, begun, read⟩ := Machine.ends_reaches _ _ _ _ ran
  obtain ⟨r, reached, given⟩ := Machine.ends_reaches _ _ _ _ read
  have count := spoken_count 201 (str "Basalt Relay") (str "Ada") (str "hi")
  rw [← casts_length] at count
  refine ⟨start, r, begun, reached, by simpa using given, fun right => ?_⟩
  have ordered := (reads_oldest_iff (keep_reached begun) (by omega) 0 1 8).mp right
  rw [count] at ordered
  exact absurd ordered (by simp [InOrder, maxCasts])

end Casts

end HollowGrid
