import HollowGrid.Hub
import HollowGrid.Lib.Machine
import HollowGrid.Lib.Shelf
import Mathlib.Data.List.TakeWhile

/-! asm/grid_local.asm: the tables of the LocalHub in memory, slot by slot. -/
namespace HollowGrid

def maxRescued : Nat := 200
def maxFallen : Nat := 200
def maxCasts : Nat := 200

/-- gl_traces, gl_echo, gl_rescued, gl_fallen and gl_casts with their counts. -/
structure Stores where
  traces : Shelf Trace
  echo : Shelf Trace
  rescued : Shelf Fallen
  fallen : Shelf Fallen
  casts : List Cast
  castCount : Nat
  nextCast : Nat

/-- A store past the last slot of a table would be out of bounds. -/
def inTableOr {α : Type} : Option α → Except Fault α
  | some a => .ok a
  | none => .error .outOfBounds

/-- A time of 0 asks for the time now. -/
def stamp (at_ms now : Int) : Int := if at_ms = 0 then now else at_ms

def nextId (last : Nat) : Nat := (last + 1) % 4294967296

namespace Stores

def emptyTrace : Trace := ⟨[], [], [], [], 0⟩

def emptyFallen : Fallen := ⟨[], [], [], 0⟩

def emptyCast : Cast := ⟨0, [], [], []⟩

/-- hg_grid_local_clear -/
def cleared : Stores where
  traces := ⟨List.replicate maxTraces emptyTrace, 0⟩
  echo := ⟨List.replicate maxEcho emptyTrace, 0⟩
  rescued := ⟨List.replicate maxRescued emptyFallen, 0⟩
  fallen := ⟨List.replicate maxFallen emptyFallen, 0⟩
  casts := List.replicate maxCasts emptyCast
  castCount := 0
  nextCast := 0

def record (s : Stores) (world node kind text : Bytes) (at_ms now : Int) : Except Fault Stores := do
  let row : Trace :=
    ⟨safeCopy 48 world, safeCopy 64 node, safeCopy 24 kind, safeCopy 200 text, stamp at_ms now⟩
  let traces ← inTableOr (s.traces.push maxTraces row)
  return { s with traces := traces }

def recordEcho (s : Stores) (node kind text : Bytes) (now : Int) : Except Fault Stores := do
  let row : Trace := ⟨[], safeCopy 64 node, safeCopy 24 kind, safeCopy 200 text, now⟩
  let echo ← inTableOr (s.echo.push maxEcho row)
  return { s with echo := echo }

def recordFallen (s : Stores) (world name room : Bytes) (at_ms now : Int) :
    Except Fault Stores := do
  let row : Fallen := ⟨safeCopy 48 world, safeCopy 40 name, safeCopy 32 room, stamp at_ms now⟩
  let fallen ← inTableOr (s.fallen.push maxFallen row)
  return { s with fallen := fallen }

/-- The text of the trace is made of whole strings, not of the row. -/
def recordRescued (s : Stores) (world name savedBy : Bytes) (at_ms now later : Int) :
    Except Fault Stores := do
  let row : Fallen := ⟨safeCopy 48 world, safeCopy 40 name, safeCopy 40 savedBy, stamp at_ms now⟩
  let rescued ← inTableOr (s.rescued.push maxRescued row)
  record { s with rescued := rescued } world (str "rescued") (str "rescue")
    (safeCopy 256 (cstr name ++ str " freed by " ++ cstr savedBy)) (stamp at_ms now) later

def gridcast (s : Stores) (world sender text : Bytes) : Except Fault Stores :=
  let id := nextId s.nextCast
  -- dec of a 32-bit word: the slot of id 0 is that of 2^32 - 1
  let slot := (id + 4294967295) % 4294967296 % maxCasts
  if slot < s.casts.length then
    .ok
      { s with
        nextCast := id
        casts := s.casts.set slot ⟨id, safeCopy 48 world, safeCopy 33 sender, safeCopy 240 text⟩
        castCount := if s.castCount < maxCasts then s.castCount + 1 else s.castCount }
  else .error .outOfBounds

/-- The rows hg_grid_local_recent_fallen and hg_grid_local_recent_rescued return of a table
of count rows. -/
def recentCount (count : Nat) (limit : Int) (cap : Nat) : Nat :=
  let room := if count ≤ cap then count else cap
  if limit ≤ 0 then room else if room ≤ limit.toNat then room else limit.toNat

/-- A row as the C side has it: the name has 33 bytes there, the last field its own size. -/
def cRow (third : Nat) (row : Fallen) : Fallen :=
  ⟨safeCopy 48 row.world, safeCopy 33 row.name, safeCopy third row.third, row.at_ms⟩

/-- .lp of the two: rows are copied one by one until the count. -/
def copyRows (shelf : Shelf Fallen) (third : Nat) : Nat → Except Fault (List Fallen)
  | 0 => .ok []
  | n + 1 => do
    let before ← copyRows shelf third n
    let row ← inTableOr shelf.slots[n]?
    return before ++ [cRow third row]

def recentRescued (s : Stores) (limit : Int) (cap : Nat) : Except Fault (List Fallen) :=
  copyRows s.rescued 33 (recentCount s.rescued.count limit cap)

def recentFallen (s : Stores) (limit : Int) (cap : Nat) : Except Fault (List Fallen) :=
  copyRows s.fallen 32 (recentCount s.fallen.count limit cap)

end Stores

/-- A call that records something, with what hg_now_ms answers in it. -/
inductive Record
  | trace (world node kind text : Bytes) (at_ms now : Int)
  | echo (node kind text : Bytes) (now : Int)
  | fallen (world name room : Bytes) (at_ms now : Int)
  | rescued (world name savedBy : Bytes) (at_ms now later : Int)
  | cast (world sender text : Bytes)
  deriving DecidableEq, Repr

def Record.into (s : Stores) : Record → Except Fault Stores
  | trace world node kind text at_ms now => s.record world node kind text at_ms now
  | echo node kind text now => s.recordEcho node kind text now
  | fallen world name room at_ms now => s.recordFallen world name room at_ms now
  | rescued world name savedBy at_ms now later => s.recordRescued world name savedBy at_ms now later
  | cast world sender text => s.gridcast world sender text

namespace Record

/-- The rows the calls record, oldest first. -/
def traces (calls : List Record) : List Trace :=
  calls.filterMap fun call =>
    match call with
    | trace world node kind text at_ms now =>
      some ⟨safeCopy 48 world, safeCopy 64 node, safeCopy 24 kind, safeCopy 200 text,
        stamp at_ms now⟩
    | rescued world name savedBy at_ms now later =>
      some ⟨safeCopy 48 world, str "rescued", str "rescue",
        safeCopy 200 (cstr name ++ str " freed by " ++ cstr savedBy), stamp (stamp at_ms now) later⟩
    | _ => none

def echoes (calls : List Record) : List Trace :=
  calls.filterMap fun call =>
    match call with
    | echo node kind text now =>
      some ⟨[], safeCopy 64 node, safeCopy 24 kind, safeCopy 200 text, now⟩
    | _ => none

def fallens (calls : List Record) : List Fallen :=
  calls.filterMap fun call =>
    match call with
    | fallen world name room at_ms now =>
      some ⟨safeCopy 48 world, safeCopy 40 name, safeCopy 32 room, stamp at_ms now⟩
    | _ => none

def rescues (calls : List Record) : List Fallen :=
  calls.filterMap fun call =>
    match call with
    | rescued world name savedBy at_ms now _ =>
      some ⟨safeCopy 48 world, safeCopy 40 name, safeCopy 40 savedBy, stamp at_ms now⟩
    | _ => none

def spoken (calls : List Record) : List (Bytes × Bytes × Bytes) :=
  calls.filterMap fun call =>
    match call with
    | cast world sender text => some (safeCopy 48 world, safeCopy 33 sender, safeCopy 240 text)
    | _ => none

/-- Casts are numbered from 1. -/
def casts (calls : List Record) : List Cast :=
  (spoken calls).mapIdx fun i row => ⟨i + 1, row.1, row.2.1, row.2.2⟩

end Record

theorem safe_copy_twice (b : Bytes) {n m : Nat} (shorter : n ≤ m) :
    safeCopy n (safeCopy m b) = safeCopy n b := by
  have plain : cstr ((cstr b).take (m - 1)) = (cstr b).take (m - 1) := by
    refine List.takeWhile_eq_self_iff.mpr fun x member => ?_
    have inside : x ∈ b.takeWhile (· ≠ 0) := List.mem_of_mem_take member
    have kept := List.mem_takeWhile_imp inside
    exact kept
  rw [safeCopy, safeCopy, plain, List.take_take, Nat.min_eq_left (by omega), safeCopy]

structure Stores.Keep (s : Stores) (calls : List Record) : Prop where
  traces : Shelf.Newest maxTraces s.traces (Record.traces calls)
  echo : Shelf.Newest maxEcho s.echo (Record.echoes calls)
  rescued : Shelf.Newest maxRescued s.rescued (Record.rescues calls)
  fallen : Shelf.Newest maxFallen s.fallen (Record.fallens calls)
  sized : s.casts.length = maxCasts
  next : s.nextCast = (Record.spoken calls).length % 4294967296
  casts : (Record.spoken calls).length < 4294967296 →
    Ring.Newest maxCasts s.casts s.castCount (Record.casts calls)

section Stores

variable {s : Stores} {calls : List Record}

theorem pushed {α : Type} {cap : Nat} {shelf : Shelf α} {history : List α} (room : 0 < cap)
    (newest : Shelf.Newest cap shelf history) (a : α) :
    ∃ next, inTableOr (shelf.push cap a) = .ok next ∧ Shelf.Newest cap next (history ++ [a]) := by
  obtain ⟨next, found, newest⟩ := Shelf.newest_push room newest a
  exact ⟨next, by rw [found, inTableOr], newest⟩

theorem keep_cleared : Stores.cleared.Keep [] where
  traces := Shelf.newest_cleared ..
  echo := Shelf.newest_cleared ..
  rescued := Shelf.newest_cleared ..
  fallen := Shelf.newest_cleared ..
  sized := List.length_replicate ..
  next := rfl
  casts := fun _ => Ring.newest_cleared ..

theorem casts_length (calls : List Record) :
    (Record.casts calls).length = (Record.spoken calls).length := List.length_mapIdx

theorem spoken_snoc (calls : List Record) (world sender text : Bytes) :
    Record.spoken (calls ++ [.cast world sender text]) =
      Record.spoken calls ++ [(safeCopy 48 world, safeCopy 33 sender, safeCopy 240 text)] := by
  simp [Record.spoken]

theorem spoken_count (n : Nat) (world sender text : Bytes) :
    (Record.spoken (List.replicate n (.cast world sender text))).length = n := by
  induction n with
  | zero => rfl
  | succ n ih =>
    rw [List.replicate_succ', spoken_snoc, List.length_append, ih, List.length_singleton]

theorem casts_snoc (calls : List Record) (world sender text : Bytes) :
    Record.casts (calls ++ [.cast world sender text]) = Record.casts calls ++
      [⟨(Record.spoken calls).length + 1, safeCopy 48 world, safeCopy 33 sender,
        safeCopy 240 text⟩] := by
  rw [Record.casts, spoken_snoc, List.mapIdx_concat, Record.casts]

theorem cast_keeps (keep : s.Keep calls) (world sender text : Bytes) :
    ∃ next, s.gridcast world sender text = .ok next ∧
      next.Keep (calls ++ [.cast world sender text]) ∧
      next.casts[(Record.spoken calls).length % 4294967296 % maxCasts]? =
        some ⟨nextId s.nextCast, safeCopy 48 world, safeCopy 33 sender, safeCopy 240 text⟩ := by
  have slot : (nextId s.nextCast + 4294967295) % 4294967296 = s.nextCast := by
    have next := keep.next
    simp only [nextId]
    omega
  have inside : s.nextCast % maxCasts < s.casts.length := by
    rw [keep.sized]
    exact Nat.mod_lt _ (by decide)
  refine ⟨_, by rw [Stores.gridcast, slot]; exact if_pos inside, ?_, ?_⟩
  · have one_more : (Record.spoken (calls ++ [.cast world sender text])).length =
        (Record.spoken calls).length + 1 := by
      rw [spoken_snoc, List.length_append, List.length_singleton]
    constructor
    · simpa [Record.traces] using keep.traces
    · simpa [Record.echoes] using keep.echo
    · simpa [Record.rescues] using keep.rescued
    · simpa [Record.fallens] using keep.fallen
    · simp only [List.length_set, keep.sized]
    · have next := keep.next
      simp only [nextId, one_more]
      omega
    · intro few
      rw [one_more] at few
      have small : s.nextCast = (Record.spoken calls).length := by
        have next := keep.next
        omega
      have newest := keep.casts (by omega)
      have id : nextId s.nextCast = (Record.spoken calls).length + 1 := by
        rw [nextId, small]
        omega
      rw [casts_snoc, id]
      have put := Ring.newest_put (by decide : 0 < maxCasts) newest
        (⟨(Record.spoken calls).length + 1, safeCopy 48 world, safeCopy 33 sender,
          safeCopy 240 text⟩ : Cast)
      rw [casts_length, ← small] at put
      exact small ▸ put
  · rw [← keep.next, List.getElem?_set_self inside]

theorem call_keeps (keep : s.Keep calls) (call : Record) :
    ∃ next, call.into s = .ok next ∧ next.Keep (calls ++ [call]) := by
  obtain ⟨traces, echo, rescued, fallen, sized, next, casts⟩ := keep
  cases call with
  | trace world node kind text at_ms now =>
    obtain ⟨shelf, found, newest⟩ := pushed (by decide) traces
      (⟨safeCopy 48 world, safeCopy 64 node, safeCopy 24 kind, safeCopy 200 text,
        stamp at_ms now⟩ : Trace)
    refine ⟨{ s with traces := shelf }, ?_, ?_⟩
    · simp [Record.into, Stores.record, found, Bind.bind, Except.bind, Pure.pure, Except.pure]
    · constructor
      · simpa [Record.traces] using newest
      · simpa [Record.echoes] using echo
      · simpa [Record.rescues] using rescued
      · simpa [Record.fallens] using fallen
      · exact sized
      · simpa [Record.spoken] using next
      · simpa [Record.spoken, Record.casts] using casts
  | echo node kind text now =>
    obtain ⟨shelf, found, newest⟩ := pushed (by decide) echo
      (⟨[], safeCopy 64 node, safeCopy 24 kind, safeCopy 200 text, now⟩ : Trace)
    refine ⟨{ s with echo := shelf }, ?_, ?_⟩
    · simp [Record.into, Stores.recordEcho, found, Bind.bind, Except.bind, Pure.pure, Except.pure]
    · constructor
      · simpa [Record.traces] using traces
      · simpa [Record.echoes] using newest
      · simpa [Record.rescues] using rescued
      · simpa [Record.fallens] using fallen
      · exact sized
      · simpa [Record.spoken] using next
      · simpa [Record.spoken, Record.casts] using casts
  | fallen world name room at_ms now =>
    obtain ⟨shelf, found, newest⟩ := pushed (by decide) fallen
      (⟨safeCopy 48 world, safeCopy 40 name, safeCopy 32 room, stamp at_ms now⟩ : Fallen)
    refine ⟨{ s with fallen := shelf }, ?_, ?_⟩
    · simp [Record.into, Stores.recordFallen, found, Bind.bind, Except.bind, Pure.pure, Except.pure]
    · constructor
      · simpa [Record.traces] using traces
      · simpa [Record.echoes] using echo
      · simpa [Record.rescues] using rescued
      · simpa [Record.fallens] using newest
      · exact sized
      · simpa [Record.spoken] using next
      · simpa [Record.spoken, Record.casts] using casts
  | rescued world name savedBy at_ms now later =>
    obtain ⟨shelf, found, newest⟩ := pushed (by decide) rescued
      (⟨safeCopy 48 world, safeCopy 40 name, safeCopy 40 savedBy, stamp at_ms now⟩ : Fallen)
    obtain ⟨last, traced, newest_trace⟩ := pushed (by decide) traces
      (⟨safeCopy 48 world, str "rescued", str "rescue",
        safeCopy 200 (cstr name ++ str " freed by " ++ cstr savedBy),
        stamp (stamp at_ms now) later⟩ : Trace)
    have node : safeCopy 64 (str "rescued") = str "rescued" := by decide
    have kind : safeCopy 24 (str "rescue") = str "rescue" := by decide
    have text := safe_copy_twice (cstr name ++ str " freed by " ++ cstr savedBy)
      (by decide : 200 ≤ 256)
    refine ⟨{ s with rescued := shelf, traces := last }, ?_, ?_⟩
    · simp only [Record.into, Stores.recordRescued, Stores.record, found, node, kind, text, traced,
        Bind.bind, Except.bind, Pure.pure, Except.pure]
    · constructor
      · simpa [Record.traces] using newest_trace
      · simpa [Record.echoes] using echo
      · simpa [Record.rescues] using newest
      · simpa [Record.fallens] using fallen
      · exact sized
      · simpa [Record.spoken] using next
      · simpa [Record.spoken, Record.casts] using casts
  | cast world sender text =>
    obtain ⟨last, found, keep, _⟩ :=
      cast_keeps ⟨traces, echo, rescued, fallen, sized, next, casts⟩ world sender text
    exact ⟨last, found, keep⟩

theorem calls_keep (calls : List Record) :
    ∃ s, Machine.Reaches (fun s call => Record.into s call) Stores.cleared calls s ∧
        s.Keep calls := by
  induction calls using List.reverseRecOn with
  | nil => exact ⟨_, Machine.reaches_nil _ _, keep_cleared⟩
  | append_singleton calls call ih =>
    obtain ⟨s, reached, keep⟩ := ih
    obtain ⟨next, taken, kept⟩ := call_keeps keep call
    exact ⟨next, Machine.reaches_snoc _ _ _ _ _ _ reached taken, kept⟩

theorem copy_rows {shelf : Shelf Fallen} (third : Nat) {n : Nat} (within : n ≤ shelf.slots.length) :
    Stores.copyRows shelf third n = .ok ((shelf.slots.take n).map (Stores.cRow third)) := by
  induction n with
  | zero => rfl
  | succ n ih =>
    rw [Stores.copyRows, ih (by omega), List.getElem?_eq_getElem within,
      List.take_succ_eq_append_getElem within, List.map_append]
    rfl

/-- The first rows of a table: at most cap, and at most limit when that is positive. -/
def firstRows {α : Type} (limit : Int) (cap : Nat) (rows : List α) : List α :=
  rows.take (min cap (if 0 < limit then limit.toNat else rows.length))

theorem recent_count (count : Nat) (limit : Int) (cap : Nat) :
    Stores.recentCount count limit cap =
      min (min cap (if 0 < limit then limit.toNat else count)) count := by
  by_cases limited : 0 < limit
  · have above : ¬limit ≤ 0 := by omega
    simp only [Stores.recentCount, if_pos limited, if_neg above]
    split <;> split <;> omega
  · have below : limit ≤ 0 := by omega
    simp only [Stores.recentCount, if_neg limited, if_pos below]
    split <;> omega

theorem recent_rows {shelf : Shelf Fallen} {size : Nat} {history : List Fallen}
    (newest : Shelf.Newest size shelf history) (third : Nat) (limit : Int) (cap : Nat) :
    Stores.copyRows shelf third (Stores.recentCount shelf.count limit cap) =
      .ok ((firstRows limit cap shelf.rows).map (Stores.cRow third)) := by
  have sized := newest.sized
  have used := newest.used
  have length : shelf.rows.length = shelf.count := by
    rw [Shelf.rows, List.length_take]
    omega
  have counted := recent_count shelf.count limit cap
  rw [copy_rows third (by omega), counted, firstRows, length, Shelf.rows, List.take_take]

/-- Each table is the newest rows of what was recorded, the newest first, and the casts stand by
their numbers. What is read of the tables is their first rows, as the C side has them. -/
theorem newest_kept (calls : List Record) :
    ∃ s, Machine.Reaches (fun s call => Record.into s call) Stores.cleared calls s ∧
      s.traces.rows = (Record.traces calls).reverse.take 200 ∧
      s.echo.rows = (Record.echoes calls).reverse.take 128 ∧
      s.fallen.rows = (Record.fallens calls).reverse.take 200 ∧
      s.rescued.rows = (Record.rescues calls).reverse.take 200 ∧
      ((Record.casts calls).length < 4294967296 →
        s.castCount = min (Record.casts calls).length 200 ∧
        (∀ i, i < (Record.casts calls).length → (Record.casts calls).length ≤ i + 200 →
          s.casts[i % 200]? = (Record.casts calls)[i]?) ∧
        ∀ slot, slot < s.castCount → ∃ i, i < (Record.casts calls).length ∧
          (Record.casts calls).length ≤ i + 200 ∧ i % 200 = slot) ∧
      (∀ limit cap, s.recentFallen limit cap =
        .ok ((firstRows limit cap s.fallen.rows).map (Stores.cRow 32))) ∧
      ∀ limit cap, s.recentRescued limit cap =
        .ok ((firstRows limit cap s.rescued.rows).map (Stores.cRow 33)) := by
  obtain ⟨s, reached, keep⟩ := calls_keep calls
  refine ⟨s, reached, keep.traces.rows, keep.echo.rows, keep.fallen.rows, keep.rescued.rows, ?_,
    recent_rows keep.fallen 32, recent_rows keep.rescued 33⟩
  intro few
  rw [casts_length] at few
  have newest := keep.casts few
  exact ⟨newest.used, newest.held, fun slot within => Ring.newest_slot newest within⟩

/-- A name of 39 bytes is returned as its first 32. And the 2^32nd cast has id 0, in a slot from
which the ring does not go on. -/
theorem long_name_cut :
    (∃ s, Machine.Reaches (fun s call => Record.into s call) Stores.cleared
        [.fallen (str "Basalt Relay") (List.replicate 39 97) (str "nexus") 1 1] s ∧
      s.recentFallen 0 10 ≠ .ok (firstRows 0 10 s.fallen.rows)) ∧
    ∃ s, Machine.Reaches (fun s call => Record.into s call) Stores.cleared
        (List.replicate 4294967296 (.cast (str "Basalt Relay") (str "Ada") (str "hi"))) s ∧
      s.casts[95]?.map Cast.id = some 0 := by
  constructor
  · obtain ⟨s, reached, keep⟩ := calls_keep
      [.fallen (str "Basalt Relay") (List.replicate 39 97) (str "nexus") 1 1]
    refine ⟨s, reached, ?_⟩
    have read := recent_rows keep.fallen 32 0 10
    rw [Stores.recentFallen, read, keep.fallen.rows]
    decide
  · obtain ⟨before, reached, keep⟩ := calls_keep
      (List.replicate 4294967295 (.cast (str "Basalt Relay") (str "Ada") (str "hi")))
    obtain ⟨s, taken, _, last⟩ := cast_keeps keep (str "Basalt Relay") (str "Ada") (str "hi")
    have count : (Record.spoken (List.replicate 4294967295
        (.cast (str "Basalt Relay") (str "Ada") (str "hi")))).length = 4294967295 := by
      exact spoken_count _ _ _ _
    have next := keep.next
    rw [count] at next last
    refine ⟨s, ?_, ?_⟩
    · rw [List.replicate_succ']
      exact Machine.reaches_snoc _ _ _ _ _ _ reached taken
    · rw [show 4294967295 % 4294967296 % maxCasts = 95 from rfl] at last
      rw [last, next]
      rfl

end Stores

end HollowGrid
