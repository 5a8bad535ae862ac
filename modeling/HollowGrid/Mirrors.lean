import HollowGrid.Pruning
import HollowGrid.Stores

/-! asm/grid_local.asm: the lists of the LocalHub are what its tables hold, whatever is recorded,
pruned and shifted. -/
namespace HollowGrid

/-- The tables of grid_local.asm, and gl_tide. -/
structure LocalGrid where
  stores : Stores
  tide : Int

namespace LocalGrid

def cleared : LocalGrid := ⟨Stores.cleared, 0⟩

/-- hg_grid_local_prune -/
def prune (t : LocalGrid) : LocalGrid :=
  let swept := pruneTable t.stores.traces.slots t.stores.traces.count
  { t with stores := { t.stores with traces := ⟨swept.1, swept.2⟩ } }

/-- hg_grid_local_shift_tide, on a word of 32 bits. -/
def shiftTide (t : LocalGrid) (delta : Int) : LocalGrid :=
  { t with tide := LocalHub.clampTide (toInt32 (t.tide + delta)) }

end LocalGrid

/-- A call that changes the LocalHub. -/
inductive HubCall
  | record (call : Record)
  | prune
  | shift (delta : Int)
  deriving DecidableEq, Repr

namespace HubCall

def into (t : LocalGrid) : HubCall → Except Fault LocalGrid
  | record call => (call.into t.stores).map fun s => { t with stores := s }
  | prune => .ok t.prune
  | shift delta => .ok (t.shiftTide delta)

/-- What the call does to the lists. -/
def upon (h : LocalHub) : HubCall → LocalHub
  | record (.trace world node kind text at_ms now) =>
    h.record world node kind text (stamp at_ms now)
  | record (.echo node kind text now) => h.recordEcho node kind text now
  | record (.fallen world name room at_ms now) =>
    h.recordFallen world name room (stamp at_ms now)
  | record (.rescued world name savedBy at_ms now _) =>
    h.recordRescued world name savedBy (stamp at_ms now)
  | record (.cast world sender text) => h.gridcast world sender text
  | prune => h.prune
  | shift delta => h.shiftTide delta

/-- Names are C strings, a rescue has a time, and a shift does not overrun its word. -/
def Fit : HubCall → Prop
  | record (.rescued _ name savedBy at_ms now _) =>
    0 ∉ name ∧ 0 ∉ savedBy ∧ stamp at_ms now ≠ 0
  | shift delta => -2147483548 ≤ delta ∧ delta ≤ 2147483547
  | _ => True

def casts : List HubCall → Nat
  | [] => 0
  | record (.cast ..) :: rest => casts rest + 1
  | _ :: rest => casts rest

end HubCall

/-- The traces hg_grid_local_boot records on a node of its own. -/
def bootCalls (env : Env) : List HubCall :=
  if env.remote then []
  else seeds.zipIdx.map fun seed => .record (.trace (str seed.1.1) (str seed.1.2.1)
    (str seed.1.2.2.1) (str seed.1.2.2.2) 0 (env.now seed.2))

structure Shelf.Lists {α : Type} (cap : Nat) (shelf : Shelf α) (l : List α) : Prop where
  sized : shelf.slots.length = cap
  used : shelf.count ≤ cap
  rows : shelf.rows = l

section Shelves

variable {α : Type} {cap : Nat} {shelf : Shelf α} {l : List α}

theorem lists_length (lists : shelf.Lists cap l) : l.length = shelf.count := by
  have used := lists.used
  rw [← lists.rows, Shelf.rows, List.length_take, lists.sized]
  omega

theorem lists_cleared (cap : Nat) (a : α) : Shelf.Lists cap ⟨List.replicate cap a, 0⟩ [] :=
  ⟨List.length_replicate .., Nat.zero_le _, rfl⟩

theorem lists_newest (lists : shelf.Lists cap l) : Shelf.Newest cap shelf l.reverse := by
  have short : l.length ≤ cap := (lists_length lists).trans_le lists.used
  refine ⟨lists.sized, lists.used, ?_⟩
  rw [lists.rows, List.reverse_reverse, List.take_of_length_le short]

theorem lists_pushed (room : 0 < cap) (lists : shelf.Lists cap l) (a : α) :
    ∃ next, inTableOr (shelf.push cap a) = .ok next ∧ next.Lists cap ((a :: l).take cap) := by
  obtain ⟨next, found, kept⟩ := pushed room (lists_newest lists) a
  refine ⟨next, found, kept.sized, kept.used, ?_⟩
  rw [kept.rows, List.reverse_append, List.reverse_reverse, List.reverse_singleton,
    List.singleton_append]

theorem sweep_length (drop : α → Bool) (rounds i k : Nat) (table : List α) :
    (Sweep.sweep drop rounds i k table).1.length = table.length := by
  induction rounds generalizing i k table with
  | zero => rfl
  | succ rounds ih =>
    rw [Sweep.sweep]
    split
    · rfl
    · split
      · exact ih _ _ _
      · rw [ih]
        split
        · rfl
        · exact List.length_set

end Shelves

structure Mirrors (t : LocalGrid) (h : LocalHub) : Prop where
  traces : t.stores.traces.Lists maxTraces h.traces
  echo : t.stores.echo.Lists maxEcho h.echo
  rescued : t.stores.rescued.Lists maxRescued h.rescued
  fallen : t.stores.fallen.Lists maxFallen h.fallen
  slots : t.stores.casts.length = maxCasts
  count : t.stores.castCount = min h.nextCast maxCasts
  casts : t.stores.casts.take t.stores.castCount = h.casts
  next : t.stores.nextCast = h.nextCast
  tide : t.tide = h.tide ∧ -100 ≤ h.tide ∧ h.tide ≤ 100
  worlds : ∀ row ∈ h.rescued ++ h.fallen, safeCopy 48 row.world = row.world

section Mirrors

variable {t : LocalGrid} {h : LocalHub}

theorem mirrors_cleared : Mirrors .cleared {} where
  traces := lists_cleared ..
  echo := lists_cleared ..
  rescued := lists_cleared ..
  fallen := lists_cleared ..
  slots := List.length_replicate ..
  count := rfl
  casts := rfl
  next := rfl
  tide := by decide
  worlds := fun row member => absurd member List.not_mem_nil

theorem mirrors_record (mirrors : Mirrors t h) (world node kind text : Bytes) (at_ms now : Int) :
    ∃ s, t.stores.record world node kind text at_ms now = .ok s ∧
      Mirrors { t with stores := s } (h.record world node kind text (stamp at_ms now)) := by
  obtain ⟨shelf, found, lists⟩ := lists_pushed (by decide) mirrors.traces
    (⟨safeCopy 48 world, safeCopy 64 node, safeCopy 24 kind, safeCopy 200 text,
      stamp at_ms now⟩ : Trace)
  refine ⟨{ t.stores with traces := shelf }, ?_, { mirrors with traces := lists }⟩
  rw [Stores.record, found]
  rfl

theorem mirrors_echo (mirrors : Mirrors t h) (node kind text : Bytes) (now : Int) :
    ∃ s, t.stores.recordEcho node kind text now = .ok s ∧
      Mirrors { t with stores := s } (h.recordEcho node kind text now) := by
  obtain ⟨shelf, found, lists⟩ := lists_pushed (by decide) mirrors.echo
    (⟨[], safeCopy 64 node, safeCopy 24 kind, safeCopy 200 text, now⟩ : Trace)
  refine ⟨{ t.stores with echo := shelf }, ?_, { mirrors with echo := lists }⟩
  rw [Stores.recordEcho, found]
  rfl

theorem worlds_pushed {rows : List Fallen} {world name third : Bytes} {at_ms : Int}
    (worlds : ∀ row ∈ rows, safeCopy 48 row.world = row.world) :
    ∀ row ∈ ((⟨safeCopy 48 world, name, third, at_ms⟩ : Fallen) :: rows).take 200,
      safeCopy 48 row.world = row.world := by
  intro row member
  rcases List.mem_cons.mp (List.mem_of_mem_take member) with rfl | older
  · exact safe_copy_twice world (Nat.le_refl 48)
  · exact worlds row older

theorem mirrors_fallen (mirrors : Mirrors t h) (world name room : Bytes) (at_ms now : Int) :
    ∃ s, t.stores.recordFallen world name room at_ms now = .ok s ∧
      Mirrors { t with stores := s } (h.recordFallen world name room (stamp at_ms now)) := by
  obtain ⟨shelf, found, lists⟩ := lists_pushed (by decide) mirrors.fallen
    (⟨safeCopy 48 world, safeCopy 40 name, safeCopy 32 room, stamp at_ms now⟩ : Fallen)
  refine ⟨{ t.stores with fallen := shelf }, ?_, { mirrors with fallen := lists, worlds := ?_ }⟩
  · rw [Stores.recordFallen, found]
    rfl
  · intro row member
    rcases List.mem_append.mp member with rescued | fallen
    · exact mirrors.worlds row (List.mem_append_left _ rescued)
    · exact worlds_pushed (fun row old => mirrors.worlds row (List.mem_append_right _ old)) row
        fallen

theorem mirrors_rescued (mirrors : Mirrors t h) (world name savedBy : Bytes)
    (at_ms now later : Int) (named : 0 ∉ name) (saviour : 0 ∉ savedBy)
    (timed : stamp at_ms now ≠ 0) :
    ∃ s, t.stores.recordRescued world name savedBy at_ms now later = .ok s ∧
      Mirrors { t with stores := s } (h.recordRescued world name savedBy (stamp at_ms now)) := by
  obtain ⟨shelf, found, lists⟩ := lists_pushed (by decide) mirrors.rescued
    (⟨safeCopy 48 world, safeCopy 40 name, safeCopy 40 savedBy, stamp at_ms now⟩ : Fallen)
  have worlds : ∀ row ∈ ((⟨safeCopy 48 world, safeCopy 40 name, safeCopy 40 savedBy,
      stamp at_ms now⟩ : Fallen) :: h.rescued).take 200 ++ h.fallen,
      safeCopy 48 row.world = row.world := by
    intro row member
    rcases List.mem_append.mp member with rescued | fallen
    · exact worlds_pushed (fun row old => mirrors.worlds row (List.mem_append_left _ old)) row
        rescued
    · exact mirrors.worlds row (List.mem_append_right _ fallen)
  have rowed : Mirrors { t with stores := { t.stores with rescued := shelf } }
      { h with rescued := ((⟨safeCopy 48 world, safeCopy 40 name, safeCopy 40 savedBy,
        stamp at_ms now⟩ : Fallen) :: h.rescued).take 200 } :=
    { mirrors with rescued := lists, worlds := worlds }
  obtain ⟨s, traced, both⟩ := mirrors_record rowed world (str "rescued") (str "rescue")
    (safeCopy 256 (cstr name ++ str " freed by " ++ cstr savedBy)) (stamp at_ms now) later
  have same : stamp (stamp at_ms now) later = stamp at_ms now := if_neg timed
  rw [same, cstr_whole named, cstr_whole saviour] at both
  rw [cstr_whole named, cstr_whole saviour] at traced
  refine ⟨s, ?_, both⟩
  rw [Stores.recordRescued, found, cstr_whole named, cstr_whole saviour]
  exact traced

theorem mirrors_cast (mirrors : Mirrors t h) (world sender text : Bytes)
    (few : h.nextCast + 1 < 4294967296) :
    ∃ s, t.stores.gridcast world sender text = .ok s ∧
      Mirrors { t with stores := s } (h.gridcast world sender text) := by
  have id : nextId t.stores.nextCast = h.nextCast + 1 := by
    rw [nextId, mirrors.next]
    omega
  have slot : (nextId t.stores.nextCast + 4294967295) % 4294967296 = h.nextCast := by
    rw [id]
    omega
  have inside : h.nextCast % maxCasts < t.stores.casts.length := by
    rw [mirrors.slots]
    exact Nat.mod_lt _ (by decide)
  have listed : h.casts.length = min h.nextCast maxCasts := by
    rw [← mirrors.casts, List.length_take, mirrors.slots, mirrors.count]
    omega
  have count := mirrors.count
  refine ⟨{ t.stores with
    nextCast := h.nextCast + 1
    casts := t.stores.casts.set (h.nextCast % maxCasts)
      ⟨h.nextCast + 1, safeCopy 48 world, safeCopy 33 sender, safeCopy 240 text⟩
    castCount := if t.stores.castCount < maxCasts then t.stores.castCount + 1
      else t.stores.castCount }, ?_, { mirrors with
    slots := List.length_set.trans mirrors.slots, count := ?_, casts := ?_, next := rfl }⟩
  · rw [Stores.gridcast, slot, if_pos inside, id]
  · change (if t.stores.castCount < maxCasts then _ else _) = min (h.nextCast + 1) maxCasts
    split <;> omega
  · change (t.stores.casts.set _ _).take (if t.stores.castCount < maxCasts then _ else _) =
      if h.nextCast % 200 < h.casts.length then _ else _
    by_cases free : h.nextCast < maxCasts
    · have own : h.nextCast % maxCasts = h.nextCast := Nat.mod_eq_of_lt free
      have used : t.stores.castCount = h.nextCast := by omega
      have room : h.nextCast < t.stores.casts.length := by rwa [mirrors.slots]
      have back : ¬h.nextCast % 200 < h.casts.length := by
        rw [listed, Nat.min_eq_left (Nat.le_of_lt free)]
        exact Nat.not_lt.mpr own.ge
      rw [if_neg back, used, if_pos free, own, ← mirrors.casts, used,
        List.take_succ_eq_append_getElem (by rwa [List.length_set]), List.getElem_set_self,
        List.take_set_of_le (Nat.le_refl _)]
    · have full : t.stores.castCount = maxCasts := by omega
      have within : h.nextCast % 200 < h.casts.length := by
        rw [listed, Nat.min_eq_right (Nat.not_lt.mp free)]
        exact Nat.mod_lt _ (by decide)
      rw [if_pos within, full, if_neg (Nat.lt_irrefl _), ← mirrors.casts, full, List.take_set]
      rfl

theorem mirrors_prune (mirrors : Mirrors t h) : Mirrors t.prune h.prune := by
  have traces := mirrors.traces
  have swept := Sweep.sweep_keeps (fun row : Trace => pruneKindAmbient row.kind)
    t.stores.traces.count 0 0 t.stores.traces.slots (Nat.le_refl 0)
    (by rw [Nat.zero_add, traces.sized]; exact traces.used)
  simp only [List.drop_zero, List.take_zero, List.nil_append, Nat.zero_add] at swept
  have rows : t.stores.traces.slots.take t.stores.traces.count = h.traces := traces.rows
  rw [rows] at swept
  refine { mirrors with traces := ⟨(sweep_length ..).trans traces.sized, ?_, swept.1⟩ }
  have fewer := List.length_filter_le (fun row : Trace => !pruneKindAmbient row.kind) h.traces
  have size := lists_length traces
  have used := traces.used
  change (Sweep.sweep _ _ 0 0 _).2 ≤ _
  rw [swept.2]
  omega

theorem mirrors_shift (mirrors : Mirrors t h) {delta : Int}
    (short : -2147483548 ≤ delta ∧ delta ≤ 2147483547) :
    Mirrors (t.shiftTide delta) (h.shiftTide delta) := by
  obtain ⟨same, low, high⟩ := mirrors.tide
  have word : toInt32 (t.tide + delta) = h.tide + delta := by
    rw [toInt32, same]
    omega
  refine { mirrors with tide := ⟨?_, ?_⟩ }
  · change LocalHub.clampTide (toInt32 (t.tide + delta)) = LocalHub.clampTide (h.tide + delta)
    rw [word]
  · change -100 ≤ LocalHub.clampTide (h.tide + delta) ∧ LocalHub.clampTide (h.tide + delta) ≤ 100
    unfold LocalHub.clampTide
    split
    · decide
    · split
      · decide
      · omega

theorem upon_casts (h : LocalHub) (call : HubCall) :
    (call.upon h).nextCast = h.nextCast + HubCall.casts [call] := by
  cases call with
  | record r => cases r <;> rfl
  | prune => rfl
  | shift => rfl

theorem call_mirrors (mirrors : Mirrors t h) {call : HubCall} (fit : call.Fit)
    (few : h.nextCast + HubCall.casts [call] < 4294967296) :
    ∃ t', call.into t = .ok t' ∧ Mirrors t' (call.upon h) := by
  have recorded {r : Record} {h' : LocalHub} (done : ∃ s, r.into t.stores = .ok s ∧
      Mirrors { t with stores := s } h') :
      ∃ t', HubCall.into t (.record r) = .ok t' ∧ Mirrors t' h' := by
    obtain ⟨s, found, both⟩ := done
    refine ⟨_, ?_, both⟩
    rw [HubCall.into, found]
    rfl
  cases call with
  | record r =>
    cases r with
    | trace world node kind text at_ms now =>
      exact recorded (mirrors_record mirrors world node kind text at_ms now)
    | echo node kind text now => exact recorded (mirrors_echo mirrors node kind text now)
    | fallen world name room at_ms now =>
      exact recorded (mirrors_fallen mirrors world name room at_ms now)
    | rescued world name savedBy at_ms now later =>
      obtain ⟨named, saviour, timed⟩ := fit
      exact recorded
        (mirrors_rescued mirrors world name savedBy at_ms now later named saviour timed)
    | cast world sender text => exact recorded (mirrors_cast mirrors world sender text few)
  | prune => exact ⟨_, rfl, mirrors_prune mirrors⟩
  | shift delta => exact ⟨_, rfl, mirrors_shift mirrors fit⟩

theorem casts_later (calls later : List HubCall) :
    HubCall.casts (calls ++ later) = HubCall.casts calls + HubCall.casts later := by
  induction calls with
  | nil => exact (Nat.zero_add _).symm
  | cons call calls ih =>
    cases call with
    | record r =>
      cases r with
      | cast =>
        simp only [List.cons_append, HubCall.casts, ih]
        omega
      | _ => exact ih
    | prune => exact ih
    | shift => exact ih

theorem calls_mirror (calls : List HubCall) (fit : ∀ call ∈ calls, call.Fit)
    (few : HubCall.casts calls < 4294967296) :
    ∃ t, Machine.Reaches (fun t call => HubCall.into t call) .cleared calls t ∧
      Mirrors t (calls.foldl HubCall.upon {}) ∧
      (calls.foldl HubCall.upon {}).nextCast = HubCall.casts calls := by
  induction calls using List.reverseRecOn with
  | nil => exact ⟨_, Machine.reaches_nil _ _, mirrors_cleared, rfl⟩
  | append_singleton calls call ih =>
    rw [casts_later] at few
    obtain ⟨t, reached, mirrors, spoken⟩ :=
      ih (fun call member => fit call (List.mem_append_left _ member)) (by omega)
    obtain ⟨t', taken, both⟩ := call_mirrors mirrors
      (fit call (List.mem_append_right _ List.mem_cons_self)) (by omega)
    rw [List.foldl_append]
    refine ⟨t', Machine.reaches_snoc _ _ _ _ _ _ reached taken, both, ?_⟩
    rw [casts_later, ← spoken]
    exact upon_casts _ call

theorem recent_mirrored {rows : List Fallen} {shelf : Shelf Fallen} {cap : Nat}
    (lists : shelf.Lists cap rows) (worlds : ∀ row ∈ rows, safeCopy 48 row.world = row.world)
    (third : Nat) (limit : Int) (most : Nat) :
    Stores.copyRows shelf third (Stores.recentCount shelf.count limit most) =
      .ok ((LocalHub.recent limit most rows).map (copyRow third)) := by
  have same : firstRows limit most rows = LocalHub.recent limit most rows := by
    rw [firstRows, LocalHub.recent, List.take_take, Nat.min_comm]
  rw [recent_rows (lists_newest lists), lists.rows, same]
  refine congrArg Except.ok (List.map_congr_left fun row member => ?_)
  have there : row ∈ rows := List.mem_of_mem_take (List.mem_of_mem_take member)
  rw [Stores.cRow, copyRow, worlds row there]

theorem boot_upon (env : Env) : gridBoot env = (bootCalls env).foldl HubCall.upon {} := by
  rw [gridBoot, bootCalls]
  split
  · rfl
  · rw [List.foldl_map]
    rfl

theorem boot_records (env : Env) : (∀ call ∈ bootCalls env, call.Fit) ∧
    HubCall.casts (bootCalls env) = 0 := by
  rw [bootCalls]
  split
  · exact ⟨fun call member => absurd member List.not_mem_nil, rfl⟩
  · refine ⟨fun call member => ?_, rfl⟩
    obtain ⟨seed, _, rfl⟩ := List.mem_map.mp member
    trivial

end Mirrors

/-- Whatever is recorded, pruned and shifted from the boot on, no call leaves its table, and the
tables hold the lists of the LocalHub: what is read of them is read of the lists. -/
theorem tables_mirror (env : Env) (calls : List HubCall) (h : LocalHub)
    (made : h = calls.foldl HubCall.upon (gridBoot env)) (fit : ∀ call ∈ calls, call.Fit)
    (few : HubCall.casts calls < 4294967296) :
    ∃ t, Machine.Reaches (fun t call => HubCall.into t call) .cleared (bootCalls env ++ calls) t ∧
      t.stores.traces.rows = h.traces ∧ t.stores.echo.rows = h.echo ∧
      t.stores.rescued.rows = h.rescued ∧ t.stores.fallen.rows = h.fallen ∧
      t.stores.casts.take t.stores.castCount = h.casts ∧ t.stores.nextCast = h.nextCast ∧
      t.tide = h.tide ∧ -100 ≤ t.tide ∧ t.tide ≤ 100 ∧
      (∀ limit cap, t.stores.recentFallen limit cap =
        .ok ((LocalHub.recent limit cap h.fallen).map (copyRow 32))) ∧
      ∀ limit cap, t.stores.recentRescued limit cap =
        .ok ((LocalHub.recent limit cap h.rescued).map (copyRow 33)) := by
  obtain ⟨boot_fit, boot_casts⟩ := boot_records env
  rw [boot_upon, ← List.foldl_append] at made
  obtain ⟨t, reached, mirrors, _⟩ := calls_mirror (bootCalls env ++ calls)
    (fun call member => (List.mem_append.mp member).elim (boot_fit call) (fit call))
    (by rwa [casts_later, boot_casts, Nat.zero_add])
  rw [← made] at mirrors
  obtain ⟨same, low, high⟩ := mirrors.tide
  refine ⟨t, reached, mirrors.traces.rows, mirrors.echo.rows, mirrors.rescued.rows,
    mirrors.fallen.rows, mirrors.casts, mirrors.next, same, same ▸ low, same ▸ high, ?_, ?_⟩
  · exact recent_mirrored mirrors.fallen
      (fun row member => mirrors.worlds row (List.mem_append_right _ member)) 32
  · exact recent_mirrored mirrors.rescued
      (fun row member => mirrors.worlds row (List.mem_append_left _ member)) 33

def moxFreed : List HubCall :=
  [.record (.rescued (str "Basalt Relay") (str "Mox") (str "ada") 5 0 0), .shift 5, .prune]

theorem tables_mirror_rescue : ∃ t, Machine.Reaches (fun t call => HubCall.into t call) .cleared
      (bootCalls quietNode ++ moxFreed) t ∧
    t.stores.recentRescued 0 1 = .ok ((LocalHub.recent 0 1
      (moxFreed.foldl HubCall.upon (gridBoot quietNode)).rescued).map (copyRow 33)) := by
  have fit : ∀ call ∈ moxFreed, call.Fit := by
    intro call member
    simp only [moxFreed, List.mem_cons, List.not_mem_nil, or_false] at member
    rcases member with rfl | rfl | rfl
    · exact ⟨by decide, by decide, by decide⟩
    · exact ⟨by decide, by decide⟩
    · trivial
  obtain ⟨t, reached, _, _, _, _, _, _, _, _, _, _, rescued⟩ :=
    tables_mirror quietNode moxFreed _ rfl fit (by decide)
  exact ⟨t, reached, rescued 0 1⟩

end HollowGrid
