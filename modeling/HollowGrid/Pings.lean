import HollowGrid.Identity
import HollowGrid.Rosters

/-! The answers of ping: the echoes of a room, and the traces of other worlds. -/
namespace HollowGrid

open JsonText

/-- The echoes a bare ping is to list. The store has the newest first. -/
def echoesHere (g : Server) (c : Block) : List Trace :=
  (g.grid.echo.filter fun t => (roomId (g.blocks c).room).any fun id => t.node = str id).take 6

def acrossHeard (env : Env) (g : Server) : List Trace :=
  match pingAll env g with
  | .ok (rows, _) => rows
  | .error _ => []

/-- The first eight objects of the hub's answer. The limit it is asked for is the address
of the row buffer. -/
def hubRows (env : Env) (g : Server) : List Json :=
  match env.rpc g.asked (str "recentAcross") [.str (bootName env), .num env.pingAllBuf] with
  | some (.arr rows) => (rows.filter Json.isObject).take 8
  | _ => []

def hubTrace (row : Json) : Trace :=
  ⟨jsonStr row "world", jsonStr row "node", jsonStr row "kind", jsonStr row "text",
    jsonNum row "at" 0⟩

/-- The traces of the store that another world left, the newest first. -/
def foreign (env : Env) (rows : List Trace) : List Trace :=
  rows.filter fun t => t.world ≠ gridWorldName env

/-- The traces ping all is to list: the rows of the hub, or the newest of other worlds. -/
def acrossMeant (env : Env) (g : Server) : List Trace :=
  if env.remote then (hubRows env g).map hubTrace
  else ((foreign env g.grid.traces).filter fun t => t.world ≠ []).take 8

/-- The byte the local loop tests for an empty world is at rdi, which strcmp may have moved. -/
def byteSet (env : Env) (asked : Nat) (t : Trace) : Bool :=
  if env.clobbers asked then env.stale (asked + 1) 0 ≠ 0 else t.world ≠ []

def spared (env : Env) (asked k : Nat) (rows : List Trace) : List Trace :=
  ((rows.zipIdx k).filter fun t => byteSet env (asked + 2 * t.2) t.1).map Prod.fst

/-- The hub has no row to store; or the first eight traces whose byte is set are the first
eight whose world is not empty. -/
def Heard (env : Env) (g : Server) : Prop :=
  if env.remote then hubRows env g = []
  else (spared env g.asked 0 (foreign env g.grid.traces)).take 8 = acrossMeant env g

/- The two answers, each as its prose and its event. -/

def echoProse (xs : List Trace) : Text :=
  if xs = [] then
    lit "You key into the dead Grid. Static, a cold hum... but this " ++
      lit "node remembers nothing. Not yet. (try 'ping all')" ++ crlf
  else lit "You key into the dead Grid. Static, then it remembers:" ++ crlf ++
    (xs.map fun t => lit "  - " ++ raw t.text ++ crlf).flatten ++
    (lit "  (say 'ping all' to hear the whole network)" ++ crlf)

def echoLine (room : Option String) (xs : List Trace) : Text :=
  lit r#"@event grid.echo {"node":""# ++ escaped 80 (str (room.getD "")) ++
    lit r#"","traces":"# ++ jsonText echoJson xs ++ lit "\x7d" ++ crlf

def acrossProse (xs : List Trace) : Text :=
  if xs = [] then
    lit "The deep Grid hums, vast and empty. Nothing echoes back from " ++
      lit "the other nodes -- yet." ++ crlf
  else lit "You key past your own node, into the whole dead network. It " ++
    lit "remembers, from across the Grid:" ++ crlf ++
    (xs.map fun t => lit "  - [" ++ raw t.world ++ lit "] " ++ raw t.text ++ crlf).flatten

def acrossLine (xs : List Trace) : Text :=
  lit r#"@event grid.federation {"traces":"# ++ jsonText traceJson xs ++ lit "\x7d" ++ crlf

/-- The rows fit the buffer of the event, and the answer its own. -/
def RoomFor (cap : Nat) (json prose line : Text) : Prop :=
  json.length < cap ∧ (prose ++ line).length < 3072

instance (cap : Nat) (json prose line : Text) : Decidable (RoomFor cap json prose line) :=
  inferInstanceAs (Decidable (_ ∧ _))

def asksAll (arg : Ptr) : Bool := arg.any fun word => sameFold word (str "all")

def answerText (cap : Nat) (json prose line : Text) : Text :=
  if RoomFor cap json prose line then prose ++ line else []

def pingTold (env : Env) (g : Server) (c : Block) (arg : Ptr) : Text :=
  if asksAll arg then
    let xs := acrossHeard env g
    answerText 2048 (jsonText traceJson xs) (acrossProse xs) (acrossLine xs)
  else
    let xs := echoesHere g c
    answerText 1536 (jsonText echoJson xs) (echoProse xs) (echoLine (roomId (g.blocks c).room) xs)

def pingAdded (env : Env) (g : Server) (c : Block) (arg : Ptr) : Text :=
  match cmdPing env c arg g with
  | .ok (_, g') => (g'.blocks c).outbox.drop (g.blocks c).outbox.length
  | .error _ => []

def outboxFree (g : Server) (c : Block) : Nat := outCap - (g.blocks c).outbox.length

def EchoWhole (t : Trace) : Prop := slotString 32 t.kind = t.kind ∧ slotString 220 t.text = t.text

def TraceWhole (t : Trace) : Prop :=
  slotString 64 t.world = t.world ∧ slotString 80 t.node = t.node ∧ EchoWhole t

def EchoSlots (t : Trace) : Prop := escapeSize t.kind ≤ 31 ∧ escapeSize t.text ≤ 219

def TraceSlots (t : Trace) : Prop :=
  escapeSize t.world ≤ 63 ∧ escapeSize t.node ≤ 79 ∧ EchoSlots t

def echoValue (t : Trace) : Value :=
  .obj [(str "kind", .str t.kind), (str "text", .str t.text), (str "at", .num t.at_ms)]

def traceValue (t : Trace) : Value :=
  .obj [(str "world", .str t.world), (str "node", .str t.node), (str "kind", .str t.kind),
    (str "text", .str t.text), (str "at", .num t.at_ms)]

/-- A ping empties no string, and adds its prose and the event that lists what it is to list. -/
def PingRight (env : Env) (g : Server) (c : Block) (arg : Ptr) : Prop :=
  if asksAll arg then
    (∀ t ∈ acrossHeard env g, TraceWhole t) ∧ ∃ evt,
      pingAdded env g c arg = acrossProse (acrossHeard env g) ++ evt ∧
      EventLine "grid.federation" evt [(str "traces", .arr ((acrossMeant env g).map traceValue))]
  else
    (∀ t ∈ echoesHere g c, EchoWhole t) ∧ ∃ evt,
      pingAdded env g c arg = echoProse (echoesHere g c) ++ evt ∧
      EventLine "grid.echo" evt [(str "node", .str (str ((roomId (g.blocks c).room).getD ""))),
        (str "traces", .arr ((echoesHere g c).map echoValue))]

/-- The strings fit their slots, and the rows and the answer their buffers and the outbox; and
ping all comes by the traces it is to list. -/
def PingFits (env : Env) (g : Server) (c : Block) (arg : Ptr) : Prop :=
  if asksAll arg then
    let xs := acrossMeant env g
    Heard env g ∧ (∀ t ∈ xs, TraceSlots t) ∧
      RoomFor 2048 (jsonText traceJson xs) (acrossProse xs) (acrossLine xs) ∧
      (acrossProse xs ++ acrossLine xs).length ≤ outboxFree g c
  else
    let xs := echoesHere g c
    let line := echoLine (roomId (g.blocks c).room) xs
    (∀ t ∈ xs, EchoSlots t) ∧ RoomFor 1536 (jsonText echoJson xs) (echoProse xs) line ∧
      (echoProse xs ++ line).length ≤ outboxFree g c

section Pings

variable {env : Env} {g : Server} {c : Block} {arg : Ptr}

theorem spared_cons (env : Env) (asked k : Nat) (t : Trace) (rows : List Trace) :
    spared env asked k (t :: rows) =
      if byteSet env (asked + 2 * k) t then t :: spared env asked (k + 1) rows
      else spared env asked (k + 1) rows := by
  rw [spared, List.zipIdx_cons, List.filter_cons]
  split <;> rfl

theorem local_run (env : Env) (n k : Nat) (rows : List Trace) (g : Server) {start : Nat}
    (now : g.asked = start + 2 * k) : ∃ asked, pingAllLocal env n rows g =
      .ok ((spared env start k (foreign env rows)).take n, { g with asked := asked }) := by
  induction rows generalizing n k g with
  | nil => cases n <;> exact ⟨g.asked, rfl⟩
  | cons t rest ih =>
    cases n with
    | zero => exact ⟨g.asked, rfl⟩
    | succ n =>
      by_cases own : t.world = gridWorldName env
      · obtain ⟨asked, ran⟩ := ih (n + 1) k g now
        refine ⟨asked, ?_⟩
        rw [pingAllLocal, if_pos own, ran, foreign, foreign, List.filter_cons_of_neg (by simp [own])]
      · let later : Server := { g with asked := g.asked + 2 }
        have moved : ask env.clobbers g =
            .ok (env.clobbers g.asked, { g with asked := g.asked + 1 }) := rfl
        have memory : ask env.stale { g with asked := g.asked + 1 } =
            .ok (env.stale (g.asked + 1), later) := rfl
        have then_now : later.asked = start + 2 * (k + 1) := by
          change g.asked + 2 = _
          omega
        have front : foreign env (t :: rest) = t :: foreign env rest :=
          List.filter_cons_of_pos (by simp [own])
        have tested : byteSet env (start + 2 * k) t = true ↔
            ¬(if env.clobbers g.asked then env.stale (g.asked + 1) 0 = 0 else t.world = []) := by
          rw [← now, byteSet]
          cases env.clobbers g.asked <;> simp
        rw [pingAllLocal, if_neg own, bind_ok moved, bind_ok memory, front, spared_cons]
        by_cases skipped : (if env.clobbers g.asked then env.stale (g.asked + 1) 0 = 0
            else t.world = [])
        · obtain ⟨asked, ran⟩ := ih (n + 1) (k + 1) later then_now
          refine ⟨asked, ?_⟩
          rw [if_pos skipped, if_neg fun set => tested.mp set skipped, ran]
        · obtain ⟨asked, ran⟩ := ih n (k + 1) later then_now
          rw [if_neg skipped, if_pos (tested.mpr skipped), bind_ok ran]
          exact ⟨asked, rfl⟩

/-- Where strcmp leaves rdi alone, the right traces are heard. -/
theorem kept_heard {g : Server} (near : env.remote = false) (kept : ∀ k, env.clobbers k = false) :
    Heard env g := by
  have tested (asked : Nat) (t : Trace) : byteSet env asked t = decide (t.world ≠ []) := by
    rw [byteSet, kept]
    rfl
  have same (rows : List Trace) : spared env g.asked 0 rows =
      rows.filter fun t => t.world ≠ [] := by
    simp only [spared, tested]
    have back : (rows.zipIdx.map Prod.fst).filter (fun t => t.world ≠ []) = _ := List.filter_map
    rw [List.zipIdx_map_fst] at back
    exact back.symm
  rw [Heard, acrossMeant, if_neg (by simp [near]), if_neg (by simp [near]), same]

theorem remote_run (far : env.remote = true) : pingAll env g =
    if hubRows env g = [] then .ok ([], { g with asked := g.asked + 1 })
    else .error .outOfBounds := by
  have answered : rpcCall env "recentAcross" [.str (bootName env), .num env.pingAllBuf] g =
      .ok (env.rpc g.asked (str "recentAcross") [.str (bootName env), .num env.pingAllBuf],
        { g with asked := g.asked + 1 }) := by
    rw [rpcCall, if_pos far]
    rfl
  have found : (traceRows (env.rpc g.asked (str "recentAcross")
      [.str (bootName env), .num env.pingAllBuf]) 8).getD [] = (hubRows env g).map traceRow := by
    rw [hubRows]
    generalize env.rpc g.asked (str "recentAcross") [.str (bootName env), .num env.pingAllBuf] = told
    rcases told with _ | ⟨_ | _ | _ | _ | _ | _⟩ <;> rfl
  have stored : gridFetchRecentAcross env env.pingAllBuf 8 8 g = storeTraces 8 (traceRows
      (env.rpc g.asked (str "recentAcross") [.str (bootName env), .num env.pingAllBuf]) 8)
      { g with asked := g.asked + 1 } := by
    rw [gridFetchRecentAcross, if_neg (by decide), if_pos far, bind_ok answered]
  generalize traceRows (env.rpc g.asked (str "recentAcross")
    [.str (bootName env), .num env.pingAllBuf]) 8 = rows at found stored
  rw [pingAll, if_pos far]
  by_cases empty : hubRows env g = []
  · rw [empty, List.map_nil] at found
    have kept : storeTraces 8 rows { g with asked := g.asked + 1 } =
        .ok (rows, { g with asked := g.asked + 1 }) := by
      rw [storeTraces, if_neg fun some_row => some_row.1 found]
      rfl
    rw [if_pos empty, bind_ok (stored.trans kept), found]
    rfl
  · have some_row : rows.getD [] ≠ [] ∧ 8 < pageSize := by
      rw [found]
      exact ⟨fun gone => empty (List.map_eq_nil_iff.mp gone), by decide⟩
    have faulted : storeTraces 8 rows { g with asked := g.asked + 1 } = .error .outOfBounds := by
      rw [storeTraces, if_pos some_row]
      rfl
    rw [if_neg empty]
    simp only [Bind.bind, StateT.bind, Except.bind, stored.trans faulted]

theorem local_pings (near : env.remote = false) : ∃ asked, pingAll env g =
    .ok ((spared env g.asked 0 (foreign env g.grid.traces)).take 8, { g with asked := asked }) := by
  obtain ⟨asked, found⟩ := local_run env 8 0 g.grid.traces g (Nat.add_zero _).symm
  refine ⟨asked, ?_⟩
  rw [pingAll, if_neg (by simp [near]), bind_ok (rfl : getGrid g = .ok (g.grid, g))]
  exact found

def NoRow (env : Env) (g : Server) : Prop := env.remote = true → hubRows env g = []

instance : Decidable (NoRow env g) := inferInstanceAs (Decidable (_ → _))

theorem across_heard (env : Env) (g : Server) : acrossHeard env g =
    if env.remote then [] else (spared env g.asked 0 (foreign env g.grid.traces)).take 8 := by
  cases far : env.remote with
  | true =>
    rw [acrossHeard, remote_run far]
    by_cases empty : hubRows env g = []
    · rw [if_pos empty]
      rfl
    · rw [if_neg empty]
      rfl
  | false =>
    obtain ⟨asked, ran⟩ := local_pings (g := g) far
    rw [acrossHeard, ran]
    rfl

theorem across_run (ends : NoRow env g) :
    ∃ asked, pingAll env g = .ok (acrossHeard env g, { g with asked := asked }) := by
  rw [across_heard]
  cases far : env.remote with
  | true => exact ⟨g.asked + 1, by rw [remote_run far, if_pos (ends far)]; rfl⟩
  | false => exact local_pings far

theorem across_faults (row : ¬NoRow env g) : pingAll env g = .error .outOfBounds := by
  obtain ⟨far, some_row⟩ := Classical.not_imp.mp row
  rw [remote_run far, if_neg some_row]

theorem heard_iff (env : Env) (g : Server) :
    acrossHeard env g = acrossMeant env g ↔ Heard env g := by
  rw [across_heard, Heard]
  cases far : env.remote with
  | true =>
    simp only [acrossMeant, far, if_true]
    rw [eq_comm, List.map_eq_nil_iff]
  | false => simp only [Bool.false_eq_true, if_false]

theorem echo_answer (room : Option String) (xs : List Trace) : fmtGridPingEcho 3072 room xs =
    if RoomFor 1536 (jsonText echoJson xs) (echoProse xs) (echoLine room xs) then
      some (echoProse xs ++ echoLine room xs)
    else none := by
  rw [fmtGridPingEcho, fmt_json]
  by_cases fits : (jsonText echoJson xs).length < 1536
  · rw [if_pos fits]
    change fmtAppendAll 3072 [] _ = _
    rw [append_all 3072 [] _ (by simp)]
    have same : [] ++ ((if xs = [] then
        [lit "You key into the dead Grid. Static, a cold hum... but this " ++
          lit "node remembers nothing. Not yet. (try 'ping all')" ++ crlf]
      else
        (lit "You key into the dead Grid. Static, then it remembers:" ++ crlf) ::
          xs.map (fun t => lit "  - " ++ raw t.text ++ crlf) ++
          [lit "  (say 'ping all' to hear the whole network)" ++ crlf]) ++
      [lit r#"@event grid.echo {"node":""# ++ escaped 80 (str (room.getD "")) ++
        lit r#"","traces":"# ++ jsonText echoJson xs ++ lit "\x7d" ++ crlf]).flatten =
        echoProse xs ++ echoLine room xs := by
      by_cases none_here : xs = []
      · simp [echoProse, echoLine, none_here]
      · simp [echoProse, echoLine, none_here]
    rw [same]
    simp only [RoomFor, fits, true_and]
  · have spilt : ¬RoomFor 1536 (jsonText echoJson xs) (echoProse xs) (echoLine room xs) :=
      fun held => fits held.1
    rw [if_neg fits, if_neg spilt]
    rfl

theorem across_answer (xs : List Trace) : fmtGridPingAll 3072 xs =
    if RoomFor 2048 (jsonText traceJson xs) (acrossProse xs) (acrossLine xs) then
      some (acrossProse xs ++ acrossLine xs)
    else none := by
  by_cases silent : xs = []
  · subst silent
    decide +kernel
  rw [fmtGridPingAll, if_neg silent, fmt_json]
  by_cases fits : (jsonText traceJson xs).length < 2048
  · rw [if_pos fits]
    change fmtAppendAll 3072 [] _ = _
    rw [append_all 3072 [] _ (by simp)]
    have same : [] ++ ((lit "You key past your own node, into the whole dead network. It " ++
          lit "remembers, from across the Grid:" ++ crlf) ::
        xs.map (fun t => lit "  - [" ++ raw t.world ++ lit "] " ++ raw t.text ++ crlf) ++
        [lit r#"@event grid.federation {"traces":"# ++ jsonText traceJson xs ++ lit "\x7d" ++
          crlf]).flatten = acrossProse xs ++ acrossLine xs := by
      simp [acrossProse, acrossLine, silent]
    rw [same]
    simp only [RoomFor, fits, true_and]
  · have spilt : ¬RoomFor 2048 (jsonText traceJson xs) (acrossProse xs) (acrossLine xs) :=
      fun held => fits held.1
    rw [if_neg fits, if_neg spilt]
    rfl

theorem ping_run (c : Block) (ends : asksAll arg = true → NoRow env g) : ∃ asked,
    cmdPing env c arg g = queue c (pingTold env g c arg) { g with asked := asked } := by
  rw [cmdPing, pingTold]
  cases all : asksAll arg with
  | true =>
    obtain ⟨asked, ran⟩ := across_run (ends all)
    refine ⟨asked, ?_⟩
    have wide : (arg.any fun word => sameFold word (str "all")) = true := all
    rw [if_pos wide, bind_ok ran, across_answer]
    simp only [if_true, answerText]
    split <;> rfl
  | false =>
    refine ⟨g.asked, ?_⟩
    have bare : ¬(arg.any fun word => sameFold word (str "all")) = true := by
      change ¬asksAll arg = true
      simp [all]
    rw [if_neg bare]
    change queue c ((fmtGridPingEcho 3072 (roomId (g.blocks c).room) (echoesHere g c)).getD []) g = _
    rw [echo_answer]
    simp only [Bool.false_eq_true, if_false, answerText]
    split <;> rfl

theorem ping_added (c : Block) (ends : asksAll arg = true → NoRow env g) :
    pingAdded env g c arg = (pingTold env g c arg).take (outboxFree g c) := by
  obtain ⟨asked, ran⟩ := ping_run c ends
  rw [pingAdded, ran]
  change ((({ g with asked := asked }.queued c (pingTold env g c arg)).blocks c).outbox.drop
    (g.blocks c).outbox.length) = _
  rw [Server.queued, Server.setBlock_own]
  exact List.drop_left

/-- A row of the hub stops the server in the middle of the command. -/
theorem ping_faults (c : Block) (all : asksAll arg = true) (row : ¬NoRow env g) :
    cmdPing env c arg g = .error .outOfBounds := by
  have wide : (arg.any fun word => sameFold word (str "all")) = true := all
  rw [cmdPing, if_pos wide]
  simp only [Bind.bind, StateT.bind, Except.bind, across_faults row]

theorem across_prose_some (xs : List Trace) : acrossProse xs ≠ [] := by
  unfold acrossProse
  split <;> simp [lit, str]

def echoMembers (t : Trace) : List Member :=
  [slotField "kind" 32 t.kind, slotField "text" 220 t.text, numberMember "at" t.at_ms]

def traceMembers (t : Trace) : List Member :=
  [slotField "world" 64 t.world, slotField "node" 80 t.node, slotField "kind" 32 t.kind,
    slotField "text" 220 t.text, numberMember "at" t.at_ms]

theorem echo_bytes (t : Trace) : bytes (echoJson t) = objectText (echoMembers t) := by
  unfold echoJson
  simp only [bytes_join, bytes_lit, bytes_number, escaped_bytes]
  simp [str, objectText, echoMembers, Member.body, slotField, numberMember]

theorem trace_bytes (t : Trace) : bytes (traceJson t) = objectText (traceMembers t) := by
  unfold traceJson
  simp only [bytes_join, bytes_lit, bytes_number, escaped_bytes]
  simp [str, objectText, traceMembers, Member.body, slotField, numberMember]

theorem echo_legible (t : Trace) : ∀ m ∈ echoMembers t, Legible 1 m := by
  simp only [echoMembers, List.forall_mem_cons, List.not_mem_nil, false_implies, implies_true,
    and_true]
  exact ⟨slot_legible (by decide) 32 t.kind (by decide),
    slot_legible (by decide) 220 t.text (by decide), number_legible (by decide) t.at_ms (by decide)⟩

theorem trace_legible (t : Trace) : ∀ m ∈ traceMembers t, Legible 1 m := by
  simp only [traceMembers, List.forall_mem_cons, List.not_mem_nil, false_implies, implies_true,
    and_true]
  exact ⟨slot_legible (by decide) 64 t.world (by decide),
    slot_legible (by decide) 80 t.node (by decide), slot_legible (by decide) 32 t.kind (by decide),
    slot_legible (by decide) 220 t.text (by decide), number_legible (by decide) t.at_ms (by decide)⟩

theorem echo_whole_iff (t : Trace) : EchoWhole t ↔ EchoSlots t := by
  simp only [EchoWhole, EchoSlots, slot_string_iff (by decide : 0 < 32),
    slot_string_iff (by decide : 0 < 220)]
  omega

theorem trace_whole_iff (t : Trace) : TraceWhole t ↔ TraceSlots t := by
  simp only [TraceWhole, TraceSlots, slot_string_iff (by decide : 0 < 64),
    slot_string_iff (by decide : 0 < 80), echo_whole_iff]
  exact and_congr (by omega) (and_congr (by omega) Iff.rfl)

theorem echo_value {t : Trace} (slots : EchoSlots t) :
    Value.obj ((echoMembers t).map fun m => (m.key, m.value)) = echoValue t := by
  obtain ⟨kind, text⟩ := slots
  simp [echoMembers, echoValue, slotField, numberMember,
    slot_whole (show escapeSize t.kind + 1 ≤ 32 by omega),
    slot_whole (show escapeSize t.text + 1 ≤ 220 by omega)]

theorem trace_value {t : Trace} (slots : TraceSlots t) :
    Value.obj ((traceMembers t).map fun m => (m.key, m.value)) = traceValue t := by
  obtain ⟨world, node, kind, text⟩ := slots
  simp [traceMembers, traceValue, slotField, numberMember,
    slot_whole (show escapeSize t.world + 1 ≤ 64 by omega),
    slot_whole (show escapeSize t.node + 1 ≤ 80 by omega),
    slot_whole (show escapeSize t.kind + 1 ≤ 32 by omega),
    slot_whole (show escapeSize t.text + 1 ≤ 220 by omega)]

theorem trace_injective : Function.Injective traceValue := by
  intro t u same
  cases t
  cases u
  simp only [traceValue, Value.obj.injEq, List.cons.injEq, Prod.mk.injEq, Value.str.injEq,
    Value.num.injEq, true_and, and_true] at same
  obtain ⟨rfl, rfl, rfl, rfl, rfl⟩ := same
  rfl

theorem taken_iff {name : String} {line : Text} {members : List Member} {n : Nat} (k : Nat)
    (fields : List (Bytes × Value)) (named : (str name).count 10 = 0) (some_member : members ≠ [])
    (legible : ∀ m ∈ members, Legible n m)
    (same : bytes line = str "@event " ++ str name ++ [32] ++ objectText members ++ [13, 10])
    (long : max n members.length ≤ (objectText members).length) :
    EventLine name (line.take k) fields ↔
      line.length ≤ k ∧ members.map (fun m => (m.key, m.value)) = fields := by
  have event := composed_iff (k + 1) fields named some_member legible same long
  rw [Nat.lt_succ_iff] at event
  exact event

theorem added_iff {cap free : Nat} {json prose line : Text} {name : String}
    {fields : List (Bytes × Value)}
    (cut : ∀ k, EventLine name (line.take k) fields → line.length ≤ k) :
    (∃ evt, (answerText cap json prose line).take free = prose ++ evt ∧
      EventLine name evt fields) ↔
    RoomFor cap json prose line ∧ (prose ++ line).length ≤ free ∧ EventLine name line fields := by
  unfold answerText
  constructor
  · rintro ⟨evt, added, event⟩
    have filled : 0 < evt.length := by
      obtain ⟨body, same, _⟩ := event
      have size := congrArg List.length same
      simp only [bytes, List.length_map, List.length_append, List.length_cons] at size
      omega
    have size := congrArg List.length added
    split at added
    · rename_i room
      rw [if_pos room] at size
      rw [List.take_append] at added
      simp only [List.length_take, List.length_append] at size
      rw [List.take_of_length_le (by omega), List.append_cancel_left_eq] at added
      rw [← added] at event
      have whole := cut _ event
      rw [List.take_of_length_le whole] at event
      refine ⟨room, ?_, event⟩
      rw [List.length_append]
      omega
    · rename_i spilt
      rw [if_neg spilt, List.take_nil, List.length_append, List.length_nil] at size
      omega
  · rintro ⟨room, free, event⟩
    rw [if_pos room, List.take_of_length_le free]
    exact ⟨line, rfl, event⟩

theorem room_id_fits (room : Int) : escapeSize (str ((roomId room).getD "")) + 1 ≤ 80 := by
  have ids : ∀ r ∈ rooms, escapeSize (str r.id) + 1 ≤ 80 := by decide +kernel
  rcases room_known room with none | ⟨r, member, same⟩
  · rw [roomId, none]
    decide
  · rw [roomId, same]
    exact ids r member

theorem echo_line_bytes (room : Option String) (xs : List Trace) :
    bytes (echoLine room xs) = str "@event " ++ str "grid.echo" ++ [32] ++
      objectText [slotField "node" 80 (str (room.getD "")),
        rowsField "traces" (xs.map echoMembers)] ++ [13, 10] := by
  unfold echoLine
  generalize str (room.getD "") = id
  simp only [bytes_join, bytes_lit, escaped_bytes, rows_bytes fun t _ => echo_bytes t, crlf]
  simp [str, objectText, Member.body, slotField, rowsField]

theorem across_line_bytes (xs : List Trace) :
    bytes (acrossLine xs) = str "@event " ++ str "grid.federation" ++ [32] ++
      objectText [rowsField "traces" (xs.map traceMembers)] ++ [13, 10] := by
  unfold acrossLine
  simp only [bytes_join, bytes_lit, rows_bytes fun t _ => trace_bytes t, crlf]
  simp [str, objectText, Member.body, rowsField]

theorem echo_event (room : Int) {xs : List Trace} (slots : ∀ t ∈ xs, EchoSlots t)
    (few : xs.length ≤ 6) (k : Nat) : EventLine "grid.echo" ((echoLine (roomId room) xs).take k)
      [(str "node", .str (str ((roomId room).getD ""))), (str "traces", .arr (xs.map echoValue))] ↔
      (echoLine (roomId room) xs).length ≤ k := by
  let members : List Member := [slotField "node" 80 (str ((roomId room).getD "")),
    rowsField "traces" (xs.map echoMembers)]
  have rows : Legible 8 (rowsField "traces" (xs.map echoMembers)) := by
    refine rows_legible (by decide) (fun row listed => ?_) (fun row listed => ?_)
      (by decide : 1 ≤ 3) (by simp; omega)
    · obtain ⟨t, _, rfl⟩ := List.mem_map.mp listed
      simp [echoMembers]
    · obtain ⟨t, _, rfl⟩ := List.mem_map.mp listed
      exact echo_legible t
  have legible : ∀ m ∈ members, Legible 8 m := by
    simp only [members, List.forall_mem_cons, List.not_mem_nil, false_implies, implies_true,
      and_true]
    exact ⟨slot_legible (by decide) 80 _ (by decide), rows⟩
  have long : max 8 members.length ≤ (objectText members).length := by
    simp [members, objectText, List.intercalate, Member.body, rowsField, slotField, str]
  refine (taken_iff k _ (by decide) (by simp [members]) legible
    (echo_line_bytes (roomId room) xs) long).trans (and_iff_left ?_)
  have read : rowsValue (xs.map echoMembers) = .arr (xs.map echoValue) := by
    simp only [rowsValue, List.map_map, Value.arr.injEq]
    exact List.map_congr_left fun t member => echo_value (slots t member)
  simp [members, rowsField, slotField, slot_whole (room_id_fits room), read]

theorem across_event {xs : List Trace} (fields : List (Bytes × Value))
    (slots : ∀ t ∈ xs, TraceSlots t) (few : xs.length ≤ 8) (k : Nat) :
    EventLine "grid.federation" ((acrossLine xs).take k) fields ↔
      (acrossLine xs).length ≤ k ∧ [(str "traces", Value.arr (xs.map traceValue))] = fields := by
  let members : List Member := [rowsField "traces" (xs.map traceMembers)]
  have legible : ∀ m ∈ members, Legible 9 m := by
    simp only [members, List.forall_mem_cons, List.not_mem_nil, false_implies, implies_true,
      and_true]
    refine rows_legible (by decide) (fun row listed => ?_) (fun row listed => ?_)
      (by decide : 1 ≤ 5) (by simp; omega)
    · obtain ⟨t, _, rfl⟩ := List.mem_map.mp listed
      simp [traceMembers]
    · obtain ⟨t, _, rfl⟩ := List.mem_map.mp listed
      exact trace_legible t
  have long : max 9 members.length ≤ (objectText members).length := by
    simp [members, objectText, List.intercalate, Member.body, rowsField, str]
  refine (taken_iff k fields (by decide) (by simp [members]) legible
    (across_line_bytes xs) long).trans ?_
  have read : rowsValue (xs.map traceMembers) = .arr (xs.map traceValue) := by
    simp only [rowsValue, List.map_map, Value.arr.injEq]
    exact List.map_congr_left fun t member => trace_value (slots t member)
  simp [members, rowsField, read]

theorem across_few (env : Env) (g : Server) : (acrossHeard env g).length ≤ 8 := by
  rw [across_heard]
  split
  · exact Nat.zero_le 8
  · exact List.length_take_le ..

theorem across_right_iff (env : Env) (g : Server) (free : Nat) :
    ((∀ t ∈ acrossHeard env g, TraceWhole t) ∧ ∃ evt,
      (answerText 2048 (jsonText traceJson (acrossHeard env g)) (acrossProse (acrossHeard env g))
        (acrossLine (acrossHeard env g))).take free = acrossProse (acrossHeard env g) ++ evt ∧
      EventLine "grid.federation" evt
        [(str "traces", .arr ((acrossMeant env g).map traceValue))]) ↔
    Heard env g ∧ (∀ t ∈ acrossMeant env g, TraceSlots t) ∧
      RoomFor 2048 (jsonText traceJson (acrossMeant env g)) (acrossProse (acrossMeant env g))
        (acrossLine (acrossMeant env g)) ∧
      (acrossProse (acrossMeant env g) ++ acrossLine (acrossMeant env g)).length ≤ free := by
  have few := across_few env g
  have heard := heard_iff env g
  simp only [trace_whole_iff]
  generalize acrossHeard env g = xs at few heard ⊢
  generalize acrossMeant env g = ys at heard ⊢
  constructor
  · rintro ⟨slots, added⟩
    obtain ⟨room, free, event⟩ := (added_iff fun k event =>
      ((across_event _ slots few k).mp event).1).mp added
    rw [← List.take_length (l := acrossLine xs)] at event
    have same := ((across_event _ slots few _).mp event).2
    simp only [List.cons.injEq, Prod.mk.injEq, Value.arr.injEq, true_and, and_true] at same
    obtain rfl := List.map_injective_iff.mpr trace_injective same
    exact ⟨heard.mp rfl, slots, room, free⟩
  · rintro ⟨right, slots, room, free⟩
    obtain rfl := heard.mpr right
    refine ⟨slots, (added_iff fun k event => ((across_event _ slots few k).mp event).1).mpr
      ⟨room, free, ?_⟩⟩
    rw [← List.take_length (l := acrossLine xs)]
    exact (across_event _ slots few _).mpr ⟨Nat.le_refl _, rfl⟩

theorem echo_right_iff (room : Int) {xs : List Trace} (few : xs.length ≤ 6) (free : Nat) :
    ((∀ t ∈ xs, EchoWhole t) ∧ ∃ evt,
      (answerText 1536 (jsonText echoJson xs) (echoProse xs) (echoLine (roomId room) xs)).take free =
        echoProse xs ++ evt ∧
      EventLine "grid.echo" evt [(str "node", .str (str ((roomId room).getD ""))),
        (str "traces", .arr (xs.map echoValue))]) ↔
    (∀ t ∈ xs, EchoSlots t) ∧
      RoomFor 1536 (jsonText echoJson xs) (echoProse xs) (echoLine (roomId room) xs) ∧
      (echoProse xs ++ echoLine (roomId room) xs).length ≤ free := by
  simp only [echo_whole_iff]
  refine and_congr_right fun slots => ?_
  have event := echo_event room slots few
  refine (added_iff fun k cut => (event k).mp cut).trans ?_
  have whole := (event (echoLine (roomId room) xs).length).mpr (Nat.le_refl _)
  rw [List.take_length] at whole
  exact and_congr_right fun _ => and_iff_left whole

end Pings

/-- A ping gives the answer that is asked for exactly when everything fits and ping all comes by
the right traces. -/
theorem ping_answers_iff (env : Env) (g : Server) (c : Block) (arg : Ptr) :
    PingRight env g c arg ↔ PingFits env g c arg := by
  unfold PingRight PingFits
  cases all : asksAll arg with
  | true =>
    simp only [if_true]
    by_cases ends : NoRow env g
    · rw [ping_added c fun _ => ends, pingTold, all]
      simp only [if_true]
      exact across_right_iff env g (outboxFree g c)
    · obtain ⟨far, some_row⟩ := Classical.not_imp.mp ends
      refine iff_of_false ?_ fun fits => ?_
      · rintro ⟨_, evt, added, _⟩
        rw [pingAdded, ping_faults c all ends] at added
        exact across_prose_some _ (List.append_eq_nil_iff.mp added.symm).1
      · have heard := fits.1
        rw [Heard, if_pos far] at heard
        exact some_row heard
  | false =>
    have bare : asksAll arg = true → NoRow env g := fun wide => absurd (all.symm.trans wide) (by decide)
    rw [ping_added c bare, pingTold, all]
    simp only [Bool.false_eq_true, if_false]
    exact echo_right_iff (g.blocks c).room (List.length_take_le ..) (outboxFree g c)

def oneRowHub : Env :=
  { quietNode with
    remote := true
    rpc := fun _ _ _ => some (.arr [.obj [(str "world", .str (str "Far Relay")),
      (str "node", .str (str "market")), (str "kind", .str (str "slain")),
      (str "text", .str (str "ada slew a rat here.")), (str "at", .num 1700000000000)]]) }

/-- The row is stored at address 8. -/
theorem hub_row_unheard : ¬ ∀ (env : Env) (g : Server) (c : Block) (arg : Ptr),
    PingRight env g c arg := by
  intro always
  let g : Server := { blocks := fun _ => { room := roomNexus }, disk := fun _ => none }
  have right := always oneRowHub g 0 (some (str "all"))
  have row : ¬NoRow oneRowHub g := by decide +kernel
  rw [PingRight, if_pos (by decide), pingAdded, ping_faults 0 (by decide) row] at right
  obtain ⟨_, evt, added, _⟩ := right
  exact across_prose_some _ (List.append_eq_nil_iff.mp added.symm).1

end HollowGrid
