import HollowGrid.Unanswered

/-! The two commands that queue a local buffer by what snprintf returned: how much of it was
formatted, and how much is sent. -/
namespace HollowGrid

/-- A buffer and the whole text that was to be formatted in it. -/
structure Handing where
  cap : Nat
  text : Text

namespace Handing

/-- What snprintf returned, which is the length the queue is handed. -/
def count (h : Handing) : Nat := h.text.length

/-- The text that stands in the buffer before its NUL. -/
def formatted (h : Handing) : Text := snprintf h.cap h.text

/-- No byte past the formatted text is handed on. -/
def Bounded (h : Handing) : Prop := h.count ≤ h.formatted.length

end Handing

inductive TravelReply
  | unreachable
  | missing (target : Bytes)
  | here (world : Bytes)
  | handoff (id url idesc udesc : Text)

namespace TravelReply

def text : TravelReply → Text
  | unreachable => fmtGridTravelUnreachable
  | missing target => fmtGridTravelMissing target
  | here world => fmtGridTravelHere world
  | handoff id url idesc udesc => fmtGridTravelHandoff id url idesc udesc

/-- The bytes of the strings put in, beside those of the format. -/
def inserted : TravelReply → Nat
  | unreachable => 0
  | missing target => target.length
  | here world => world.length
  | handoff id url idesc udesc => id.length + url.length + idesc.length + udesc.length

def format : TravelReply → Nat
  | unreachable => 56
  | missing _ => 56
  | here _ => 21
  | handoff .. => 129

end TravelReply

/-- The id and the url that hg_fmt_grid_travel_handoff is given. -/
def handoffReply (env : Env) (row : WorldRow) : Act TravelReply := do
  let moved ← ask env.clobbers
  if moved then do
    let first ← ask env.stale
    let second ← ask env.stale
    return .handoff (staleString first) (staleString second)
      (escaped 64 (bytes (staleString first))) (escaped 176 (bytes (staleString second)))
  else return .handoff (raw row.id) (raw row.url) (escaped 64 row.id) (escaped 176 row.url)

/-- hg_cmd_travel up to the call that formats its answer. -/
def travelReply (env : Env) (target : Bytes) : Act TravelReply := do
  let answer ← gridListWorlds env
  match answer with
  | none => return .unreachable
  | some rows => do
    let address ← ask env.scratch
    match (gridMatchWorld address rows target).bind fun i => rows[i]? with
    | none => return .missing target
    | some row =>
      if row.id = gridWorldName env then return .here (gridWorldName env)
      else handoffReply env row

/-- The quote of hg_cmd_inscribe. -/
def inscribeQuote (msg : Bytes) : Text := lit "  \"" ++ raw msg ++ lit "\"" ++ crlf

inductive BufferCommand
  | inscribe (arg : Ptr)
  | travel (target : Bytes)

namespace BufferCommand

def act (env : Env) (c : Block) : BufferCommand → Act Unit
  | inscribe arg => cmdInscribe env c arg
  | travel target => cmdTravel env c (some target)

/-- The reply of a travel with a target, as the hub answers it. -/
def reply (env : Env) (g : Server) (target : Bytes) : Option TravelReply :=
  match travelReply env target g with
  | .ok (found, _) => some found
  | .error _ => none

/-- The buffer it fills, unless it has nothing to put there. -/
def handing (env : Env) (g : Server) : BufferCommand → Option Handing
  | inscribe arg => if argument arg = [] then none else some ⟨120, inscribeQuote (argument arg)⟩
  | travel target =>
    if target = [] then none else (reply env g target).map fun found => ⟨512, found.text⟩

def around : BufferCommand → Text × Text
  | inscribe _ =>
    (lit "You press your words into the dead network, where they will outlast you:" ++ crlf,
      lit "The Grid takes them. Someone will key into this node, long after you are gone, " ++
        lit "and hear you. (try ping)" ++ crlf ++ crlf)
  | travel _ => ([], [])

/-- What is put in leaves room for the format and a NUL. -/
def Short (env : Env) (g : Server) : BufferCommand → Prop
  | inscribe arg => (argument arg).length ≤ 113
  | travel target =>
    target = [] ∨ ∀ found, reply env g target = some found → found.format + found.inserted < 512

end BufferCommand

section Overreads

variable {env : Env} {c : Block} {g : Server}

theorem bounded_iff {cap : Nat} (room : 0 < cap) (t : Text) :
    Handing.Bounded ⟨cap, t⟩ ↔ t.length < cap := by
  simp only [Handing.Bounded, Handing.count, Handing.formatted, snprintf, List.length_take]
  omega

theorem raw_length (b : Bytes) : (raw b).length = b.length := List.length_map _

theorem quote_length (msg : Bytes) : (inscribeQuote msg).length = msg.length + 6 := by
  have quotes : (lit "  \"").length = 3 ∧ (lit "\"").length = 1 ∧ crlf.length = 2 :=
    ⟨length_lit _, length_lit _, length_lit _⟩
  simp only [inscribeQuote, List.length_append, raw_length, quotes]
  omega

theorem reply_length (found : TravelReply) : found.text.length = found.format + found.inserted := by
  have ends : crlf.length = 2 := length_lit _
  cases found with
  | unreachable => decide
  | missing target =>
    have parts : (lit "No world called \"").length = 17 ∧
      (lit "\" answers on the Grid. (try 'worlds')").length = 37 := ⟨length_lit _, length_lit _⟩
    simp only [TravelReply.text, TravelReply.format, TravelReply.inserted, fmtGridTravelMissing,
      List.length_append, raw_length, parts, ends]
    omega
  | here world =>
    have parts : (lit "You're already in ").length = 18 ∧ (lit ".").length = 1 :=
      ⟨length_lit _, length_lit _⟩
    simp only [TravelReply.text, TravelReply.format, TravelReply.inserted, fmtGridTravelHere,
      List.length_append, raw_length, parts, ends]
    omega
  | handoff id url idesc udesc =>
    have parts : (lit "The Grid routes you toward ").length = 27 ∧
      (lit ". Reconnect there and your ").length = 27 ∧
      (lit "canonical character follows:").length = 28 ∧ (lit "    ").length = 4 ∧
      (lit r#"@event grid.travel {"to":""#).length = 26 ∧ (lit r#"","url":""#).length = 9 ∧
      (lit r#""}"#).length = 2 :=
      ⟨length_lit _, length_lit _, length_lit _, length_lit _, length_lit _, length_lit _,
        length_lit _⟩
    simp only [TravelReply.text, TravelReply.format, TravelReply.inserted, fmtGridTravelHandoff,
      List.length_append, parts, ends]
    omega

theorem inscribe_quiet (room : Int) (name msg : Bytes) :
    Keeps (fun g' => g'.blocks = g.blocks) (fun _ => False) (inscribeAt env room name msg) Any := by
  have asks {α : Type} (answers : Nat → α) :
      Keeps (fun g' => g'.blocks = g.blocks) (fun _ => False) (ask answers) Any :=
    fun _ same => ⟨same, trivial⟩
  have tables (f : LocalHub → LocalHub) :
      Keeps (fun g' => g'.blocks = g.blocks) (fun _ => False) (onGrid f) Any :=
    Keeps.modify fun _ same => same
  have calls (method : String) (params : List Json) : Keeps (fun g' => g'.blocks = g.blocks)
      (fun _ => False) (rpcCall env method params) Any :=
    Keeps.branch (asks _) (Keeps.pure trivial)
  unfold inscribeAt
  cases roomId room with
  | none => exact Keeps.pure trivial
  | some id =>
    apply Keeps.branch (Keeps.pure trivial)
    apply Keeps.seq (Keeps.bind (asks env.now) fun _ _ => tables _)
    refine Keeps.bind (asks env.now) fun _ _ => Keeps.branch ?_ (tables _)
    exact Keeps.bind (calls _ _) fun _ _ => Keeps.pure trivial

/-- The command ends with the handed bytes in the outbox, between its fixed lines. -/
def HandedOn (env : Env) (c : Block) (g : Server) (q : BufferCommand) (h : Handing) : Prop :=
  ∃ memory g', q.act env c g = .ok ((), g') ∧
    (g'.blocks c).outbox = (g.blocks c).outbox ++
      (q.around.1 ++ overread h.cap h.text memory ++ q.around.2).take
        (outCap - (g.blocks c).outbox.length)

theorem queued_outbox (g : Server) (c : Block) (t : Text) : ((g.queued c t).blocks c).outbox =
    (g.blocks c).outbox ++ t.take (outCap - (g.blocks c).outbox.length) := by
  rw [Server.queued, Server.setBlock_own]

theorem inscribe_handed {arg : Ptr} (given : argument arg ≠ []) :
    HandedOn env c g (.inscribe arg) ⟨120, inscribeQuote (argument arg)⟩ := by
  have start : session c g = .ok (g.blocks c, g) := rfl
  cases pressed : inscribeAt env (g.blocks c).room (g.blocks c).name (argument arg) g with
  | error stopped => exact ((inscribe_quiet _ _ _).fault rfl pressed).elim
  | ok r =>
    obtain ⟨⟨⟩, told⟩ := r
    have same : told.blocks = g.blocks := ((inscribe_quiet _ _ _).result rfl pressed).1
    refine ⟨env.stale told.asked, ((({ told with asked := told.asked + 1 } : Server).queued c
      (BufferCommand.around (.inscribe arg)).1).queued c
      (overread 120 (inscribeQuote (argument arg)) (env.stale told.asked))).queued c
      (BufferCommand.around (.inscribe arg)).2, ?_, ?_⟩
    · rw [BufferCommand.act, cmdInscribe, bind_ok start, if_neg given, bind_ok pressed]
      rfl
    · rw [queued_twice, queued_twice, queued_outbox]
      simp only [same, List.append_assoc]

theorem travel_said {target : Bytes} (given : target ≠ []) {found : TravelReply} {n : Nat}
    {last : Server} (ended : travelTo env c target g = .ok ((), last))
    (same : (last.blocks c).outbox = (({ g with asked := n + 1 } : Server).queued c
      (overread 512 found.text (env.stale n)) |>.blocks c).outbox) :
    HandedOn env c g (.travel target) ⟨512, found.text⟩ := by
  refine ⟨env.stale n, last, ?_, ?_⟩
  · rw [BufferCommand.act, cmdTravel, if_neg given, ended]
  · rw [same, queued_outbox]
    simp [BufferCommand.around]

theorem worlds_read (env : Env) (g : Server) :
    ∃ answer n, gridListWorlds env g = .ok (answer, { g with asked := n }) := by
  unfold gridListWorlds
  split
  · rename_i remote
    rw [rpcCall, if_pos remote]
    exact ⟨_, _, rfl⟩
  · exact ⟨_, _, rfl⟩

/-- The answer of a handoff and the text of it, whichever strings the registers lead to. -/
theorem handoff_made (env : Env) (row : WorldRow) (g : Server) (n : Nat) :
    ∃ found m, handoffReply env row { g with asked := n } = .ok (found, { g with asked := m }) ∧
      travelHandoff env row { g with asked := n } = .ok (found.text, { g with asked := m }) := by
  have moved : ask env.clobbers { g with asked := n } =
      .ok (env.clobbers n, { g with asked := n + 1 }) := rfl
  rw [handoffReply, travelHandoff, bind_ok moved, bind_ok moved]
  cases env.clobbers n with
  | false => exact ⟨_, _, rfl, rfl⟩
  | true => exact ⟨_, _, rfl, rfl⟩

/-- travel queues its reply, and may close the session after it. -/
theorem travel_handed {target : Bytes} (given : target ≠ []) :
    ∃ found, BufferCommand.reply env g target = some found ∧
      HandedOn env c g (.travel target) ⟨512, found.text⟩ := by
  obtain ⟨answer, n, read⟩ := worlds_read env g
  cases answer with
  | none =>
    refine ⟨.unreachable, ?_, @travel_said env c g target given .unreachable n _ ?_ rfl⟩
    · rw [BufferCommand.reply, travelReply, bind_ok read]
      rfl
    · rw [travelTo, bind_ok read]
      rfl
  | some rows =>
    have address : ask env.scratch { g with asked := n } =
        .ok (env.scratch n, { g with asked := n + 1 }) := rfl
    cases matched : (gridMatchWorld (env.scratch n) rows target).bind fun i => rows[i]? with
    | none =>
      refine ⟨.missing target, ?_, @travel_said env c g target given (.missing target) (n + 1) _ ?_
        rfl⟩
      · rw [BufferCommand.reply, travelReply, bind_ok read]
        simp only [bind_ok address, matched]
        rfl
      · rw [travelTo, bind_ok read]
        simp only [bind_ok address, matched]
        rfl
    | some row =>
      by_cases own : row.id = gridWorldName env
      · refine ⟨.here (gridWorldName env), ?_,
          @travel_said env c g target given (.here (gridWorldName env)) (n + 1) _ ?_ rfl⟩
        · rw [BufferCommand.reply, travelReply, bind_ok read]
          simp only [bind_ok address, matched, if_pos own]
          rfl
        · rw [travelTo, bind_ok read]
          simp only [bind_ok address, matched, if_pos own]
          rfl
      · have closed (k : Server) (t : Text) :
            (((k.queued c t).closing c).blocks c).outbox = ((k.queued c t).blocks c).outbox := by
          rw [Server.closing, Server.setBlock_own]
        obtain ⟨found, m, replied, made⟩ := handoff_made env row g (n + 1)
        refine ⟨found, ?_, @travel_said env c g target given found m _ ?_ (closed _ _)⟩
        · rw [BufferCommand.reply, travelReply, bind_ok read]
          simp only [bind_ok address, matched, if_neg own, replied]
        · rw [travelTo, bind_ok read]
          simp only [bind_ok address, matched, if_neg own, bind_ok made]
          rfl

/-- Every buffer a command fills is queued by the value snprintf returned, and that counts no
byte past the formatted text exactly when what is put in is short enough. -/
theorem handed_bounded_iff (q : BufferCommand) (env : Env) (c : Block) (g : Server) :
    (∀ h, q.handing env g = some h → HandedOn env c g q h) ∧
      ((∀ h, q.handing env g = some h → h.Bounded) ↔ q.Short env g) := by
  cases q with
  | inscribe arg =>
    simp only [BufferCommand.handing, BufferCommand.Short]
    by_cases given : argument arg = []
    · rw [if_pos given, given]
      simp
    · rw [if_neg given]
      simp only [Option.some.injEq, forall_eq']
      refine ⟨inscribe_handed given, ?_⟩
      rw [bounded_iff (by decide), quote_length]
      omega
  | travel target =>
    simp only [BufferCommand.handing, BufferCommand.Short]
    by_cases given : target = []
    · simp [given]
    · obtain ⟨found, answered, handed⟩ := @travel_handed env c g target given
      rw [if_neg given, answered]
      simp only [Option.map_some, Option.some.injEq, given, false_or, forall_eq']
      refine ⟨handed, ?_⟩
      rw [bounded_iff (by decide), reply_length]

/-- A message of 114 bytes makes the queue take a byte past the quote. -/
theorem long_inscription_leaks : ¬ ∀ (arg : Bytes) (env : Env) (g : Server), arg.length ≤ 246 →
    ∀ h, BufferCommand.handing env g (.inscribe (some arg)) = some h → h.Bounded := by
  intro always
  have bounded := (handed_bounded_iff (.inscribe (some (List.replicate 114 97))) quietNode 0
    { disk := sharedDisk }).2.mp (always (List.replicate 114 97) quietNode { disk := sharedDisk }
      (by decide))
  revert bounded
  simp only [BufferCommand.Short]
  decide +kernel

end Overreads

end HollowGrid
