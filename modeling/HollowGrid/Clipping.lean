import HollowGrid.Outbox

/-! The queue of a session and the lines in it: a queue that fills up cuts what it is given
where the room ends. -/
namespace HollowGrid

open Machine

def lined (lines : List Text) : Text := (lines.map (· ++ crlf)).flatten

/-- No line feed stands inside a line. -/
def OneLine (line : Text) : Prop := ∀ cell ∈ line, cell.byte ≠ lineFeed

/-- An operation on the output whose pieces are lines. -/
inductive LineOp
  | queue (lines : List Text)
  | flag
  | writable

namespace LineOp

def op : LineOp → OutOp
  | queue lines => .queue (lined lines)
  | flag => .flag
  | writable => .writable

def lines : LineOp → List Text
  | queue lines => lines
  | flag | writable => []

end LineOp

def lineStep (env : Env) (c : Block) (w : Wire) (e : LineOp) : Except Fault Wire :=
  outStep env c w e.op

/-- Every line of the operations so far, in order. -/
def linesQueued (events : List LineOp) : List Text := (events.map LineOp.lines).flatten

/-- What waits is made of lines that were queued, each of them whole and in order. -/
def WholeLines (c : Block) (events : List LineOp) (w : Wire) : Prop :=
  ∃ kept, kept.Sublist (linesQueued events) ∧ w.pending c = lined kept

def AtLineEnd (c : Block) (w : Wire) (e : LineOp) : Prop :=
  (lined e.lines).length ≤ outCap - (w.pending c).length ∨
    ∃ first, first <+: e.lines ∧ (lined first).length = outCap - (w.pending c).length

section Clipping

variable {env : Env} {c : Block} {w w' : Wire} {events : List LineOp} {e : LineOp}

@[simp]
theorem lined_append (first rest : List Text) :
    lined (first ++ rest) = lined first ++ lined rest := by
  simp [lined]

theorem lined_cons (line : Text) (rest : List Text) :
    lined (line :: rest) = line ++ crlf ++ lined rest := by
  simp [lined]

theorem lined_last {lines : List Text} {cell : Cell} (last : (lined lines).getLast? = some cell) :
    cell.byte = lineFeed := by
  cases lines using List.reverseRecOn with
  | nil => cases last
  | append_singleton front line =>
    rw [lined_append] at last
    have tail : lined [line] = (line ++ lit "\r") ++ lit "\n" := by
      simp [lined, crlf, lit, str]
    rw [tail, ← List.append_assoc, List.getLast?_append] at last
    cases last
    rfl

theorem cut_inside {lines : List Text} (clean : ∀ line ∈ lines, OneLine line) {n : Nat}
    (short : n < (lined lines).length)
    (inside : ∀ first, first <+: lines → (lined first).length ≠ n) :
    ∃ cell, ((lined lines).take n).getLast? = some cell ∧ cell.byte ≠ lineFeed := by
  induction lines generalizing n with
  | nil => simp [lined] at short
  | cons line rest ih =>
    have start : n ≠ 0 := fun zero => inside [] (List.nil_prefix) (by simp [lined, zero])
    rw [lined_cons] at short ⊢
    by_cases within : n ≤ line.length + 1
    · -- the cut falls into the line itself or between its CR and its LF
      have taken : (line ++ crlf ++ lined rest).take n = (line ++ lit "\r").take n := by
        have split : line ++ crlf ++ lined rest =
            (line ++ lit "\r") ++ (lit "\n" ++ lined rest) := by
          simp [crlf, lit, str]
        rw [split, List.take_append_of_le_length]
        simpa [lit, str] using within
      have some_cell : ((line ++ lit "\r").take n) ≠ [] := by
        simp [start, lit, str]
      refine ⟨_, by rw [taken, List.getLast?_eq_some_getLast some_cell], ?_⟩
      have member := List.mem_of_mem_take (List.getLast_mem some_cell)
      rcases List.mem_append.mp member with own | cr
      · exact clean line (.head _) _ own
      · have same : _ = (⟨carriageReturn, .server⟩ : Cell) := List.mem_singleton.mp cr
        rw [same]
        decide
    · have long : (line ++ crlf).length = line.length + 2 := by
        simp [crlf, lit, str]
      have deeper : line.length + 2 < n := by
        have edge := inside [line] (by simp)
        rw [lined_cons] at edge
        simp only [lined, List.map_nil, List.flatten_nil, List.append_nil, long] at edge
        omega
      obtain ⟨cell, last, other⟩ := ih (fun l member => clean l (.tail _ member))
        (n := n - (line.length + 2)) (by
          rw [List.length_append, long] at short
          omega)
        (fun first part same => inside (line :: first) (by simpa using part) (by
          rw [lined_cons, List.length_append, long]
          omega))
      refine ⟨cell, ?_, other⟩
      rw [List.take_append, List.take_of_length_le (by omega), long, List.getLast?_append, last]
      rfl

theorem lined_prefix {lines : List Text} {n : Nat} (first : List Text) (part : first <+: lines)
    (same : (lined first).length = n) : (lined lines).take n = lined first := by
  obtain ⟨rest, rfl⟩ := part
  rw [lined_append, ← same, List.take_left]

theorem queued_snoc (events : List LineOp) (e : LineOp) :
    linesQueued (events ++ [e]) = linesQueued events ++ e.lines := by
  simp [linesQueued]

theorem written_either (g : Server) (env : Env) (c : Block) :
    ((g.written env c).blocks c).outbox = (g.blocks c).outbox ∨
      ((g.written env c).blocks c).outbox = [] := by
  rw [written_blocks, Server.sent]
  split
  · exact .inl rfl
  split
  · exact .inl rfl
  · right
    rw [Server.setBlock_own]

/-- What an operation leaves waiting: a queue adds what there is room for, a write takes all
or nothing. -/
theorem pending_after (stepped : lineStep env c w e = .ok w') :
    w'.pending c = w.pending c ++ (lined e.lines).take (outCap - (w.pending c).length) ∨
      e.lines = [] ∧ w'.pending c = [] := by
  cases e with
  | queue lines =>
    cases stepped
    left
    simp only [Wire.pending, LineOp.lines, Server.queued, Server.setBlock_own]
  | flag =>
    cases stepped
    left
    simp [Wire.pending, Server.closing, LineOp.lines, lined]
  | writable =>
    simp only [lineStep, LineOp.op] at stepped
    by_cases gone : w.server.dropped c = true
    · rw [outStep, if_pos gone] at stepped
      cases stepped
      left
      simp [LineOp.lines, lined]
    · rw [outStep, if_neg gone, writable_run] at stepped
      cases stepped
      rcases written_either w.server env c with same | empty
      · left
        rw [Wire.pending, same]
        simp [LineOp.lines, lined, Wire.pending]
      · exact .inr ⟨rfl, empty⟩

theorem whole_step (kept : WholeLines c events w) (fits : AtLineEnd c w e)
    (stepped : lineStep env c w e = .ok w') : WholeLines c (events ++ [e]) w' := by
  obtain ⟨lines, part, pending⟩ := kept
  rcases pending_after stepped with appended | ⟨none_new, empty⟩
  · obtain ⟨first, of_new, taken⟩ : ∃ first, first <+: e.lines ∧
        (lined e.lines).take (outCap - (w.pending c).length) = lined first := by
      rcases fits with all | ⟨first, part, same⟩
      · exact ⟨e.lines, List.prefix_refl _, List.take_of_length_le all⟩
      · exact ⟨first, part, lined_prefix first part same⟩
    refine ⟨lines ++ first, ?_, by rw [appended, taken, pending, lined_append]⟩
    rw [queued_snoc]
    exact part.append of_new.sublist
  · exact ⟨[], List.nil_sublist _, empty⟩

theorem whole_cut (clean : ∀ line ∈ e.lines, OneLine line)
    (kept : WholeLines c (events ++ [e]) w') (stepped : lineStep env c w e = .ok w') :
    AtLineEnd c w e := by
  obtain ⟨lines, _, pending⟩ := kept
  by_contra torn
  obtain ⟨long, inside⟩ := not_or.mp torn
  rcases pending_after stepped with appended | ⟨none_new, _⟩
  · obtain ⟨cell, last, other⟩ := cut_inside clean (not_le.mp long)
      fun first part same => inside ⟨first, part, same⟩
    refine other (@lined_last lines cell ?_)
    rw [← pending, appended, List.getLast?_append, last]
    rfl
  · exact long (by simp [none_new, lined])

/-- In a run of queues of whole lines and of drains from an empty queue, what waits is at every
time made of whole lines exactly when every queue found the room to take its lines or to end
with one of them. -/
theorem whole_lines_iff (env : Env) (c : Block) (g : Server) (events : List LineOp)
    (empty : (g.blocks c).outbox = [])
    (clean : ∀ e ∈ events, ∀ line ∈ e.lines, OneLine line) :
    (∀ before after w, events = before ++ after →
        Reaches (lineStep env c) { server := g } before w → WholeLines c before w) ↔
      Meets (lineStep env c) (AtLineEnd c) { server := g } events := by
  constructor
  · intro whole before e after w split reached
    obtain ⟨w', stepped⟩ : ∃ w', lineStep env c w e = .ok w' := by
      cases e with
      | queue lines => exact ⟨_, rfl⟩
      | flag => exact ⟨_, rfl⟩
      | writable =>
        simp only [lineStep, LineOp.op, outStep]
        split
        · exact ⟨_, rfl⟩
        · rw [writable_run]
          exact ⟨_, rfl⟩
    have kept : WholeLines c (before ++ [e]) w' := whole (before ++ [e]) after w' (by simp [split])
      (reaches_snoc _ _ _ _ _ _ reached stepped)
    exact whole_cut (clean e (by simp [split])) kept stepped
  · intro met before after w split reached
    have start : WholeLines c [] { server := g } := ⟨[], List.nil_sublist _, empty⟩
    induction before using List.reverseRecOn generalizing after w with
    | nil =>
      cases reached
      exact start
    | append_singleton front e ih =>
      obtain ⟨last, there, stepped⟩ := reaches_snoc_cases _ _ _ _ _ reached
      have kept := ih (e :: after) last (by simpa using split) there
      exact whole_step kept (met front e after last (by simpa using split) there) stepped

theorem whole_lines_iff_hello :
    (∀ before after w, [LineOp.queue [lit "hello"], .writable] = before ++ after →
        Reaches (lineStep quietNode 0) { server := idleServer } before w →
        WholeLines 0 before w) ↔
      Meets (lineStep quietNode 0) (AtLineEnd 0) { server := idleServer }
        [.queue [lit "hello"], .writable] :=
  whole_lines_iff quietNode 0 idleServer [.queue [lit "hello"], .writable] rfl
    (by simp [LineOp.lines]; unfold OneLine; decide)

/-- Fifteen lines of 1024 bytes, and one of 1102 for which there is no room. -/
def crowded : List LineOp :=
  [.queue (List.replicate 15 (List.replicate 1022 ⟨97, .server⟩)),
    .queue [List.replicate 1100 ⟨98, .server⟩]]

theorem crowded_clean : ∀ e ∈ crowded, ∀ line ∈ e.lines, OneLine line := by
  intro e member line inner cell there
  simp only [crowded, List.mem_cons, List.not_mem_nil, or_false] at member
  rcases member with rfl | rfl
  · rw [(List.mem_replicate.mp inner).2] at there
    rw [(List.mem_replicate.mp there).2]
    decide
  · rw [List.mem_singleton.mp inner] at there
    rw [(List.mem_replicate.mp there).2]
    decide

theorem lined_length (n : Nat) (line : Text) :
    (lined (List.replicate n line)).length = n * (line.length + 2) := by
  have ends : crlf.length = 2 := length_lit _
  simp [lined, ends]

/-- The last line is cut, and what follows would be joined to it. -/
theorem crowded_cut : ¬ ∀ (env : Env) (c : Block) (g : Server) (events : List LineOp),
    (g.blocks c).outbox = [] → (∀ e ∈ events, ∀ line ∈ e.lines, OneLine line) →
    ∀ before after w, events = before ++ after →
      Reaches (lineStep env c) { server := g } before w → WholeLines c before w := by
  intro always
  have met := (whole_lines_iff quietNode 0 idleServer crowded rfl crowded_clean).mp
    (always quietNode 0 idleServer crowded rfl crowded_clean)
  obtain ⟨w, stepped⟩ : ∃ w, lineStep quietNode 0 { server := idleServer } (.queue
      (List.replicate 15 (List.replicate 1022 ⟨97, .server⟩))) = .ok w := ⟨_, rfl⟩
  have waiting : (w.pending 0).length = 15360 := by
    rcases pending_after stepped with appended | ⟨none_new, _⟩
    · have start : Wire.pending { server := idleServer } 0 = [] := rfl
      rw [appended, start, List.nil_append, List.length_take, LineOp.lines, lined_length,
        List.length_replicate]
      rfl
    · simp [LineOp.lines] at none_new
  have last : (lined [List.replicate 1100 (⟨98, .server⟩ : Cell)]).length = 1102 := by
    have one := lined_length 1 (List.replicate 1100 (⟨98, .server⟩ : Cell))
    rwa [List.length_replicate] at one
  have room : outCap - (w.pending 0).length = 1024 := by rw [waiting]; rfl
  rcases met [_] _ [] w rfl (reaches_snoc _ _ _ _ [] _ rfl stepped) with fits | ⟨first, part, same⟩
  · simp only [LineOp.lines, last, room] at fits
    omega
  · rw [room] at same
    rcases List.prefix_cons_iff.mp part with rfl | ⟨rest, rfl, none_left⟩
    · simp [lined] at same
    · rw [List.prefix_nil.mp none_left, last] at same
      omega

end Clipping

end HollowGrid
