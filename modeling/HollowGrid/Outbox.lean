import HollowGrid.Steps

/-! The output of one connection: what hg_session_queue is given, what waits in the
session, and what lws_write took of it. -/
namespace HollowGrid

inductive OutOp
  | queue (t : Text)
  | flag
  | writable
  deriving DecidableEq

/-- A connection's server with the history of its output: all that was queued, all that
lws_write took, and whether the callback ever gave -1 with output waiting. -/
structure Wire where
  server : Server
  queued : Text := []
  accepted : Text := []
  cut : Bool := false

namespace Wire

def pending (w : Wire) (c : Block) : Text := (w.server.blocks c).outbox

/-- What lws_write answers for the waiting output. -/
def answer (env : Env) (w : Wire) (c : Block) : Int :=
  env.lwsWrite w.server.asked (w.pending c).length

/-- The bytes lws_write takes: none on an error, else as many as it answers. -/
def taken (env : Env) (w : Wire) (c : Block) : Text :=
  if w.pending c = [] then [] else (w.pending c).take (w.answer env c).toNat

end Wire

/-- One call of hg_session_queue, one set of the flag, or one writable event. A dropped
connection has no more of these. -/
def outStep (env : Env) (c : Block) (w : Wire) : OutOp → Except Fault Wire
  | .queue t => (queue c t w.server).map fun r => { w with server := r.2, queued := w.queued ++ t }
  | .flag => (setClose c w.server).map fun r => { w with server := r.2 }
  | .writable =>
    if w.server.dropped c then .ok w
    else (writable env c w.server).map fun r =>
      { w with
        server := r.2
        accepted := w.accepted ++ w.taken env c
        cut := w.cut || (r.2.dropped c && (r.2.blocks c).outbox ≠ []) }

/-- The output has room for what is queued. -/
def Fits (c : Block) (w : Wire) : OutOp → Prop
  | .queue t => (w.pending c).length + t.length ≤ outCap
  | _ => True

/-- lws_write takes nothing or everything, and everything once the flag is set. -/
def WholeWrites (env : Env) (c : Block) (w : Wire) : OutOp → Prop
  | .writable => w.server.dropped c = false → w.pending c ≠ [] →
    (w.answer env c ≤ 0 ∨ w.answer env c = (w.pending c).length) ∧
      ((w.server.blocks c).close = true → w.answer env c = (w.pending c).length)
  | _ => True

instance (c : Block) (w : Wire) : (op : OutOp) → Decidable (Fits c w op)
  | .queue t => inferInstanceAs (Decidable ((w.pending c).length + t.length ≤ outCap))
  | .flag => .isTrue trivial
  | .writable => .isTrue trivial

instance (env : Env) (c : Block) (w : Wire) : (op : OutOp) → Decidable (WholeWrites env c w op)
  | .queue _ => .isTrue trivial
  | .flag => .isTrue trivial
  | .writable => inferInstanceAs (Decidable (w.server.dropped c = false → w.pending c ≠ [] →
      (w.answer env c ≤ 0 ∨ w.answer env c = (w.pending c).length) ∧
        ((w.server.blocks c).close = true → w.answer env c = (w.pending c).length)))

namespace Server

/-- What the attempt to write leaves of the waiting output. -/
def sent (g : Server) (env : Env) (c : Block) : Server :=
  let out := (g.blocks c).outbox
  let asking : Server := { g with asked := g.asked + 1 }
  if out = [] then g
  else if env.lwsWrite g.asked out.length < 0 ∨ env.lwsWrite g.asked out.length < out.length then
    asking
  else asking.setBlock c { g.blocks c with outbox := [] }

/-- What one writable event leaves behind. -/
def written (g : Server) (env : Env) (c : Block) : Server :=
  if (g.blocks c).close then
    { g.sent env c with dropped := Function.update (g.sent env c).dropped c true }
  else g.sent env c

end Server

theorem maybe_close_run (c : Block) (g : Server) : maybeClose c g =
    .ok ((), if (g.blocks c).close then
      { g with dropped := Function.update g.dropped c true } else g) := by
  unfold maybeClose
  rw [bind_ok (rfl : session c g = .ok (g.blocks c, g)), when]
  split <;> rfl

theorem ws_write_run (env : Env) (len : Nat) (g : Server) : wsWrite env len g =
    .ok (if env.lwsWrite g.asked len < 0 then -1
      else if env.lwsWrite g.asked len < len then 1 else 0, { g with asked := g.asked + 1 }) := rfl

theorem writable_run (env : Env) (c : Block) (g : Server) :
    writable env c g = .ok ((), g.written env c) := by
  unfold writable Server.written Server.sent
  rw [bind_ok (rfl : session c g = .ok (g.blocks c, g))]
  by_cases empty : (g.blocks c).outbox = []
  · rw [if_pos empty, maybe_close_run]
    simp only [if_pos empty]
  · rw [if_neg empty, bind_ok (ws_write_run env _ g)]
    simp only [if_neg empty]
    by_cases short : env.lwsWrite g.asked (g.blocks c).outbox.length < 0 ∨
        env.lwsWrite g.asked (g.blocks c).outbox.length < (g.blocks c).outbox.length
    · have unsent : (if env.lwsWrite g.asked (g.blocks c).outbox.length < 0 then (-1 : Int)
          else if env.lwsWrite g.asked (g.blocks c).outbox.length < (g.blocks c).outbox.length
            then 1 else 0) ≠ 0 := by
        split
        · decide
        · rw [if_pos (short.resolve_left ‹_›)]
          decide
      rw [when, if_neg unsent, if_pos short]
      exact maybe_close_run c { g with asked := g.asked + 1 }
    · obtain ⟨no_error, no_short⟩ := not_or.mp short
      rw [when, if_neg no_error, if_neg no_short, if_pos rfl, if_neg short]
      rw [bind_ok (rfl : setOutbox c [] { g with asked := g.asked + 1 } = .ok ((), _)),
        maybe_close_run]
      simp

/-- Nothing is lost, repeated or out of order: what was taken and what waits is what was
queued. -/
structure Lossless (c : Block) (w : Wire) : Prop where
  whole : w.accepted ++ w.pending c = w.queued
  fits : (w.pending c).length ≤ outCap
  uncut : w.cut = false

variable {env : Env} {c : Block} {w w' : Wire}

theorem lossless_queue (kept : Lossless c w) {t : Text} (room : Fits c w (.queue t))
    (stepped : outStep env c w (.queue t) = .ok w') : Lossless c w' := by
  cases stepped
  have all : t.take (outCap - (w.pending c).length) = t :=
    List.take_of_length_le (by have := room; simp only [Fits] at this; omega)
  have pending : Wire.pending { w with
      server := w.server.queued c t, queued := w.queued ++ t } c = w.pending c ++ t := by
    simp only [Wire.pending, Server.queued, Server.setBlock_own]
    rw [show (w.server.blocks c).outbox = w.pending c from rfl, all]
  refine ⟨?_, ?_, kept.uncut⟩
  · rw [pending, ← List.append_assoc, kept.whole]
  · rw [pending, List.length_append]
    exact room

theorem lossless_flag (kept : Lossless c w) (stepped : outStep env c w .flag = .ok w') :
    Lossless c w' := by
  cases stepped
  have pending : Wire.pending { w with server := w.server.closing c } c = w.pending c := by
    simp [Wire.pending, Server.closing]
  exact ⟨pending ▸ kept.whole, pending ▸ kept.fits, kept.uncut⟩

theorem written_blocks (g : Server) (env : Env) (c : Block) :
    (g.written env c).blocks = (g.sent env c).blocks := by
  unfold Server.written
  split <;> rfl

/-- An answer of the whole length, or an empty queue, leaves nothing waiting. -/
theorem written_all (g : Server) (env : Env) (c : Block)
    (all : (g.blocks c).outbox = [] ∨
      env.lwsWrite g.asked (g.blocks c).outbox.length = (g.blocks c).outbox.length) :
    ((g.written env c).blocks c).outbox = [] := by
  rw [written_blocks]
  by_cases empty : (g.blocks c).outbox = []
  · rw [Server.sent, if_pos empty]
    exact empty
  · have whole := all.resolve_left empty
    rw [Server.sent, if_neg empty, if_neg (by omega), Server.setBlock_own]

/-- An answer that takes nothing leaves all of it waiting. -/
theorem written_none (g : Server) (env : Env) (c : Block) (some_out : (g.blocks c).outbox ≠ [])
    (none_taken : env.lwsWrite g.asked (g.blocks c).outbox.length ≤ 0) :
    ((g.written env c).blocks c).outbox = (g.blocks c).outbox := by
  have longer := List.length_pos_of_ne_nil some_out
  rw [written_blocks, Server.sent, if_neg some_out, if_pos (by omega)]

theorem written_open (g : Server) (env : Env) (c : Block) (unflagged : (g.blocks c).close = false)
    (held : g.dropped c = false) : (g.written env c).dropped c = false := by
  rw [Server.written, if_neg (by simp [unflagged]), Server.sent]
  split
  · exact held
  · split <;> exact held

theorem lossless_writable (kept : Lossless c w) (whole : WholeWrites env c w .writable)
    (stepped : outStep env c w .writable = .ok w') : Lossless c w' := by
  by_cases gone : w.server.dropped c = true
  · rw [outStep, if_pos gone] at stepped
    cases stepped
    exact kept
  rw [outStep, if_neg gone, writable_run] at stepped
  cases stepped
  have held : w.server.dropped c = false := Bool.eq_false_iff.mpr gone
  by_cases all : w.pending c = [] ∨ w.answer env c = (w.pending c).length
  · have emptied : ((w.server.written env c).blocks c).outbox = [] := written_all _ env c all
    have taken : w.taken env c = w.pending c := by
      unfold Wire.taken
      split
      · exact Eq.symm ‹_›
      · rw [all.resolve_left ‹_›, Int.toNat_natCast, List.take_length]
    refine ⟨?_, ?_, ?_⟩
    · rw [Wire.pending, emptied, List.append_nil, taken]
      exact kept.whole
    · rw [Wire.pending, emptied]
      exact Nat.zero_le _
    · simp [emptied, kept.uncut]
  · obtain ⟨some_out, partly⟩ := not_or.mp all
    obtain ⟨answers, flagged⟩ := whole held some_out
    have none_taken := answers.resolve_right partly
    have unflagged : (w.server.blocks c).close = false :=
      Bool.eq_false_iff.mpr fun flag => partly (flagged flag)
    have waits : ((w.server.written env c).blocks c).outbox = w.pending c :=
      written_none _ env c some_out none_taken
    have taken : w.taken env c = [] := by
      rw [Wire.taken, if_neg some_out, Int.toNat_eq_zero.mpr none_taken, List.take_zero]
    refine ⟨?_, ?_, ?_⟩
    · rw [Wire.pending, waits, taken, List.append_nil]
      exact kept.whole
    · rw [Wire.pending, waits]
      exact kept.fits
    · simp [written_open w.server env c unflagged held, kept.uncut]

theorem lossless_step {op : OutOp} (kept : Lossless c w) (room : Fits c w op)
    (whole : WholeWrites env c w op) (stepped : outStep env c w op = .ok w') : Lossless c w' := by
  cases op with
  | queue t => exact lossless_queue kept room stepped
  | flag => exact lossless_flag kept stepped
  | writable => exact lossless_writable kept whole stepped

/-- With whole writes, what lws_write took is at every time a prefix of what was queued, the
queue stays within its capacity, and no connection is given up with output waiting. -/
theorem output_in_order (env : Env) (c : Block) (g : Server) (ops : List OutOp) (w : Wire)
    (empty : (g.blocks c).outbox = [])
    (reached : Machine.Reaches (outStep env c) { server := g } ops w)
    (room : Machine.Meets (outStep env c) (Fits c) { server := g } ops)
    (whole : Machine.Meets (outStep env c) (WholeWrites env c) { server := g } ops) :
    w.accepted <+: w.queued ∧ (w.pending c).length ≤ outCap ∧ w.cut = false := by
  have start : Lossless c { server := g } := by
    refine ⟨?_, ?_, rfl⟩
    · rw [Wire.pending, empty]
      rfl
    · rw [Wire.pending, empty]
      exact Nat.zero_le _
  have kept := Machine.invariant_run (outStep env c)
    (fun w op => Fits c w op ∧ WholeWrites env c w op) (Lossless c) { server := g } start
    (fun w op w' kept met stepped => lossless_step kept met.1 met.2 stepped) ops
    (fun before op after s split at_op =>
      ⟨room before op after s split at_op, whole before op after s split at_op⟩) w reached
  refine ⟨?_, kept.fits, kept.uncut⟩
  rw [← kept.whole]
  exact List.prefix_append _ _

/-- A socket that takes one byte of the first write. -/
def shortNode : Env :=
  { quietNode with lwsWrite := fun asked len => if asked = 0 then min 1 len else len }

def idleServer : Server := { disk := fun _ => none }

/-- A line and the flag, and then one write of everything. -/
theorem output_in_order_whole : ∃ w,
    Machine.Reaches (outStep quietNode 0) { server := idleServer }
      [.queue (lit "ab"), .flag, .writable] w ∧
    w.accepted = lit "ab" ∧ w.accepted <+: w.queued ∧ w.cut = false := by
  obtain ⟨w, reached, all⟩ := Machine.ends_reaches (outStep quietNode 0) { server := idleServer }
    [.queue (lit "ab"), .flag, .writable] (fun w => decide (w.accepted = lit "ab"))
    (by decide +kernel)
  have room := Machine.meets_passed (outStep quietNode 0) (fun w op => decide (Fits 0 w op))
    (Fits 0) (fun _ _ => of_decide_eq_true) { server := idleServer }
    [.queue (lit "ab"), .flag, .writable] (by decide +kernel)
  have whole := Machine.meets_passed (outStep quietNode 0)
    (fun w op => decide (WholeWrites quietNode 0 w op)) (WholeWrites quietNode 0)
    (fun _ _ => of_decide_eq_true) { server := idleServer }
    [.queue (lit "ab"), .flag, .writable] (by decide +kernel)
  obtain ⟨ordered, _, uncut⟩ := output_in_order _ _ _ _ w rfl reached room whole
  exact ⟨w, reached, of_decide_eq_true all, ordered, uncut⟩

/-- After a short write the next one starts over: the first byte goes out twice. -/
theorem output_repeated : (∀ (asked len : Nat), shortNode.lwsWrite asked len ≤ len) ∧
    ¬ ∀ ops w, Machine.Reaches (outStep shortNode 0) { server := idleServer } ops w →
      Machine.Meets (outStep shortNode 0) (Fits 0) { server := idleServer } ops →
      w.accepted <+: w.queued := by
  constructor
  · intro asked len
    change (if asked = 0 then min 1 (len : Int) else (len : Int)) ≤ len
    split <;> omega
  · intro ordered
    obtain ⟨w, reached, repeats⟩ := Machine.ends_reaches (outStep shortNode 0)
      { server := idleServer } [.queue (lit "ab"), .writable, .writable]
      (fun w => decide (¬ w.accepted <+: w.queued)) (by decide +kernel)
    have room := Machine.meets_passed (outStep shortNode 0) (fun w op => decide (Fits 0 w op))
      (Fits 0) (fun _ _ => of_decide_eq_true) { server := idleServer }
      [.queue (lit "ab"), .writable, .writable] (by decide +kernel)
    exact of_decide_eq_true repeats (ordered _ w reached room)

end HollowGrid
