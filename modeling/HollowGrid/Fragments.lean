import HollowGrid.Callback

/-! ffi/lws_shim.c: LWS_CALLBACK_RECEIVE puts the fragments of a text message together,
whatever the fragments are. -/
namespace HollowGrid

/-- HG_SESSION_RX_CAP -/
def rxCap : Nat := 256

/-- SESSION_RX_LEN and SESSION_RX. A length of -1 stands for an overflow. -/
structure Rx where
  len : Int
  buffer : Bytes
  sized : buffer.length = rxCap

/-- What .connected leaves. -/
def Rx.zeroed : Rx := ⟨0, List.replicate rxCap 0, List.length_replicate ..⟩

/-- The payload of one callback, with what lws_is_final_fragment and
lws_remaining_packet_payload say of it. -/
structure Fragment where
  payload : Bytes
  final : Bool
  remaining : Nat

def Fragment.ends (f : Fragment) : Bool := f.final && f.remaining == 0

/-- memcpy into the buffer, or none past its end. -/
def Rx.copied (rx : Rx) (pos : Nat) (input : Bytes) : Option Rx :=
  if fits : pos + input.length ≤ rxCap then
    some
      { rx with
        buffer := rx.buffer.take pos ++ input ++ rx.buffer.drop (pos + input.length)
        sized := by
          have sized := rx.sized
          simp only [List.length_append, List.length_take, List.length_drop]
          omega }
  else none

/-- The fragment behind what is there, unless the message has overflowed. -/
def Rx.append (rx : Rx) (input : Bytes) : Act Rx :=
  if 0 ≤ rx.len then
    if rxCap - 1 < rx.len.toNat + input.length then pure { rx with len := -1 }
    else
      match rx.copied rx.len.toNat input with
      | some written => pure { written with len := rx.len + input.length }
      | none => throw .outOfBounds
  else pure rx

def endMessage (env : Env) (c : Block) (rx : Rx) : Act Unit :=
  if rx.len < 0 then queue c (lit "Input too long (255 bytes max). Command ignored." ++ crlf)
  else if 0 < rx.len then receive env c (rx.buffer.take rx.len.toNat)
  else pure ()

/-- LWS_CALLBACK_RECEIVE of a frame that lws_frame_is_binary tells the kind of. -/
def receiveFragment (env : Env) (c : Block) (rx : Rx) (frame : Bool × Fragment) : Act Rx :=
  if frame.1 then pure { rx with len := 0 }
  else do
    let grown ← rx.append frame.2.payload
    if frame.2.ends then do
      endMessage env c grown
      pure { grown with len := 0 }
    else pure grown

def receiveFragments (env : Env) (c : Block) (rx : Rx) (frames : List (Bool × Fragment)) : Act Rx :=
  frames.foldlM (receiveFragment env c) rx

/-- The fragments of a message that has not ended. -/
structure Unended where
  binary : Bool
  front : List Fragment
  unended : ∀ f ∈ front, f.ends = false

namespace Unended

def frames (m : Unended) : List (Bool × Fragment) := m.front.map fun f => (m.binary, f)

def text (m : Unended) : Bytes := m.front.flatMap Fragment.payload

end Unended

/-- A websocket message: it ends with its last fragment and not before. -/
structure Message extends Unended where
  last : Fragment
  ended : last.ends = true

namespace Message

def frames (m : Message) : List (Bool × Fragment) := m.toUnended.frames ++ [(m.binary, m.last)]

def text (m : Message) : Bytes := m.toUnended.text ++ m.last.payload

end Message

/-- What a whole message comes to: nothing when it is binary or empty. -/
def answer (env : Env) (c : Block) (m : Message) : Act Unit :=
  if m.binary ∨ m.text = [] then pure () else message env c m.text

structure Holds (rx : Rx) (text : Bytes) : Prop where
  short : text.length < rxCap → rx.len = text.length ∧ rx.buffer.take text.length = text
  long : rxCap ≤ text.length → rx.len = -1

section Fragments

variable {rx : Rx} {text : Bytes}

theorem holds_cleared (rx : Rx) : Holds { rx with len := 0 } [] :=
  ⟨fun _ => ⟨rfl, rfl⟩, nofun⟩

theorem holds_bounded (holds : Holds rx text) : -1 ≤ rx.len ∧ rx.len < rxCap := by
  by_cases short : text.length < rxCap
  · have len := (holds.short short).1
    omega
  · have len := holds.long (Nat.le_of_not_lt short)
    rw [len]
    decide

theorem copied_short {pos : Nat} {input : Bytes} (fits : pos + input.length ≤ rxCap) :
    ∃ written, rx.copied pos input = some written ∧
      written.buffer.take (pos + input.length) = rx.buffer.take pos ++ input := by
  refine ⟨_, dif_pos fits, ?_⟩
  have sized := rx.sized
  have whole : (rx.buffer.take pos ++ input).length = pos + input.length := by
    rw [List.length_append, List.length_take]
    omega
  exact List.take_left' whole

/-- One more fragment, and no store outside the buffer. -/
theorem append_holds (input : Bytes) (holds : Holds rx text) :
    ∃ grown, rx.append input = pure grown ∧ Holds grown (text ++ input) := by
  unfold Rx.append
  by_cases short : text.length < rxCap
  · obtain ⟨len, same⟩ := holds.short short
    have pos : rx.len.toNat = text.length := by omega
    rw [if_pos (by omega), pos]
    by_cases beyond : rxCap - 1 < text.length + input.length
    · refine ⟨_, if_pos beyond, ?_, fun _ => rfl⟩
      intro fits
      rw [List.length_append] at fits
      omega
    · have fits : text.length + input.length ≤ rxCap := by omega
      obtain ⟨written, copied, front⟩ := copied_short fits
      rw [if_neg beyond, copied]
      refine ⟨_, rfl, ?_, ?_⟩
      · intro _
        constructor
        · simp only [List.length_append]
          omega
        · rw [List.length_append, ← same]
          simpa only [same] using front
      · intro long
        rw [List.length_append] at long
        omega
  · have len := holds.long (Nat.le_of_not_lt short)
    rw [len]
    refine ⟨rx, rfl, ?_, fun _ => len⟩
    intro fits
    rw [List.length_append] at fits
    omega

theorem end_holds (env : Env) (c : Block) (holds : Holds rx text) :
    endMessage env c rx = if text = [] then pure () else message env c text := by
  unfold endMessage message
  by_cases short : text.length < rxCap
  · obtain ⟨len, same⟩ := holds.short short
    have within : ¬255 < text.length := by
      simp only [rxCap] at short
      omega
    rw [if_neg (by omega), if_neg within]
    cases text with
    | nil => simp [len]
    | cons b rest =>
      have pos : rx.len.toNat = (b :: rest).length := by omega
      rw [if_pos (by rw [len, List.length_cons]; omega), if_neg nofun, pos, same]
  · have long := Nat.le_of_not_lt short
    have beyond : 255 < text.length := long
    have some_text : text ≠ [] := by
      rintro rfl
      cases beyond
    rw [holds.long long, if_pos (by decide), if_neg some_text, if_pos beyond]

theorem unended_holds (env : Env) (c : Block) (m : Unended) (begun : Bytes)
    (holds : Holds rx begun) (plain : m.binary = false) :
    ∃ grown, receiveFragments env c rx m.frames = pure grown ∧ Holds grown (begun ++ m.text) := by
  obtain ⟨binary, front, unended⟩ := m
  simp only at plain
  subst plain
  induction front generalizing rx begun with
  | nil => exact ⟨rx, rfl, by simpa [Unended.text] using holds⟩
  | cons f rest ih =>
    obtain ⟨grown, appended, held⟩ := append_holds f.payload holds
    obtain ⟨last, received, whole⟩ := ih (begun ++ f.payload) held fun other member =>
      unended other (List.mem_cons_of_mem f member)
    refine ⟨last, ?_, ?_⟩
    · have goes_on : f.ends = false := unended f List.mem_cons_self
      have one : receiveFragment env c rx (false, f) = pure grown := by
        simp [receiveFragment, appended, goes_on]
      simpa [receiveFragments, Unended.frames, List.foldlM_cons, one] using received
    · simpa [Unended.text] using whole

theorem binary_holds (env : Env) (c : Block) (frames : List Fragment) (clear : Holds rx []) :
    ∃ left, receiveFragments env c rx (frames.map fun f => (true, f)) = pure left ∧
      Holds left [] := by
  induction frames generalizing rx with
  | nil => exact ⟨rx, rfl, clear⟩
  | cons f rest ih =>
    obtain ⟨left, received, held⟩ := ih (holds_cleared rx)
    exact ⟨left, by simpa [receiveFragments, receiveFragment] using received, held⟩

theorem message_answered (env : Env) (c : Block) (m : Message) (clear : Holds rx []) :
    ∃ left, receiveFragments env c rx m.frames = (do answer env c m; pure left) ∧
      Holds left [] := by
  unfold answer
  cases kind : m.binary with
  | true =>
    obtain ⟨left, received, held⟩ := binary_holds env c (m.front ++ [m.last]) clear
    refine ⟨left, ?_, held⟩
    simpa [Message.frames, Unended.frames, kind] using received
  | false =>
    obtain ⟨grown, received, held⟩ := unended_holds env c m.toUnended [] clear kind
    obtain ⟨whole, appended, all⟩ := append_holds m.last.payload held
    refine ⟨{ whole with len := 0 }, ?_, holds_cleared whole⟩
    have ended := end_holds env c all
    simp only [List.nil_append] at ended
    have split : receiveFragments env c rx m.frames =
        receiveFragments env c rx m.toUnended.frames >>= fun grown =>
          receiveFragment env c grown (m.binary, m.last) := by
      simp [receiveFragments, Message.frames, List.foldlM_append]
    rw [split, received, pure_bind, receiveFragment, kind]
    simp [appended, m.ended, ended, Message.text]

/-- The messages of a connection are answered whole, one after the other, however lws cuts
them, and no write leaves the buffer. -/
theorem reassembled (env : Env) (c : Block) (messages : List Message) (rest : Unended) :
    ∃ left, receiveFragments env c .zeroed (messages.flatMap Message.frames ++ rest.frames) =
        (do messages.forM (answer env c); pure left) ∧ -1 ≤ left.len ∧ left.len < rxCap := by
  suffices general : ∀ rx, Holds rx [] → ∃ left, receiveFragments env c rx
      (messages.flatMap Message.frames ++ rest.frames) =
        (do messages.forM (answer env c); pure left) ∧ -1 ≤ left.len ∧ left.len < rxCap from
    general .zeroed (holds_cleared .zeroed)
  induction messages with
  | nil =>
    intro rx clear
    have tail : ∃ left text, receiveFragments env c rx rest.frames = pure left ∧
        Holds left text := by
      cases kind : rest.binary with
      | true =>
        obtain ⟨left, received, held⟩ := binary_holds env c rest.front clear
        exact ⟨left, [], by simpa [Unended.frames, kind] using received, held⟩
      | false =>
        obtain ⟨left, received, held⟩ := unended_holds env c rest [] clear kind
        exact ⟨left, _, received, held⟩
    obtain ⟨left, text, received, held⟩ := tail
    exact ⟨left, by simpa using received, holds_bounded held⟩
  | cons m others ih =>
    intro rx clear
    obtain ⟨middle, first, held⟩ := message_answered env c m clear
    obtain ⟨left, received, bounded⟩ := ih middle held
    refine ⟨left, ?_, bounded⟩
    have split : receiveFragments env c rx (m.frames ++ (others.flatMap Message.frames ++
        rest.frames)) = receiveFragments env c rx m.frames >>= fun middle =>
          receiveFragments env c middle (others.flatMap Message.frames ++ rest.frames) := by
      simp [receiveFragments, List.foldlM_append]
    rw [List.flatMap_cons, List.append_assoc, split, first]
    simp [received, List.forM_cons]

end Fragments

end HollowGrid
