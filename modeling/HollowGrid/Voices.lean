import HollowGrid.Resolving
import HollowGrid.Listings
import HollowGrid.Trades

/-! What tell, reply, yell, wall and gridcast hand to the queues, and when it is the typed text. -/
namespace HollowGrid

open JsonText

/-- The commands that carry a text, each with the argument it is given. -/
inductive Voice
  | tell (arg : Bytes)
  | reply (arg : Bytes)
  | yell (arg : Bytes)
  | wall (arg : Bytes)
  | gridcast (arg : Bytes)

/-- What a voice comes to: a line that refuses it, or texts handed to queues in order. -/
inductive Uttered
  | refused (start : Server) (t : Text)
  | handed (start : Server) (texts : List (Block × Text))

def Uttered.after (c : Block) : Uttered → Server
  | refused start t => start.queued c (t ++ crlf)
  | handed start texts => texts.foldl (fun g p => g.queued p.1 p.2) start

def telling (g : Server) (line : Bytes) : Option (Block × Bytes) :=
  let (target, msg) := tellParts (skipSpaces line)
  if target = [] ∨ msg = [] then none else (toldBy g target).map fun d => (d, msg)

/- The prose around a text. -/

def tellProse (name msg : Bytes) : Text :=
  raw name ++ lit " tells you, \"" ++ raw msg ++ lit "\"" ++ crlf

def tellEcho (name msg : Bytes) : Text :=
  lit "You tell " ++ raw name ++ lit ", \"" ++ raw msg ++ lit "\""

def yellProse (self msg : Bytes) (you : Bool) : Text :=
  if you then lit "You yell, \"" ++ raw msg ++ lit "\"" ++ crlf
  else raw self ++ lit " yells, \"" ++ raw msg ++ lit "\"" ++ crlf

def wallProse (msg : Bytes) : Text := lit "*** GRID BROADCAST ***  " ++ raw msg ++ crlf

def castProse (msg : Bytes) : Text :=
  lit "You cast your voice into the dead Grid, out across every node: \"" ++ raw msg ++ lit "\""

def saidEvt (kind : String) (cap : Nat) (name msg : Bytes) : Text :=
  snprintf cap (tellEvt kind (escapeText name) (escapeText msg))

def saidFields (name msg : Bytes) : List (Bytes × Value) :=
  [(str "from", .str name), (str "text", .str msg)]

def BothFit (name msg : Bytes) (cap : Nat) : Prop :=
  escapeSize name + 1 ≤ 80 ∧ escapeSize msg + 1 ≤ cap

instance (name msg : Bytes) (cap : Nat) : Decidable (BothFit name msg cap) :=
  inferInstanceAs (Decidable (_ ∧ _))

/-- tell_impl -/
def tellUttered (g : Server) (c : Block) (line : Bytes) : Uttered :=
  let name := (g.blocks c).name
  match telling g line with
  | none =>
    let (target, msg) := tellParts (skipSpaces line)
    .refused g (if target = [] ∨ msg = [] then lit "Tell whom what?  (tell <player> <message>)"
      else lit "No one by that name is connected.")
  | some (d, msg) =>
    .handed (g.updated d fun ch => { ch with replyTo := name })
      (if BothFit name msg 80 then
        [(d, snprintf 280 (tellProse name msg) ++ saidEvt "comm.tell" 320 name msg),
          (c, snprintf 120 (tellEcho (g.blocks d).name msg) ++ crlf)]
      else [])

def yellTexts (env : Env) (self msg : Bytes) (evt : Text) : Nat → List (Block × Session) →
    List (Block × Text)
  | _, [] => []
  | asked, d :: rest =>
    if d.2.name = [] then yellTexts env self msg evt asked rest
    else (d.1, snprintf 280 (yellProse self msg (env.zeroFlag asked)) ++ evt) ::
      yellTexts env self msg evt (asked + 1) rest

def Server.asking (g : Server) (n : Nat) : Server := { g with asked := g.asked + n }

def Server.hearers (g : Server) : List Block := g.present.filter fun d => (g.blocks d).name ≠ []

def yellUttered (env : Env) (g : Server) (c : Block) (msg : Bytes) : Uttered :=
  let name := (g.blocks c).name
  if msg = [] then .refused g (lit "Yell what?  (yell <message>)")
  else if BothFit name msg 200 then
    .handed (g.asking g.hearers.length)
      (yellTexts env name msg (saidEvt "comm.yell" 320 name msg) g.asked
        (g.present.map fun d => (d, g.blocks d)))
  else .handed g []

def wallUttered (env : Env) (g : Server) (c : Block) (msg : Bytes) : Uttered :=
  let name := (g.blocks c).name
  if keeper env (g.blocks c) = false then
    .refused g (lit "Only a keeper of the Grid can broadcast across the wastes.")
  else if msg = [] then .refused g (lit "Announce what?  (wall <message>)")
  else
    .handed g (if BothFit name msg 240 then
      g.present.map fun d =>
        (d, snprintf 320 (wallProse msg) ++ saidEvt "server.announce" 400 name msg)
    else [])

/-- The answer to a cast, and the state after it. -/
def carried (env : Env) (g : Server) (name msg : Bytes) : Bool × Server :=
  match gridGridcast env name msg g with
  | .ok answer => answer
  | .error _ => (false, g)

def castUttered (env : Env) (g : Server) (c : Block) (msg : Bytes) : Uttered :=
  let name := (g.blocks c).name
  if msg = [] then
    .refused g (lit "Gridcast what? (gridcast <message> -- the dead network carries it to " ++
      lit "every world)")
  else
    let (done, next) := carried env g name msg
    if done then
      .handed next ((c, snprintf 280 (castProse msg) ++ crlf) ::
        g.present.map fun d => (d, snprintf 400 (commGridcast env name msg)))
    else .refused next (lit "The Grid swallows your words; the network is unreachable.")

namespace Voice

def run (env : Env) (c : Block) : Voice → Act Unit
  | tell arg => cmdTell c (some arg)
  | reply arg => cmdReply c (some arg)
  | yell arg => cmdYell env c (some arg)
  | wall arg => cmdWall env c (some arg)
  | gridcast arg => cmdGridcast env c (some arg)

def text : Voice → Bytes
  | tell arg => (tellParts (skipSpaces arg)).2
  | reply arg | yell arg | wall arg => argument (some arg)
  | gridcast arg => skipSpaces arg

def uttered (env : Env) (g : Server) (c : Block) : Voice → Uttered
  | tell arg => tellUttered g c arg
  | reply arg =>
    if (g.blocks c).replyTo = [] then .refused g (lit "No one has told you anything lately.")
    else tellUttered g c (((g.blocks c).replyTo ++ [space] ++ argument (some arg)).take 279)
  | yell arg => yellUttered env g c (argument (some arg))
  | wall arg => wallUttered env g c (argument (some arg))
  | gridcast arg => castUttered env g c (skipSpaces arg)

/-- Every recipient is handed the whole text in an event of the sender, and whoever is told of it
in prose is told all of it. -/
def Whole (env : Env) (g : Server) (c : Block) (v : Voice) (texts : List (Block × Text)) : Prop :=
  let name := (g.blocks c).name
  match v with
  | tell _ | reply _ => ∃ d evt, EventLine "comm.tell" evt (saidFields name v.text) ∧
      texts = [(d, tellProse name v.text ++ evt),
        (c, tellEcho (g.blocks d).name v.text ++ crlf)]
  | yell _ => ∃ evt, EventLine "comm.yell" evt (saidFields name v.text) ∧
      texts.map Prod.fst = g.hearers ∧
      ∀ t ∈ texts, ∃ you, t.2 = yellProse name v.text you ++ evt
  | wall _ => ∃ evt, EventLine "server.announce" evt (saidFields name v.text) ∧
      texts = g.present.map fun d => (d, wallProse v.text ++ evt)
  | gridcast _ => ∃ evt, EventLine "comm.gridcast" evt
        ((str "world", .str (slotString 48 (gridWorldName env))) :: saidFields name v.text) ∧
      texts = (c, castProse v.text ++ crlf) :: g.present.map fun d => (d, evt)

/-- It is refused by a line, with nothing changed, or carried whole. -/
def Answered (env : Env) (g : Server) (c : Block) (v : Voice) : Uttered → Prop
  | .refused start t => t ≠ [] ∧ start = { g with asked := start.asked }
  | .handed _ texts => v.Whole env g c texts

def Fits (env : Env) (g : Server) (c : Block) : Voice → Prop
  | tell arg => ∀ d msg, telling g arg = some (d, msg) →
      escapeSize msg ≤ 79 ∧ (g.blocks d).name.length + msg.length ≤ 106
  | reply arg => (g.blocks c).replyTo ≠ [] → argument (some arg) ≠ [] →
      ∀ d, toldBy g (g.blocks c).replyTo = some d →
      escapeSize (argument (some arg)) ≤ 79 ∧
        (g.blocks d).name.length + (argument (some arg)).length ≤ 106
  | yell arg => escapeSize (argument (some arg)) ≤ 199
  | wall arg => keeper env (g.blocks c) = true → escapeSize (argument (some arg)) ≤ 239
  | gridcast arg => skipSpaces arg ≠ [] →
      (carried env g (g.blocks c).name (skipSpaces arg)).1 = true →
      escapeSize (skipSpaces arg) ≤ 199

end Voice

/-- What holds of who speaks: a name of valid_name, a place in the table, and no mark or one of
such a name. -/
structure Speaking (g : Server) (c : Block) : Prop where
  listed : some c ∈ g.sessionTable
  named : validName (g.blocks c).name = true
  reply : (g.blocks c).replyTo = [] ∨ validName (g.blocks c).replyTo = true

section Runs

variable {env : Env} {g : Server} {c d : Block} {name msg line arg : Bytes}

theorem texts_run (texts : List (Block × Text)) (g : Server) :
    (texts.forM fun p => queue p.1 p.2) g = .ok ((), (Uttered.handed g texts).after c) := by
  induction texts generalizing g with
  | nil => rfl
  | cons p rest ih =>
    change (queue p.1 p.2 >>= fun _ => rest.forM fun p => queue p.1 p.2) g = _
    rw [bind_ok (rfl : queue p.1 p.2 g = .ok ((), g.queued p.1 p.2)), ih]
    rfl

theorem escape_fits (cap : Nat) (b : Bytes) :
    jsonEscape cap b = if escapeSize b + 1 ≤ cap then some (escapeText b) else none := by
  have size : (escapeText b).length = escapeSize b := by simp [escapeText, raw, escapeSize]
  rw [jsonEscape, size]

theorem snprintf_short (cap : Nat) (t : Text) : (snprintf cap t).length ≤ cap - 1 :=
  List.length_take_le ..

theorem tell_run (g : Server) (c : Block) (line : Bytes) :
    tellImpl c line g = .ok ((), (tellUttered g c line).after c) := by
  rw [tellImpl, bind_ok (rfl : session c g = .ok (g.blocks c, g))]
  simp only [tellUttered, telling]
  cases parts : tellParts (skipSpaces line) with
  | mk target msg =>
    by_cases bare : target = [] ∨ msg = []
    · simp only [if_pos bare]
      exact line_runs (lit_fits _ (by decide))
    simp only [if_neg bare]
    rw [bind_ok (told_reads g target)]
    cases toldBy g target with
    | none => exact line_runs (lit_fits _ (by decide))
    | some d =>
      simp only [Option.map_some, escape_fits]
      rw [bind_ok (rfl : session d g = .ok (g.blocks d, g))]
      by_cases fits : BothFit (g.blocks c).name msg 80
      · rw [if_pos fits, if_pos fits.1, if_pos fits.2]
        have short := snprintf_short 120 (tellEcho (g.blocks d).name msg)
        have echoed : ∀ g', queueLine c (snprintf 120 (tellEcho (g.blocks d).name msg)) g' = _ :=
          fun _ => line_runs (by omega)
        change (update d _ >>= fun _ => queue d _ >>= fun _ => queueLine c _) g = _
        rw [bind_ok (rfl : update d _ g = .ok ((), g.updated d _)),
          bind_ok (rfl : queue d _ (g.updated d _) = .ok ((), _))]
        exact echoed _
      · rw [if_neg fits, bind_ok (rfl : update d _ g = .ok ((), g.updated d _))]
        by_cases first : escapeSize (g.blocks c).name + 1 ≤ 80
        · have second : ¬escapeSize msg + 1 ≤ 80 := fun second => fits ⟨first, second⟩
          rw [if_pos first, if_neg second]
          rfl
        · rw [if_neg first]
          rfl

theorem reply_run (g : Server) (c : Block) (arg : Bytes) :
    cmdReply c (some arg) g = .ok ((), ((Voice.reply arg).uttered env g c).after c) := by
  rw [cmdReply, bind_ok (rfl : session c g = .ok (g.blocks c, g)), Voice.uttered]
  by_cases alone : (g.blocks c).replyTo = []
  · rw [if_pos alone, if_pos alone]
    exact line_runs (lit_fits _ (by decide))
  · rw [if_neg alone, if_neg alone]
    exact tell_run g c _

theorem asking_more (g : Server) (n : Nat) : g.asking (1 + n) = (g.asking 1).asking n := by
  simp only [Server.asking, Nat.add_assoc]

/-- The sessions that have no name are passed over, and each of the others has one answer asked
for it. -/
theorem yells_run (self msg : Bytes) (evt : Text) (sessions : List (Block × Session))
    (g : Server) : sessions.forM (yellTo env self msg evt) g =
      .ok ((), (Uttered.handed (g.asking (sessions.filter fun d => d.2.name ≠ []).length)
        (yellTexts env self msg evt g.asked sessions)).after c) := by
  induction sessions generalizing g with
  | nil => rfl
  | cons d rest ih =>
    change (yellTo env self msg evt d >>= fun _ => rest.forM (yellTo env self msg evt)) g = _
    by_cases unnamed : d.2.name = []
    · have passed : yellTo env self msg evt d g = .ok ((), g) := by
        rw [yellTo, if_pos unnamed]
        rfl
      rw [bind_ok passed, ih]
      simp [yellTexts, unnamed]
    · have spoke : yellTo env self msg evt d g = .ok ((), (g.asking 1).queued d.1
          (snprintf 280 (yellProse self msg (env.zeroFlag g.asked)) ++ evt)) := by
        rw [yellTo, if_neg unnamed]
        rfl
      rw [bind_ok spoke, ih, yellTexts, if_neg unnamed,
        List.filter_cons_of_pos (by simpa using unnamed), List.length_cons, Nat.add_comm _ 1,
        asking_more]
      rfl

theorem yell_run (env : Env) (g : Server) (c : Block) (arg : Ptr) :
    cmdYell env c arg g = .ok ((), (yellUttered env g c (argument arg)).after c) := by
  rw [cmdYell, bind_ok (rfl : session c g = .ok (g.blocks c, g)), yellUttered]
  simp only [escape_fits]
  by_cases bare : argument arg = []
  · rw [if_pos bare, if_pos bare]
    exact line_runs (lit_fits _ (by decide))
  rw [if_neg bare, if_neg bare]
  have heard : ((g.present.map fun d => (d, g.blocks d)).filter fun d => d.2.name ≠ []).length =
      g.hearers.length := by
    rw [List.filter_map, List.length_map]
    rfl
  by_cases fits : BothFit (g.blocks c).name (argument arg) 200
  · rw [if_pos fits, if_pos fits.1, if_pos fits.2, ← heard]
    exact yells_run _ _ _ _ g
  · rw [if_neg fits]
    by_cases first : escapeSize (g.blocks c).name + 1 ≤ 80
    · have second : ¬escapeSize (argument arg) + 1 ≤ 200 := fun second => fits ⟨first, second⟩
      rw [if_pos first, if_neg second]
      rfl
    · rw [if_neg first]
      rfl

theorem all_run (t : Text) (g : Server) :
    deliverAll t [] g = .ok ((), (Uttered.handed g (g.present.map fun d => (d, t))).after c) := by
  have unspared (d : Block × Session) : when (excepted d.2 [] = false) (queue d.1 t) =
      queue d.1 t := by
    simp [excepted, when]
  have each (blocks : List Block) (s : Block → Session) (h : Server) :
      ((blocks.map fun d => (d, s d)).forM fun d => queue d.1 t) h =
        (blocks.map fun d => (d, t)).forM (fun p => queue p.1 p.2) h := by
    induction blocks generalizing h with
    | nil => rfl
    | cons d rest ih =>
      change (queue d t >>= fun _ => (rest.map fun d => (d, s d)).forM fun d => queue d.1 t) h =
        (queue d t >>= fun _ => (rest.map fun d => (d, t)).forM fun p => queue p.1 p.2) h
      rw [bind_ok (rfl : queue d t h = .ok ((), h.queued d t)),
        bind_ok (rfl : queue d t h = .ok ((), h.queued d t)), ih]
  rw [deliverAll, bind_ok (rfl : listed g = .ok (_, g)), ← texts_run, ← each g.present g.blocks g]
  simp only [unspared]
  rfl

theorem wall_run (env : Env) (g : Server) (c : Block) (arg : Ptr) :
    cmdWall env c arg g = .ok ((), (wallUttered env g c (argument arg)).after c) := by
  rw [cmdWall, bind_ok (rfl : session c g = .ok (g.blocks c, g)), wallUttered]
  simp only [escape_fits]
  by_cases away : keeper env (g.blocks c) = false
  · rw [if_pos away, if_pos away]
    exact line_runs (lit_fits _ (by decide))
  rw [if_neg away, if_neg away]
  by_cases bare : argument arg = []
  · rw [if_pos bare, if_pos bare]
    exact line_runs (lit_fits _ (by decide))
  rw [if_neg bare, if_neg bare]
  by_cases fits : BothFit (g.blocks c).name (argument arg) 240
  · rw [if_pos fits, if_pos fits.1, if_pos fits.2]
    exact all_run _ g
  · rw [if_neg fits]
    by_cases first : escapeSize (g.blocks c).name + 1 ≤ 80
    · have second : ¬escapeSize (argument arg) + 1 ≤ 240 := fun second => fits ⟨first, second⟩
      rw [if_pos first, if_neg second]
      rfl
    · rw [if_neg first]
      rfl

/-- A cast asks the hub or writes the tables, and leaves every session as it was. -/
theorem carried_runs (env : Env) (g : Server) (name msg : Bytes) :
    gridGridcast env name msg g = .ok (carried env g name msg) ∧
      (carried env g name msg).2.present = g.present ∧
      (carried env g name msg).2.blocks = g.blocks ∧
      ((carried env g name msg).1 = false → (carried env g name msg).2 =
        { g with asked := (carried env g name msg).2.asked }) := by
  unfold carried gridGridcast rpcCall
  cases env.remote with
  | true => exact ⟨rfl, rfl, rfl, fun _ => rfl⟩
  | false => exact ⟨rfl, rfl, rfl, nofun⟩

theorem cast_run (env : Env) (g : Server) (c : Block) (arg : Bytes) :
    cmdGridcast env c (some arg) g = .ok ((), (castUttered env g c (skipSpaces arg)).after c) := by
  rw [cmdGridcast, bind_ok (rfl : session c g = .ok (g.blocks c, g)), castUttered]
  simp only
  by_cases bare : skipSpaces arg = []
  · rw [if_pos bare, if_pos bare]
    exact line_runs (by decide)
  rw [if_neg bare, if_neg bare]
  obtain ⟨ran, present, blocks, _⟩ := carried_runs env g (g.blocks c).name (skipSpaces arg)
  cases answer : carried env g (g.blocks c).name (skipSpaces arg) with
  | mk done next =>
  rw [answer] at ran present blocks
  rw [bind_ok ran]
  cases done with
  | false =>
    have swallowed : (lit "The Grid swallows your words; the network is unreachable.").length + 3 ≤
      4096 := by decide
    exact line_runs swallowed
  | true =>
    have short := snprintf_short 280 (castProse (skipSpaces arg))
    have cast : queueLine c (snprintf 280 (castProse (skipSpaces arg))) next =
      .ok ((), next.queued c (snprintf 280 (castProse (skipSpaces arg)) ++ crlf)) :=
      line_runs (by omega)
    have later : (next.queued c (snprintf 280 (castProse (skipSpaces arg)) ++ crlf)).present =
        g.present := present
    change (session c >>= _) next = _
    rw [bind_ok (rfl : session c next = .ok (next.blocks c, next)), blocks]
    change (queueLine c (snprintf 280 (castProse (skipSpaces arg))) >>= fun _ =>
      deliverAll (snprintf 400 (commGridcast env (g.blocks c).name (skipSpaces arg))) []) next = _
    rw [bind_ok cast, all_run (c := c), later]
    rfl

theorem voice_run (v : Voice) (env : Env) (g : Server) (c : Block) :
    v.run env c g = .ok ((), (v.uttered env g c).after c) := by
  cases v with
  | tell arg => exact tell_run g c arg
  | reply arg => exact reply_run g c arg
  | yell arg => exact yell_run env g c (some arg)
  | wall arg => exact wall_run env g c (some arg)
  | gridcast arg => exact cast_run env g c arg

end Runs

section Answers

variable {env : Env} {g : Server} {c d : Block} {name msg line : Bytes}

theorem escape_longer (b : Bytes) : b.length ≤ escapeSize b := by
  have one (x : UInt8) : 1 ≤ (escapeByte x).length := by
    unfold escapeByte
    repeat' split
    all_goals first | decide | simp [hexText]
  induction b with
  | nil => exact Nat.le_refl 0
  | cons x rest ih =>
    have first := one x
    have size : escapeSize (x :: rest) = (escapeByte x).length + escapeSize rest := by
      simp [escapeSize]
    rw [size, List.length_cons]
    omega

theorem name_byte_plain {x : UInt8} (plain : nameByte x = true) : escapeByte x = [x] := by
  have table : ∀ n : Fin 256, nameByte (UInt8.ofNat n) = true →
      escapeByte (UInt8.ofNat n) = [UInt8.ofNat n] := by decide +kernel
  have own := table ⟨x.toNat, x.toNat_lt⟩
  simp only [UInt8.ofNat_toNat] at own
  exact own plain

theorem escape_name (named : validName name = true) :
    escapeSize name = name.length ∧ name.length ≤ 32 := by
  simp only [validName, Bool.and_eq_true, decide_eq_true_eq, List.all_eq_true] at named
  obtain ⟨⟨_, short⟩, plain⟩ := named
  refine ⟨?_, short⟩
  have itself : name.flatMap escapeByte = name.flatMap fun x => [x] :=
    List.flatMap_congr fun x member => name_byte_plain (plain x member)
  rw [escapeSize, itself, List.flatMap_singleton']

theorem bytes_escape (b : Bytes) : bytes (escapeText b) = b.flatMap escapeByte := bytes_raw _

theorem escape_text_length (b : Bytes) : (escapeText b).length = escapeSize b := by
  simp [escapeText, raw, escapeSize]

theorem said_event {kind : String} {size cap : Nat} (fits : BothFit name msg size)
    (named : (str kind).count 10 = 0) (room : 110 + (str kind).length + size ≤ cap) :
    EventLine kind (saidEvt kind cap name msg) (saidFields name msg) := by
  let members : List Member := [slotField "from" 80 name, slotField "text" size msg]
  have same : bytes (tellEvt kind (escapeText name) (escapeText msg)) =
      str "@event " ++ str kind ++ [32] ++ objectText members ++ [13, 10] := by
    unfold tellEvt
    simp only [bytes_join, bytes_lit, bytes_escape]
    simp [str, objectText, members, Member.body, slotField, slot_whole fits.1, slot_whole fits.2]
  have legible : ∀ m ∈ members, Legible 1 m := by
    simp only [members, List.forall_mem_cons, List.not_mem_nil, false_implies, implies_true,
      and_true]
    exact ⟨slot_legible (by decide) 80 name (by decide),
      slot_legible (by decide) size msg (by decide)⟩
  refine (composed_iff cap (saidFields name msg) named (by simp [members]) legible same
    (by simp [members, objectText, List.intercalate]; omega)).mpr ⟨?_, ?_⟩
  · have keys : (lit "@event ").length = 7 ∧ (lit r#" {"from":""#).length = 10 ∧
      (lit r#"","text":""#).length = 10 ∧ (lit r#""}"#).length = 2 ∧ crlf.length = 2 :=
    ⟨length_lit _, length_lit _, length_lit _, length_lit _, length_lit _⟩
    have word : (lit kind).length = (str kind).length := by simp [lit]
    have first := fits.1
    have second := fits.2
    simp only [tellEvt, List.length_append, escape_text_length, keys, word]
    omega
  · simp [members, saidFields, slotField, slot_whole fits.1, slot_whole fits.2]

theorem escaped_short (cap : Nat) (b : Bytes) : (escaped cap b).length ≤ cap - 1 := by
  rw [escaped, escape_fits]
  split
  · simp only [Option.getD_some, escape_text_length]
    omega
  · exact Nat.zero_le _

theorem prose_whole {cap : Nat} {t : Text} (fits : t.length < cap) : snprintf cap t = t :=
  List.take_of_length_le (by omega)

/-- What is handed on of a tell is all of it exactly when the message fits its slot and the echo
its line. -/
theorem tell_whole_iff (named : validName name = true) :
    (∃ d' evt, EventLine "comm.tell" evt (saidFields name msg) ∧
      (if BothFit name msg 80 then
        [(d, snprintf 280 (tellProse name msg) ++ saidEvt "comm.tell" 320 name msg),
          (c, snprintf 120 (tellEcho (g.blocks d).name msg) ++ crlf)]
      else []) = [(d', tellProse name msg ++ evt),
        (c, tellEcho (g.blocks d').name msg ++ crlf)]) ↔
      escapeSize msg ≤ 79 ∧ (g.blocks d).name.length + msg.length ≤ 106 := by
  obtain ⟨plain, short⟩ := escape_name named
  have longer := escape_longer msg
  have echo : (tellEcho (g.blocks d).name msg).length =
      13 + ((g.blocks d).name.length + msg.length) := by
    have keys : (lit "You tell ").length = 9 ∧ (lit ", \"").length = 3 ∧ (lit "\"").length = 1 :=
      ⟨length_lit _, length_lit _, length_lit _⟩
    simp only [tellEcho, List.length_append, keys, raw, List.length_map]
    omega
  have prose : (tellProse name msg).length = 16 + name.length + msg.length := by
    have keys : (lit " tells you, \"").length = 13 ∧ (lit "\"").length = 1 ∧ crlf.length = 2 :=
      ⟨length_lit _, length_lit _, length_lit _⟩
    simp only [tellProse, List.length_append, keys, raw, List.length_map]
    omega
  constructor
  · rintro ⟨d', evt, _, same⟩
    by_cases fits : BothFit name msg 80
    · rw [if_pos fits] at same
      simp only [List.cons.injEq, Prod.mk.injEq, true_and, and_true] at same
      obtain ⟨⟨rfl, _⟩, told⟩ := same
      have whole := congrArg List.length (List.append_cancel_right told)
      have cut := snprintf_short 120 (tellEcho (g.blocks d).name msg)
      have size := fits.2
      omega
    · rw [if_neg fits] at same
      cases same
  · rintro ⟨size, line⟩
    have fits : BothFit name msg 80 := ⟨by omega, by omega⟩
    refine ⟨d, saidEvt "comm.tell" 320 name msg, said_event fits (by decide) (by decide), ?_⟩
    rw [if_pos fits, prose_whole (by omega), prose_whole (by omega)]

theorem skip_name {b : UInt8} (rest : Bytes) (other : b ≠ space) :
    skipSpaces (b :: rest) = b :: rest := by
  simp [skipSpaces, skipWhile, other]

theorem skip_skipped (b : Bytes) (k : Nat) :
    skipSpaces (space :: (skipSpaces b).take k) = (skipSpaces b).take k := by
  have first : skipSpaces (space :: (skipSpaces b).take k) =
      skipSpaces ((skipSpaces b).take k) := by
    simp [skipSpaces, skipWhile]
  rw [first]
  induction b with
  | nil => simp [skipSpaces, skipWhile]
  | cons x rest ih =>
    by_cases blank : x = space
    · have same : skipSpaces (x :: rest) = skipSpaces rest := by
        simp [skipSpaces, skipWhile, blank]
      rw [same] at first ⊢
      exact ih first
    · rw [skip_name rest blank]
      cases k with
      | zero => rfl
      | succ k => exact skip_name _ blank

/-- A line of a mark and a text is for the player of the mark, as far as the line holds. -/
theorem marked_telling (g : Server) {reply : Bytes} (named : validName reply = true) (arg : Ptr) :
    telling g ((reply ++ [space] ++ argument arg).take 279) =
      if argument arg = [] then none
      else (toldBy g reply).map fun d => (d, (argument arg).take (278 - reply.length)) := by
  simp only [validName, Bool.and_eq_true, decide_eq_true_eq, List.all_eq_true] at named
  obtain ⟨⟨some_bytes, short⟩, plain⟩ := named
  have spaceless : ∀ x ∈ reply, x ≠ space := by
    rintro x member rfl
    exact absurd (plain space member) (by decide)
  have cut : (reply ++ [space] ++ argument arg).take 279 =
      reply ++ space :: (argument arg).take (278 - reply.length) := by
    rw [List.append_assoc, List.take_append, List.take_of_length_le (by omega)]
    have room : 279 - reply.length = (278 - reply.length) + 1 := by omega
    rw [room]
    rfl
  have head : skipSpaces (reply ++ space :: (argument arg).take (278 - reply.length)) =
      reply ++ space :: (argument arg).take (278 - reply.length) := by
    cases reply with
    | nil => simp at some_bytes
    | cons b rest => exact skip_name _ (spaceless b List.mem_cons_self)
  have target : ((reply ++ space :: (argument arg).take (278 - reply.length)).takeWhile
      (· ≠ space)).take 39 = reply := by
    rw [List.takeWhile_append_of_pos (by simpa using spaceless)]
    simp
    omega
  have text : skipSpaces ((reply ++ space :: (argument arg).take (278 - reply.length)).drop
      reply.length) = (argument arg).take (278 - reply.length) := by
    rw [List.drop_left]
    exact skip_skipped _ _
  have parts : tellParts (reply ++ space :: (argument arg).take (278 - reply.length)) =
      (reply, (argument arg).take (278 - reply.length)) := by
    simp only [tellParts, target, text]
  have some_name : reply ≠ [] := by
    rintro rfl
    simp at some_bytes
  simp only [telling, cut, head, parts, some_name, false_or]
  by_cases bare : argument arg = []
  · simp [bare]
  · rw [if_neg bare, if_neg]
    have some_text := List.length_pos_iff.mpr bare
    refine List.ne_nil_of_length_pos ?_
    rw [List.length_take]
    omega

theorem tell_answered (speaking : Speaking g c) (arg : Bytes) :
    (Voice.tell arg).Answered env g c (tellUttered g c arg) ↔ (Voice.tell arg).Fits env g c := by
  cases parts : tellParts (skipSpaces arg) with
  | mk target msg =>
    have typed : (Voice.tell arg).text = msg := by rw [Voice.text, parts]
    cases meant : telling g arg with
    | none =>
      simp only [tellUttered, meant, Voice.Answered, Voice.Fits]
      refine iff_of_true ⟨?_, trivial⟩ (by simp)
      split <;> decide
    | some p =>
      obtain ⟨d, told⟩ := p
      have same : told = msg := by
        simp only [telling, parts] at meant
        split at meant
        · cases meant
        · obtain ⟨_, _, same⟩ := Option.map_eq_some_iff.mp meant
          cases same
          rfl
      subst same
      simp only [tellUttered, meant, Voice.Answered, Voice.Whole, Voice.Fits, typed,
        Option.some.injEq, Prod.mk.injEq, and_imp]
      refine (tell_whole_iff speaking.named).trans ⟨?_, fun fits => fits d told rfl rfl⟩
      rintro fits d' msg rfl rfl
      exact fits

theorem reply_answered (speaking : Speaking g c) (arg : Bytes) :
    (Voice.reply arg).Answered env g c ((Voice.reply arg).uttered env g c) ↔
      (Voice.reply arg).Fits env g c := by
  by_cases alone : (g.blocks c).replyTo = []
  · simp only [Voice.uttered, if_pos alone, Voice.Answered, Voice.Fits]
    exact iff_of_true ⟨by decide, trivial⟩ fun marked => absurd alone marked
  have named := speaking.reply.resolve_left alone
  have meant := marked_telling g named (some arg)
  have short := (escape_name named).2
  have longer := escape_longer (argument (some arg))
  simp only [Voice.uttered, if_neg alone, tellUttered]
  by_cases bare : argument (some arg) = []
  · rw [if_pos bare] at meant
    simp only [meant, Voice.Answered, Voice.Fits]
    refine iff_of_true ⟨?_, trivial⟩ fun _ some_text => absurd bare some_text
    split <;> decide
  rw [if_neg bare] at meant
  cases found : toldBy g (g.blocks c).replyTo with
  | none =>
    rw [found] at meant
    simp only [meant, Option.map_none, Voice.Answered, Voice.Fits, found]
    refine iff_of_true ⟨?_, trivial⟩ (by simp)
    split <;> decide
  | some d =>
    rw [found] at meant
    simp only [meant, Option.map_some, Voice.Answered, Voice.Fits, found, Voice.Whole, Voice.text]
    by_cases held : (argument (some arg)).length ≤ 278 - (g.blocks c).replyTo.length
    · rw [List.take_of_length_le held]
      refine (tell_whole_iff speaking.named).trans ⟨?_, fun fits => fits alone bare d rfl⟩
      rintro fits _ _ d' same
      cases same
      exact fits
    · -- what is left of the text is far too long for its slot, as the text is
      have longer' := escape_longer ((argument (some arg)).take (278 - (g.blocks c).replyTo.length))
      rw [List.length_take, Nat.min_eq_left (by omega)] at longer'
      have spilt : ¬BothFit (g.blocks c).name
          ((argument (some arg)).take (278 - (g.blocks c).replyTo.length)) 80 := by
        rintro ⟨_, size⟩
        omega
      rw [if_neg spilt]
      refine iff_of_false ?_ fun fits => ?_
      · rintro ⟨_, _, _, same⟩
        cases same
      · have size := (fits alone bare d rfl).1
        omega

theorem yell_heard (env : Env) (self msg : Bytes) (evt : Text) (asked : Nat)
    (sessions : List (Block × Session)) :
    (yellTexts env self msg evt asked sessions).map Prod.fst =
        (sessions.filter fun d => d.2.name ≠ []).map Prod.fst ∧
      ∀ t ∈ yellTexts env self msg evt asked sessions,
        ∃ you, t.2 = snprintf 280 (yellProse self msg you) ++ evt := by
  induction sessions generalizing asked with
  | nil => exact ⟨rfl, by simp [yellTexts]⟩
  | cons d rest ih =>
    by_cases unnamed : d.2.name = []
    · simpa [yellTexts, unnamed] using ih asked
    · obtain ⟨heard, each⟩ := ih (asked + 1)
      rw [yellTexts, if_neg unnamed, List.filter_cons_of_pos (by simpa using unnamed)]
      refine ⟨by rw [List.map_cons, List.map_cons, heard], fun t member => ?_⟩
      rcases List.mem_cons.mp member with rfl | later
      · exact ⟨env.zeroFlag asked, rfl⟩
      · exact each t later

theorem yell_length (self msg : Bytes) (you : Bool) :
    (yellProse self msg you).length ≤ self.length + msg.length + 14 := by
  have keys : (lit "You yell, \"").length = 11 ∧ (lit " yells, \"").length = 9 ∧
    (lit "\"").length = 1 ∧ crlf.length = 2 :=
    ⟨length_lit _, length_lit _, length_lit _, length_lit _⟩
  cases you <;> simp only [yellProse, if_true, Bool.false_eq_true, if_false, List.length_append,
    keys, raw, List.length_map] <;> omega

theorem yell_answered (speaking : Speaking g c) (arg : Bytes) :
    (Voice.yell arg).Answered env g c ((Voice.yell arg).uttered env g c) ↔
      (Voice.yell arg).Fits env g c := by
  obtain ⟨plain, short⟩ := escape_name speaking.named
  have longer := escape_longer (argument (some arg))
  simp only [Voice.uttered, yellUttered, Voice.Fits]
  by_cases bare : argument (some arg) = []
  · rw [if_pos bare, bare]
    exact iff_of_true ⟨by decide, rfl⟩ (by decide)
  rw [if_neg bare]
  by_cases fits : BothFit (g.blocks c).name (argument (some arg)) 200
  · rw [if_pos fits]
    have size := fits.2
    refine iff_of_true ?_ (by omega)
    obtain ⟨heard, each⟩ := yell_heard env (g.blocks c).name (argument (some arg))
      (saidEvt "comm.yell" 320 (g.blocks c).name (argument (some arg))) g.asked
      (g.present.map fun d => (d, g.blocks d))
    refine ⟨saidEvt "comm.yell" 320 (g.blocks c).name (argument (some arg)),
      said_event fits (by decide) (by decide), ?_, fun t member => ?_⟩
    · rw [heard, List.filter_map, List.map_map]
      exact List.map_id _
    · obtain ⟨you, told⟩ := each t member
      refine ⟨you, ?_⟩
      rw [told, prose_whole]
      · rfl
      · have prose := yell_length (g.blocks c).name (argument (some arg)) you
        omega
  · rw [if_neg fits]
    have spilt : ¬escapeSize (argument (some arg)) ≤ 199 := fun size => fits ⟨by omega, by omega⟩
    refine iff_of_false ?_ spilt
    rintro ⟨_, _, nobody, _⟩
    have some_name : (g.blocks c).name ≠ [] := by
      intro unnamed
      have named := speaking.named
      rw [unnamed] at named
      cases named
    have hears : c ∈ g.hearers :=
      List.mem_filter.mpr ⟨(mem_present g c).mpr speaking.listed, by simpa using some_name⟩
    rw [← nobody] at hears
    cases hears

theorem wall_answered (speaking : Speaking g c) (arg : Bytes) :
    (Voice.wall arg).Answered env g c ((Voice.wall arg).uttered env g c) ↔
      (Voice.wall arg).Fits env g c := by
  obtain ⟨plain, short⟩ := escape_name speaking.named
  have longer := escape_longer (argument (some arg))
  simp only [Voice.uttered, wallUttered, Voice.Fits]
  by_cases away : keeper env (g.blocks c) = false
  · rw [if_pos away]
    exact iff_of_true ⟨by decide, rfl⟩ (by simp [away])
  rw [if_neg away]
  by_cases bare : argument (some arg) = []
  · rw [if_pos bare, bare]
    exact iff_of_true ⟨by decide, rfl⟩ fun _ => by decide
  rw [if_neg bare]
  by_cases fits : BothFit (g.blocks c).name (argument (some arg)) 240
  · rw [if_pos fits]
    have size := fits.2
    refine iff_of_true ⟨saidEvt "server.announce" 400 (g.blocks c).name (argument (some arg)),
      said_event fits (by decide) (by decide), ?_⟩ fun _ => by omega
    have prose : (wallProse (argument (some arg))).length < 320 := by
      have keys : (lit "*** GRID BROADCAST ***  ").length = 24 ∧ crlf.length = 2 :=
        ⟨length_lit _, length_lit _⟩
      simp only [wallProse, List.length_append, keys, raw, List.length_map]
      omega
    rw [prose_whole prose]
    rfl
  · rw [if_neg fits]
    have spilt : ¬escapeSize (argument (some arg)) ≤ 239 := fun size => fits ⟨by omega, by omega⟩
    refine iff_of_false ?_ fun size => spilt (size (by simpa using away))
    rintro ⟨_, _, nobody⟩
    have hears := (mem_present g c).mpr speaking.listed
    rw [List.map_eq_nil_iff.mp nobody.symm] at hears
    cases hears

theorem cast_event (env : Env) (name msg : Bytes) (fields : List (Bytes × Value)) :
    EventLine "comm.gridcast" (snprintf 400 (commGridcast env name msg)) fields ↔
      (str "world", Value.str (slotString 48 (gridWorldName env))) ::
        [(str "from", .str (slotString 80 name)), (str "text", .str (slotString 200 msg))] =
      fields := by
  let members : List Member := [slotField "world" 48 (gridWorldName env),
    slotField "from" 80 name, slotField "text" 200 msg]
  have same : bytes (commGridcast env name msg) =
      str "@event " ++ str "comm.gridcast" ++ [32] ++ objectText members ++ [13, 10] := by
    unfold commGridcast
    simp only [bytes_join, bytes_lit, escaped_bytes]
    simp [str, objectText, members, Member.body, slotField]
  have legible : ∀ m ∈ members, Legible 1 m := by
    simp only [members, List.forall_mem_cons, List.not_mem_nil, false_implies, implies_true,
      and_true]
    exact ⟨slot_legible (by decide) 48 _ (by decide), slot_legible (by decide) 80 name (by decide),
      slot_legible (by decide) 200 msg (by decide)⟩
  refine (composed_iff 400 fields (by decide) (by simp [members]) legible same
    (by simp [members, objectText, List.intercalate]; omega)).trans ?_
  have size : (commGridcast env name msg).length < 400 := by
    have keys : (lit r#"@event comm.gridcast {"world":""#).length = 31 ∧
      (lit r#"","from":""#).length = 10 ∧ (lit r#"","text":""#).length = 10 ∧
      (lit r#""}"#).length = 2 ∧ crlf.length = 2 :=
      ⟨length_lit _, length_lit _, length_lit _, length_lit _, length_lit _⟩
    have world := escaped_short 48 (gridWorldName env)
    have first := escaped_short 80 name
    have second := escaped_short 200 msg
    simp only [commGridcast, List.length_append, keys]
    omega
  exact and_iff_right size

theorem cast_answered (speaking : Speaking g c) (arg : Bytes) :
    (Voice.gridcast arg).Answered env g c ((Voice.gridcast arg).uttered env g c) ↔
      (Voice.gridcast arg).Fits env g c := by
  obtain ⟨plain, short⟩ := escape_name speaking.named
  have longer := escape_longer (skipSpaces arg)
  have own : slotString 80 (g.blocks c).name = (g.blocks c).name := slot_whole (by omega)
  simp only [Voice.uttered, castUttered, Voice.Fits]
  by_cases bare : skipSpaces arg = []
  · rw [if_pos bare]
    exact iff_of_true ⟨by decide, rfl⟩ fun some_text => absurd bare some_text
  rw [if_neg bare]
  have answer := carried_runs env g (g.blocks c).name (skipSpaces arg)
  cases done : (carried env g (g.blocks c).name (skipSpaces arg)).1 with
  | false =>
    refine iff_of_true ⟨?_, answer.2.2.2 done⟩ (by simp)
    decide
  | true =>
    simp only [if_true, Voice.Answered, Voice.Whole, Voice.text, bare, forall_const, ne_eq,
      not_false_eq_true]
    constructor
    · rintro ⟨evt, event, same⟩
      obtain ⟨_, rest⟩ := List.cons.inj same
      have handed : snprintf 400 (commGridcast env (g.blocks c).name (skipSpaces arg)) = evt := by
        have both := List.map_inj_left.mp rest c ((mem_present g c).mpr speaking.listed)
        exact (Prod.mk.inj both).2
      rw [← handed, cast_event] at event
      simp only [saidFields, own, List.cons.injEq, Prod.mk.injEq, Value.str.injEq, true_and,
        and_true] at event
      have fits := (slot_string_iff (by decide) _).mp event
      omega
    · intro size
      refine ⟨snprintf 400 (commGridcast env (g.blocks c).name (skipSpaces arg)), ?_, ?_⟩
      · rw [cast_event, own, slot_whole (b := skipSpaces arg) (by omega)]
        rfl
      · rw [prose_whole]
        have keys : (lit "You cast your voice into the dead Grid, out across every node: \"").length =
          64 ∧ (lit "\"").length = 1 := ⟨length_lit _, length_lit _⟩
        simp only [castProse, List.length_append, keys, raw, List.length_map]
        omega

/-- What a voice does is what it utters; and it carries its text whole, or refuses it and changes
nothing, exactly when the text fits. -/
theorem voice_answered_iff (v : Voice) (env : Env) (speaking : Speaking g c) :
    v.run env c g = .ok ((), (v.uttered env g c).after c) ∧
      (v.Answered env g c (v.uttered env g c) ↔ v.Fits env g c) := by
  refine ⟨voice_run v env g c, ?_⟩
  cases v with
  | tell arg => exact tell_answered speaking arg
  | reply arg => exact reply_answered speaking arg
  | yell arg => exact yell_answered speaking arg
  | wall arg => exact wall_answered speaking arg
  | gridcast arg => exact cast_answered speaking arg

theorem voice_answered_ada : Speaking (company false) 0 ∧
    ((Voice.yell (str "hello")).Answered quietNode (company false) 0
      ((Voice.yell (str "hello")).uttered quietNode (company false) 0) ↔
      (Voice.yell (str "hello")).Fits quietNode (company false) 0) := by
  have speaking : Speaking (company false) 0 :=
    ⟨by decide, by decide +kernel, .inl (by decide +kernel)⟩
  exact ⟨speaking, (voice_answered_iff _ quietNode speaking).2⟩

/-- A yell of 200 bytes is neither heard nor refused. -/
theorem long_yell_lost : ¬ ∀ (v : Voice) (g : Server) (c : Block), Speaking g c →
    v.Answered quietNode g c (v.uttered quietNode g c) := by
  intro always
  have speaking : Speaking (company false) 0 :=
    ⟨by decide, by decide +kernel, .inl (by decide +kernel)⟩
  have heard (arg : Bytes) := (yell_answered speaking arg).mp (always (.yell arg) _ 0 speaking)
  have fits : escapeSize (argument (some (List.replicate 200 97))) ≤ 199 := heard _
  revert fits
  decide +kernel

end Answers

end HollowGrid
