import HollowGrid.Lib.Stack
import HollowGrid.Lib.Bytes

/-! The stack discipline of hg_world_command: its code up to the first call of prefix, the code that
a scene runs, tell_impl and hg_cmd_treat, as what each instruction does to the stack, the saved
registers and control. -/
namespace HollowGrid.Discipline

open Stack

inductive Register
  | rbx | rbp | r12 | r13 | r14 | r15
  deriving DecidableEq

/-- The C functions that are called, and others. -/
inductive Extern
  | strcasecmp | strncasecmp | strcmp | strlen | strcpy | memcpy | snprintf
  | hgWsRequestWrite | hgEmitSceneNow | hgEmitVitalsNow | hgQueueLine | hgQueueCstr | hgJsonEscape
  | other (n : Nat)

/-- Labels, with the name of their function where it is not clear. -/
inductive Label
  | eq | prefixTest | hgWorldCommand | scene | worldDone
  | hgEmitScene
  | hgSessionQueue | queueCopy | queueRequest
  | hgAnnounceCacheNow | announceOut
  | queueLineH | queueCstrH
  | hgRoomLiveMobs | static | hgSessionAt | noSession | hgWorldTickValue
  | hgRoomId | hgRoomName | hgRoomDesc | hgRoomExits | hgRoomMobs | hgRoomActions | bad
  | addAction | noComma | failPop
  | hgActionsJsonFor | tavern | market | mJc | mJd | mAfterMoral | mSteal
  | dais | dNotFront | dJc | dJd | dAlly | close
  | flags | fHunt | fFac | fAlly | fAsh | fDone | fail | actionsDone
  | hgBrandStanding | bEmpty | bAsh | bFront | bAlly | bBeacon | bReviled
  | skipSpaces | sp | spacesDone | setupCmd | emitVitalsHere | hgRoomIdCstr
  | hgFindSessionName | fsnLoop | fsnNext | fsnFound | fsnNone | fsnOut
  | tellImpl | tellHave | copyTarget | tDone | search | nextS | checkAmb | send | tellOut | need
  | noOne | out
  | hgCmdTreat | whole | branded | fight | noMedic
  | other (n : Nat)
  deriving DecidableEq

/-- What a conditional jump asks: whether eq found the message to be a word, or anything else. -/
inductive Test
  | same (word : String)
  | other

abbrev Code := List (Op Register Label Extern Test)

section Source

def pushed (r : Register) : Op Register Label Extern Test := .push (some r)
def popped (r : Register) : Op Register Label Extern Test := .pop (some r)
def jumpIf (l : Label) : Op Register Label Extern Test := .jumpIf .other l
def called (k : Extern) : Op Register Label Extern Test := .calls k 0

/-- FIELD_FUNCTION of rooms.asm. -/
def fieldFunction : Code := [jumpIf .bad, .ret]

/-- The end of hg_brand_standing behind each of its labels. -/
def brandEnd : Code := [.add 1, popped .r12, popped .rbx, .ret]

/-- The blocks by their labels, each going on to the next label with a jump of its own. What follows
the first call of prefix in hg_world_command, and the code at other labels, may be any. -/
def block (rest : Code) (others : Nat → Code) : Label → Code
  -- asm/world.asm
  | .eq => [.sub 1, called .strcasecmp, .add 1, .ret]
  | .prefixTest => [called .strncasecmp, .ret]
  | .hgWorldCommand =>
    [pushed .r12, pushed .r13, pushed .r14, pushed .r15, .sub 1, .set .r12, .set .r13, .set .r14,
      .call .eq, .jumpIf (.same "look") .scene, .call .eq, .jumpIf (.same "l") .scene,
      .call .prefixTest] ++ rest
  | .scene => [.call .hgEmitScene, .jump .worldDone]
  | .worldDone => [.add 1, popped .r15, popped .r14, popped .r13, popped .r12, .ret]
  -- asm/event.asm
  | .hgEmitScene => [.leap .hgEmitSceneNow]
  -- asm/session.asm
  | .hgSessionQueue =>
    [pushed .r12, pushed .r13, pushed .r14, pushed .r15, .sub 1, .set .r12, .set .r13, .set .r14,
      .set .r15, jumpIf .queueCopy, .set .r15, .jump .queueCopy]
  | .queueCopy => [jumpIf .queueRequest, called .memcpy, .jump .queueRequest]
  | .queueRequest =>
    [called .hgWsRequestWrite, .add 1, popped .r15, popped .r14, popped .r13, popped .r12, .ret]
  -- asm/social_ledger.asm, with the 160 and the 80 bytes that snprintf may write
  | .hgAnnounceCacheNow =>
    [pushed .r12, pushed .r13, .set .r12, jumpIf .announceOut, jumpIf .announceOut, .set .r13,
      jumpIf .announceOut, .sub 21, .calls .snprintf 20, .call .queueLineH, .calls .snprintf 10,
      .call .queueCstrH, .add 21, .jump .announceOut]
  | .announceOut => [popped .r13, popped .r12, .ret]
  -- asm/social.asm
  | .queueLineH => [.leap .hgQueueLine]
  | .queueCstrH => [.leap .hgQueueCstr]
  -- asm/combat.asm
  | .hgRoomLiveMobs => [jumpIf .static, jumpIf .static, .ret]
  | .static => [.jump .hgRoomMobs]
  | .hgSessionAt => [jumpIf .noSession, .ret]
  | .noSession => [.ret]
  | .hgWorldTickValue => [.ret]
  -- asm/rooms.asm
  | .hgRoomId | .hgRoomName | .hgRoomDesc | .hgRoomExits | .hgRoomMobs | .hgRoomActions =>
    fieldFunction
  | .bad => [.ret]
  -- asm/actions.asm
  | .addAction =>
    [pushed .rbx, called .strlen, jumpIf .noComma, jumpIf .failPop, jumpIf .failPop, .jump .noComma]
  | .noComma =>
    [.set .rbx, called .strlen, jumpIf .failPop, called .strcpy, popped .rbx, .set .rbx, .ret]
  | .failPop => [popped .rbx, .ret]
  | .hgActionsJsonFor =>
    [pushed .rbx, pushed .r12, pushed .r13, pushed .r14, pushed .r15, .set .r12, .set .r14,
      .set .r15, jumpIf .fail, jumpIf .fail, jumpIf .fail, jumpIf .market, jumpIf .tavern,
      jumpIf .dais,
      .jump .actionsDone]
  | .tavern => [called .strlen, .set .rbx, jumpIf .fail, called .strcpy, .jump .actionsDone]
  | .market =>
    [.set .rbx, .call .flags, jumpIf .mAfterMoral, jumpIf .mAfterMoral, .call .addAction,
      jumpIf .fail, jumpIf .mJc, .jump .mJd]
  | .mJc => [.jump .mJd]
  | .mJd => [.call .addAction, jumpIf .fail, .jump .mAfterMoral]
  | .mAfterMoral =>
    [.call .flags, jumpIf .mSteal, jumpIf .mSteal, .call .addAction, jumpIf .fail, .jump .mSteal]
  | .mSteal => [.call .addAction, jumpIf .fail, .jump .close]
  | .dais =>
    [.set .rbx, .call .flags, jumpIf .dNotFront, .call .addAction, jumpIf .fail, .call .addAction,
      jumpIf .fail, .jump .close]
  | .dNotFront => [jumpIf .dAlly, jumpIf .dJc, .jump .dJd]
  | .dJc => [.jump .dJd]
  | .dJd =>
    [.call .addAction, jumpIf .fail, .call .addAction, jumpIf .fail, .jump .close]
  | .dAlly => [.call .addAction, jumpIf .fail, .jump .close]
  | .close => [called .strlen, jumpIf .fail, called .strlen, .jump .actionsDone]
  | .flags =>
    [.push none, .push none, .push none, .set .r13, called .strcasecmp, jumpIf .fHunt,
      called .strcasecmp, jumpIf .fFac, .jump .fHunt]
  | .fHunt => [.set .r13, .jump .fFac]
  | .fFac => [called .strcmp, jumpIf .fAlly, .set .r13, .jump .fAlly]
  | .fAlly => [called .strcmp, jumpIf .fAsh, .set .r13, .jump .fAsh]
  | .fAsh => [jumpIf .fDone, .set .r13, .jump .fDone]
  | .fDone => [.pop none, .pop none, .pop none, .ret]
  | .fail => [.jump .actionsDone]
  | .actionsDone => [popped .r15, popped .r14, popped .r13, popped .r12, popped .rbx, .ret]
  | .hgBrandStanding =>
    [pushed .rbx, pushed .r12, .sub 1, .set .rbx, jumpIf .bEmpty, jumpIf .bAsh, called .strcmp,
      jumpIf .bFront, called .strcmp, jumpIf .bAlly, jumpIf .bBeacon, jumpIf .bReviled,
      .jump .bEmpty]
  | .bEmpty | .bAsh | .bFront | .bAlly | .bBeacon | .bReviled => brandEnd
  -- asm/social.asm
  | .skipSpaces => [.jump .sp]
  | .sp => [jumpIf .spacesDone, jumpIf .spacesDone, .jump .sp]
  | .spacesDone => [.ret]
  | .setupCmd => [.set .r12, .set .r13, .ret]
  | .emitVitalsHere => [.call .hgRoomIdCstr, .leap .hgEmitVitalsNow]
  | .hgRoomIdCstr => [.jump .hgRoomId]
  | .hgFindSessionName =>
    [pushed .rbx, pushed .r12, pushed .r13, .set .r12, jumpIf .fsnNone, jumpIf .fsnNone, .set .rbx,
      .jump .fsnLoop]
  | .fsnLoop =>
    [jumpIf .fsnNone, .call .hgSessionAt, jumpIf .fsnNext, .set .r13, called .strcasecmp,
      jumpIf .fsnFound, .jump .fsnNext]
  | .fsnNext => [.set .rbx, .jump .fsnLoop]
  | .fsnFound => [.jump .fsnOut]
  | .fsnNone => [.jump .fsnOut]
  | .fsnOut => [popped .r13, popped .r12, popped .rbx, .ret]
  -- tell_impl has a frame of 1040 bytes, which C may write where a pointer into it is passed
  | .tellImpl =>
    [pushed .r12, pushed .r13, pushed .r14, pushed .r15, pushed .rbx, .set .r12, .set .r13,
      .sub 130, jumpIf .tellHave, .set .r13, .jump .tellHave]
  | .tellHave => [.call .skipSpaces, .set .r13, .set .r15, .set .rbx, .jump .copyTarget]
  | .copyTarget =>
    [jumpIf .tDone, jumpIf .tDone, jumpIf .tDone, .store 120 5, .set .rbx, .jump .copyTarget]
  | .tDone =>
    [.store 120 5, jumpIf .need, .set .r14, .call .skipSpaces, .set .r14, jumpIf .need,
      .call .hgFindSessionName, jumpIf .send, called .strlen, .store 125 1, .store 126 1, .set .rbx,
      .jump .search]
  | .search =>
    [jumpIf .checkAmb, .call .hgSessionAt, jumpIf .nextS, .store 127 1, called .strncasecmp,
      jumpIf .nextS, jumpIf .noOne, .store 126 1, .jump .nextS]
  | .nextS => [.set .rbx, .jump .search]
  | .checkAmb => [jumpIf .noOne, .jump .send]
  | .send =>
    [.set .rbx, called .strcpy, .calls .hgJsonEscape 130, jumpIf .tellOut, .calls .hgJsonEscape 130,
      jumpIf .tellOut, .calls .snprintf 130, .calls .snprintf 130, .calls .strcpy 130,
      called .strlen, .calls .strcpy 130, .call .queueCstrH, .calls .snprintf 130,
      .call .queueLineH, .jump .tellOut]
  | .tellOut => [.jump .out]
  | .need => [.call .queueLineH, .jump .out]
  | .noOne => [.call .queueLineH, .jump .out]
  | .out => [.add 130, popped .rbx, popped .r15, popped .r14, popped .r13, popped .r12, .ret]
  -- hg_cmd_treat, with hg_store_save as other code
  | .hgCmdTreat =>
    [.call .setupCmd, jumpIf .noMedic, jumpIf .fight, called .strcmp, jumpIf .branded,
      jumpIf .branded, jumpIf .whole, .set .r14, .call (.other 0), .call .queueCstrH, .sub 21,
      .calls .snprintf 20, .call .queueCstrH, .add 21, .call .emitVitalsHere, .ret]
  | .whole => [.call .queueCstrH, .jump .queueCstrH]
  | .branded | .fight | .noMedic => [.jump .queueLineH]
  | .other n => others n

/-- What the C functions call back: ffi/format.c behind hg_emit_scene_now, and the queue. -/
def backs : Extern → Label → Prop
  | .hgEmitSceneNow, l =>
    l ∈ [.hgRoomName, .hgRoomDesc, .hgSessionQueue, .hgSessionAt, .hgBrandStanding, .hgRoomId,
      .hgRoomExits, .hgRoomLiveMobs, .hgActionsJsonFor, .hgRoomActions, .hgWorldTickValue,
      .hgAnnounceCacheNow]
  | .hgEmitVitalsNow, l | .hgQueueLine, l | .hgQueueCstr, l => l = .hgSessionQueue
  | .other _, _ => True
  | _, _ => False

/-- strcasecmp decides whether the message is a word; every other jump may go either way. -/
def may (message : Bytes) : Test → Bool → Prop
  | .same word, outcome => outcome = sameFold message (str word)
  | .other, _ => True

def program (rest : Code) (others : Nat → Code) (message : Bytes) :
    Program Register Label Extern Test :=
  ⟨block rest others, backs, may message⟩

end Source

/-- The registers that hg_world_command and hg_session_queue, hg_actions_json_for and tell_impl have
saved, the last one on top, and the words of their own. -/
def worldFrame : List (Option Register) := [none, some .r15, some .r14, some .r13, some .r12]
def actionsFrame : List (Option Register) :=
  [some .r15, some .r14, some .r13, some .r12, some .rbx]
def tellFrame : List (Option Register) := List.replicate 130 none ++
  [some .rbx, some .r15, some .r14, some .r13, some .r12]

/-- The slots of the blocks that keep the discipline. -/
def slots (message : Bytes) : Label → Option (List (Option Register))
  | .prefixTest | .setupCmd | .emitVitalsHere | .hgCmdTreat | .whole | .other _ => none
  | .hgWorldCommand =>
    if sameFold message (str "look") ∨ sameFold message (str "l") then some [] else none
  | .scene | .worldDone | .queueCopy | .queueRequest => some worldFrame
  | .announceOut => some [some .r13, some .r12]
  | .noComma | .failPop => some [none]
  | .tavern | .market | .mJc | .mJd | .mAfterMoral | .mSteal | .dais | .dNotFront | .dJc | .dJd
  | .dAlly | .close | .fail | .actionsDone => some actionsFrame
  | .fHunt | .fFac | .fAlly | .fAsh | .fDone => some [none, none, none]
  | .bEmpty | .bAsh | .bFront | .bAlly | .bBeacon | .bReviled =>
    some [none, some .r12, some .rbx]
  | .fsnLoop | .fsnNext | .fsnFound | .fsnNone | .fsnOut => some [some .r13, some .r12, some .rbx]
  | .tellHave | .copyTarget | .tDone | .search | .nextS | .checkAmb | .send | .tellOut | .need
  | .noOne | .out => some tellFrame
  | _ => some []

/-- add_action leaves its flag in ebx, .flags its bits in r13d. -/
def spoils : Label → List Register
  | .addAction | .noComma | .failPop => [.rbx]
  | .flags | .fHunt | .fFac | .fAlly | .fAsh | .fDone => [.r13]
  | _ => []

def plan (message : Bytes) : Plan Register Label Extern Test where
  slots := slots message
  spoils := spoils
  decided
    | .same word => some (sameFold message (str word))
    | .other => none
  fair
    | .other _ => false
    | _ => true

section Scene

variable {rest : Code} {others : Nat → Code} {message : Bytes}

theorem world_flows
    (scene : sameFold message (str "look") = true ∨ sameFold message (str "l") = true) :
    flows (plan message) [] (block rest others .hgWorldCommand) [] = true := by
  by_cases look : sameFold message (str "look") = true
  · simp [block, flows, plan, pushed, slots, spoils, worldFrame, look]
  · have l := scene.resolve_left look
    simp [block, flows, plan, pushed, slots, spoils, worldFrame, look, l]

set_option maxRecDepth 4000 in
theorem plan_follows : Follows (program rest others message) (plan message) where
  blocks := by
    intro l slots known
    cases l
    case hgWorldCommand =>
      change (if _ then some [] else none) = some slots at known
      split at known
      · rename_i scene
        cases known
        have flowing : flows (plan message) [] (block rest others .hgWorldCommand) [] = true :=
          world_flows scene
        exact flowing
      · cases known
    all_goals cases known
    all_goals
      dsimp only [program, plan, spoils]
      rfl
  backs := by
    intro k l fair back
    have listed : l ∈ [Label.hgRoomName, .hgRoomDesc, .hgSessionQueue, .hgSessionAt,
        .hgBrandStanding, .hgRoomId, .hgRoomExits, .hgRoomLiveMobs, .hgActionsJsonFor,
        .hgRoomActions, .hgWorldTickValue, .hgAnnounceCacheNow] := by
      cases k <;> simp_all [plan, program, HollowGrid.Discipline.backs]
    simp only [List.mem_cons, List.not_mem_nil, or_false] at listed
    rcases listed with rfl | rfl | rfl | rfl | rfl | rfl | rfl | rfl | rfl | rfl | rfl | rfl <;>
      exact ⟨rfl, rfl⟩
  tests := by
    intro t outcome possible
    cases t with
    | same word =>
      have decided : outcome = sameFold message (str word) := possible
      rw [decided]
      simp [plan]
    | other => nofun

theorem eq_returns (rest : Code) (others : Nat → Code) (message : Bytes) (ops : Code) (sp : Int)
    (regs : Register → Word Register Label Extern Test)
    (m : Int → Word Register Label Extern Test) (es : List Int) :
    ∃ m', Reaches (program rest others message) ⟨.code (.call .eq :: ops), sp, regs, m, es⟩
      ⟨.code ops, sp, regs, m', es⟩ := by
  let m₁ := Function.update m (sp - 8) (.code ops)
  let m₂ := Function.update m₁ (sp - 8 - 8 * (1 : Nat) - 8) (.code [.add 1, .ret])
  have returns : m₂ (sp - 8) = .code ops := calc
    m₂ (sp - 8) = m₁ (sp - 8) := Function.update_of_ne (by omega) _ _
    _ = .code ops := Function.update_self ..
  have room : sp - 8 - 8 * ((1 : Nat) : Int) + 8 * ((1 : Nat) : Int) = sp - 8 := by omega
  have entered : Reaches (program rest others message)
      ⟨.code (.call .eq :: ops), sp, regs, m, es⟩
      ⟨.code [called .strcasecmp, .add 1, .ret], sp - 8 - 8 * (1 : Nat), regs, m₁,
        (sp - 8) :: es⟩ :=
    .head .call (.single .sub)
  have freed : Step (program rest others message)
      ⟨.code [.add 1, .ret], sp - 8 - 8 * (1 : Nat), regs, m₂, (sp - 8) :: es⟩
      ⟨.code [.ret], sp - 8 - 8 * (1 : Nat) + 8 * (1 : Nat), regs, m₂, (sp - 8) :: es⟩ := .add
  rw [room] at freed
  have returned : Reaches (program rest others message)
      ⟨.code [.ret], sp - 8, regs, m₂, (sp - 8) :: es⟩ ⟨.code ops, sp - 8 + 8, regs, m₂, es⟩ :=
    ret_run returns
  rw [Int.sub_add_cancel] at returned
  exact ⟨m₂, entered.trans (calls_run.trans (.head freed returned))⟩

theorem prefix_reached (rest : Code) (others : Nat → Code) {message : Bytes}
    (look : sameFold message (str "look") = false)
    (l : sameFold message (str "l") = false) (n : Int)
    (regs : Register → Word Register Label Extern Test)
    (m : Int → Word Register Label Extern Test) :
    ∃ s, Reaches (program rest others message)
        (start (program rest others message) .hgWorldCommand n regs m) s ∧
      s.pc = .code [called .strncasecmp, .ret] ∧ s.sp = 16 * n - 40 := by
  have opened : ∃ regs' m' es, Reaches (program rest others message)
      (start (program rest others message) .hgWorldCommand n regs m)
      ⟨.code ([.call .eq, .jumpIf (.same "look") .scene, .call .eq, .jumpIf (.same "l") .scene,
        .call .prefixTest] ++ rest), 16 * n + 8 - 8 - 8 - 8 - 8 - 8 * (1 : Nat), regs', m', es⟩ :=
    ⟨_, _, _, .head .push (.head .push (.head .push (.head .push (.head .sub
      (.head (.set (.plain 0)) (.head (.set (.plain 0)) (.single (.set (.plain 0)))))))))⟩
  obtain ⟨regs', m', es, opened⟩ := opened
  obtain ⟨m₁, first⟩ := eq_returns rest others message
    ([.jumpIf (.same "look") .scene, .call .eq, .jumpIf (.same "l") .scene, .call .prefixTest] ++
      rest) _ regs' m' es
  obtain ⟨m₂, second⟩ := eq_returns rest others message
    ([.jumpIf (.same "l") .scene, .call .prefixTest] ++ rest) _ regs' m₁ es
  have passed : Reaches (program rest others message) _ _ :=
    opened.trans (first.trans (.head (.falls look.symm) (second.trans
      (.head (.falls l.symm) (.single .call)))))
  exact ⟨_, passed, rfl, by dsimp only; omega⟩

/-- hg_world_command is disciplined exactly when the message is look or l: any other message is
compared by prefix, which calls strncasecmp with the stack pointer 8 above a multiple of 16. -/
theorem world_command_disciplined_iff (rest : Code) (others : Nat → Code) (message : Bytes)
    (n : Int) (regs : Register → Word Register Label Extern Test)
    (m : Int → Word Register Label Extern Test) :
    Disciplined (program rest others message)
        (start (program rest others message) .hgWorldCommand n regs m) [.r12, .r13, .r14, .r15] ↔
      sameFold message (str "look") = true ∨ sameFold message (str "l") = true := by
  constructor
  · intro disciplined
    by_contra neither
    rw [not_or, Bool.not_eq_true, Bool.not_eq_true] at neither
    obtain ⟨s, run, there, sp⟩ := prefix_reached rest others neither.1 neither.2 n regs m
    have aligned := disciplined.aligned s _ _ _ run there
    omega
  · intro scene
    have known : (plan message).slots .hgWorldCommand = some [] := if_pos scene
    have follows : Follows (program rest others message) (plan message) := plan_follows
    exact disciplined follows known rfl n regs m _

theorem who_misaligned : ¬Disciplined (program [] (fun _ => []) (str "who"))
    (start (program [] (fun _ => []) (str "who")) .hgWorldCommand 0 (fun _ => .plain 0)
      fun _ => .plain 0) [.r12, .r13, .r14, .r15] := by
  intro disciplined
  have look : sameFold (str "who") (str "look") = false := by decide +kernel
  have l : sameFold (str "who") (str "l") = false := by decide +kernel
  obtain ⟨s, run, there, sp⟩ :=
    prefix_reached [] (fun _ => []) look l 0 (fun _ => .plain 0) fun _ => .plain 0
  have aligned := disciplined.aligned s _ _ _ run there
  omega

/-- tell_impl keeps the discipline on each of its paths, once it is entered as it should be. -/
theorem tell_disciplined (rest : Code) (others : Nat → Code) (message : Bytes) (n : Int)
    (regs : Register → Word Register Label Extern Test)
    (m : Int → Word Register Label Extern Test) (saved : List Register) :
    Disciplined (program rest others message)
      (start (program rest others message) .tellImpl n regs m) saved := by
  have follows : Follows (program rest others message) (plan message) := plan_follows
  exact disciplined follows rfl rfl n regs m saved

/-- hg_cmd_treat calls strcmp as it is entered, with the stack pointer 8 above a multiple of 16. -/
theorem treat_undisciplined (rest : Code) (others : Nat → Code) (message : Bytes) (n : Int)
    (regs : Register → Word Register Label Extern Test)
    (m : Int → Word Register Label Extern Test) (saved : List Register) :
    ¬Disciplined (program rest others message)
      (start (program rest others message) .hgCmdTreat n regs m) saved := by
  intro disciplined
  let later := (block rest others .hgCmdTreat).tail
  let m₁ := Function.update (Function.update m (16 * n + 8) .outside) (16 * n + 8 - 8) (.code later)
  have returns : m₁ (16 * n + 8 - 8) = .code later := Function.update_self ..
  have entered : ∃ regs', Reaches (program rest others message)
      (start (program rest others message) .hgCmdTreat n regs m)
      ⟨.code [.ret], 16 * n + 8 - 8, regs', m₁, [16 * n + 8 - 8, 16 * n + 8]⟩ :=
    ⟨_, .head .call (.head (.set (.plain 0)) (.single (.set (.plain 0))))⟩
  obtain ⟨regs', entered⟩ := entered
  have returned : Reaches (program rest others message)
      ⟨.code [.ret], 16 * n + 8 - 8, regs', m₁, [16 * n + 8 - 8, 16 * n + 8]⟩
      ⟨.code later, 16 * n + 8 - 8 + 8, regs', m₁, [16 * n + 8]⟩ := ret_run returns
  have passed := entered.trans (returned.trans (.head (.falls trivial) (.single (.falls trivial))))
  have aligned := disciplined.aligned _ _ _ _ passed rfl
  dsimp only at aligned
  omega

end Scene

end HollowGrid.Discipline
