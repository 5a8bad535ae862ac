import HollowGrid.Frames
import HollowGrid.Null
import Mathlib.Data.List.Find

/-! The words that share the arm of a main verb, and what the dispatch makes of the argument
behind each. -/
namespace HollowGrid

inductive Alias
  | unwield | kill | k | con | gc | absolve | pardon | remember | mourn | d | u
  deriving DecidableEq, Repr

namespace Alias

def word : Alias → Bytes
  | unwield => str "unwield"
  | kill => str "kill"
  | k => str "k"
  | con => str "con"
  | gc => str "gc"
  | absolve => str "absolve"
  | pardon => str "pardon"
  | remember => str "remember"
  | mourn => str "mourn"
  | d => str "d"
  | u => str "u"

def main : Alias → Bytes
  | unwield => str "remove"
  | kill | k => str "attack"
  | con => str "consider"
  | gc => str "gridcast"
  | absolve | pardon => str "forgive"
  | remember | mourn => str "witness"
  | d => str "down"
  | u => str "up"

def arm : Alias → Arm
  | unwield => .remove
  | kill | k => .attack
  | con => .consider
  | gc => .gridcast
  | absolve | pardon => .forgive
  | remember | mourn => .witness
  | d => .down
  | u => .up

/-- The words for a way out of a room, which take no argument. -/
def climbs (a : Alias) : Prop := a = d ∨ a = u

instance (a : Alias) : Decidable a.climbs := inferInstanceAs (Decidable (_ ∨ _))

end Alias

/-- A verb alone, or with its argument behind one space. -/
def phrased (verb : Bytes) : Ptr → Bytes
  | none => verb
  | some arg => verb ++ 32 :: arg

def effect (m : Act Unit) (g : Server) : Except Fault (Server × (Block → Bytes)) :=
  (m g).map fun done =>
    ({ done.2 with blocks := fun d => { done.2.blocks d with outbox := [] } },
      fun d => bytes (done.2.blocks d).outbox)

/-- Two messages do the same. -/
def SameDone (env : Env) (c : Block) (g : Server) (one two : Bytes) : Prop :=
  effect (worldCommand env c one) g = effect (worldCommand env c two) g

/-- Where an alias does what its main verb does: an unwield that names the shiv needs a bare hand
and no room for the byte that tells its two answers apart, a climb the one way of its arm. -/
def Alias.Agrees (c : Block) (g : Server) (arg : Ptr) : Alias → Prop
  | .unwield => ∀ w, arg = some w → sameFold w (str "shiv") = true →
      (g.blocks c).weapon = [] ∧ outCap - (g.blocks c).outbox.length ≤ 4
  | .d => ∀ next, ((g.blocks c).room, "down", next) ∈ exits → (g.blocks c).room = roomNexus
  | .u => ∀ next, ((g.blocks c).room, "up", next) ∈ exits → (g.blocks c).room = roomTunnels
  | _ => True

section Words

variable {t u w : Bytes}

theorem lower_byte_space (b : UInt8) : lowerByte b = 32 ↔ b = 32 := by
  unfold lowerByte
  split <;> grind

theorem lower_spaceless (plain : 32 ∉ t) : 32 ∉ lower t := by
  intro there
  obtain ⟨b, member, same⟩ := List.mem_map.mp there
  exact plain ((lower_byte_space b).mp same ▸ member)

theorem lower_line (t w : Bytes) : lower (t ++ 32 :: w) = lower t ++ 32 :: lower w := by
  simp [lower, lowerByte]

theorem line_no_word (plain : 32 ∉ u) : sameFold (t ++ 32 :: w) u = false := by
  refine Bool.eq_false_iff.mpr fun same => lower_spaceless plain ?_
  rw [← (same_fold_iff _ _).mp same, lower_line]
  simp

theorem starts_line (plain : 32 ∉ t) (verb : 32 ∉ u) :
    startsFold (u ++ [32]) (t ++ 32 :: w) = sameFold t u := by
  refine Bool.eq_iff_iff.mpr ?_
  rw [startsFold, same_fold_iff, same_fold_iff]
  constructor
  · intro same
    have whole := List.take_append_drop (u ++ [32]).length (lower (t ++ 32 :: w))
    have front : lower ((t ++ 32 :: w).take (u ++ [32]).length) = lower u ++ [32] := by
      rw [← same, lower_line]
      rfl
    rw [lower, ← List.map_take] at whole
    rw [lower] at front
    rw [front, ← lower, lower_line, List.append_assoc] at whole
    exact (parted (lower_spaceless verb) (lower_spaceless plain) whole).1.symm
  · intro same
    have long : t.length = u.length := by simpa [lower] using congrArg List.length same
    have cut : (t ++ 32 :: w).take (u ++ [32]).length = t ++ [32] := by
      simp [long, List.take_append]
    rw [cut, lower_line, lower_line, same]

end Words

/-- Every word of the dispatch is one verb, with one space behind it where it takes an argument. -/
theorem commands_spaced : ∀ command ∈ commands,
    (command.offset = none ∧ 32 ∉ str command.word) ∨
      ∃ n u, command.offset = some n ∧ 32 ∉ u ∧ str command.word = u ++ [32] := by
  have table : ∀ command ∈ commands,
      (command.offset.isNone = true ∧ 32 ∉ str command.word) ∨
        (command.offset.isSome = true ∧ 32 ∉ (str command.word).dropLast ∧
          (str command.word).dropLast ++ [32] = str command.word) := by decide +kernel
  intro command member
  rcases table command member with ⟨alone, plain⟩ | ⟨follows, plain, spaced⟩
  · exact .inl ⟨Option.isNone_iff_eq_none.mp alone, plain⟩
  · obtain ⟨n, offset⟩ := Option.isSome_iff_exists.mp follows
    exact .inr ⟨n, _, offset, plain, spaced.symm⟩

theorem fits_line {command : Command} (member : command ∈ commands) {t : Bytes} (plain : 32 ∉ t)
    (w : Bytes) : command.fits (t ++ 32 :: w) = command.fits (t ++ [32]) := by
  unfold Command.fits
  rcases commands_spaced command member with ⟨bare, spaced⟩ | ⟨n, u, offset, verb, word⟩
  · simp only [bare, line_no_word spaced]
  · simp only [offset, word, starts_line plain verb]

theorem found_line {t : Bytes} (plain : 32 ∉ t) (w : Bytes) :
    (commands.find? fun command => command.fits (t ++ 32 :: w)) =
      commands.find? fun command => command.fits (t ++ [32]) :=
  List.find?_congr fun _ member => fits_line member plain w

theorem fits_lower {a b : Bytes} (same : lower a = lower b) (command : Command) :
    command.fits a = command.fits b := by
  unfold Command.fits
  rw [same_fold_congr same, starts_fold_congr same]

theorem found_lower {a b : Bytes} (same : lower a = lower b) :
    (commands.find? fun command => command.fits a) =
      commands.find? fun command => command.fits b := by
  simp only [fits_lower same]

theorem directions_known : ∀ way ∈ directions, 32 ∉ str way ∧ lower (str way) = str way ∧
    sameFold (str way) (str "look") = false ∧ sameFold (str way) (str "l") = false ∧
    startsFold (str "look ") (str way) = false ∧ startsFold (str "go ") (str way) = false ∧
    ∀ other ∈ directions, sameFold (str way) (str other) = true → other = way := by
  decide +kernel

/-- Every exit leads one way and elsewhere, and each climb has its own. -/
theorem exits_known : (∀ e ∈ exits, e.2.1 ∈ directions ∧ e.2.2 ≠ e.1) ∧
    ((roomNexus, "down", roomTunnels) ∈ exits ∧
      ∀ e ∈ exits, e.1 = roomNexus → e.2.1 = "down" → e.2.2 = roomTunnels) ∧
    (roomTunnels, "up", roomNexus) ∈ exits ∧
      ∀ e ∈ exits, e.1 = roomTunnels → e.2.1 = "up" → e.2.2 = roomNexus := by
  decide +kernel

structure Verb (t : Bytes) : Prop where
  plain : 32 ∉ t
  looks : sameFold t (str "look") = false
  glances : sameFold t (str "l") = false
  goes : sameFold t (str "go") = false
  ways : ∀ way ∈ directions, sameFold t (str way) = false

instance (t : Bytes) : Decidable (Verb t) :=
  decidable_of_iff (32 ∉ t ∧ sameFold t (str "look") = false ∧ sameFold t (str "l") = false ∧
      sameFold t (str "go") = false ∧ ∀ way ∈ directions, sameFold t (str way) = false)
    ⟨fun h => ⟨h.1, h.2.1, h.2.2.1, h.2.2.2.1, h.2.2.2.2⟩,
      fun verb => ⟨verb.plain, verb.looks, verb.glances, verb.goes, verb.ways⟩⟩

namespace Verb

variable {t v : Bytes}

theorem spelt (verb : Verb v) (same : lower t = lower v) : Verb t where
  plain := by
    intro there
    refine lower_spaceless verb.plain (same ▸ ?_)
    exact List.mem_map.mpr ⟨32, there, rfl⟩
  looks := (same_fold_congr same _).trans verb.looks
  glances := (same_fold_congr same _).trans verb.glances
  goes := (same_fold_congr same _).trans verb.goes
  ways := fun way there => (same_fold_congr same _).trans (verb.ways way there)

theorem no_word (arg : Ptr) {u : Bytes} (plain : 32 ∉ u)
    (other : sameFold t u = false) : sameFold (phrased t arg) u = false := by
  cases arg with
  | none => exact other
  | some w => exact line_no_word plain

theorem no_start (verb : Verb t) (arg : Ptr) {u : Bytes} (plain : 32 ∉ u)
    (other : sameFold t u = false) : startsFold (u ++ [32]) (phrased t arg) = false := by
  cases arg with
  | none =>
    refine Bool.eq_false_iff.mpr fun same => lower_spaceless verb.plain ?_
    have front : lower (u ++ [32]) = lower (t.take (u ++ [32]).length) :=
      (same_fold_iff _ _).mp same
    have space : (32 : UInt8) ∈ lower (t.take (u ++ [32]).length) := by
      rw [← front, lower_line]
      simp
    exact (List.map_subset _ (List.take_subset _ _)) space
  | some w => rw [phrased, starts_line verb.plain plain, other]

theorem unmoved (verb : Verb t) (arg : Ptr) (room : Int) :
    roomMove room (phrased t arg) = .unknown := by
  have none_fits (way : String) (member : way ∈ directions) :
      sameFold (phrased t arg) (str way) = false :=
    no_word arg (directions_known way member).1 (verb.ways way member)
  have no_exit : exits.find? (fun e => e.1 = room && sameFold (phrased t arg) (str e.2.1)) =
      none := by
    refine List.find?_eq_none.mpr fun e there => ?_
    simp [none_fits e.2.1 (exits_known.1 e there).1]
  have no_direction : directions.any (fun d => sameFold (phrased t arg) (str d)) = false :=
    List.any_eq_false.mpr fun d there => by simp [none_fits d there]
  simp [roomMove, no_exit, no_direction]

/-- Its message comes to the table of commands. -/
theorem falls (verb : Verb t) (env : Env) (c : Block) (arg : Ptr) (g : Server) :
    worldCommand env c (phrased t arg) g = notMovement env c (phrased t arg) g := by
  have look := no_word arg (u := str "look") (by decide) verb.looks
  have glance := no_word arg (u := str "l") (by decide) verb.glances
  have beside : startsFold (str "look ") (phrased t arg) = false :=
    verb.no_start arg (u := str "look") (by decide) verb.looks
  have go : startsFold (str "go ") (phrased t arg) = false :=
    verb.no_start arg (u := str "go") (by decide) verb.goes
  have head : heading (phrased t arg) = phrased t arg := by simp [heading, go]
  rw [worldCommand, look, glance, beside]
  change (session c >>= _) g = _
  rw [bind_ok (rfl : session c g = .ok (g.blocks c, g)), head, verb.unmoved arg]

end Verb

namespace Alias

variable {env : Env} {c : Block} {g : Server} {t : Bytes} {arg : Ptr}

/-- Where the argument handed on starts in a line of the alias. -/
def offset (a : Alias) : Nat := if a = unwield then 7 else a.word.length + 1

/-- What the dispatch hands on of an argument behind the alias. -/
def passed (a : Alias) (arg : Ptr) : Ptr := if a = unwield then arg.map (32 :: ·) else arg

/-- What a line is found to ask for: the arm, and where its argument starts. -/
def asks (line : Bytes) : Option (Arm × Option Nat) :=
  (commands.find? fun command => command.fits line).map fun command =>
    (command.arm, command.offset)

theorem known (a : Alias) : Verb a.word ∧ lower a.main = a.main ∧
    asks a.word = some (a.arm, none) ∧ asks a.main = some (a.arm, none) ∧
    (¬a.climbs → Verb a.main ∧ asks (a.word ++ [32]) = some (a.arm, some a.offset) ∧
      asks (a.main ++ [32]) = some (a.arm, some (a.main.length + 1))) := by
  have table : ∀ a ∈ [unwield, kill, k, con, gc, absolve, pardon, remember, mourn, d, u],
      Verb a.word ∧ lower a.main = a.main ∧
      asks a.word = some (a.arm, none) ∧ asks a.main = some (a.arm, none) ∧
      (¬a.climbs → Verb a.main ∧ asks (a.word ++ [32]) = some (a.arm, some a.offset) ∧
        asks (a.main ++ [32]) = some (a.arm, some (a.main.length + 1))) := by decide +kernel
  exact table a (by cases a <;> decide)

theorem bare_done {a : Alias} {v : Bytes} (same : lower t = lower v)
    (found : asks v = some (a.arm, none)) :
    notMovement env c t = exec env c none a.arm := by
  obtain ⟨command, first, given⟩ := Option.map_eq_some_iff.mp found
  rw [Prod.mk.injEq] at given
  rw [notMovement, parse, found_lower same, first, Option.map_some, given.1, given.2]
  rfl

theorem line_done {a : Alias} {v w : Bytes} {n : Nat} (plain : 32 ∉ t) (same : lower t = lower v)
    (found : asks (v ++ [32]) = some (a.arm, some n)) :
    notMovement env c (t ++ 32 :: w) = exec env c (some ((t ++ 32 :: w).drop n)) a.arm := by
  obtain ⟨command, first, given⟩ := Option.map_eq_some_iff.mp found
  rw [Prod.mk.injEq] at given
  have spaced : lower (t ++ [32]) = lower (v ++ [32]) := by rw [lower_line, lower_line, same]
  rw [notMovement, parse, found_line plain, found_lower spaced, first, Option.map_some, given.1,
    given.2]
  rfl

theorem word_done {a : Alias} (spelt : lower t = lower a.word) (alone : a.climbs → arg = none) :
    worldCommand env c (phrased t arg) g = exec env c (a.passed arg) a.arm g := by
  have verb : Verb t := a.known.1.spelt spelt
  rw [verb.falls]
  cases arg with
  | none =>
    rw [phrased, bare_done spelt a.known.2.2.1, passed]
    split <;> rfl
  | some w =>
    have takes : ¬a.climbs := fun climbs => by simpa using alone climbs
    have long : t.length = a.word.length := by simpa [lower] using congrArg List.length spelt
    have rest : (t ++ 32 :: w).drop a.offset = if a = unwield then 32 :: w else w := by
      rw [offset]
      split
      · rename_i own
        have seven : t.length = 7 := by
          rw [long, own]
          decide
        rw [← seven, List.drop_left]
      · rw [← long, List.drop_append]
        simp
    rw [phrased, line_done verb.plain spelt (a.known.2.2.2.2 takes).2.1, rest, passed]
    split <;> rfl

theorem main_done {a : Alias} (spelt : lower t = lower a.main) (takes : ¬a.climbs) :
    worldCommand env c (phrased t arg) g = exec env c arg a.arm g := by
  have verb : Verb t := (a.known.2.2.2.2 takes).1.spelt spelt
  rw [verb.falls]
  cases arg with
  | none => rw [phrased, bare_done spelt a.known.2.2.2.1]
  | some w =>
    have long : t.length = a.main.length := by simpa [lower] using congrArg List.length spelt
    have rest : (t ++ 32 :: w).drop (a.main.length + 1) = w := by
      rw [← long, List.drop_append]
      simp
    rw [phrased, line_done verb.plain spelt (a.known.2.2.2.2 takes).2.2, rest]

end Alias

section Effects

variable {env : Env} {c : Block} {g : Server}

theorem same_queued (t u : Text) : effect (queue c t) g = effect (queue c u) g ↔
    bytes (t.take (outCap - (g.blocks c).outbox.length)) =
      bytes (u.take (outCap - (g.blocks c).outbox.length)) := by
  have run (v : Text) : effect (queue c v) g = .ok
      ({ g.queued c v with blocks := fun d => { (g.queued c v).blocks d with outbox := [] } },
        fun d => bytes ((g.queued c v).blocks d).outbox) := rfl
  rw [run, run, Except.ok.injEq, Prod.mk.injEq]
  constructor
  · intro same
    have own := congrFun same.2 c
    simpa [Server.queued, bytes] using own
  · intro same
    have told (d : Block) : ({ (g.queued c t).blocks d with outbox := [] } : Session) =
        { (g.queued c u).blocks d with outbox := [] } ∧
        bytes ((g.queued c t).blocks d).outbox = bytes ((g.queued c u).blocks d).outbox := by
      by_cases own : d = c
      · subst own
        simp only [Server.queued, Server.setBlock_own, true_and]
        simp only [bytes, List.map_append] at same ⊢
        rw [same]
      · simp [Server.queued, Server.setBlock_other _ _ own]
    refine ⟨?_, funext fun d => (told d).2⟩
    simp only [fun d => (told d).1]
    rfl

theorem taken_alike {t u : Text} {k : Nat} (same : (bytes t).take k = (bytes u).take k)
    (differ : (bytes t).take (k + 1) ≠ (bytes u).take (k + 1)) (n : Nat) :
    bytes (t.take n) = bytes (u.take n) ↔ n ≤ k := by
  simp only [bytes, List.map_take] at same differ ⊢
  constructor
  · intro alike
    by_contra far
    have cut := congrArg (List.take (k + 1)) alike
    rw [List.take_take, List.take_take, Nat.min_eq_left (by omega)] at cut
    exact differ cut
  · intro near
    have cut := congrArg (List.take n) same
    rwa [List.take_take, List.take_take, Nat.min_eq_left near] at cut

theorem effect_character {m n : Act Unit} (same : effect m g = effect n g) {g₁ g₂ : Server}
    (one : m g = .ok ((), g₁)) (two : n g = .ok ((), g₂)) :
    (g₁.blocks c).toCharacter = (g₂.blocks c).toCharacter := by
  rw [effect, effect, one, two] at same
  have states := congrArg Prod.fst (Except.ok.inj same)
  have sessions : ({ g₁.blocks c with outbox := [] } : Session) =
      { g₂.blocks c with outbox := [] } := congrFun (congrArg Server.blocks states) c
  rw [Session.mk.injEq] at sessions
  exact sessions.1

theorem way_out {way : String} (known : way ∈ directions) (room : Int) :
    (∃ next, (room, way, next) ∈ exits ∧ roomMove room (str way) = .there next) ∨
      ((∀ next, (room, way, next) ∉ exits) ∧ roomMove room (str way) = .noExit) := by
  have heard : directions.any (fun d => sameFold (str way) (str d)) = true :=
    List.any_eq_true.mpr ⟨way, known, (same_fold_iff _ _).mpr rfl⟩
  cases found : exits.find? fun e => e.1 = room && sameFold (str way) (str e.2.1) with
  | none =>
    refine .inr ⟨fun next there => ?_, by simp [roomMove, found, heard]⟩
    have off := List.find?_eq_none.mp found _ there
    simp [(same_fold_iff (str way) (str way)).mpr rfl] at off
  | some e =>
    have fits := List.find?_some found
    simp only [Bool.and_eq_true, decide_eq_true_eq] at fits
    have member := List.mem_of_find?_eq_some found
    refine .inl ⟨e.2.2, ?_, by simp [roomMove, found]⟩
    have same : e.2.1 = way :=
      (directions_known way known).2.2.2.2.2.2 e.2.1 (exits_known.1 e member).1 fits.2
    rw [← fits.1, ← same]
    exact member

def walk (c : Block) : Move → Act Unit
  | .there room => moveTo c room
  | .noExit | .unknown => cantMove c

/-- A direction does what the table of exits says of it. -/
theorem way_done {t : Bytes} {way : String} (known : way ∈ directions)
    (spelt : lower t = str way) : worldCommand env c t g =
      walk c (roomMove (g.blocks c).room (str way)) g := by
  obtain ⟨-, low, look, glance, beside, go, -⟩ := directions_known way known
  have same : lower t = lower (str way) := spelt.trans low.symm
  have head : heading t = t := by simp [heading, starts_fold_congr same, go]
  rw [worldCommand, same_fold_congr same, same_fold_congr same, look, glance,
    starts_fold_congr same, beside]
  change (session c >>= _) g = _
  rw [bind_ok (rfl : session c g = .ok (g.blocks c, g)), head, room_move_congr same]
  obtain ⟨next, -, moved⟩ | ⟨-, stays⟩ := way_out known (g.blocks c).room
  · rw [moved, walk]
  · rw [stays, walk]

theorem room_last (env : Env) (c : Block) (room : Int) :
    Permits False env (fun _ => True) (fun _ => True) (fun _ q => q ≠ .place) (fun _ => True)
      fun g => (g.blocks c).room = room :=
  lasting_permits env fun _ _ framed held => (framed.room (by simp)).trans held

theorem moved_differs {next : Int} (other : next ≠ (g.blocks c).room) :
    effect (cantMove c) g ≠ effect (moveTo c next) g := by
  intro same
  have stays : cantMove c g = .ok ((), g.queued c _) := rfl
  cases ended : moveTo c next g with
  | error fault =>
    rw [effect, effect, stays, ended] at same
    cases same
  | ok done =>
    have r : Reports False quietNode (fun _ => True) c fun g' => (g'.blocks c).room = next :=
      (room_last quietNode c next).reports trivial
    have there : ((g.updated c fun ch => { ch with room := next }).blocks c).room = next := by
      rw [Server.updated, Server.setBlock_own]
    have run : moveTo c next g =
        emitSceneNow c (g.updated c fun ch => { ch with room := next }) := by
      rw [moveTo, bind_ok (rfl : update c _ g = .ok ((), g.updated c _))]
    have moved : (done.2.blocks c).room = next := (r.scene_now.result there (run ▸ ended)).1
    have alike := congrArg Character.room (effect_character (c := c) same stays ended)
    simp only [Server.queued, Server.setBlock_own] at alike
    exact other (moved.symm.trans alike.symm)

theorem climb_same_iff {t : Bytes} (way : String) {here there : Int} (known : way ∈ directions)
    (spelt : lower t = str way)
    (own : (here, way, there) ∈ exits ∧
      ∀ e ∈ exits, e.1 = here → e.2.1 = way → e.2.2 = there) :
    effect (stairs c here there) g = effect (worldCommand env c t) g ↔
      ∀ next, ((g.blocks c).room, way, next) ∈ exits → (g.blocks c).room = here := by
  have main := @way_done env c g _ _ known spelt
  have arm : stairs c here there g =
      (if (g.blocks c).room = here then moveTo c there else cantMove c) g := rfl
  rw [effect, effect, main, arm]
  by_cases stands : (g.blocks c).room = here
  · obtain ⟨next, exit, moved⟩ | ⟨closed, -⟩ := way_out known (g.blocks c).room
    · rw [stands] at exit
      have same : next = there := own.2 _ exit rfl rfl
      rw [moved, if_pos stands, same, walk]
      simp [stands]
    · exact absurd own.1 (stands ▸ closed there)
  · rw [if_neg stands]
    obtain ⟨next, exit, moved⟩ | ⟨closed, stays⟩ := way_out known (g.blocks c).room
    · rw [moved, walk]
      refine iff_of_false (moved_differs (exits_known.1 _ exit).2) fun always => stands (always next exit)
    · rw [stays, walk]
      exact iff_of_true rfl fun next exit => absurd exit (closed next)

theorem unwield_same_iff (w : Bytes) :
    effect (cmdRemove c (some (32 :: w))) g = effect (cmdRemove c (some w)) g ↔
      (sameFold w (str "shiv") = true →
        (g.blocks c).weapon = [] ∧ outCap - (g.blocks c).outbox.length ≤ 4) := by
  have spaced : namesShiv (some (32 :: w)) = false := line_no_word (t := []) (by decide)
  have alias_run : cmdRemove c (some (32 :: w)) g = queue c nothingToWear g := by
    rw [cmdRemove, bind_ok (rfl : session c g = .ok (g.blocks c, g)), if_pos spaced]
  rw [effect, alias_run, ← effect]
  by_cases named : sameFold w (str "shiv") = true
  · have names : ¬namesShiv (some w) = false := by simpa [namesShiv] using named
    by_cases bare : (g.blocks c).weapon = []
    · have run : cmdRemove c (some w) g =
          queue c (lit "You are not wearing that." ++ crlf ++ crlf) g := by
        rw [cmdRemove, bind_ok (rfl : session c g = .ok (g.blocks c, g)), if_neg names, if_pos bare]
      rw [effect, effect, run, ← effect, ← effect, same_queued]
      rw [taken_alike (k := 4) (by decide +kernel) (by decide +kernel)]
      simp [named, bare]
    · have stowed : ∃ g', cmdRemove c (some w) g = .ok ((), g') ∧ (g'.blocks c).weapon = [] := by
        rw [cmdRemove, bind_ok (rfl : session c g = .ok (g.blocks c, g)), if_neg names, if_neg bare,
          bind_ok (rfl : update c _ g = .ok ((), g.updated c _))]
        refine ⟨_, rfl, ?_⟩
        simp only [Server.queued, Server.updated, Server.setBlock_own]
      obtain ⟨g', run, empty⟩ := stowed
      refine iff_of_false (fun same => bare ?_) fun always => bare (always named).1
      have refused : queue c nothingToWear g = .ok ((), g.queued c nothingToWear) := rfl
      have alike := congrArg Character.weapon (effect_character (c := c) same refused run)
      simp only [Server.queued, Server.setBlock_own] at alike
      exact alike.trans empty
  · have names : namesShiv (some w) = false := by simpa [namesShiv] using named
    have run : cmdRemove c (some w) g = queue c nothingToWear g := by
      rw [cmdRemove, bind_ok (rfl : session c g = .ok (g.blocks c, g)), if_pos names]
    rw [effect, effect, run]
    exact iff_of_true rfl fun yes => absurd yes named

end Effects

/-- An alias leaves the state and the bytes of its main verb, in any case and with any argument,
exactly where `Agrees` says so. -/
theorem alias_done_iff (env : Env) (c : Block) (g : Server) (a : Alias) (arg : Ptr)
    {one two : Bytes} (alone : a.climbs → arg = none) (spelt : sameFold one a.word = true)
    (named : sameFold two a.main = true) :
    SameDone env c g (phrased one arg) (phrased two arg) ↔ a.Agrees c g arg := by
  have done : worldCommand env c (phrased one arg) g = exec env c (a.passed arg) a.arm g :=
    Alias.word_done ((same_fold_iff _ _).mp spelt) alone
  have main := (same_fold_iff _ _).mp named
  have ends : effect (worldCommand env c (phrased one arg)) g =
      effect (exec env c (a.passed arg) a.arm) g := by rw [effect, done, effect]
  rw [SameDone, ends]
  by_cases climbs : a.climbs
  · obtain rfl := alone climbs
    have low := a.known.2.1
    obtain ⟨-, down, up⟩ := exits_known
    rcases climbs with rfl | rfl
    · exact climb_same_iff "down" (by decide) (main.trans low) down
    · exact climb_same_iff "up" (by decide) (main.trans low) up
  · have main_ends : effect (worldCommand env c (phrased two arg)) g =
        effect (exec env c arg a.arm) g := by
      rw [effect, Alias.main_done main climbs, effect]
    rw [main_ends]
    by_cases own : a = .unwield
    · subst own
      cases arg with
      | none => exact iff_of_true rfl (by simp [Alias.Agrees])
      | some w =>
        refine (unwield_same_iff w).trans ⟨fun agrees v given => ?_, fun agrees => agrees w rfl⟩
        cases given
        exact agrees
    · rw [Alias.passed, if_neg own]
      refine iff_of_true rfl ?_
      cases a with
      | unwield => exact absurd rfl own
      | d => exact absurd (.inl rfl) climbs
      | u => exact absurd (.inr rfl) climbs
      | _ => trivial

/-- A player with the shiv in hand. -/
def shivHeld : Server := { blocks := fun _ => { weapon := str "shiv" }, disk := sharedDisk }

theorem alias_done_kill : SameDone quietNode 0 shivHeld (str "KILL rat") (str "Attack rat") ↔
    Alias.Agrees 0 shivHeld (some (str "rat")) .kill :=
  @alias_done_iff quietNode 0 shivHeld .kill (some (str "rat")) (str "KILL") (str "Attack")
    (by decide) (by decide) (by decide)

/-- An unwield that names the shiv refuses what a remove takes off. -/
theorem unwield_keeps_shiv : ¬ ∀ (env : Env) (c : Block) (g : Server) (a : Alias) (arg : Ptr)
    (one two : Bytes), (a.climbs → arg = none) → sameFold one a.word = true →
    sameFold two a.main = true → SameDone env c g (phrased one arg) (phrased two arg) := by
  intro always
  have same := always quietNode 0 shivHeld .unwield (some (str "shiv")) (str "unwield")
    (str "remove") (by decide) (by decide) (by decide)
  have one : worldCommand quietNode 0 (phrased (str "unwield") (some (str "shiv"))) shivHeld =
      cmdRemove 0 (some (32 :: str "shiv")) shivHeld :=
    Alias.word_done (a := .unwield) rfl (by decide)
  have two : worldCommand quietNode 0 (phrased (str "remove") (some (str "shiv"))) shivHeld =
      cmdRemove 0 (some (str "shiv")) shivHeld := Alias.main_done (a := .unwield) rfl (by decide)
  rw [SameDone, effect, effect, one, two, ← effect, ← effect] at same
  have bare := ((unwield_same_iff (str "shiv")).mp same (by decide)).1
  revert bare
  decide

end HollowGrid
