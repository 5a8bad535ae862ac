import HollowGrid.Steps

/-! Whether a player can put a line of his own making on another's screen, above all one
that passes for an event of the server. -/
namespace HollowGrid

/-- No CR and no LF in the line, and an inscription that fits the buffer it is quoted in. -/
structure Plain (line : Bytes) : Prop where
  clean : ∀ b ∈ line, isBreak b = false
  carved : ∀ arg, parse line = some (.inscribe, arg) → (argument arg).length < 114

def PlainEvent (g : Server) (e : Event) : Prop := ∀ c line, Delivered g e c line → Plain line

theorem plain_fair {line : Bytes} (plain : Plain line) (short : line.length < 256) :
    Fair True line where
  clean := fun _ => plain.clean
  short := fun _ => short
  carved := fun _ => plain.carved

theorem delivered_short {g : Server} {e : Event} {c : Block} {line : Bytes}
    (given : Delivered g e c line) : line.length < 256 := by
  obtain ⟨text, _, _, _, _, rfl⟩ := given
  exact line_short text

theorem tidy_planted {strict : Prop} (env : Env) {h : LocalHub} (tidy : TidyHub strict h)
    (rows : List ((String × String × String × String) × Nat)) (known : ∀ row ∈ rows, row.1 ∈ seeds) :
    TidyHub strict (rows.foldl (plant env) h) := by
  have table : ∀ seed ∈ seeds, Clean strict (str seed.1) ∧ Clean strict (str seed.2.1) ∧
      Clean strict (str seed.2.2.1) ∧ Clean strict (str seed.2.2.2) := by
    simp only [seeds, List.forall_mem_cons, List.not_mem_nil, false_implies, implies_true,
      and_true]
    repeat' apply And.intro
    all_goals exact clean_str _ rfl
  induction rows generalizing h with
  | nil => exact tidy
  | cons row rest ih =>
    obtain ⟨world, node, kind, text⟩ := table row.1 (known row List.mem_cons_self)
    exact ih (tidy_record _ tidy world node kind text)
      fun later member => known later (List.mem_cons_of_mem _ member)

theorem tidy_boot {strict : Prop} (env : Env) {disk : Disk}
    (kept : ∀ key file, disk key = some file → TidyFile strict file) :
    Tidy strict (boot env disk) where
  session := fun _ =>
    ⟨⟨clean_nil, clean_nil, clean_nil, clean_nil, clean_nil, clean_nil, clean_nil, clean_nil,
      clean_nil, clean_nil, clean_nil, nofun⟩, nofun⟩
  outbox := fun _ => sound_nil
  hub := by
    have empty : TidyHub strict {} := ⟨nofun, nofun, nofun, nofun⟩
    change TidyHub strict (gridBoot env)
    unfold gridBoot
    split
    · exact empty
    · refine tidy_planted env empty _ fun row member => ?_
      exact List.fst_mem_of_mem_zipIdx member
  disk := kept

theorem tidy_run {env : Env} {disk : Disk} {events : List Event} {g : Server}
    (outside : Outside True env) (kept : ∀ key file, disk key = some file → TidyFile True file)
    (reached : Machine.Reaches (step env) (boot env disk) events g)
    (plain : Machine.Meets (step env) PlainEvent (boot env disk) events) : Tidy True g := by
  refine Machine.invariant_run (step env) PlainEvent (Tidy True) (boot env disk)
    (tidy_boot env kept) (fun g e g' tidy plain taken => ?_) events plain g reached
  exact (step_tidy outside tidy
    (fun c line given => plain_fair (plain c line given) (delivered_short given)) taken).2

/-- No byte of text ends a line of an outbox, and a line that opens with an @ was opened by
the server. -/
theorem lines_sound (env : Env) (disk : Disk) (events : List Event) (g : Server)
    (outside : Outside True env) (kept : ∀ key file, disk key = some file → TidyFile True file)
    (reached : Machine.Reaches (step env) (boot env disk) events g)
    (plain : Machine.Meets (step env) PlainEvent (boot env disk) events) :
    ∀ d before cell after, (g.blocks d).outbox = before ++ cell :: after →
      (cell.source ≠ .server → isBreak cell.byte = false) ∧
      (AtLineStart before → cell.byte = atSign → cell.source = .server) := by
  intro d before cell after split
  have sound := (tidy_run outside kept reached plain).outbox d trivial before cell after split
  refine ⟨fun foreign => (sound foreign).1, fun start opens => ?_⟩
  by_contra foreign
  exact (sound foreign).2 start opens

def plainly : Event → Bool
  | .message _ text =>
    (cstr (trimmed text)).all (fun b => !isBreak b) &&
      (parse (cstr (trimmed text))).all fun found => found.1 ≠ .inscribe
  | _ => true

theorem plainly_plain (g : Server) (e : Event) (passed : plainly e = true) : PlainEvent g e := by
  rintro c line ⟨text, rfl, _, _, _, rfl⟩
  simp only [plainly, Bool.and_eq_true, List.all_eq_true, Bool.not_eq_true'] at passed
  refine ⟨passed.1, fun arg parsed => ?_⟩
  rw [parsed] at passed
  cases passed.2

theorem quiet_outside : Outside True quietNode where
  world := clean_str _ rfl
  url := clean_str _ rfl
  hub := nofun
  torn := nofun
  short := nofun
  steady := fun _ _ => rfl
  handoff := by
    intro _ row offered
    cases offered with
    | hub _ _ _ answered => cases answered
    | own at_ms =>
      have fits : (handoffText ⟨safeCopy 48 (bootName quietNode), safeCopy 160 quietNode.worldUrl,
        0⟩).length < 512 := by decide +kernel
      exact fits

def emptyDisk : Disk := fun _ => none

theorem empty_disk_tidy (strict : Prop) (key : Bytes) (file : File)
    (found : emptyDisk key = some file) : TidyFile strict file := by
  cases found

/-- A new player who emotes. -/
def newcomer : List Event :=
  [.connect 0 1, .message 0 (str "ada"), .message 0 (str "elf"), .message 0 (str "password"),
    .message 0 (str "emote waves")]

theorem lines_sound_newcomer : ∃ g,
    Machine.Reaches (step quietNode) (boot quietNode emptyDisk) newcomer g ∧
    (g.blocks 0).state = .play ∧
    ∀ before cell after, (g.blocks 0).outbox = before ++ cell :: after →
      cell.source ≠ .server → isBreak cell.byte = false := by
  obtain ⟨g, reached, seated⟩ := Machine.ends_reaches (step quietNode)
    (boot quietNode emptyDisk) newcomer (fun g => decide ((g.blocks 0).state = .play))
    (by decide +kernel)
  have plain := Machine.meets_passed (step quietNode) (fun _ e => plainly e) PlainEvent
    plainly_plain (boot quietNode emptyDisk) newcomer (by decide +kernel)
  refine ⟨g, reached, of_decide_eq_true seated, fun before cell after split => ?_⟩
  exact (lines_sound quietNode emptyDisk newcomer g quiet_outside (empty_disk_tidy True) reached
    plain 0 before cell after split).1

/-- An emote with an LF in it puts a line of its own on the other player's screen. -/
theorem emote_forges_line : ¬ ∀ events g,
    Machine.Reaches (step quietNode) (boot quietNode sharedDisk) events g →
    ∀ d before cell after, (g.blocks d).outbox = before ++ cell :: after →
      cell.source = .text → isBreak cell.byte = false := by
  intro sound
  obtain ⟨g, reached, forged⟩ := Machine.ends_reaches (step quietNode) (boot quietNode sharedDisk)
    (returns 0 (str "ada") ++ returns 1 (str "bo") ++
      [.message 0 (str "emote hi\n@event comm.tell \x7b\x7d")])
    (fun g => (g.blocks 1).outbox.any fun cell => cell.source = Source.text && isBreak cell.byte)
    (by decide +kernel)
  obtain ⟨cell, member, foreign⟩ := List.any_eq_true.mp forged
  simp only [Bool.and_eq_true, decide_eq_true_eq] at foreign
  obtain ⟨before, after, split⟩ := List.append_of_mem member
  exact absurd foreign.2 (by simp [sound _ g reached 1 before cell after split foreign.1])

end HollowGrid
