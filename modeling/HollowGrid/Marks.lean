import HollowGrid.Registry
import HollowGrid.Voices

/-! Who told a session last, and whom its replies reach. -/
namespace HollowGrid

/-- The arm that a line of a player runs, and its argument. -/
def armed (g : Server) : Event → Option (Block × Arm × Ptr)
  | .message c text =>
    let line := cstr (trimmed text)
    if (Event.message c text).valid g ∧ text.length ≤ 255 ∧ (g.blocks c).state = .play ∧
        ¬(sameFold line (str "look") ∨ sameFold line (str "l")) ∧
        startsFold (str "look ") line = false ∧
        roomMove (g.blocks c).room (heading line) = .unknown then
      (parse line).map fun found => (c, found)
    else none
  | _ => none

/-- The line that tell_impl is given. A reply splices its mark into it. -/
def toldLine (g : Server) (c : Block) (arg : Ptr) : Arm → Option Bytes
  | .tell => some (arg.getD [])
  | .reply => if (g.blocks c).replyTo = [] then none
      else some (((g.blocks c).replyTo ++ [space] ++ argument arg).take 279)
  | _ => none

def addressed (g : Server) (e : Event) : Option (Block × Block × Bytes) :=
  (armed g e).bind fun (c, arm, arg) =>
    ((toldLine g c arg arm).bind (telling g)).map fun (d, msg) => (c, d, msg)

def hearing (g : Server) (e : Event) (b : Block) : Option Bytes :=
  (addressed g e).bind fun (c, d, msg) =>
    if d = b ∧ BothFit (g.blocks c).name msg 80 then some (g.blocks c).name else none

def opens (g : Server) (b : Block) : Event → Bool
  | .connect c wsi => decide (c = b) && (Event.connect c wsi).valid g
  | _ => false

/-- Who told the session at b last, once an event is over. -/
def teller (g : Server) (e : Event) (b : Block) (old : Option Bytes) : Option Bytes :=
  if opens g b e then none else (hearing g e b).or old

/-- Who told the session at b last in a run. -/
def lastTeller (env : Env) (b : Block) : Server → List Event → Option Bytes → Option Bytes
  | _, [], old => old
  | g, e :: rest, old =>
    match step env g e with
    | .ok next => lastTeller env b next rest (teller g e b old)
    | .error _ => teller g e b old

/-- Whoever is addressed hears it or has the mark already; and for a reply with a text, a session
has the mark for its whole name, or no other is the only one whose name starts with it. -/
structure Minded (g : Server) (e : Event) : Prop where
  heard : ∀ c d msg, addressed g e = some (c, d, msg) →
    BothFit (g.blocks c).name msg 80 ∨ (g.blocks d).replyTo = (g.blocks c).name
  clear : ∀ c arg, armed g e = some (c, .reply, arg) → argument arg ≠ [] →
    (∃ d ∈ g.present, sameFold (g.blocks d).name (g.blocks c).replyTo = true) ∨
    ∀ d, (g.present.filter fun d => startsFold (g.blocks c).replyTo (g.blocks d).name) = [d] → d = c

/-- Names and marks are as valid_name lets them be. -/
def ValidMarks (g : Server) : Prop := ∀ d,
  ((g.blocks d).name = [] ∨ validName (g.blocks d).name = true) ∧
  ((g.blocks d).replyTo = [] ∨ validName (g.blocks d).replyTo = true)

section Lines

variable {env : Env} {g g' : Server} {c d : Block} {e : Event} {line word : Bytes} {arm : Arm}
  {arg : Ptr}

theorem armed_iff : armed g e = some (c, arm, arg) ↔
    ∃ line, Delivered g e c line ∧ RunsArm g c line arm arg := by
  constructor
  · intro runs
    cases e with
    | message b text =>
      simp only [armed] at runs
      split at runs
      · rename_i ready
        obtain ⟨raised, short, playing, looks, at_one, stays⟩ := ready
        obtain ⟨found, parsed, same⟩ := Option.map_eq_some_iff.mp runs
        cases same
        exact ⟨_, ⟨text, rfl, raised, short, playing, rfl⟩, looks, at_one, stays, parsed⟩
      · cases runs
    | _ => cases runs
  · rintro ⟨line, ⟨text, rfl, raised, short, playing, rfl⟩, runs⟩
    simp only [armed]
    rw [if_pos ⟨raised, short, playing, runs.looks, runs.at_one, runs.stays⟩, runs.parsed]
    rfl

theorem line_cases (env : Env) (g : Server) (c : Block) (line : Bytes) :
    (∃ arm arg, RunsArm g c line arm arg) ∨
    ∃ m, worldCommand env c line g = m g ∧ ∀ may free, may c .place →
      Keeps (Framed may free g) (fun _ => True) m Any := by
  have shows {m : Act Unit} (quiet : ∀ I E, Reports False env E c I → Keeps I E m Any)
      (may : Block → Part → Prop) (free : Table → Prop) (_ : may c .place) :
      Keeps (Framed may free g) (fun _ => True) m Any :=
    quiet _ _ ((framed_permits env may free g).reports trivial)
  unfold worldCommand
  by_cases looks : sameFold line (str "look") ∨ sameFold line (str "l")
  · rw [if_pos looks]
    exact .inr ⟨_, rfl, shows fun _ _ r => r.scene_now⟩
  rw [if_neg looks]
  cases at_one : startsFold (str "look ") line with
  | true => exact .inr ⟨_, rfl, shows fun _ _ r => r.look_kept _⟩
  | false =>
    rw [if_neg (by simp), bind_ok (rfl : session c g = .ok (g.blocks c, g))]
    cases moved : roomMove (g.blocks c).room (heading line) with
    | there room => exact .inr ⟨_, rfl, fun _ _ place => move_framed place⟩
    | noExit => exact .inr ⟨_, rfl, shows fun _ _ r => r.cant_move_kept⟩
    | unknown =>
      unfold notMovement
      cases parsed : parse line with
      | none => exact .inr ⟨_, rfl, shows fun _ _ r => r.unknown_kept⟩
      | some found => exact .inl ⟨_, _, looks, at_one, moved, parsed⟩

theorem told_line_run (env : Env) (told : toldLine g c arg arm = some line) :
    exec env c arg arm g = .ok ((), (tellUttered g c line).after c) := by
  cases arm with
  | tell =>
    cases told
    exact tell_run g c _
  | reply =>
    have spliced : (g.blocks c).replyTo ≠ [] ∧
        ((g.blocks c).replyTo ++ [space] ++ argument arg).take 279 = line := by
      simp only [toldLine] at told
      split at told
      · cases told
      · exact ⟨‹_›, Option.some.inj told⟩
    change cmdReply c arg g = _
    rw [cmdReply, bind_ok (rfl : session c g = .ok (g.blocks c, g)), if_neg spliced.1, spliced.2]
    exact tell_run g c line
  | _ => cases told

theorem unmarked_run (env : Env) (arg : Ptr) (bare : (g.blocks c).replyTo = []) :
    exec env c arg .reply g =
      .ok ((), g.queued c (lit "No one has told you anything lately." ++ crlf)) := by
  change cmdReply c arg g = _
  rw [cmdReply, bind_ok (rfl : session c g = .ok (g.blocks c, g)), if_pos bare]
  exact line_runs (lit_fits _ (by decide))

theorem handed_character (texts : List (Block × Text)) (g : Server) (b : Block) :
    (((Uttered.handed g texts).after c).blocks b).toCharacter = (g.blocks b).toCharacter := by
  induction texts generalizing g with
  | nil => rfl
  | cons p rest ih => exact (ih (g.queued p.1 p.2)).trans (queued_character g p.1 b p.2)

theorem handed_outbox {texts : List (Block × Text)} {b : Block} (g : Server)
    (away : ∀ p ∈ texts, p.1 ≠ b) :
    (((Uttered.handed g texts).after c).blocks b).outbox = (g.blocks b).outbox := by
  induction texts generalizing g with
  | nil => rfl
  | cons p rest ih =>
    have later := ih (g.queued p.1 p.2) fun q member => away q (List.mem_cons_of_mem p member)
    have first := queued_other g p.2 (away p List.mem_cons_self).symm
    exact later.trans (congrArg Session.outbox first)

theorem told_reply (g : Server) (c b : Block) (line : Bytes) :
    (((tellUttered g c line).after c).blocks b).replyTo =
      match telling g line with
      | some (d, _) => if b = d then (g.blocks c).name else (g.blocks b).replyTo
      | none => (g.blocks b).replyTo := by
  unfold tellUttered
  cases telling g line with
  | none => exact congrArg Character.replyTo (queued_character g c b _)
  | some p =>
    obtain ⟨d, msg⟩ := p
    refine (congrArg Character.replyTo (handed_character _ _ b)).trans ?_
    by_cases own : b = d
    · subst own
      simp only [if_true, Server.updated, g.setBlock_own]
    · simp only [if_neg own, Server.updated, g.setBlock_other _ own]

theorem told_outbox {b : Block} (other : b ≠ c)
    (received : (((tellUttered g c line).after c).blocks b).outbox ≠ (g.blocks b).outbox) :
    ∃ msg, telling g line = some (b, msg) := by
  unfold tellUttered at received
  cases meant : telling g line with
  | none =>
    simp only [meant] at received
    exact absurd (congrArg Session.outbox (queued_other g _ other)) received
  | some p =>
    obtain ⟨d, msg⟩ := p
    by_cases own : b = d
    · exact ⟨msg, by rw [own]⟩
    simp only [meant] at received
    refine absurd ?_ received
    refine (handed_outbox _ fun p member => ?_).trans
      (congrArg Session.outbox (g.setBlock_other _ own))
    split at member
    · rcases List.mem_cons.mp member with rfl | echo
      · exact Ne.symm own
      · rw [List.mem_singleton.mp echo]
        exact Ne.symm other
    · cases member

/-- Whose socket the line came by makes no difference to whom it is for. -/
theorem told_heard (wsi : Wsi) (line : Bytes) : telling (g.setWsi c wsi) line = telling g line := by
  have same (target : Bytes) : toldBy (g.setWsi c wsi) target = toldBy g target := by
    have names (d : Block) := (heard_like (g := g) (c := c) wsi d).2
    have present : (g.setWsi c wsi).present = g.present := rfl
    simp only [toldBy, told_run, present, names]
  simp only [telling, same]

theorem mark_heard (wsi : Wsi) (b : Block) :
    ((g.setWsi c wsi).blocks b).replyTo = (g.blocks b).replyTo :=
  congrArg Character.replyTo (heard_like (g := g) (c := c) wsi b).1

theorem line_heard (wsi : Wsi) (arg : Ptr) (arm : Arm) :
    toldLine (g.setWsi c wsi) c arg arm = toldLine g c arg arm := by
  cases arm <;> simp only [toldLine, mark_heard]

theorem spares_marks (tells : arm ≠ .tell) (replies : arm ≠ .reply) :
    ∀ q ∈ arm.writes ++ arm.reaches, q ≠ .reply := by
  cases arm <;> first | exact absurd rfl tells | exact absurd rfl replies | decide

theorem armed_mark (runs : armed g e = some (c, arm, arg)) (taken : step env g e = .ok g')
    (b : Block) : (g'.blocks b).replyTo =
      match (toldLine g c arg arm).bind (telling g) with
      | some (d, _) => if b = d then (g.blocks c).name else (g.blocks b).replyTo
      | none => (g.blocks b).replyTo := by
  obtain ⟨line, given, runs⟩ := armed_iff.mp runs
  obtain ⟨wsi, ended⟩ := runs_step given runs taken
  have own := (heard_like (g := g) (c := c) wsi c).2
  cases told : toldLine g c arg arm with
  | some said =>
    have ran := told_line_run env ((line_heard wsi arg arm).trans told)
    cases ended.symm.trans ran
    rw [told_reply, told_heard, own, mark_heard]
    rfl
  | none =>
    by_cases replies : arm = .reply
    · subst replies
      have bare : (g.blocks c).replyTo = [] := by
        by_contra marked
        simp [toldLine, marked] at told
      have ran := unmarked_run env arg ((mark_heard (c := c) wsi c).trans bare)
      cases ended.symm.trans ran
      exact (congrArg Character.replyTo (queued_character _ c b _)).trans (mark_heard wsi b)
    · have tells : arm ≠ .tell := by
        rintro rfl
        cases told
      have quiet : arm.Within c (fun _ => True) (fun _ q => q ≠ .reply) (fun _ => True) := by
        have spared := spares_marks tells replies
        exact ⟨fun q own => spared q (List.mem_append_left _ own),
          fun q reached _ _ => spared q (List.mem_append_right _ reached), fun _ _ => trivial⟩
      have framed := ((exec_framed quiet).result (framed_start _ _ _) ended).1
      have kept := congrArg Character.replyTo (framed.parts b .reply (by simp))
      exact Eq.trans kept (mark_heard wsi b)

theorem load_reply {s s' : Session} {disk disk' : Disk} (load : Load env s disk s' disk') :
    s'.replyTo = s.replyTo := by
  cases load <;> rfl

theorem move_reply {s s' : Session} {disk disk' : Disk}
    (move : LoginMove env line s disk s' disk') : s'.replyTo = s.replyTo := by
  cases move with
  | named _ _ _ load => exact (load_reply load).trans rfl
  | trusted _ _ load => exact (load_reply load).trans rfl
  | entered _ enters => cases enters <;> rfl
  | _ => rfl

theorem unarmed_mark (idle : armed g e = none) (taken : step env g e = .ok g') (b : Block) :
    (g'.blocks b).replyTo = if opens g b e then [] else (g.blocks b).replyTo := by
  by_cases raised : e.valid g = true
  · by_cases opened : ∃ d wsi, e = .connect d wsi
    · obtain ⟨d, wsi, rfl⟩ := opened
      have same : g' = g.opened d wsi := by
        rw [step, if_pos raised] at taken
        cases taken
        rfl
      rw [same]
      by_cases own : d = b
      · subst own
        have fresh := congrArg Character.replyTo (opened_own g d wsi).character
        simp only [opens, raised, decide_true, Bool.and_self, if_true]
        exact fresh
      · simp [opens, own, opened_other g wsi (Ne.symm own)]
    · have shut : opens g b e = false := by
        cases e <;> first | rfl | exact absurd ⟨_, _, rfl⟩ opened
      rw [shut]
      cases step_course taken with
      | fresh same => exact absurd ⟨_, _, same⟩ opened
      | @login c text s' disk' _ _ _ move like others =>
        by_cases own : b = c
        · subst own
          exact (congrArg Character.replyTo like.character).trans (move_reply move)
        · rw [others b own]
          rfl
      | @command c line wsi m given =>
        obtain ⟨wsi, ran⟩ := delivered_run env given
        rcases line_cases env (g.setWsi c wsi) c line with ⟨arm, arg, runs⟩ | ⟨m, same, kept⟩
        · have ready := armed_iff.mpr ⟨line, given, (runs_heard wsi).mp runs⟩
          cases idle.symm.trans ready
        · have ended := map_ok (ran.symm.trans taken)
          rw [same] at ended
          have framed := ((kept (fun _ q => q ≠ .reply) (fun _ => True) (by decide)).result
            (framed_start _ _ _) ended).1
          have mark := congrArg Character.replyTo (framed.parts b .reply (by simp))
          exact Eq.trans mark (mark_heard wsi b)
      | beat _ _ ended =>
        have kept : Keeps (Framed (fun _ q => q ≠ .reply) (fun _ => True) g) (fun _ => True)
            (tickService env) Any :=
          beat_framed (fun _ => by decide) (fun _ => by decide) (fun _ => by decide) trivial trivial
        have framed := (kept.result (framed_start _ _ g) ended).1
        have mark := congrArg Character.replyTo (framed.parts b .reply (by simp))
        exact mark
      | quiet idle => exact congrArg Character.replyTo (idle.character b)
  · have shut : opens g b e = false := by
      cases e <;> first | rfl | simp [opens, raised]
    rw [step, if_neg raised] at taken
    cases taken
    rw [shut]
    rfl

theorem mark_step (taken : step env g e = .ok g') (b : Block) : (g'.blocks b).replyTo =
    if opens g b e then [] else
      match addressed g e with
      | some (c, d, _) => if b = d then (g.blocks c).name else (g.blocks b).replyTo
      | none => (g.blocks b).replyTo := by
  cases runs : armed g e with
  | none =>
    rw [addressed, runs]
    exact unarmed_mark runs taken b
  | some found =>
    obtain ⟨c, arm, arg⟩ := found
    have shut : opens g b e = false := by
      cases e <;> first | rfl | cases runs
    rw [armed_mark runs taken b, shut, addressed, runs]
    simp only [Option.bind_some, Bool.false_eq_true, if_false]
    cases (toldLine g c arg arm).bind (telling g) <;> rfl

theorem valid_step (valid : ValidMarks g) (taken : step env g e = .ok g') : ValidMarks g' := by
  intro b
  constructor
  · cases step_course taken with
    | @fresh c wsi _ _ same =>
      rw [same]
      by_cases own : b = c
      · subst own
        exact .inl (opened_own g b wsi).name
      · rw [opened_other g wsi own]
        exact (valid b).1
    | @login c text s' disk' _ _ _ move like others =>
      by_cases own : b = c
      · subst own
        rw [like.name]
        rcases move_name move with same | ⟨chosen, allowed⟩
        · rw [same]
          exact (valid b).1
        · rw [chosen]
          exact .inr allowed
      · rw [others b own]
        exact (valid b).1
    | command _ played =>
      rw [(played.peers b).name]
      exact (valid b).1
    | beat _ played =>
      rw [(played.peers b).name]
      exact (valid b).1
    | quiet idle =>
      rw [idle.name b]
      exact (valid b).1
  · rw [mark_step taken b]
    split
    · exact .inl rfl
    · split
      · split
        · exact (valid _).1
        · exact (valid b).2
      · exact (valid b).2

theorem valid_run {disk : Disk} {events : List Event}
    (reached : Machine.Reaches (step env) (boot env disk) events g) : ValidMarks g :=
  Machine.invariant_every_run (step env) ValidMarks (boot env disk)
    (fun _ => ⟨.inl rfl, .inl rfl⟩) (fun _ _ _ valid taken => valid_step valid taken) events g
    reached

/-- Who speaks in play is listed, with a name and a mark of valid_name. -/
theorem speaking_run {disk : Disk} {events : List Event}
    (reached : Machine.Reaches (step env) (boot env disk) events g)
    (few : Machine.Within (step env) (fun g => g.playing.length ≤ maxSessions) (boot env disk)
      events) (there : g.socket c ≠ none) (playing : (g.blocks c).state = .play) :
    Speaking g c := by
  have known := (introduced_run reached c).resolve_left (by simp [playing])
  have valid := valid_run reached c
  refine ⟨?_, valid.1.resolve_left known, valid.2⟩
  have seated : c ∈ g.playing :=
    List.mem_filter.mpr ⟨(opened_iff g c).mp there, decide_eq_true playing⟩
  exact ((registry_run reached few).listed c).mpr seated

theorem last_teller_snoc {start : Server} {events : List Event}
    (reached : Machine.Reaches (step env) start events g) (e : Event) (b : Block)
    (old : Option Bytes) : lastTeller env b start (events ++ [e]) old =
      teller g e b (lastTeller env b start events old) := by
  induction events generalizing start old with
  | nil =>
    cases reached
    simp only [List.nil_append, lastTeller]
    cases step env g e <;> rfl
  | cons first rest ih =>
    obtain ⟨next, taken, later⟩ := Machine.reaches_cons reached
    simp only [List.cons_append, lastTeller, taken]
    exact ih later _

theorem marks_run {disk : Disk} {events : List Event}
    (reached : Machine.Reaches (step env) (boot env disk) events g)
    (met : Machine.Meets (step env) Minded (boot env disk) events) (b : Block) :
    (g.blocks b).replyTo = (lastTeller env b (boot env disk) events none).getD [] := by
  refine Machine.history_run (step env) (fun events g =>
      Machine.Meets (step env) Minded (boot env disk) events → ∀ b,
        (g.blocks b).replyTo = (lastTeller env b (boot env disk) events none).getD [])
    (boot env disk) (fun _ _ => rfl) (fun events g e next reached marks taken met b => ?_) events g
    reached met b
  have minded := met events e [] g rfl reached
  have before := marks (Machine.meets_front _ _ _ events [e] met) b
  rw [mark_step taken b, last_teller_snoc reached, teller]
  cases opened : opens g b e with
  | true => rfl
  | false =>
    simp only [Bool.false_eq_true, if_false]
    cases whom : addressed g e with
    | none =>
      rw [hearing, whom]
      exact before
    | some found =>
      obtain ⟨c, d, msg⟩ := found
      have kept := minded.heard c d msg whom
      simp only [hearing, whom, Option.bind_some]
      by_cases own : b = d
      · subst own
        by_cases fits : BothFit (g.blocks c).name msg 80
        · rw [if_pos rfl, if_pos ⟨rfl, fits⟩]
          rfl
        · rw [if_pos rfl, if_neg fun both => fits both.2, ← kept.resolve_left fits]
          exact before
      · rw [if_neg own, if_neg fun both => own both.1.symm]
        exact before

theorem told_cases (found : toldBy g word = some d) (some_word : word ≠ []) :
    sameFold (g.blocks d).name word = true ∨
    (∀ b ∈ g.present, sameFold (g.blocks b).name word = false) ∧
      (g.present.filter fun d => startsFold word (g.blocks d).name) = [d] := by
  rw [toldBy, told_run, if_neg some_word] at found
  simp only at found
  cases first : g.present.find? fun d => sameFold (g.blocks d).name word with
  | some b =>
    rw [first] at found
    cases found
    have named := List.find?_some first
    exact .inl named
  | none =>
    rw [first] at found
    simp only at found
    have unnamed := List.find?_eq_none.mp first
    refine .inr ⟨fun b there => by simpa using unnamed b there, ?_⟩
    split at found
    · rename_i only
      cases found
      exact only
    · cases found

end Lines

/-- In a run whose steps meet the condition, nobody but the replier receives anything of a reply,
unless by the name of who told the replier last. -/
theorem replies_reach_teller (env : Env) (disk : Disk) (events : List Event) (g : Server)
    (e : Event) (g' : Server) (c d : Block) (arg : Ptr)
    (reached : Machine.Reaches (step env) (boot env disk) events g)
    (met : Machine.Meets (step env) Minded (boot env disk) (events ++ [e]))
    (replies : armed g e = some (c, .reply, arg)) (taken : step env g e = .ok g') (other : d ≠ c)
    (received : (g'.blocks d).outbox ≠ (g.blocks d).outbox) :
    ∃ name, lastTeller env c (boot env disk) events none = some name ∧
      sameFold (g.blocks d).name name = true := by
  have minded := met events e [] g rfl reached
  have mark := marks_run reached (Machine.meets_front _ _ _ events [e] met) c
  obtain ⟨line, given, runs⟩ := armed_iff.mp replies
  obtain ⟨wsi, ended⟩ := runs_step given runs taken
  have heard : ((g.setWsi c wsi).blocks d).outbox = (g.blocks d).outbox :=
    congrArg Session.outbox (g.setBlock_other _ other)
  by_cases bare : (g.blocks c).replyTo = []
  · have ran := unmarked_run env arg ((mark_heard (c := c) wsi c).trans bare)
    cases ended.symm.trans ran
    exact absurd ((congrArg Session.outbox (queued_other _ _ other)).trans heard) received
  have told : toldLine g c arg .reply = some _ := if_neg bare
  have ran := told_line_run env ((line_heard wsi arg .reply).trans told)
  cases ended.symm.trans ran
  obtain ⟨msg, meant⟩ := told_outbox other (heard.symm ▸ received)
  rw [told_heard, marked_telling g ((valid_run reached c).2.resolve_left bare)] at meant
  split at meant
  · cases meant
  · rename_i some_text
    obtain ⟨found, sought, same⟩ := Option.map_eq_some_iff.mp meant
    cases same
    rcases told_cases sought bare with whole | ⟨unnamed, only⟩
    · refine ⟨(g.blocks c).replyTo, ?_, whole⟩
      rw [mark] at bare ⊢
      cases last : lastTeller env c (boot env disk) events none with
      | none => exact absurd (by rw [last]; rfl) bare
      | some name => rfl
    · rcases minded.clear c arg replies some_text with ⟨b, there, named⟩ | single
      · rw [unnamed b there] at named
        cases named
      · exact absurd (single d only) other

def mindedTest (g : Server) (e : Event) : Bool :=
  (match addressed g e with
    | some (c, d, msg) => decide (BothFit (g.blocks c).name msg 80 ∨
        (g.blocks d).replyTo = (g.blocks c).name)
    | none => true) &&
  match armed g e with
  | some (c, .reply, _) => g.present.any fun d => sameFold (g.blocks d).name (g.blocks c).replyTo
  | _ => true

theorem minded_tested (g : Server) (e : Event) (passed : mindedTest g e = true) : Minded g e := by
  simp only [mindedTest, Bool.and_eq_true] at passed
  constructor
  · intro c d msg whom
    simpa only [whom, decide_eq_true_eq] using passed.1
  · intro c arg replies _
    left
    simpa only [replies, List.any_eq_true] using passed.2

/-- Bo tells ada, who is online with bobby too, and may leave. -/
def toldAda (leaves : Bool) : List Event :=
  returns 0 (str "ada") ++ returns 1 (str "bo") ++ returns 2 (str "bobby") ++
    [.message 1 (str "tell ada hi")] ++ if leaves then [.close 1] else []

def replyHeard (d : Block) (g : Server) : Bool :=
  decide (armed g (.message 0 (str "reply hush")) = some (0, .reply, some (str "hush"))) &&
  match step quietNode g (.message 0 (str "reply hush")) with
  | .ok next => decide ((next.blocks d).outbox ≠ (g.blocks d).outbox)
  | .error _ => false

theorem replies_heard :
    Machine.ends (step quietNode) (boot quietNode sharedDisk) (toldAda false) (replyHeard 1) = true ∧
    Machine.ends (step quietNode) (boot quietNode sharedDisk) (toldAda true)
      (fun g => replyHeard 2 g && decide ((g.blocks 2).name = str "bobby")) = true := by
  decide +kernel

theorem replies_reach_bo : ∃ g : Server,
    (∃ g', step quietNode g (.message 0 (str "reply hush")) = .ok g' ∧
      (g'.blocks 1).outbox ≠ (g.blocks 1).outbox) ∧
    ∃ name, lastTeller quietNode 0 (boot quietNode sharedDisk) (toldAda false) none = some name ∧
      sameFold (g.blocks 1).name name = true := by
  obtain ⟨g, reached, shown⟩ := Machine.ends_reaches (step quietNode) (boot quietNode sharedDisk)
    (toldAda false) (replyHeard 1) replies_heard.1
  have met := Machine.meets_passed (step quietNode) mindedTest Minded minded_tested
    (boot quietNode sharedDisk) (toldAda false ++ [.message 0 (str "reply hush")])
    (by decide +kernel)
  rw [replyHeard, Bool.and_eq_true] at shown
  obtain ⟨replies, moved⟩ := shown
  cases taken : step quietNode g (.message 0 (str "reply hush")) with
  | error fault =>
    rw [taken] at moved
    cases moved
  | ok g' =>
    rw [taken] at moved
    have received := of_decide_eq_true moved
    exact ⟨g, ⟨g', taken, received⟩, replies_reach_teller quietNode sharedDisk (toldAda false) g _
      g' 0 1 _ reached met (of_decide_eq_true replies) taken (by decide) received⟩

/-- Bobby receives what ada replies to bo, who has left. -/
theorem reply_astray : ¬ ∀ events (g : Server) e (g' : Server) c d arg,
    Machine.Reaches (step quietNode) (boot quietNode sharedDisk) events g →
    armed g e = some (c, .reply, arg) → step quietNode g e = .ok g' → d ≠ c →
    (g'.blocks d).outbox ≠ (g.blocks d).outbox →
    ∃ name, lastTeller quietNode c (boot quietNode sharedDisk) events none = some name ∧
      sameFold (g.blocks d).name name = true := by
  intro always
  obtain ⟨g, reached, shown⟩ := Machine.ends_reaches (step quietNode) (boot quietNode sharedDisk)
    (toldAda true) (fun g => replyHeard 2 g && decide ((g.blocks 2).name = str "bobby"))
    replies_heard.2
  rw [Bool.and_eq_true, replyHeard, Bool.and_eq_true] at shown
  obtain ⟨⟨replies, moved⟩, named⟩ := shown
  have told : lastTeller quietNode 0 (boot quietNode sharedDisk) (toldAda true) none =
      some (str "bo") := by decide +kernel
  cases taken : step quietNode g (.message 0 (str "reply hush")) with
  | error fault =>
    rw [taken] at moved
    cases moved
  | ok g' =>
    rw [taken] at moved
    obtain ⟨name, last, same⟩ := always _ g _ g' 0 2 _ reached (of_decide_eq_true replies) taken
      (by decide) (of_decide_eq_true moved)
    rw [told] at last
    cases last
    rw [of_decide_eq_true named] at same
    revert same
    decide

end HollowGrid
