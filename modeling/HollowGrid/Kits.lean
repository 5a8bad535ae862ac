import HollowGrid.Counts
import HollowGrid.Gifts

/-! What a character wields and what it carries, over whole runs. -/
namespace HollowGrid

open Machine

/-- Nothing is wielded that is not carried. -/
def Character.Kit (ch : Character) : Prop := ch.weapon = [] ∨ ch.weapon ∈ ch.inventory

instance (ch : Character) : Decidable ch.Kit := inferInstanceAs (Decidable (_ ∨ _))

def AllKits (g : Server) : Prop := ∀ d, (g.blocks d).Kit

/-- The character file that a login of the name reads leaves a weapon that is carried. -/
def FileKit (env : Env) (g : Server) (c : Block) (name : Bytes) : Prop :=
  ∀ root, Stored env g.disk { g.blocks c with name := name } root →
    (loadCharacter root (g.blocks c).toCharacter).Kit

/-- The steps that keep a kit whole: a shiv is wielded by who carries one, no give takes the
last of what is wielded, and no file that is read arms a character with what it lacks. -/
structure KeepsKits (env : Env) (g : Server) (e : Event) : Prop where
  wields : ∀ c line arg, Delivered g e c line → parse line = some (.wield, arg) →
    namesShiv arg = true → str "shiv" ∈ (g.blocks c).inventory
  gives : ∀ c line arg i d, Delivered g e c line → parse line = some (.give, arg) →
    giveMove env g (c, arg) = some (i, d) →
      (g.blocks c).weapon = [] ∨ (g.blocks c).weapon ∈ (g.blocks c).inventory.eraseIdx i
  loads : ∀ c text, e = .message c text → (g.blocks c).state ≠ .play →
    FileKit env g c (trimmed text) ∧ FileKit env g c (g.blocks c).name

section Commands

variable {env : Env} {c : Block} {g g' : Server}

theorem kit_same {s s' : Character} (pack : s'.inventory = s.inventory)
    (gear : s'.weapon = s.weapon) (kit : s.Kit) : s'.Kit := by
  rw [Character.Kit, pack, gear]
  exact kit

theorem framed_pack {may : Block → Part → Prop} {free : Table → Prop}
    (framed : Framed may free g g') {d : Block} (shut : ¬may d .pack) :
    (g'.blocks d).inventory = (g.blocks d).inventory := by
  have same := congrArg Character.inventory (framed.parts d .pack shut)
  exact same

theorem framed_gear {may : Block → Part → Prop} {free : Table → Prop}
    (framed : Framed may free g g') {d : Block} (shut : ¬may d .gear) :
    (g'.blocks d).weapon = (g.blocks d).weapon := by
  have same := congrArg Character.weapon (framed.parts d .gear shut)
  exact same

theorem framed_kit {may : Block → Part → Prop} {free : Table → Prop} (framed : Framed may free g g')
    {d : Block} (pack : ¬may d .pack) (gear : ¬may d .gear) (kit : (g.blocks d).Kit) :
    (g'.blocks d).Kit :=
  kit_same (framed_pack framed pack) (framed_gear framed gear) kit

theorem kits_last (env : Env) :
    Permits False env (fun _ => True) (fun _ => True) (fun _ q => q ≠ .pack ∧ q ≠ .gear)
      (fun _ => True) AllKits :=
  lasting_permits env fun _ _ framed kits d => framed_kit framed (by simp) (by simp) (kits d)

theorem kits_said (c : Block) (t : Text) : Keeps AllKits (fun _ => True) (queue c t) Any :=
  ((kits_last quietNode).reports (d := c) trivial).said (sound_lax id)

theorem kits_line (c : Block) (t : Text) : Keeps AllKits (fun _ => True) (queueLine c t) Any :=
  ((kits_last quietNode).reports (d := c) trivial).line (sound_lax id)

theorem kits_written {f : Character → Character} (kits : AllKits g)
    (kit : (f (g.blocks c).toCharacter).Kit) : AllKits (g.updated c f) := by
  intro d
  by_cases own : d = c
  · subst own
    rw [Server.updated, Server.setBlock_own]
    exact kit
  · rw [Server.updated, Server.setBlock_other _ _ own]
    exact kits d

theorem kits_updated {f : Character → Character} (keeps : ∀ ch : Character, ch.Kit → (f ch).Kit) :
    Keeps AllKits (fun _ => True) (update c f) Any :=
  Keeps.modify fun _ kits => kits_written kits (keeps _ (kits c))

theorem kit_added (item : Bytes) {ch : Character} (kit : ch.Kit) : (invAdd item ch).Kit := by
  unfold invAdd
  split
  · exact kit
  · exact kit.imp_right fun member => List.mem_append_left _ member

theorem pay_kits (price : Int) (item pretty : String) :
    Keeps AllKits (fun _ => True) (pay env c price item pretty) Any := by
  have p := kits_last env
  have r := p.reports (d := c) trivial
  refine Keeps.bind (p.reads c) fun s _ => Keeps.branch (kits_line c _) ?_
  refine Keeps.seq (kits_updated fun ch kit => kit_added _ kit) (Keeps.seq (p.saves trivial) ?_)
  exact Keeps.seq (kits_line c _) r.vitals_now

theorem buy_kits (arg : Ptr) : Keeps AllKits (fun _ => True) (cmdBuy env c arg) Any := by
  have p := kits_last env
  have r := p.reports (d := c) trivial
  refine Keeps.bind (p.reads c) fun s _ =>
    Keeps.branch (Keeps.branch (Keeps.branch (kits_line c _) ?_)
    (kits_line c _)) (Keeps.branch ?_ (kits_line c _))
  · refine Keeps.seq (kits_updated fun ch kit => kit_added _ kit) (Keeps.seq (p.saves trivial) ?_)
    exact Keeps.seq (kits_line c _) r.vitals_now
  · refine Keeps.branch (pay_kits _ _ _) (Keeps.branch (pay_kits _ _ _) ?_)
    exact Keeps.branch (pay_kits _ _ _) (kits_line c _)

theorem defend_kits : Keeps AllKits (fun _ => True) (cmdDefend env c) Any := by
  have p := kits_last env
  have r := p.reports (d := c) trivial
  refine Keeps.bind (p.reads c) fun s _ => Keeps.branch (kits_said c _) ?_
  refine Keeps.seq (kits_updated fun ch kit => kit_added _ kit) ?_
  refine Keeps.seq (kits_said c _) (Keeps.seq r.affects (Keeps.seq r.vitals ?_))
  exact Keeps.seq (p.shifts _) (p.saves trivial)

theorem free_pit_kits : Keeps AllKits (fun _ => True) (freePit env c) Any := by
  have p := kits_last env
  have r := p.reports (d := c) trivial
  refine Keeps.bind (p.reads c) fun s _ => Keeps.bind (p.finds_slot _ _ _) fun slot _ => ?_
  refine Keeps.branch (kits_line c _) (Keeps.seq (kits_updated fun ch kit => ?_) ?_)
  · have given := kit_added (str "antidote") kit
    exact kit_same rfl rfl given
  refine Keeps.seq (p.on_ledger _ fun _ shut => absurd trivial shut)
    (Keeps.bind p.times fun now _ => Keeps.seq ?_ ?_)
  · exact p.rescues now (clean_lax basaltRelay) (clean_lax (str "Mira")) (clean_lax s.name)
  · refine Keeps.seq ?_ ?_
    · exact kits_line c _
    apply Keeps.seq (kits_said c _)
    exact Keeps.seq (p.shifts 0) (Keeps.seq r.affects_now (p.saves trivial))

theorem free_kits : Keeps AllKits (fun _ => True) (cmdFree env c) Any := by
  have p := kits_last env
  have r := p.reports (d := c) trivial
  refine Keeps.bind (p.reads c) fun s _ => Keeps.branch free_pit_kits (Keeps.branch ?_ ?_)
  · refine Keeps.bind p.times fun now _ => Keeps.bind keeps_ledger fun l _ => Keeps.branch ?_ ?_
    · exact kits_line c _
    · have morals : Part.morals ≠ .pack ∧ Part.morals ≠ .gear := by decide
      refine Keeps.seq (p.on_ledger _ fun _ shut => absurd trivial shut)
        (p.free_two_kept trivial morals trivial now _ rfl rfl ?_)
      exact sound_lax id
  · exact kits_line c _

theorem remove_kits (arg : Ptr) : Keeps AllKits (fun _ => True) (cmdRemove c arg) Any := by
  have r := (kits_last quietNode).reports (d := c) trivial
  refine Keeps.bind ((kits_last quietNode).reads c) fun s _ => Keeps.branch (kits_said c _) ?_
  refine Keeps.branch (kits_said c _) ?_
  refine Keeps.seq (kits_updated fun ch _ => .inl rfl) ?_
  exact Keeps.seq (kits_said c _) r.equipment

theorem wield_kits {arg : Ptr} (kits : AllKits g)
    (carried : namesShiv arg = true → str "shiv" ∈ (g.blocks c).inventory)
    (done : cmdWield c arg g = .ok ((), g')) : AllKits g' := by
  have r := (kits_last quietNode).reports (d := c) trivial
  unfold cmdWield at done
  split at done
  · rename_i named
    have armed : AllKits (g.updated c fun ch => { ch with weapon := str "shiv" }) :=
      kits_written kits (.inr (carried named))
    rw [bind_ok (rfl :
      update c (fun ch => { ch with weapon := str "shiv" }) g = .ok ((), _))] at done
    have shown : Keeps AllKits (fun _ => True)
        (queue c readyShiv >>= fun _ => emitEquipment c) Any :=
      Keeps.seq (kits_said c _) r.equipment
    exact (shown.result armed done).1
  · exact ((kits_said c _).result kits done).1

theorem give_kits {arg : Ptr} (kits : AllKits g)
    (spare : ∀ i d, giveMove env g (c, arg) = some (i, d) →
      (g.blocks c).weapon = [] ∨ (g.blocks c).weapon ∈ (g.blocks c).inventory.eraseIdx i)
    (done : cmdGive env c arg g = .ok ((), g')) : AllKits g' := by
  have gear (d : Block) : (g'.blocks d).weapon = (g.blocks d).weapon := by
    have kept : Keeps (Framed (fun _ q => q = .pack) (fun _ => True) g) (fun _ => True)
        (exec env c arg .give) Any := by
      refine exec_framed ⟨?_, ?_, fun _ _ => trivial⟩
      · decide
      · intro q reached _ _
        simpa [Arm.reaches] using reached
    have framed := (kept.result (framed_start _ _ g) done).1
    exact framed_gear framed (by simp)
  obtain ⟨last, ran, effect⟩ := give_run env g (c, arg)
  have same : last = g' := by
    rw [giveStep, done] at ran
    cases ran
    rfl
  subst same
  intro d
  cases moves : giveMove env g (c, arg) with
  | none =>
    rw [moves] at effect
    exact kit_same (effect.held d) (gear d) (kits d)
  | some found =>
    obtain ⟨i, taker⟩ := found
    rw [moves] at effect
    obtain ⟨gave, got, others⟩ := move_held moves effect
    by_cases own : d = c
    · subst own
      rw [Character.Kit, gear d]
      refine (spare i taker moves).imp_right fun member => ?_
      have left_over : (last.blocks d).inventory = (g.blocks d).inventory.eraseIdx i := gave
      rwa [left_over]
    by_cases given : d = taker
    · subst given
      rw [Character.Kit, gear d]
      have held := kit_added ((g.held c).getD i []) (kits d)
      have weapon : (invAdd ((g.held c).getD i []) (g.blocks d).toCharacter).weapon =
          (g.blocks d).weapon := by
        unfold invAdd
        split <;> rfl
      rw [Character.Kit, weapon, ← got] at held
      exact held
    · exact kit_same (others d own given) (gear d) (kits d)

theorem exec_kits {arm : Arm} {arg : Ptr} (kits : AllKits g)
    (wields : arm = .wield → namesShiv arg = true → str "shiv" ∈ (g.blocks c).inventory)
    (gives : arm = .give → ∀ i d, giveMove env g (c, arg) = some (i, d) →
      (g.blocks c).weapon = [] ∨ (g.blocks c).weapon ∈ (g.blocks c).inventory.eraseIdx i)
    (done : exec env c arg arm g = .ok ((), g')) : AllKits g' := by
  have others (free : ∀ q ∈ arm.writes, q ≠ .pack ∧ q ≠ .gear)
      (reached : ∀ q ∈ arm.reaches, q ≠ .pack ∧ q ≠ .gear) : AllKits g' := by
    have kept : Keeps AllKits (fun _ => True) (exec env c arg arm) Any :=
      (kits_last env).exec_kept trivial
        ⟨free, fun q there d _ => reached q there, fun _ _ => trivial⟩
        (fun b _ => clean_lax b) False.elim False.elim fun _ _ => trivial
    exact (kept.result kits done).1
  cases arm with
  | wield => exact wield_kits kits (wields rfl) done
  | give => exact give_kits kits (gives rfl) done
  | remove => exact ((remove_kits arg).result kits done).1
  | buy => exact ((buy_kits arg).result kits done).1
  | free => exact (free_kits.result kits done).1
  | defend => exact (defend_kits.result kits done).1
  | _ => exact others (by decide) (by decide)

end Commands

section Runs

variable {env : Env} {c : Block} {g g' : Server} {e : Event}

/-- Whose socket a line came by makes no difference to what is given. -/
theorem give_heard (wsi : Wsi) (arg : Ptr) :
    giveMove env (g.setWsi c wsi) (c, arg) = giveMove env g (c, arg) := by
  obtain ⟨character, name⟩ := heard_like (g := g) (c := c) wsi c
  have place := congrArg Character.room character
  have pack := congrArg Character.inventory character
  change ((g.setWsi c wsi).blocks c).room = (g.blocks c).room at place
  change ((g.setWsi c wsi).blocks c).inventory = (g.blocks c).inventory at pack
  have slots (word : Bytes) : slotFound env (g.setWsi c wsi) word (g.blocks c).inventory =
      slotFound env g word (g.blocks c).inventory := by
    obtain ⟨slot, n, answers⟩ := slot_answers env word (g.blocks c).inventory 0 g.asked
    unfold slotFound
    rw [answers g rfl, answers (g.setWsi c wsi) rfl]
  simp only [giveMove, pack, place, name, slots, found_heard]

theorem load_kit {s s' : Session} {disk disk' : Disk} (load : Load env s disk s' disk')
    (kit : s.Kit) (file : ∀ root, Stored env disk s root → (loadCharacter root s.toCharacter).Kit) :
    s'.Kit := by
  cases load with
  | unreadable => exact kit
  | own stored => exact file _ stored
  | merged stored _ => exact kit_same rfl rfl (file _ stored)
  | adopted _ _ _ => exact kit_same rfl rfl kit
  | fresh _ => exact kit

theorem login_kit {text : Bytes} {s' : Session} {disk' : Disk} (kit : (g.blocks c).Kit)
    (named : FileKit env g c (trimmed text)) (own : FileKit env g c (g.blocks c).name)
    (move : LoginMove env (trimmed text) (g.blocks c) g.disk s' disk') : s'.Kit := by
  cases move with
  | refused => exact kit
  | keeper => exact kit
  | named _ _ _ load => exact load_kit load kit named
  | trusted _ _ load => exact load_kit load kit own
  | raced => exact kit_same rfl rfl kit
  | entered _ enters _ => cases enters <;> exact kit

/-- One event that meets the condition keeps every kit whole. -/
theorem kits_step (kits : AllKits g) (met : KeepsKits env g e) (taken : step env g e = .ok g') :
    AllKits g' := by
  cases step_course taken with
  | @fresh c wsi _ _ same =>
    intro d
    by_cases own : d = c
    · subst own
      have like := opened_own g d wsi
      rw [same]
      have fresh : (newSession wsi).Kit := .inl rfl
      rwa [← like.character] at fresh
    · rw [same, opened_other g wsi own]
      exact kits d
  | @login c text s' disk' arrived _ away move like others =>
    obtain ⟨named, own_file⟩ := met.loads c text arrived away
    intro d
    by_cases own : d = c
    · subst own
      rw [like.character]
      exact login_kit (kits d) named own_file move
    · rw [others d own]
      exact kits d
  | @command c line wsi m given _ said ended =>
    have heard : Idle g (g.setWsi c wsi) := idle_block rfl rfl rfl rfl
    have before : AllKits (g.setWsi c wsi) := fun d => by
      rw [heard.character d]
      exact kits d
    cases said with
    | shows quiet =>
      have kept := quiet AllKits (fun _ => True) ((kits_last env).reports trivial)
      exact (kept.result before ended).1
    | @walks room _ =>
      have kept : Keeps AllKits (fun _ => True) (moveTo c room) Any :=
        (kits_last env).move_kept trivial (by simp) room
      exact (kept.result before ended).1
    | @runs arm arg _ parsed =>
      have same := heard.character c
      refine exec_kits before ?_ ?_ ended
      · rintro rfl named
        rw [same]
        exact met.wields c line arg given parsed named
      · rintro rfl i d moves
        rw [same]
        rw [give_heard] at moves
        exact met.gives c line arg i d given parsed moves
  | beat _ _ ended =>
    intro d
    have kept : Keeps (Framed (fun _ q => q.beaten = true) (fun _ => True) g) (fun _ => True)
        (tickService env) Any :=
      beat_framed (fun _ => rfl) (fun _ => rfl) (fun _ => rfl) trivial trivial
    exact framed_kit (kept.result (framed_start _ _ g) ended).1 (by decide) (by decide) (kits d)
  | quiet idle =>
    intro d
    rw [idle.character d]
    exact kits d

/-- In every run of such steps no character wields what it does not carry. -/
theorem kits_kept (env : Env) (disk : Disk) (events : List Event) (g : Server)
    (met : Meets (step env) (KeepsKits env) (boot env disk) events)
    (reached : Reaches (step env) (boot env disk) events g) : AllKits g :=
  invariant_run (step env) (KeepsKits env) AllKits (boot env disk) (fun _ => .inl rfl)
    (fun _ _ _ kits met taken => kits_step kits met taken) events met g reached

/-- The condition as a test of one event, on a node whose reads are whole. -/
def keepsKits (env : Env) (g : Server) : Event → Bool
  | .message c text =>
    if (g.blocks c).state = .play then
      match parse (cstr (trimmed text)) with
      | some (.wield, arg) => !namesShiv arg || (g.blocks c).inventory.contains (str "shiv")
      | some (.give, arg) => (giveMove env g (c, arg)).all fun found =>
          decide ((g.blocks c).weapon = [] ∨
            (g.blocks c).weapon ∈ (g.blocks c).inventory.eraseIdx found.1)
      | _ => true
    else [trimmed text, (g.blocks c).name].all fun name =>
      match (characterPath name).bind g.disk with
      | some (.json root) => decide (loadCharacter root (g.blocks c).toCharacter).Kit
      | _ => true
  | _ => true

theorem keeps_kits_tested (g : Server) (e : Event) (passed : keepsKits quietNode g e = true) :
    KeepsKits quietNode g e := by
  have command (c : Block) (line : Bytes) (given : Delivered g e c line) :
      (match parse line with
        | some (.wield, arg) => !namesShiv arg || (g.blocks c).inventory.contains (str "shiv")
        | some (.give, arg) => (giveMove quietNode g (c, arg)).all fun found =>
            decide ((g.blocks c).weapon = [] ∨
              (g.blocks c).weapon ∈ (g.blocks c).inventory.eraseIdx found.1)
        | _ => true) = true := by
    obtain ⟨text, rfl, _, _, playing, rfl⟩ := given
    simpa only [keepsKits, if_pos playing] using passed
  constructor
  · intro c line arg given parsed named
    have test := command c line given
    rw [parsed] at test
    simpa [named] using test
  · intro c line arg i d given parsed moves
    have test := command c line given
    rw [parsed] at test
    simp only [moves, Option.all_some] at test
    exact of_decide_eq_true test
  · rintro c text rfl away
    have tests : ∀ name ∈ [trimmed text, (g.blocks c).name], FileKit quietNode g c name := by
      intro name member root stored
      simp only [keepsKits, if_neg away] at passed
      have test := List.all_eq_true.mp passed name member
      obtain ⟨key, file, path, found, whole | ⟨n, short⟩⟩ := stored
      · change characterPath name = some key at path
        subst whole
        rw [path, Option.bind_some, found] at test
        exact of_decide_eq_true test
      · cases short
    exact ⟨tests _ (by simp), tests _ (by simp)⟩

/-- A disk on which every character carries a shiv. -/
def shivDisk : Disk := fun _ =>
  some (.json (.obj [(str "secretHash", .str (bcryptLike (str "password") oneSalt)),
    (str "inventory", .arr [.str (str "shiv")])]))

theorem kits_kept_ada : ∃ g, Reaches (step quietNode) (boot quietNode shivDisk)
      (returns 0 (str "ada") ++ [.message 0 (str "wield shiv")]) g ∧
    (g.blocks 0).weapon = str "shiv" ∧ AllKits g := by
  obtain ⟨g, reached, armed⟩ := ends_reaches (step quietNode) (boot quietNode shivDisk)
    (returns 0 (str "ada") ++ [.message 0 (str "wield shiv")])
    (fun g => decide ((g.blocks 0).weapon = str "shiv")) (by decide +kernel)
  have met := meets_passed (step quietNode) (keepsKits quietNode) (KeepsKits quietNode)
    keeps_kits_tested (boot quietNode shivDisk)
    (returns 0 (str "ada") ++ [.message 0 (str "wield shiv")]) (by decide +kernel)
  exact ⟨g, reached, of_decide_eq_true armed, kits_kept quietNode shivDisk _ g met reached⟩

/-- A returning character of an empty file carries nothing, and wields a shiv. -/
theorem shiv_from_nowhere : ¬ ∀ (env : Env) (disk : Disk) (events : List Event) (g : Server),
    Reaches (step env) (boot env disk) events g → AllKits g := by
  intro always
  obtain ⟨g, reached, armed⟩ := ends_reaches (step quietNode) (boot quietNode sharedDisk)
    (returns 0 (str "ada") ++ [.message 0 (str "wield shiv")])
    (fun g => !decide (g.blocks 0).Kit) (by decide +kernel)
  have kit := always _ _ _ g reached 0
  simp [kit] at armed

end Runs

end HollowGrid
