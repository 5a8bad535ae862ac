import HollowGrid.Steps

/-! The null argument of a bare command: which messages have a handler read through it. -/
namespace HollowGrid

/-- A bare gridcast, or a bare consider beside the living rat. -/
def NullArgument (g : Server) (c : Block) (line : Bytes) : Prop :=
  parse line = some (.gridcast, none) ∨
    (parse line = some (.consider, none) ∧ ratHere (g.blocks c) g.world = true)

instance (g : Server) (c : Block) (line : Bytes) : Decidable (NullArgument g c line) :=
  inferInstanceAs (Decidable (_ ∨ _))

section Words

variable {a b : Bytes}

theorem same_fold_congr (same : lower a = lower b) (x : Bytes) : sameFold a x = sameFold b x := by
  rw [sameFold, same, sameFold]

theorem starts_fold_congr (same : lower a = lower b) (start : Bytes) :
    startsFold start a = startsFold start b := by
  simp only [startsFold, sameFold, lower, List.map_take] at same ⊢
  rw [same]

theorem room_move_congr (same : lower a = lower b) (room : Int) : roomMove room a = roomMove room b := by
  simp only [roomMove, same_fold_congr same]

end Words

/-- The words whose handlers take a null argument as it is. -/
def unguardedWords : List Bytes := [str "consider", str "con", str "gridcast", str "gc"]

theorem unguarded_word {line : Bytes} {arm : Arm} (parsed : parse line = some (arm, none))
    (bare : arm.unguarded = true) : ∃ word ∈ unguardedWords, lower line = lower word := by
  simp only [parse, Option.map_eq_some_iff, Prod.mk.injEq] at parsed
  obtain ⟨command, found, rfl, none_left⟩ := parsed
  have table : ∀ command ∈ commands, command.offset.isNone → command.arm.unguarded = true →
      str command.word ∈ unguardedWords := by decide +kernel
  have whole : command.offset = none := Option.map_eq_none_iff.mp none_left
  refine ⟨str command.word, table command (List.mem_of_find?_eq_some found) ?_ bare, ?_⟩
  · rw [whole]
    rfl
  · have fits := List.find?_some found
    simp only [Command.fits, whole] at fits
    exact (same_fold_iff line _).mp fits

theorem unguarded_falls_through {word : Bytes} (member : word ∈ unguardedWords) (room : Int) :
    sameFold word (str "look") = false ∧ sameFold word (str "l") = false ∧
    startsFold (str "look ") word = false ∧ startsFold (str "go ") word = false ∧
    roomMove room word = .unknown := by
  have plain : ∀ word ∈ unguardedWords, sameFold word (str "look") = false ∧
      sameFold word (str "l") = false ∧ startsFold (str "look ") word = false ∧
      startsFold (str "go ") word = false := by decide +kernel
  have nowhere : ∀ word ∈ unguardedWords, ∀ e ∈ exits, sameFold word (str e.2.1) = false := by
    decide +kernel
  have unheard : ∀ word ∈ unguardedWords, ∀ d ∈ directions, sameFold word (str d) = false := by
    decide +kernel
  obtain ⟨look, l, look_at, go⟩ := plain word member
  refine ⟨look, l, look_at, go, ?_⟩
  have no_exit : exits.find? (fun e => e.1 = room && sameFold word (str e.2.1)) = none := by
    refine List.find?_eq_none.mpr fun e there => ?_
    rw [nowhere word member e there, Bool.and_false]
    exact Bool.false_ne_true
  have no_direction : directions.any (fun d => sameFold word (str d)) = false := by
    refine List.any_eq_false.mpr fun d there => ?_
    rw [unheard word member d there]
    exact Bool.false_ne_true
  rw [roomMove, no_exit, no_direction]
  rfl

theorem unguarded_exec {env : Env} {c : Block} {line : Bytes} {arm : Arm}
    (parsed : parse line = some (arm, none)) (bare : arm.unguarded = true) (g : Server) :
    worldCommand env c line g = exec env c none arm g := by
  obtain ⟨word, member, same⟩ := unguarded_word parsed bare
  obtain ⟨look, l, look_at, go, nowhere⟩ :=
    unguarded_falls_through member (g.blocks c).room
  have head : heading line = line := by
    rw [heading, starts_fold_congr same, go]
    rfl
  rw [worldCommand, same_fold_congr same, same_fold_congr same, look, l, starts_fold_congr same,
    look_at]
  change (session c >>= _) g = _
  rw [bind_ok (rfl : session c g = .ok (g.blocks c, g)), head, room_move_congr same, nowhere]
  simp only [notMovement, parsed]

section Step

variable {env : Env} {g : Server} {e : Event} {c : Block} {line : Bytes}

theorem consider_null (h : Server) : cmdConsider c none h =
    if ratHere (h.blocks c) h.world = false then queue c dontSee h else .error .nullRead := by
  unfold cmdConsider
  rw [bind_ok (rfl : session c h = .ok (h.blocks c, h)), bind_ok (rfl : getWorld h = .ok (h.world, h))]
  split <;> rfl

/-- The rat is where it was when the socket of a session moves. -/
theorem rat_here_wsi (g : Server) (c : Block) (wsi : Wsi) :
    ratHere ((g.setWsi c wsi).blocks c) (g.setWsi c wsi).world = ratHere (g.blocks c) g.world := by
  rw [Server.setWsi, Server.setBlock_own]
  rfl

theorem null_delivered (given : Delivered g e c line) (null : NullArgument g c line) :
    step env g e = .error .nullRead := by
  obtain ⟨wsi, run⟩ := delivered_run env given
  rcases null with cast | ⟨considered, rat⟩
  · rw [run, unguarded_exec cast rfl]
    rfl
  · rw [run, unguarded_exec considered rfl]
    change Except.map _ (cmdConsider c none _) = _
    rw [consider_null, rat_here_wsi, rat]
    rfl

theorem step_null (env : Env) (g : Server) (e : Event) (stopped : step env g e = .error .nullRead) :
    ∃ c line, Delivered g e c line ∧ NullArgument g c line := by
  by_contra none_read
  have raised : e.valid g = true := by
    by_contra ignored
    rw [step, if_neg ignored] at stopped
    cases stopped
  have failed : handle env e g = .error .nullRead := by
    rw [step, if_pos raised] at stopped
    cases ended : handle env e g with
    | ok r =>
      rw [ended] at stopped
      cases stopped
    | error fault =>
      rw [ended] at stopped
      cases stopped
      rfl
  by_cases considered : ∃ c line, Delivered g e c line ∧ parse line = some (.consider, none)
  · obtain ⟨c, line, given, parsed⟩ := considered
    obtain ⟨wsi, run⟩ := delivered_run env given
    have absent : ratHere (g.blocks c) g.world = false := by
      by_contra rat
      exact none_read ⟨c, line, given, .inr ⟨parsed, Bool.not_eq_false _ ▸ rat⟩⟩
    rw [run, unguarded_exec parsed rfl] at stopped
    change Except.map _ (cmdConsider c none _) = _ at stopped
    rw [consider_null, rat_here_wsi, absent] at stopped
    cases stopped
  · have led := handle_outcome (E := fun fault => fault ≠ .nullRead) (by decide) (outside_lax env)
      (tidy_lax g) raised (fun _ line _ => fair_lax line) fun c line arm given parsed bare => by
        cases arm with
        | gridcast => exact absurd ⟨c, line, given, .inl parsed⟩ none_read
        | consider => exact absurd ⟨c, line, given, parsed⟩ considered
        | _ => cases bare
    exact led.fault rfl failed rfl

end Step

/-- A null argument is read through exactly by a bare gridcast and by a bare consider beside
the living rat, and a run without them never faults so. -/
theorem null_reads (env : Env) (disk : Disk) :
    (∀ g e, step env g e = .error .nullRead ↔ ∃ c line, Delivered g e c line ∧ NullArgument g c line) ∧
    (∀ events, Machine.Meets (step env)
        (fun g e => ∀ c line, Delivered g e c line → ¬NullArgument g c line) (boot env disk) events →
      Machine.run (step env) (boot env disk) events ≠ .error .nullRead) := by
  refine ⟨fun g e => ⟨step_null env g e, ?_⟩, fun events met stopped => ?_⟩
  · rintro ⟨c, line, given, null⟩
    exact null_delivered given null
  · obtain ⟨before, e, after, g, split, reached, failed⟩ := Machine.run_fault _ _ _ _ stopped
    obtain ⟨c, line, given, null⟩ := step_null env g e failed
    exact met before e after g split reached c line given null

/-- A player who types gridcast and nothing else ends the process. -/
theorem null_read_gridcast : ¬ ∀ events,
    Machine.run (step quietNode) (boot quietNode sharedDisk) events ≠ .error .nullRead := by
  intro never
  refine never (returns 0 (str "ada") ++ [.message 0 (str "gridcast")]) ?_
  have stopped : (match Machine.run (step quietNode) (boot quietNode sharedDisk)
      (returns 0 (str "ada") ++ [.message 0 (str "gridcast")]) with
    | .ok _ => false
    | .error fault => decide (fault = .nullRead)) = true := by decide +kernel
  split at stopped
  · cases stopped
  · rename_i fault ended
    rw [ended, of_decide_eq_true stopped]

end HollowGrid
