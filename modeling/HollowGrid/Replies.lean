import HollowGrid.Reports

/-! The commands that only report: whatever they are asked, they reply to the one who
asked. -/
namespace HollowGrid

theorem clean_merge {strict : Prop} {i : Identity} {row : CharacterRow}
    (own : CleanIdentity strict i) (faction : Clean strict row.faction)
    (title : Clean strict row.title) (race : Clean strict row.race) :
    CleanIdentity strict (identityMergeHub i row) where
  faction := by
    unfold identityMergeHub
    split
    · exact own.faction
    · exact faction
  title := by
    change Clean strict (if i.title = [] then row.title else i.title)
    split
    · exact title
    · exact own.title
  race := race

theorem sound_overread {strict : Prop} {cap : Nat} {t : Text} (memory : Nat → UInt8)
    (sound : Sound strict t) (fits : strict → t.length < cap) :
    Sound strict (overread cap t memory) := by
  by_cases on : strict
  · rw [overread, if_pos (fits on)]
    exact sound
  · exact sound_lax on

theorem missing_fits {target : Bytes} (short : target.length < 256) :
    (fmtGridTravelMissing target).length < 512 := by
  have opening : (lit "No world called \"").length = 17 := length_lit _
  have closing : (lit "\" answers on the Grid. (try 'worlds')").length = 37 := length_lit _
  have ending : crlf.length = 2 := length_lit _
  simp only [fmtGridTravelMissing, List.length_append, length_raw, opening, closing, ending]
  omega

theorem unreachable_fits : fmtGridTravelUnreachable.length < 512 := by
  have told : (lit "The Grid won't answer; travel is impossible right now.").length = 54 :=
    length_lit _
  have ending : crlf.length = 2 := length_lit _
  simp only [fmtGridTravelUnreachable, List.length_append, told, ending]
  omega

theorem world_name_short (env : Env) : (gridWorldName env).length < 64 := by
  have boot : (bootName env).length ≤ 63 := List.length_take_le 63 (cstr env.worldName)
  unfold gridWorldName
  split
  · have default : (str "Basalt Relay").length = 12 := by rw [str_chars, List.length_map]; rfl
    omega
  · rename_i named
    omega

theorem here_fits (env : Env) : (fmtGridTravelHere (gridWorldName env)).length < 512 := by
  have opening : (lit "You're already in ").length = 18 := length_lit _
  have closing : (lit ".").length = 1 := length_lit _
  have ending : crlf.length = 2 := length_lit _
  have short := world_name_short env
  simp only [fmtGridTravelHere, List.length_append, length_raw, opening, closing, ending]
  omega

namespace Reports

variable {strict : Prop} {env : Env} {E : Fault → Prop} {c : Block} {I : Server → Prop}

attribute [local irreducible] Sound MidLine Inline Clean lit raw number orText boolText escaped
  slotText snprintf List.append

section Room

variable (r : Reports strict env E c I)
include r

theorem sense_kept : Keeps I E (cmdSense c) Any := r.room_actions_now

theorem list_kept : Keeps I E (cmdList c) Any := by
  refine Keeps.bind (r.reads c) fun s _ => Keeps.branch (r.said ?_) (r.line (sound_lit _))
  apply_rules [sound_text, sound_lit]

theorem sell_kept {arg : Ptr} (clean : CleanPtr strict arg) : Keeps I E (cmdSell c arg) Any := by
  have word := clean_get clean
  clear clean
  refine Keeps.bind (r.reads c) fun s _ => Keeps.branch (r.line (sound_lit _)) ?_
  refine Keeps.branch (r.line ?_) (Keeps.branch (r.line (sound_lit _)) (r.line ?_))
  · apply_rules [sound_text, sound_lit]
  · refine sound_snprintf 160 ?_
    apply_rules [sound_text, sound_raw, sound_lit, mid_lit]

theorem talk_kept : Keeps I E (cmdTalk env c) Any := by
  have way_front : Sound strict talkWayFront := sound_append (sound_lit _) (sound_lit _)
  have way_ally : Sound strict talkWayAlly := sound_lit _
  have way_neutral : Sound strict talkWayNeutral := by
    unfold talkWayNeutral
    apply_rules [sound_text, sound_lit]
  have dais_front : Sound strict talkDaisFront := by
    unfold talkDaisFront
    apply_rules [sound_text, sound_lit]
  have dais_ally : Sound strict talkDaisAlly := by
    unfold talkDaisAlly
    apply_rules [sound_text, sound_lit]
  have dais_neutral : Sound strict talkDaisNeutral := by
    unfold talkDaisNeutral
    apply_rules [sound_text, sound_lit]
  refine Keeps.bind (r.reads c) fun s _ => Keeps.branch (r.said ?_) (Keeps.branch (r.said ?_) ?_)
  · apply_rules [sound_text, sound_lit]
  · apply_rules [sound_text, sound_lit]
  refine Keeps.branch (Keeps.bind (r.asks_any _) fun front _ => ?_) (Keeps.branch ?_ ?_)
  · refine Keeps.branch (r.line way_front) (Keeps.bind (r.asks_any _) fun ally _ => ?_)
    exact Keeps.branch (r.line way_ally) (r.said way_neutral)
  · refine Keeps.branch (r.said dais_front) (Keeps.bind (r.asks_any _) fun front _ => ?_)
    refine Keeps.branch (r.said dais_front) (Keeps.bind (r.asks_any _) fun ally _ => ?_)
    exact Keeps.branch (r.said dais_ally) (r.said dais_neutral)
  · exact r.line (sound_lit _)

theorem war_kept : Keeps I E (cmdWar env c) Any := by
  refine Keeps.bind r.tide fun answer _ => Keeps.bind (r.asks_any _) fun slot _ => ?_
  have tide (n : Int) : Sound strict (signed n) := by
    unfold signed
    refine sound_append ?_ (sound_number n)
    split
    · exact sound_nil
    · exact sound_lit _
  refine Keeps.seq (r.line (sound_snprintf 120 ?_)) (r.said (sound_snprintf 80 ?_))
  · exact sound_text (sound_append (sound_lit _) (tide _))
  · apply_rules [sound_text, sound_numbered, sound_lit]

theorem exits_kept : Keeps I E (cmdExits c) Any := by
  refine Keeps.bind (r.reads c) fun s _ => r.said (sound_snprintf 240 ?_)
  apply_rules [sound_text, sound_lit]

theorem world_kept : Keeps I E (cmdWorld c) Any := by
  refine Keeps.bind keeps_world fun w _ => Keeps.seq (r.said (sound_snprintf 240 ?_)) r.world_state
  apply_rules [sound_text, sound_lit]

theorem affects_kept : Keeps I E (cmdAffects c) Any :=
  Keeps.seq r.affects (r.said (sound_text (sound_text (sound_lit _))))

theorem help_kept : Keeps I E (cmdHelp c) Any := by
  refine r.said ?_
  apply_rules [sound_text, sound_lit]

theorem unknown_kept : Keeps I E (unknownCommand c) Any := r.said (sound_text (sound_lit _))

theorem cant_move_kept : Keeps I E (cantMove c) Any := r.said (sound_text (sound_lit _))

theorem quit_kept : Keeps I E (cmdQuit c) Any :=
  Keeps.seq r.closes (r.said (sound_text (sound_lit _)))

theorem consider_kept {arg : Ptr}
    (guarded : arg = none → E .nullRead ∨ ∀ g, I g → ratHere (g.blocks c) g.world = false) :
    Keeps I E (cmdConsider c arg) Any := by
  have unseen : Sound strict dontSee := sound_text (sound_text (sound_lit _))
  cases arg with
  | some word =>
    refine Keeps.bind (r.reads c) fun s _ => Keeps.bind keeps_world fun w _ => ?_
    refine Keeps.branch (r.said unseen) (Keeps.branch (r.said ?_) (r.said unseen))
    exact sound_text (sound_text (sound_lit _))
  | none =>
    rcases guarded rfl with fault | away
    · refine Keeps.bind (r.reads c) fun s _ => Keeps.bind keeps_world fun w _ => ?_
      exact Keeps.branch (r.said unseen) (Keeps.throw fault)
    · intro g holds
      have quiet : cmdConsider c none g =
          (if ratHere (g.blocks c) g.world = false then queue c dontSee
            else throw .nullRead) g := rfl
      rw [quiet, if_pos (away g holds)]
      exact r.said unseen g holds

theorem look_mob_kept (arg : Ptr) : Keeps I E (cmdLookMob c arg) Any :=
  Keeps.bind (r.reads c) fun _ _ => Keeps.bind keeps_world fun _ _ =>
    Keeps.branch (r.said (sound_text (sound_lit _)))
      (r.said (sound_text (sound_text (sound_lit _))))

end Room

section Network

variable (r : Reports strict env E c I)
include r

theorem look_player_kept (arg : Ptr) : Keeps I E (cmdLookPlayer c arg) Any := by
  refine Keeps.bind (r.reads c) fun s _ => Keeps.bind (r.finds_prefix _ _ _) fun found _ => ?_
  cases found with
  | none => exact Keeps.pure trivial
  | some d =>
    refine Keeps.bind (r.reads d) fun t tidy => Keeps.seq ?_ (Keeps.seq ?_ (Keeps.pure trivial))
    · exact r.line (sound_snprintf 240 (sound_look_line tidy))
    · exact r.said (sound_snprintf 168 (sound_look_evt t))

theorem look_kept (arg : Ptr) : Keeps I E (lookAt c arg) Any :=
  Keeps.bind (r.look_player_kept arg) fun _ _ =>
    Keeps.branch (Keeps.pure trivial) (r.look_mob_kept arg)

theorem who_kept : Keeps I E (cmdWho env c) Any := r.grid_who_now

theorem saved_kept : Keeps I E (cmdSaved env c) Any := r.saved_roll_now

theorem gridstats_kept : Keeps I E (cmdGridstats env c) Any :=
  Keeps.bind (r.reads c) fun _ _ => Keeps.branch r.gridstats_now (r.line (sound_lit _))

theorem reckoning_kept : Keeps I E (cmdReckoning c) Any := by
  refine Keeps.bind (r.reads c) fun s _ => Keeps.bind keeps_ledger fun l _ => ?_
  refine Keeps.seq (r.line (sound_lit _)) (Keeps.seq (r.line ?_) (Keeps.seq ?_ ?_))
  · exact sound_snprintf 160 (sound_standing s)
  · exact Keeps.for_each fun t member => r.line (sound_arc s t member)
  refine Keeps.seq (Keeps.for_each fun row _ => r.line ?_) (Keeps.seq ?_ (r.said ?_))
  · exact sound_snprintf 128 (sound_append (sound_lit _) (sound_number _))
  · exact keeps_when (r.line (sound_lit _))
  · exact sound_snprintf 800 (sound_reckoning (sound_deeds (sound_lit _)))

theorem whoami_kept : Keeps I E (cmdWhoami env c) Any := by
  refine Keeps.bind (r.reads c) fun s tidy => ?_
  have own : CleanIdentity strict (identityLoadLocal s) := ⟨tidy.faction, tidy.title, tidy.race⟩
  have read (i : Identity) (clean : CleanIdentity strict i) :
      Keeps I E (queue c (snprintf 4096 (fmtCharIdentity s.name i))) Any :=
    r.said (sound_snprintf 4096 (sound_identity tidy.clean_name clean))
  refine Keeps.branch (read _ own) (Keeps.bind (r.character s.name) fun fetched clean => ?_)
  cases fetched with
  | none => exact Keeps.seq (r.said (sound_text (sound_lit _))) (read _ own)
  | some row =>
    obtain ⟨faction, title, race⟩ := clean row rfl
    refine read _ ?_
    split
    · exact clean_merge own faction title race
    · exact own

theorem tags (now : Int) {rows : List WorldRow} (clean : ∀ row ∈ rows, CleanWorld strict row) :
    Keeps I E (worldTags env now rows) fun made => ∀ w ∈ made, CleanWorld strict w.row := by
  induction rows with
  | nil => exact Keeps.pure fun _ member => by cases member
  | cons row rest ih =>
    refine Keeps.bind (r.asks_any _) fun here _ => ?_
    refine Keeps.bind (ih fun other member => clean other (by simp [member])) fun more sound => ?_
    refine Keeps.pure fun w member => ?_
    rcases List.mem_cons.mp member with rfl | later
    · exact clean row List.mem_cons_self
    · exact sound w later

theorem worlds_kept : Keeps I E (cmdWorlds env c) Any := by
  refine Keeps.bind r.worlds fun answer fit => ?_
  cases answer with
  | none => exact r.said (sound_text (sound_lit _))
  | some rows =>
    refine Keeps.bind r.times fun now _ => ?_
    refine Keeps.bind (r.tags now fun row member => (fit row member).toCleanWorld) fun made clean => ?_
    exact r.said (sound_worlds clean)

/-- Memory behind a clobbered register is no text of the server: strict rules it out. -/
theorem handoff {row : WorldRow} (fit : FitWorld strict row) :
    Keeps I E (travelHandoff env row) fun t => Sound strict t ∧ (strict → t.length < 512) := by
  refine Keeps.bind (r.asks _) fun moved answered => ?_
  obtain ⟨n, rfl⟩ := answered
  refine Keeps.ite (fun moved => ?_) fun _ => ?_
  · refine Keeps.bind (r.asks_any _) fun first _ => Keeps.bind (r.asks_any _) fun second _ => ?_
    have off : ¬strict := fun on => absurd moved (by simp [r.outside.steady on n])
    exact Keeps.pure ⟨sound_lax off, fun on => absurd on off⟩
  · exact Keeps.pure ⟨sound_handoff fit.toCleanWorld, fit.fits⟩

theorem queues_travel {t : Text} (sound : Sound strict t) (fits : strict → t.length < 512) :
    Keeps I E (queueTravel env c t) Any := by
  exact Keeps.bind (r.asks_any _) fun memory _ => r.said (sound_overread memory sound fits)

theorem picks {α : Type} {P : α → Prop} {rows : List α} (each : ∀ x ∈ rows, P x) :
    Keeps I E (pick env rows) fun chosen => ∀ x, chosen = some x → P x := by
  refine Keeps.bind (r.asks_any _) fun n _ => Keeps.pure fun x chosen => ?_
  exact each x (List.mem_of_getElem? chosen)

theorem picks_any {α : Type} {P : α → Prop} {rows : List α} (each : ∀ x ∈ rows, P x) :
    Keeps I E (pickAny env rows) fun chosen => ∀ x, chosen = some x → P x :=
  Keeps.branch (Keeps.pure fun x absurd_some => by cases absurd_some) (r.picks each)

theorem listens_trace {rows : List Trace} (tidy : ∀ t ∈ rows, TidyTrace strict t) :
    Keeps I E (listenTrace env c rows) Any := by
  refine Keeps.bind (r.picks_any tidy) fun chosen clean => ?_
  cases chosen with
  | none => exact r.said sound_listen_empty
  | some t => exact r.said (sound_listen_trace (clean t rfl).text (clean t rfl).world)

theorem listen_kept : Keeps I E (cmdListen env c) Any := by
  refine Keeps.bind r.hub fun h tidy => Keeps.branch ?_ (Keeps.branch ?_ ?_)
  · refine Keeps.bind (r.picks tidy.echo) fun chosen clean => ?_
    cases chosen with
    | none => exact Keeps.pure trivial
    | some t => exact r.said (sound_listen_echo (clean t rfl).text)
  · exact Keeps.bind (r.recent 20 20) fun answer clean => r.listens_trace clean
  · exact r.listens_trace tidy.traces

theorem pings_local (n : Nat) {rows : List Trace} (tidy : ∀ t ∈ rows, TidyTrace strict t) :
    Keeps I E (pingAllLocal env n rows) fun made => ∀ t ∈ made, TidyTrace strict t := by
  induction rows generalizing n with
  | nil => cases n <;> exact Keeps.pure fun _ member => by cases member
  | cons t rest ih =>
    have later : ∀ u ∈ rest, TidyTrace strict u := fun u member => tidy u (by simp [member])
    cases n with
    | zero => exact Keeps.pure fun _ member => by cases member
    | succ n =>
      refine Keeps.branch (ih (n + 1) later) ?_
      refine Keeps.bind (r.asks_any _) fun moved _ => Keeps.bind (r.asks_any _) fun memory _ => ?_
      refine Keeps.branch (ih (n + 1) later) (Keeps.bind (ih n later) fun more clean => ?_)
      exact Keeps.pure (List.forall_mem_cons.mpr ⟨tidy t List.mem_cons_self, clean⟩)

theorem pings_all : Keeps I E (pingAll env) fun made => ∀ t ∈ made, TidyTrace strict t :=
  Keeps.branch (Keeps.bind (r.recent_across _ 8 8) fun _ clean => Keeps.pure clean)
    (Keeps.bind r.hub fun _ tidy => r.pings_local 8 tidy.traces)

theorem ping_kept (arg : Ptr) : Keeps I E (cmdPing env c arg) Any := by
  refine Keeps.branch ?_ ?_
  · exact Keeps.bind r.pings_all fun traces clean => r.said (sound_ping_all clean)
  · refine Keeps.bind (r.reads c) fun s _ => Keeps.bind r.hub fun h tidy => r.said ?_
    exact sound_ping_echo fun t member =>
      tidy.echo t (List.mem_of_mem_filter (List.mem_of_mem_take member))

theorem travel_to_kept {target : Bytes} (clean : Clean strict target)
    (short : strict → target.length < 256) : Keeps I E (travelTo env c target) Any := by
  refine Keeps.bind r.worlds fun answer fit => ?_
  cases answer with
  | none => exact r.queues_travel (sound_text (sound_lit _)) fun _ => unreachable_fits
  | some rows =>
    refine Keeps.bind (r.asks_any _) fun address _ => ?_
    split
    · exact r.queues_travel (sound_travel_missing clean) fun on => missing_fits (short on)
    · rename_i row matched
      have there : FitWorld strict row := by
        obtain ⟨i, _, found⟩ := Option.bind_eq_some_iff.mp matched
        exact fit row (List.mem_of_getElem? found)
      refine Keeps.branch ?_ (Keeps.bind (r.handoff there) fun t ⟨sound, fits⟩ => ?_)
      · exact r.queues_travel (sound_travel_here r.clean_grid_name) fun _ => here_fits env
      · exact Keeps.seq (r.queues_travel sound fits) r.closes

theorem travel_kept {arg : Ptr} (clean : CleanPtr strict arg)
    (short : strict → ∀ b, arg = some b → b.length < 256) : Keeps I E (cmdTravel env c arg) Any := by
  cases arg with
  | none => exact r.worlds_kept
  | some target =>
    exact Keeps.branch r.worlds_kept
      (r.travel_to_kept (clean target rfl) fun on => short on target rfl)

end Network

end Reports
end HollowGrid
