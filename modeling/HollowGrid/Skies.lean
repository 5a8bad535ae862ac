import HollowGrid.Tellings
import HollowGrid.Steps

/-! Programs that say no world.state event of another phase than the one of their tick. -/
namespace HollowGrid

/-- A queue with no event of another phase than its tick's, cut at its end or not. -/
def Phased (o : Text) : Prop :=
  ∃ w, Settled worldHead RightPhase w ∧ o = w.take outCap

structure InPhase (tick : Int) (g : Server) : Prop where
  clock : g.world.tick = tick
  outbox : ∀ d, Phased (g.blocks d).outbox

abbrev Honest {α : Type} (tick : Int) (m : Act α) : Prop :=
  Keeps (InPhase tick) (fun _ => True) m Any

variable {α : Type} {tick : Int} {env : Env} {c d : Block} {t : Text} {g : Server}

section Queues

theorem phased_nil : Phased [] := ⟨[], settled_nil head_some, rfl⟩

theorem phased_append {o : Text} (phased : Phased o)
    (follows : ∀ w, Settled worldHead RightPhase w → Settled worldHead RightPhase (w ++ t)) :
    Phased (o ++ t.take (outCap - o.length)) := by
  obtain ⟨w, settled, rfl⟩ := phased
  refine ⟨w ++ t, follows w settled, ?_⟩
  rw [List.take_append, List.length_take]
  congr 2
  omega

theorem phased_event {front back : Text} {at_tick : Int} {phase : String}
    (phased : Phased (front ++ (fmtWorldState at_tick phase ++ back))) (word : TickWord at_tick)
    (closed : 34 ∉ str phase) : str phase = str (phaseOf at_tick) := by
  obtain ⟨w, settled, same⟩ := phased
  have whole := List.take_append_drop outCap w
  rw [← same, world_split] at whole
  simp only [List.append_assoc] at whole
  refine settled front _ [] ?_ (by rw [List.append_nil, whole]) at_tick phase _ word closed rfl
  rw [← whole]
  simp

theorem in_phase_queued (inside : InPhase tick g)
    (follows : ∀ w, Settled worldHead RightPhase w → Settled worldHead RightPhase (w ++ t)) :
    InPhase tick (g.queued c t) := by
  refine ⟨inside.clock, fun d => ?_⟩
  by_cases own : d = c
  · subst own
    rw [Server.queued, Server.setBlock_own]
    exact phased_append (inside.outbox d) follows
  · rw [Server.queued, Server.setBlock_other _ _ own]
    exact inside.outbox d

theorem in_phase_block {s : Session} (inside : InPhase tick g) (phased : Phased s.outbox) :
    InPhase tick (g.setBlock c s) := by
  refine ⟨inside.clock, fun d => ?_⟩
  by_cases own : d = c
  · subst own
    rwa [Server.setBlock_own]
  · rw [Server.setBlock_other _ _ own]
    exact inside.outbox d

theorem in_phase_saved (inside : InPhase tick g) : InPhase tick (g.saved env c) := by
  obtain ⟨disk', asked, _, same⟩ := saved_disk env c g
  rw [same]
  exact { inside with }

theorem watches_phase (env : Env) (tick : Int) :
    Watches False env (fun _ => True) (InPhase tick) where
  bounds := trivial
  outside := outside_lax env
  tidy := fun g _ => tidy_lax g
  asked := fun _ inside => { inside with }

end Queues

section Statements

theorem honest_pure (a : α) : Honest tick (Pure.pure a) := Keeps.pure trivial

theorem honest_set {f : Session → Session} (same : ∀ s, (f s).outbox = s.outbox) :
    Honest tick (modifyGet fun g : Server => (PUnit.unit, g.setBlock c (f (g.blocks c))) :
      Act PUnit) :=
  Keeps.modify fun g inside => in_phase_block inside (by
    rw [same]
    exact inside.outbox c)

theorem honest_update (f : Character → Character) : Honest tick (update c f) :=
  honest_set (f := fun s => { s with toCharacter := f s.toCharacter }) fun _ => rfl

theorem honest_fight (fight : Fight) : Honest tick (setFight c fight) :=
  honest_set (f := fun s => { s with toFight := fight }) fun _ => rfl

theorem honest_close : Honest tick (setClose c) :=
  honest_set (f := fun s => { s with close := true }) fun _ => rfl

theorem honest_save : Honest tick (storeSave env c) := by
  intro g inside
  rw [store_save_run]
  exact ⟨in_phase_saved inside, trivial⟩

theorem honest_world {f : World → World} (same : ∀ w, (f w).tick = w.tick) :
    Honest tick (onWorld f) :=
  Keeps.modify fun g inside => ⟨(same g.world).trans inside.clock, inside.outbox⟩

theorem honest_ledger (f : Ledger → Ledger) : Honest tick (onLedger f) :=
  Keeps.modify fun _ inside => { inside with }

theorem honest_grid (f : LocalHub → LocalHub) : Honest tick (onGrid f) :=
  Keeps.modify fun _ inside => { inside with }

/-- What a program returns does not matter here. -/
theorem honest_any {Q : α → Prop} {m : Act α}
    (kept : Keeps (InPhase tick) (fun _ => True) m Q) : Honest tick m :=
  kept.weaken fun _ _ => trivial

theorem honest_ask (answers : Nat → α) : Honest tick (ask answers) :=
  (watches_phase quietNode tick).asks_any answers

theorem honest_listed : Honest tick listed := honest_any (watches_phase quietNode tick).lists

theorem honest_hub : Honest tick getGrid := honest_any (watches_phase quietNode tick).hub

theorem honest_now : Honest tick (nowMs env) := (watches_phase env tick).times

theorem honest_call (method : String) (params : List Json) :
    Honest tick (rpcCall env method params) :=
  honest_any ((watches_phase env tick).calls method params)

theorem honest_record {world node kind text : Bytes} (at_ms : Int) :
    Honest tick (gridRecord env world node kind text at_ms) :=
  Keeps.branch (keeps_ignored (honest_call _ _)) (honest_grid _)

theorem honest_echo {node kind text : Bytes} :
    Honest tick (gridRecordLocalEcho env node kind text) :=
  Keeps.bind honest_now fun _ _ => honest_grid _

theorem honest_inscribes {node name msg : Bytes} : Honest tick (gridInscribe env node name msg) :=
  Keeps.branch (honest_pure ())
    (Keeps.seq honest_echo (Keeps.bind honest_now fun at_ms _ => honest_record at_ms))

theorem honest_rescue {world name savedBy : Bytes} (now : Int) :
    Honest tick (gridRecordRescued env world name savedBy now) :=
  Keeps.branch (keeps_ignored (honest_call _ _)) (honest_grid _)

theorem honest_kill {room slayer mob : Bytes} : Honest tick (gridOnKill env room slayer mob) :=
  Keeps.bind honest_now fun at_ms _ => Keeps.seq (honest_record at_ms) honest_echo

theorem honest_death {room name : Bytes} : Honest tick (gridOnDeath env room name) :=
  Keeps.bind honest_now fun _ _ => Keeps.branch (keeps_ignored (honest_call _ _)) (honest_grid _)

theorem honest_shift (delta : Int) : Honest tick (gridShiftTide env delta) :=
  Keeps.branch (keeps_ignored (honest_call _ _)) (honest_grid _)

theorem honest_cast (sender text : Bytes) : Honest tick (gridGridcast env sender text) :=
  Keeps.branch (Keeps.bind (honest_call _ _) fun _ _ => honest_pure _)
    (Keeps.seq (honest_grid _) (honest_pure _))

theorem honest_prunes : Honest tick (gridPruneLedger env) :=
  Keeps.branch (Keeps.bind (honest_call _ _) fun _ _ => honest_pure _)
    (Keeps.bind honest_hub fun _ _ => Keeps.seq (honest_grid _) (honest_pure _))

theorem honest_commit : Honest tick (ignore (gridCommitSession env c)) :=
  keeps_ignored ((watches_phase env tick).commits c)

theorem honest_queue (adds : Adds t) : Honest tick (queue c t) :=
  Keeps.modify fun g inside => in_phase_queued inside fun w settled => by
    have whole := adds t.length w settled
    rwa [List.take_length] at whole

theorem honest_text (tame : Tame t) : Honest tick (queue c t) := honest_queue (adds_tame tame)

theorem honest_cut (cap : Nat) (adds : Adds t) : Honest tick (queue c (snprintf cap t)) :=
  honest_queue (adds_snprintf cap adds)

theorem honest_line (adds : Adds t) : Honest tick (queueLine c t) :=
  keeps_when (honest_queue (adds_append adds (adds_tame (tame_lit _ rfl))))

theorem honest_cut_line (cap : Nat) (tame : Tame t) :
    Honest tick (queueLine c (snprintf cap t)) :=
  honest_line (adds_snprintf cap (adds_tame tame))

theorem honest_room (room : Int) (except : Bytes) (adds : Adds t) :
    Honest tick (deliverRoom room t except) :=
  Keeps.bind honest_listed fun _ _ => Keeps.for_each fun _ _ => keeps_when (honest_queue adds)

theorem honest_all (except : Bytes) (adds : Adds t) : Honest tick (deliverAll t except) :=
  Keeps.bind honest_listed fun _ _ => Keeps.for_each fun _ _ => keeps_when (honest_queue adds)

end Statements

attribute [local irreducible] Adds Tame Eventless Unmarked lit raw number orText boolText escaped
  slotText snprintf List.append

section Emitters

theorem honest_vitals : Honest tick (emitVitals c) :=
  Keeps.bind (keeps_session c) fun s _ => honest_cut 500 (adds_tame (tame_vitals s))

theorem honest_affects : Honest tick (emitAffects c) :=
  Keeps.bind (keeps_session c) fun s _ => honest_cut 500 (adds_tame (tame_affects s))

theorem honest_equipment : Honest tick (emitEquipment c) :=
  Keeps.bind (keeps_session c) fun s _ => honest_cut 500 (adds_tame (tame_equipment s))

theorem honest_vitals_now : Honest tick (emitVitalsNow c) :=
  Keeps.bind (keeps_session c) fun s _ => honest_cut 4096 (adds_tame (tame_vitals s))

theorem honest_affects_now : Honest tick (emitAffectsNow c) :=
  Keeps.bind (keeps_session c) fun s _ => honest_cut 4096 (adds_tame (tame_affects s))

theorem honest_dream_now : Honest tick (emitDreamNow c) :=
  Keeps.bind (keeps_session c) fun s _ => honest_cut 4096 (adds_dream s)

theorem honest_world_state : Honest tick (emitWorldState c) := by
  refine Keeps.bind (R := fun w => w.tick = tick) (fun g inside => ⟨inside, inside.clock⟩)
    fun w _ => Keeps.modify fun g inside => in_phase_queued inside fun _ => ?_
  exact settled_world w.tick (by decide)

theorem honest_cache_now : Honest tick (announceCacheNow c) := by
  refine Keeps.bind (keeps_session c) fun s _ => Keeps.bind keeps_ledger fun l _ => ?_
  refine Keeps.branch (honest_pure ()) (Keeps.seq (honest_cut_line 160 ?_) (honest_cut 80 ?_))
  · unfold cacheAnnounce
    apply_rules [tame_append, tame_lit, eventless_number, eventless_lit]
  · unfold cacheEvt
    apply_rules [adds_tame, tame_append, tame_lit, eventless_number, eventless_lit]

theorem honest_scene_now (day : tick % 4 = 0) : Honest tick (emitSceneNow c) := by
  have phase : phaseOf tick = "day" := by
    simp only [phaseOf, day]
  refine Keeps.bind (keeps_session c) fun s _ => Keeps.seq ?_ ?_
  · exact honest_cut 1024 (adds_tame (tame_scene s.room))
  refine Keeps.bind honest_listed fun found _ => ?_
  refine Keeps.bind (R := fun w => w.tick = tick) (fun g inside => ⟨inside, inside.clock⟩)
    fun w told => Keeps.seq ?_ ?_
  · exact honest_cut 4096 (adds_tame (tame_room_info _ w (eventless_players _ _ _ _)))
  refine Keeps.seq honest_vitals_now (Keeps.seq honest_affects_now (Keeps.seq ?_ ?_))
  · exact honest_cut 4096 (adds_tame (tame_menu s))
  refine Keeps.seq (Keeps.modify fun g inside => in_phase_queued inside fun _ settled => ?_)
    honest_cache_now
  rw [told, ← phase]
  exact settled_world tick (by decide) settled

theorem honest_menu_now : Honest tick (emitRoomActionsNow c) :=
  Keeps.bind (keeps_session c) fun s _ => honest_cut 1400 (adds_tame (tame_menu s))

theorem honest_roll {cap : Nat} {row : α → Text} {xs : List α} (each : ∀ x, Eventless (row x)) :
    Keeps (InPhase tick) (fun _ => True) (rollJson cap (jsonRows (fun _ => row) 0 xs))
      Eventless := by
  have rows : Eventless (jsonRows (fun _ => row) 0 xs).flatten :=
    eventless_flatten (eventless_rows 0 fun _ x _ => each x)
  refine Keeps.branch (Keeps.pure ?_) (Keeps.throw trivial)
  apply_rules [eventless_append, eventless_lit]

theorem honest_who_now : Honest tick (emitGridWhoNow env c) := by
  refine Keeps.bind honest_listed fun found _ => ?_
  refine Keeps.bind ((watches_phase env tick).presence 30000 32) fun answer _ => ?_
  have shut := eventless_who env found (answer.getD [])
  simp only
  generalize whoAppend 2048 (whoAppend 2048 _ _) _ = far at shut ⊢
  refine Keeps.seq (honest_cut 2200 (adds_tame ?_)) (Keeps.branch ?_ ?_)
  · split <;> apply_rules [tame_append, tame_lit, eventless_append, eventless_lit]
  · exact honest_line (adds_tame (tame_lit _ rfl))
  · exact honest_line (adds_tame (tame_lit _ rfl))

theorem honest_gridcast_now (text : Bytes) : Honest tick (emitCommGridcastNow env c text) := by
  refine Keeps.bind (keeps_session c) fun s _ => Keeps.seq (honest_cut_line 280 ?_) ?_
  · apply_rules [tame_append, tame_lit, eventless_raw, eventless_lit]
  · exact honest_all [] (adds_snprintf 400 (adds_tame (tame_gridcast env s.name text)))

theorem honest_saved_now : Honest tick (emitSavedRollNow env c) := by
  refine Keeps.bind ((watches_phase env tick).recent_rescued 12 12) fun answer _ => ?_
  refine Keeps.branch (honest_line (adds_tame ?_)) (Keeps.seq ?_ (Keeps.seq ?_ ?_))
  · exact tame_append (tame_lit _ rfl) (eventless_lit _ rfl)
  · exact honest_line (adds_tame (tame_lit _ rfl))
  · refine Keeps.for_each fun row _ => honest_cut_line 160 ?_
    apply_rules [tame_append, tame_lit, eventless_raw, eventless_lit]
  · refine Keeps.bind (honest_roll eventless_rescued) fun json shut => ?_
    refine honest_cut 1400 (adds_tame ?_)
    apply_rules [tame_append, tame_lit, eventless_lit]

theorem honest_fallen_lines (rows : List Fallen) : Honest tick (fallenLines c rows) := by
  refine Keeps.branch ?_ (Keeps.seq ?_ (Keeps.for_each fun row _ => honest_cut_line 160 ?_))
  · exact honest_line (adds_tame (tame_append (tame_lit _ rfl) (eventless_lit _ rfl)))
  · exact honest_line (adds_tame (tame_append (tame_lit _ rfl) (eventless_lit _ rfl)))
  · apply_rules [tame_append, tame_lit, eventless_raw, eventless_lit]

theorem honest_fallen_now : Honest tick (emitFallenRollNow env c) := by
  refine Keeps.bind ((watches_phase env tick).recent_fallen 12 12) fun answer _ => ?_
  refine Keeps.seq (honest_fallen_lines _) ?_
  refine Keeps.bind (honest_roll eventless_fallen) fun json shut => ?_
  refine honest_cut 1400 (adds_tame ?_)
  apply_rules [tame_append, tame_lit, eventless_lit]

theorem honest_stats_now : Honest tick (emitGridstatsCmdNow env c) := by
  refine Keeps.bind ((watches_phase env tick).stats 32) fun answer _ => ?_
  cases answer with
  | none => exact honest_line (adds_tame (tame_lit _ rfl))
  | some rows =>
    refine Keeps.bind (honest_roll eventless_kind) fun json shut => ?_
    refine Keeps.seq (honest_cut 900 (adds_tame ?_)) (Keeps.seq (honest_cut_line 160 ?_) ?_)
    · apply_rules [tame_append, tame_lit, eventless_number, eventless_lit]
    · apply_rules [tame_append, tame_lit, eventless_number, eventless_lit]
    · exact Keeps.for_each fun row _ => honest_cut_line 160 (tame_kind_line row)

theorem honest_prune_now : Honest tick (emitGridpruneCmdNow env c) := by
  have fail : Honest tick (queueLine c gridpruneFail) :=
    honest_line (adds_tame (tame_lit _ rfl))
  refine Keeps.bind ((watches_phase env tick).stats 32) fun first _ => ?_
  cases first with
  | none => exact fail
  | some old =>
    refine Keeps.bind honest_prunes fun pruned _ => ?_
    cases pruned with
    | none => exact fail
    | some removed =>
      refine Keeps.bind ((watches_phase env tick).stats 32) fun second _ => ?_
      refine Keeps.bind (honest_roll eventless_kind) fun json shut => ?_
      refine Keeps.seq (honest_cut 960 (adds_tame ?_)) (Keeps.seq ?_ (honest_cut_line 160 ?_))
      · apply_rules [tame_append, tame_lit, eventless_number, eventless_lit]
      · refine honest_cut_line 160 ?_
        apply_rules [tame_append, tame_lit, eventless_number, eventless_lit]
      · apply_rules [tame_append, tame_lit, eventless_number, eventless_lit]

theorem honest_forgiven_now (self : Bytes) (ashsworn redeemed : Bool) :
    Honest tick (emitForgivenTargetNow d self ashsworn redeemed) := by
  refine Keeps.seq (honest_cut 280 (adds_tame ?_)) (Keeps.branch (Keeps.seq ?_ ?_) ?_)
  · apply_rules [tame_raw, tame_append, tame_lit, eventless_lit]
  · refine honest_text ?_
    apply_rules [tame_append, tame_lit, eventless_lit]
  · exact honest_cut 240 (adds_tame (tame_forgiven self true false))
  refine Keeps.branch (honest_pure ()) (Keeps.seq ?_ (honest_text ?_))
  · exact honest_cut 240 (adds_tame (tame_forgiven self false false))
  · apply_rules [tame_append, tame_lit, eventless_lit]

theorem honest_redeemed_now (self : Bytes) : Honest tick (emitForgivenRedeemedNow d self) := by
  refine Keeps.bind (keeps_session d) fun t _ => Keeps.seq ?_ (Keeps.seq ?_ (Keeps.seq ?_ ?_))
  · exact honest_cut 240 (adds_tame (tame_forgiven self false true))
  · exact honest_cut 240 (adds_tame (tame_redemption t.name t.title))
  · refine honest_text ?_
    apply_rules [tame_append, tame_lit, eventless_lit]
  · exact honest_affects_now

theorem honest_inventory : Honest tick (emitInventory c) := by
  refine Keeps.bind (keeps_session c) fun s _ => Keeps.branch (honest_text ?_) (honest_text ?_)
  · exact tame_append (tame_lit _ rfl) (eventless_lit _ rfl)
  · exact tame_inventory _

theorem honest_ability : Honest tick (emitAbility env c) := by
  refine Keeps.bind honest_now fun now _ => Keeps.bind (keeps_session c) fun s _ => ?_
  refine Keeps.branch (honest_cut 500 (adds_tame (tame_recharging _))) (Keeps.seq ?_ ?_)
  · exact honest_update _
  · refine Keeps.seq (honest_text ?_) honest_vitals
    apply_rules [tame_append, tame_lit, eventless_lit]

end Emitters

end HollowGrid
