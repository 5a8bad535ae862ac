import HollowGrid.Skies

/-! The commands that show no scene: none of them says another phase than its tick's. -/
namespace HollowGrid

variable {tick : Int} {env : Env} {c d : Block}

attribute [local irreducible] Adds Tame Eventless Unmarked lit raw number orText boolText escaped
  slotText snprintf List.append

section Room

theorem honest_list : Honest tick (cmdList c) := by
  refine Keeps.bind (keeps_session c) fun s _ => Keeps.branch (honest_text ?_) (honest_line ?_)
  · apply_rules [tame_append, tame_lit, eventless_lit]
  · exact adds_tame (tame_lit _ rfl)

theorem honest_sell (arg : Ptr) : Honest tick (cmdSell c arg) := by
  refine Keeps.bind (keeps_session c) fun s _ => Keeps.branch ?_ (Keeps.branch ?_ ?_)
  · exact honest_line (adds_tame (tame_lit _ rfl))
  · refine honest_line (adds_tame ?_)
    apply_rules [tame_append, tame_lit, eventless_lit]
  · refine Keeps.branch (honest_line (adds_tame (tame_lit _ rfl))) (honest_cut_line 160 ?_)
    apply_rules [tame_append, tame_lit, eventless_raw, eventless_lit]

theorem honest_talk : Honest tick (cmdTalk env c) := by
  have dais_front : Honest tick (queue c talkDaisFront) := by
    refine honest_text ?_
    unfold talkDaisFront
    apply_rules [tame_append, tame_lit, eventless_lit]
  refine Keeps.bind (keeps_session c) fun s _ => Keeps.branch (honest_text ?_) ?_
  · apply_rules [tame_append, tame_lit, eventless_lit]
  refine Keeps.branch (honest_text ?_) (Keeps.branch ?_ (Keeps.branch ?_ (honest_line ?_)))
  · apply_rules [tame_append, tame_lit, eventless_lit]
  · refine Keeps.bind (honest_ask _) fun front _ => Keeps.branch (honest_line ?_) ?_
    · unfold talkWayFront
      apply_rules [adds_tame, tame_append, tame_lit, eventless_lit]
    refine Keeps.bind (honest_ask _) fun ally _ => Keeps.branch (honest_line ?_) (honest_text ?_)
    · exact adds_tame (tame_lit _ rfl)
    · unfold talkWayNeutral
      apply_rules [tame_append, tame_lit, eventless_lit]
  · refine Keeps.branch dais_front (Keeps.bind (honest_ask _) fun front _ => ?_)
    refine Keeps.branch dais_front (Keeps.bind (honest_ask _) fun ally _ => ?_)
    refine Keeps.branch (honest_text ?_) (honest_text ?_)
    · unfold talkDaisAlly
      apply_rules [tame_append, tame_lit, eventless_lit]
    · unfold talkDaisNeutral
      apply_rules [tame_append, tame_lit, eventless_lit]
  · exact adds_tame (tame_lit _ rfl)

theorem honest_pay (price : Int) (item : String) {chars : List Char}
    (shut : everyTail (parts headChars) chars = true) :
    Honest tick (pay env c price item (String.ofList chars)) := by
  refine Keeps.bind (keeps_session c) fun s _ => Keeps.branch (honest_cut_line 160 ?_) ?_
  · apply_rules [tame_append, tame_lit, eventless_number, eventless_lit]
  refine Keeps.seq (honest_update _) (Keeps.seq honest_save (Keeps.seq ?_ honest_vitals_now))
  refine honest_cut_line 160 ?_
  apply_rules [tame_append, tame_lit, eventless_lit]

theorem honest_workshop (arg : Ptr) : Honest tick (buyWorkshop env c arg) :=
  Keeps.branch (honest_pay 14 "helm" rfl) (Keeps.branch (honest_pay 18 "plating" rfl)
    (Keeps.branch (honest_pay 20 "rebar" rfl) (honest_line (adds_tame (tame_lit _ rfl)))))

theorem honest_buy (arg : Ptr) : Honest tick (cmdBuy env c arg) := by
  refine Keeps.bind (keeps_session c) fun s _ => Keeps.branch ?_ ?_
  · refine Keeps.branch (Keeps.branch ?_ ?_) ?_
    · exact honest_line (adds_tame (tame_lit _ rfl))
    · refine Keeps.seq (honest_update _) (Keeps.seq honest_save (Keeps.seq ?_ honest_vitals_now))
      refine honest_cut_line 160 ?_
      apply_rules [tame_append, tame_lit, eventless_number, eventless_lit]
    · exact honest_line (adds_tame (tame_lit _ rfl))
  · exact Keeps.branch (honest_workshop arg) (honest_line (adds_tame (tame_lit _ rfl)))

theorem honest_emote (arg : Ptr) : Honest tick (cmdEmote c arg) := by
  refine Keeps.bind (keeps_session c) fun s _ => Keeps.branch ?_ (honest_room _ _ ?_)
  · exact honest_line (adds_tame (tame_lit _ rfl))
  · exact adds_snprintf 280 (adds_tame (tame_emote s.name _))

theorem honest_war : Honest tick (cmdWar env c) := by
  refine Keeps.bind (watches_phase env tick).tide fun answer _ => ?_
  refine Keeps.bind (honest_ask _) fun slot _ => Keeps.seq (honest_cut_line 120 ?_) ?_
  · have shown : Eventless (signed (answer.getD (staleInt slot))) :=
      eventless_append (eventless_gap (eventless_lit _ rfl)) (eventless_number _)
    apply_rules [tame_append, tame_lit, eventless_lit]
  · refine honest_cut 80 (adds_tame ?_)
    apply_rules [tame_append, tame_lit, eventless_number, eventless_lit]

theorem tame_treat (amount : Int) : Tame (treatEvt amount) := by
  unfold treatEvt
  apply_rules [tame_append, tame_lit, eventless_number, eventless_lit]

theorem honest_treat : Honest tick (cmdTreat env c) := by
  refine Keeps.bind (keeps_session c) fun s _ => Keeps.branch (honest_line ?_) ?_
  · apply_rules [adds_tame, tame_append, tame_lit, eventless_lit]
  refine Keeps.branch (honest_line (adds_tame (tame_lit _ rfl))) ?_
  refine Keeps.bind (honest_ask _) fun front _ => Keeps.branch (honest_line ?_) (Keeps.branch ?_ ?_)
  · unfold treatBranded
    apply_rules [adds_tame, tame_append, tame_lit, eventless_lit]
  · refine Keeps.seq (honest_text ?_) (honest_text (tame_treat 0))
    apply_rules [tame_append, tame_lit, eventless_lit]
  · refine Keeps.seq (honest_update _) (Keeps.seq honest_save (Keeps.seq (honest_text ?_) ?_))
    · unfold treatDone
      apply_rules [tame_append, tame_lit, eventless_lit]
    · exact Keeps.seq (honest_cut 160 (adds_tame (tame_treat _))) honest_vitals_now

theorem honest_mend (arg : Ptr) : Honest tick (cmdMend c arg) := by
  refine Keeps.bind (keeps_session c) fun s _ => ?_
  refine Keeps.bind (Watches.finds_prefix (watches_phase quietNode tick) _ _ _) fun found _ => ?_
  cases found with
  | none => exact honest_line (adds_tame (tame_lit _ rfl))
  | some d =>
    refine Keeps.bind (keeps_session d) fun t _ => Keeps.branch (honest_cut_line 160 ?_) ?_
    · apply_rules [tame_raw, tame_lit]
    refine Keeps.branch (honest_line (adds_tame (tame_lit _ rfl))) ?_
    refine Keeps.seq (honest_update _) (Keeps.seq (honest_update _) ?_)
    refine Keeps.seq ?_ (Keeps.seq ?_ ?_)
    · refine honest_cut_line 160 ?_
      apply_rules [tame_append, tame_lit, eventless_raw, eventless_lit]
    · refine honest_cut 160 (adds_tame ?_)
      apply_rules [tame_raw, tame_append, tame_lit, eventless_lit]
    · exact honest_vitals_now

theorem honest_give (arg : Ptr) : Honest tick (cmdGive env c arg) := by
  refine Keeps.bind (keeps_session c) fun s _ => ?_
  cases giveTokens (argument arg) with
  | none => exact honest_line (adds_tame (tame_lit _ rfl))
  | some named =>
    refine Keeps.bind ((watches_phase env tick).finds_slot _ _ _) fun slot _ => ?_
    cases slot with
    | none =>
      refine honest_cut_line 160 ?_
      apply_rules [tame_append, tame_lit, eventless_raw, eventless_lit]
    | some i =>
      refine Keeps.bind (Watches.finds_prefix (watches_phase env tick) _ _ _) fun found _ => ?_
      cases found with
      | none =>
        refine honest_cut_line 160 ?_
        apply_rules [tame_append, tame_lit, eventless_raw, eventless_lit]
      | some d =>
        refine Keeps.bind (keeps_session d) fun t _ => Keeps.seq (honest_update _) ?_
        refine Keeps.seq (honest_update _) (Keeps.seq honest_save (Keeps.seq honest_save ?_))
        refine Keeps.seq (honest_cut_line 160 ?_) (honest_cut 160 (adds_tame ?_))
        · apply_rules [tame_append, tame_lit, eventless_raw, eventless_lit]
        · apply_rules [tame_raw, tame_append, tame_lit, eventless_raw, eventless_lit]

end Room

section Speech

theorem honest_tell_line (line : Bytes) : Honest tick (tellImpl c line) := by
  refine Keeps.bind (keeps_session c) fun s _ => ?_
  simp only
  refine Keeps.branch (honest_line (adds_tame (tame_lit _ rfl))) ?_
  refine Keeps.bind ((watches_phase quietNode tick).finds_told _) fun found _ => ?_
  cases found with
  | none => exact honest_line (adds_tame (tame_lit _ rfl))
  | some d =>
    refine Keeps.bind (keeps_session d) fun t _ => Keeps.seq (honest_update _) ?_
    split
    · rename_i name text named escaped
      refine Keeps.seq (honest_queue (adds_append ?_ ?_)) (honest_cut_line 120 ?_)
      · refine adds_snprintf 280 (adds_tame ?_)
        apply_rules [tame_raw, tame_append, tame_lit, eventless_raw, eventless_lit]
      · refine adds_snprintf 320 (adds_tame ?_)
        exact tame_tell (eventless_escape named) (eventless_escape escaped) rfl
      · apply_rules [tame_append, tame_lit, eventless_raw, eventless_lit]
    · exact honest_pure ()

theorem honest_reply (arg : Ptr) : Honest tick (cmdReply c arg) :=
  Keeps.bind (keeps_session c) fun _ _ =>
    Keeps.branch (honest_line (adds_tame (tame_lit _ rfl))) (honest_tell_line _)

theorem honest_yell (arg : Ptr) : Honest tick (cmdYell env c arg) := by
  refine Keeps.bind (keeps_session c) fun s _ => ?_
  simp only
  refine Keeps.branch (honest_line (adds_tame (tame_lit _ rfl))) ?_
  split
  · rename_i name text named escaped
    have event : Adds (snprintf 320 (tellEvt "comm.yell" name text)) :=
      adds_snprintf 320
        (adds_tame (tame_tell (eventless_escape named) (eventless_escape escaped) rfl))
    refine Keeps.bind honest_listed fun found _ => Keeps.for_each fun d _ => ?_
    refine Keeps.branch (honest_pure ()) (Keeps.bind (honest_ask _) fun you _ => ?_)
    refine honest_queue (adds_append (adds_snprintf 280 (adds_tame ?_)) event)
    split <;> apply_rules [tame_raw, tame_append, tame_lit, eventless_raw, eventless_lit]
  · exact honest_pure ()

theorem honest_wall (arg : Ptr) : Honest tick (cmdWall env c arg) := by
  refine Keeps.bind (keeps_session c) fun s _ => ?_
  simp only
  refine Keeps.branch (honest_line (adds_tame (tame_lit _ rfl))) ?_
  refine Keeps.branch (honest_line (adds_tame (tame_lit _ rfl))) ?_
  split
  · rename_i name text named escaped
    refine honest_all [] (adds_append (adds_snprintf 320 (adds_tame ?_)) ?_)
    · apply_rules [tame_append, tame_lit, eventless_raw, eventless_lit]
    · exact adds_snprintf 400
        (adds_tame (tame_tell (eventless_escape named) (eventless_escape escaped) rfl))
  · exact honest_pure ()

end Speech

section Deeds

theorem honest_return : Honest tick (resolveReturn env c) := by
  refine Keeps.seq (honest_update _) (Keeps.seq honest_save ?_)
  refine Keeps.bind (keeps_session c) fun s _ => Keeps.seq ?_ honest_echo
  exact honest_cut 96 (adds_tame (tame_redemption s.name s.title))

theorem honest_arc : Honest tick (moralArc env c) := by
  refine Keeps.bind (keeps_session c) fun s _ => Keeps.branch (honest_pure ()) (Keeps.branch ?_ ?_)
  · refine keeps_when (Keeps.seq (honest_update _) (Keeps.seq honest_save (honest_line ?_)))
    apply_rules [adds_tame, tame_append, tame_lit, eventless_lit]
  refine Keeps.branch (honest_pure ()) (Keeps.branch ?_ (Keeps.seq honest_return (honest_line ?_)))
  · refine Keeps.seq (honest_update _) (Keeps.seq honest_save (honest_line ?_))
    apply_rules [adds_tame, tame_append, tame_lit, eventless_lit]
  · apply_rules [adds_tame, tame_append, tame_lit, eventless_lit]

theorem honest_oath : Honest tick (joinRecordOath env c) :=
  Keeps.bind (keeps_session c) fun _ _ => Keeps.seq honest_echo honest_menu_now

theorem honest_steal : Honest tick (cmdSteal env c) := by
  refine Keeps.bind (keeps_session c) fun s _ => Keeps.branch ?_ (Keeps.seq (honest_update _) ?_)
  · exact honest_line (adds_tame (tame_lit _ rfl))
  refine Keeps.seq (honest_ledger _) (Keeps.seq honest_save (Keeps.seq (honest_room _ _ ?_) ?_))
  · refine adds_snprintf 120 (adds_tame ?_)
    apply_rules [tame_raw, tame_append, tame_lit, eventless_lit]
  refine Keeps.seq (honest_line ?_) ?_
  · apply_rules [adds_tame, tame_append, tame_lit, eventless_lit]
  · exact Keeps.seq honest_vitals_now (Keeps.seq honest_affects_now honest_arc)

theorem honest_look_player (arg : Ptr) : Honest tick (cmdLookPlayer c arg) := by
  refine Keeps.bind (keeps_session c) fun s _ => ?_
  refine Keeps.bind (Watches.finds_prefix (watches_phase quietNode tick) _ _ _) fun found _ => ?_
  cases found with
  | none => exact honest_pure false
  | some d =>
    refine Keeps.bind (keeps_session d) fun t _ => Keeps.seq ?_ (Keeps.seq ?_ (honest_pure true))
    · exact honest_cut_line 240 (tame_look_line t)
    · exact honest_cut 168 (adds_tame (tame_look_evt t))

theorem honest_reckoning : Honest tick (cmdReckoning c) := by
  refine Keeps.bind (keeps_session c) fun s _ => Keeps.bind keeps_ledger fun l _ => ?_
  refine Keeps.seq (honest_line (adds_tame (tame_lit _ rfl))) (Keeps.seq ?_ (Keeps.seq ?_ ?_))
  · exact honest_cut_line 160 (tame_standing s)
  · exact Keeps.for_each fun t member => honest_line (adds_tame (tame_arc s t member))
  refine Keeps.seq (Keeps.for_each fun row _ => honest_cut_line 128 ?_) (Keeps.seq ?_ ?_)
  · have label : Tame (lit row.1.label) := by
      cases row.1 <;> exact tame_lit _ rfl
    exact tame_append label (eventless_number _)
  · exact keeps_when (honest_line (adds_tame (tame_lit _ rfl)))
  · exact honest_cut 800 (adds_tame (tame_reckoning
      (unmarked_eventless (unmarked_deeds (unmarked_lit _ rfl)))))

theorem honest_cache (arg : Ptr) : Honest tick (cmdCache env c arg) := by
  refine Keeps.bind (keeps_session c) fun s _ => ?_
  simp only
  refine Keeps.branch (honest_line (adds_tame (tame_lit _ rfl))) (Keeps.branch ?_ ?_)
  · refine honest_cut_line 120 ?_
    apply_rules [tame_append, tame_lit, eventless_number, eventless_lit]
  cases cacheCell s.room with
  | none => exact honest_pure ()
  | some cell =>
    refine Keeps.seq (honest_update _) (Keeps.seq (honest_ledger _) (Keeps.seq honest_save ?_))
    refine Keeps.seq honest_echo (Keeps.seq (honest_cut_line 120 ?_) ?_)
    · apply_rules [tame_append, tame_lit, eventless_number, eventless_lit]
    · exact Keeps.seq honest_vitals_now honest_affects_now

theorem honest_gather : Honest tick (cmdGather env c) := by
  have nothing : Honest tick (queueLine c
      (lit "There's nothing cached here. If you have something to spare, you could " ++
        lit "change that. (cache <gold>)")) := by
    refine honest_line ?_
    apply_rules [adds_tame, tame_append, tame_lit, eventless_lit]
  refine Keeps.bind (keeps_session c) fun s _ => Keeps.bind keeps_ledger fun l _ => ?_
  simp only
  cases cacheCell s.room with
  | none => exact nothing
  | some cell =>
    refine Keeps.branch (Keeps.seq (honest_ledger _) (Keeps.seq (honest_update _) ?_)) nothing
    refine Keeps.seq honest_save (Keeps.bind (keeps_session c) fun s _ => Keeps.seq ?_ ?_)
    · refine honest_cut_line 200 ?_
      apply_rules [tame_append, tame_lit, eventless_number, eventless_lit]
    · exact honest_vitals_now

end Deeds

section Captives

theorem honest_pit : Honest tick (freePit env c) := by
  refine Keeps.bind (keeps_session c) fun s _ => ?_
  refine Keeps.bind ((watches_phase env tick).finds_slot _ _ _) fun slot _ => Keeps.branch ?_ ?_
  · exact honest_line (adds_tame (tame_lit _ rfl))
  refine Keeps.seq (honest_update _) (Keeps.seq (honest_ledger _) ?_)
  refine Keeps.bind honest_now fun now _ => Keeps.seq (honest_rescue now) (Keeps.seq ?_ ?_)
  · refine honest_cut_line 320 ?_
    apply_rules [tame_append, tame_lit, eventless_lit]
  refine Keeps.seq (honest_cut 80 (adds_tame (tame_rescued_one s.name "Mira"))) ?_
  exact Keeps.seq (honest_shift 0) (Keeps.seq honest_affects_now honest_save)

theorem honest_two (now : Int) (deed : Deed) {first second : List Char} {prose : Text}
    (told : Tame prose) (one : everyTail (parts headChars) first = true)
    (two : everyTail (parts headChars) second = true) :
    Honest tick (freeTwo env c now deed (String.ofList first) (String.ofList second) prose) := by
  refine Keeps.bind (keeps_session c) fun s _ => Keeps.seq (honest_update _) ?_
  refine Keeps.seq (honest_ledger _) (Keeps.seq (honest_rescue now) ?_)
  refine Keeps.seq (honest_rescue now) (Keeps.seq (honest_update _) ?_)
  refine Keeps.seq (honest_text told) (Keeps.seq ?_ (Keeps.seq honest_affects_now honest_save))
  exact honest_cut 160 (adds_tame (tame_rescued_two s.name one two))

theorem honest_cells : Honest tick (freeCells env c) := by
  refine Keeps.bind honest_now fun now _ => Keeps.bind keeps_ledger fun l _ => ?_
  refine Keeps.branch (honest_line ?_) (Keeps.seq (honest_ledger _) (honest_two now _ ?_ rfl rfl))
  · apply_rules [adds_tame, tame_append, tame_lit, eventless_lit]
  · apply_rules [tame_append, tame_lit, eventless_lit]

theorem honest_free : Honest tick (cmdFree env c) :=
  Keeps.bind (keeps_session c) fun _ _ => Keeps.branch honest_pit
    (Keeps.branch honest_cells (honest_line (adds_tame (tame_lit _ rfl))))

theorem honest_shelter : Honest tick (cmdShelter env c) := by
  refine Keeps.bind (keeps_session c) fun s _ => Keeps.branch (honest_line ?_) ?_
  · apply_rules [adds_tame, tame_append, tame_lit, eventless_lit]
  refine Keeps.bind honest_now fun now _ => Keeps.bind keeps_ledger fun l _ => ?_
  refine Keeps.branch (honest_line ?_) (Keeps.seq (honest_ledger _) (honest_two now _ ?_ rfl rfl))
  · apply_rules [adds_tame, tame_append, tame_lit, eventless_lit]
  · apply_rules [tame_append, tame_lit, eventless_lit]

theorem honest_gridcast (arg : Ptr) : Honest tick (cmdGridcast env c arg) := by
  refine Keeps.bind (keeps_session c) fun s _ => ?_
  cases arg with
  | none => exact Keeps.throw trivial
  | some line =>
    refine Keeps.branch (honest_line ?_) (Keeps.bind (honest_cast _ _) fun carried _ => ?_)
    · apply_rules [adds_tame, tame_append, tame_lit, eventless_lit]
    · exact Keeps.branch (honest_gridcast_now _) (honest_line (adds_tame (tame_lit _ rfl)))

theorem honest_gridstats : Honest tick (cmdGridstats env c) :=
  Keeps.bind (keeps_session c) fun _ _ =>
    Keeps.branch honest_stats_now (honest_line (adds_tame (tame_lit _ rfl)))

theorem honest_gridprune : Honest tick (cmdGridprune env c) :=
  Keeps.bind (keeps_session c) fun _ _ =>
    Keeps.branch honest_prune_now (honest_line (adds_tame (tame_lit _ rfl)))

theorem honest_path (self : Bytes) (t : Session) : Honest tick (forgivenPath env d self t) :=
  Keeps.branch (honest_forgiven_now self true false)
    (Keeps.branch (honest_forgiven_now self false false)
      (Keeps.seq (honest_update _) (Keeps.seq honest_save (honest_redeemed_now self))))

theorem honest_pardon : Honest tick (forgive env c d) := by
  refine Keeps.bind (keeps_session c) fun s _ => Keeps.bind (keeps_session d) fun t _ => ?_
  refine Keeps.seq (honest_ledger _) (Keeps.seq (honest_update _) (Keeps.seq (honest_update _) ?_))
  refine Keeps.seq honest_echo (Keeps.seq (honest_path s.name t) ?_)
  refine Keeps.seq (honest_room _ _ ?_) ?_
  · refine adds_snprintf 160 (adds_tame ?_)
    apply_rules [tame_raw, tame_append, tame_lit, eventless_raw, eventless_lit]
  · refine Keeps.seq (honest_cut_line 160 ?_) honest_affects_now
    apply_rules [tame_append, tame_lit, eventless_raw, eventless_lit]

theorem honest_forgive (arg : Ptr) : Honest tick (cmdForgive env c arg) := by
  refine Keeps.bind (keeps_session c) fun s _ => ?_
  simp only
  refine Keeps.branch (honest_line (adds_tame (tame_lit _ rfl))) ?_
  refine Keeps.branch (honest_line (adds_tame (tame_lit _ rfl))) ?_
  refine Keeps.bind (Watches.finds_prefix (watches_phase env tick) _ _ _) fun found _ => ?_
  cases found with
  | none =>
    refine honest_cut_line 120 ?_
    apply_rules [tame_append, tame_lit, eventless_raw, eventless_lit]
  | some d =>
    refine Keeps.bind (keeps_session d) fun t _ => Keeps.bind keeps_ledger fun l _ => ?_
    refine Keeps.branch (honest_cut_line 160 ?_)
      (Keeps.branch honest_pardon (honest_cut_line 160 ?_))
    · apply_rules [tame_append, tame_lit, eventless_raw, eventless_lit]
    · apply_rules [tame_raw, tame_append, tame_lit, eventless_lit]

theorem honest_keeps (row : Fallen) : Honest tick (keepName env c row) := by
  refine Keeps.bind (keeps_session c) fun s _ => Keeps.seq (honest_ledger _) ?_
  refine Keeps.seq (honest_update _) (Keeps.seq honest_save (Keeps.seq honest_echo ?_))
  refine Keeps.seq (honest_cut_line 160 ?_) (Keeps.seq ?_ honest_affects_now)
  · apply_rules [tame_append, tame_lit, eventless_raw, eventless_lit]
  · exact honest_cut 280 (adds_tame (tame_remembrance row))

theorem honest_witness (arg : Ptr) : Honest tick (cmdWitness env c arg) := by
  refine Keeps.bind (keeps_session c) fun s _ => ?_
  refine Keeps.bind ((watches_phase env tick).recent_fallen 12 12) fun answer _ => ?_
  refine Keeps.branch honest_fallen_now (Keeps.branch ?_ ?_)
  · exact honest_line (adds_tame (tame_lit _ rfl))
  cases (answer.getD []).find? fun row => sameFold row.name (firstWord arg) with
  | none =>
    refine honest_cut_line 160 ?_
    apply_rules [tame_append, tame_lit, eventless_raw, eventless_lit]
  | some row =>
    refine Keeps.bind keeps_ledger fun l _ => Keeps.branch (honest_cut_line 160 ?_) ?_
    · apply_rules [tame_append, tame_lit, eventless_raw, eventless_lit]
    · exact honest_keeps row

theorem honest_pledge : Honest tick (daisPledge env c) := by
  refine Keeps.bind (keeps_session c) fun s _ => Keeps.branch ?_ ?_
  · exact honest_line (adds_tame (tame_lit _ rfl))
  refine Keeps.bind (honest_ask _) fun unsworn _ => Keeps.branch (honest_line ?_) ?_
  · apply_rules [adds_tame, tame_append, tame_lit, eventless_lit]
  have kneels : Honest tick (kneel c s) := by
    refine Keeps.branch (honest_text ?_) (honest_line ?_)
    · unfold daisAsh
      apply_rules [tame_append, tame_lit, eventless_lit]
    · apply_rules [adds_tame, tame_append, tame_lit, eventless_lit]
  refine Keeps.seq (honest_update _) (Keeps.seq kneels (Keeps.seq (honest_ledger _) ?_))
  refine Keeps.seq (honest_shift _) (Keeps.seq honest_echo (Keeps.seq honest_save ?_))
  refine Keeps.seq (honest_room _ _ ?_) (Keeps.seq honest_arc ?_)
  · refine adds_snprintf 160 (adds_tame ?_)
    apply_rules [tame_raw, tame_append, tame_lit, eventless_lit]
  · exact Keeps.seq honest_affects_now (Keeps.seq honest_vitals_now honest_menu_now)

theorem honest_defy : Honest tick (cmdDefy env c) := by
  refine Keeps.bind (keeps_session c) fun s _ => Keeps.branch ?_ ?_
  · exact honest_line (adds_tame (tame_lit _ rfl))
  refine Keeps.bind (honest_ask _) fun sworn _ => Keeps.branch ?_ (Keeps.seq (honest_update _) ?_)
  · exact honest_line (adds_tame (tame_lit _ rfl))
  refine Keeps.seq (honest_text ?_) (Keeps.seq (honest_ledger _) (Keeps.seq (honest_shift _) ?_))
  · split
    · unfold defyAsh
      apply_rules [tame_append, tame_lit, eventless_lit]
    · unfold defyPlain
      apply_rules [tame_append, tame_lit, eventless_lit]
  refine Keeps.seq honest_echo (Keeps.seq honest_save (Keeps.seq (honest_room _ _ ?_) ?_))
  · refine adds_snprintf 160 (adds_tame ?_)
    apply_rules [tame_raw, tame_append, tame_lit, eventless_lit]
  refine Keeps.seq (Keeps.branch honest_return honest_arc) ?_
  exact Keeps.seq honest_affects_now (Keeps.seq honest_vitals_now honest_menu_now)

end Captives

section Network

theorem honest_whoami : Honest tick (cmdWhoami env c) := by
  refine Keeps.bind (keeps_session c) fun s _ => ?_
  have read (i : Identity) : Honest tick (queue c (snprintf 4096 (fmtCharIdentity s.name i))) :=
    honest_cut 4096 (adds_tame (tame_identity s.name i))
  refine Keeps.branch (read _) ?_
  refine Keeps.bind ((watches_phase env tick).fetches s.name) fun fetched _ => ?_
  cases fetched with
  | none =>
    refine Keeps.seq (honest_text ?_) (read _)
    apply_rules [tame_append, tame_lit, eventless_lit]
  | some row => exact read _

theorem honest_tags (now : Int) (rows : List WorldRow) : Honest tick (worldTags env now rows) := by
  induction rows with
  | nil => exact honest_pure []
  | cons row rest ih =>
    exact Keeps.bind (honest_ask _) fun here _ => Keeps.bind ih fun more _ => honest_pure _

theorem honest_worlds : Honest tick (cmdWorlds env c) := by
  refine Keeps.bind (watches_phase env tick).worlds fun answer _ => ?_
  cases answer with
  | none =>
    refine honest_text ?_
    unfold fmtGridWorldsUnreachable
    apply_rules [tame_append, tame_lit, eventless_lit]
  | some rows =>
    refine Keeps.bind honest_now fun now _ => Keeps.bind (honest_tags now rows) fun tags _ => ?_
    exact honest_queue (adds_worlds 3072 tags)

theorem honest_departs {t : Text} (tame : Tame t) : Honest tick (queueTravel env c t) :=
  Keeps.bind (honest_ask _) fun memory _ =>
    honest_queue (adds_overread 512 memory (adds_tame tame))

theorem honest_handoff (row : WorldRow) :
    Keeps (InPhase tick) (fun _ => True) (travelHandoff env row) Tame := by
  have stale (memory : Nat → UInt8) : Eventless (staleString memory) :=
    unmarked_eventless (unmarked_leaked _)
  refine Keeps.bind (honest_ask _) fun moved _ => Keeps.branch ?_ (Keeps.pure ?_)
  · refine Keeps.bind (honest_ask _) fun first _ => Keeps.bind (honest_ask _) fun second _ => ?_
    exact Keeps.pure (tame_handoff (stale first) (stale second) (eventless_escaped 64 _)
      (eventless_escaped 176 _))
  · exact tame_handoff (eventless_raw _) (eventless_raw _) (eventless_escaped 64 _)
      (eventless_escaped 176 _)

theorem honest_travel_to (target : Bytes) : Honest tick (travelTo env c target) := by
  refine Keeps.bind (watches_phase env tick).worlds fun answer _ => ?_
  cases answer with
  | none =>
    refine honest_departs ?_
    unfold fmtGridTravelUnreachable
    apply_rules [tame_append, tame_lit, eventless_lit]
  | some rows =>
    refine Keeps.bind (honest_ask _) fun address _ => ?_
    split
    · exact honest_departs (tame_travel_missing target)
    · refine Keeps.branch (honest_departs (tame_travel_here _)) ?_
      refine Keeps.bind (honest_handoff _) fun t tame => ?_
      exact Keeps.seq (honest_departs tame) honest_close

theorem honest_travel (arg : Ptr) : Honest tick (cmdTravel env c arg) := by
  cases arg with
  | none => exact honest_worlds
  | some target => exact Keeps.branch honest_worlds (honest_travel_to target)

theorem honest_pick {α : Type} (rows : List α) : Honest tick (pick env rows) :=
  Keeps.bind (honest_ask _) fun _ _ => honest_pure _

theorem honest_listen_trace (rows : List Trace) : Honest tick (listenTrace env c rows) := by
  refine Keeps.bind (Keeps.branch (honest_pure none) (honest_pick rows)) fun chosen _ => ?_
  cases chosen with
  | none => exact honest_text tame_listen_empty
  | some t => exact honest_queue (adds_listen_trace 3072 t.text t.world _)

theorem honest_listen : Honest tick (cmdListen env c) := by
  refine Keeps.bind honest_hub fun h _ => Keeps.branch ?_ (Keeps.branch ?_ ?_)
  · refine Keeps.bind (honest_pick h.echo) fun chosen _ => ?_
    cases chosen with
    | none => exact honest_pure ()
    | some t => exact honest_text (tame_listen_echo t.text)
  · exact Keeps.bind ((watches_phase env tick).recent 20 20) fun answer _ => honest_listen_trace _
  · exact honest_listen_trace h.traces

theorem honest_pings (n : Nat) (rows : List Trace) : Honest tick (pingAllLocal env n rows) := by
  induction rows generalizing n with
  | nil => cases n <;> exact honest_pure []
  | cons t rest ih =>
    cases n with
    | zero => exact honest_pure []
    | succ n =>
      refine Keeps.branch (ih (n + 1)) (Keeps.bind (honest_ask _) fun moved _ => ?_)
      refine Keeps.bind (honest_ask _) fun memory _ => Keeps.branch (ih (n + 1)) ?_
      exact Keeps.bind (ih n) fun more _ => honest_pure _

theorem honest_ping (arg : Ptr) : Honest tick (cmdPing env c arg) := by
  refine Keeps.branch (Keeps.bind (R := Any) (Keeps.branch ?_ ?_) fun traces _ => ?_) ?_
  · exact Keeps.bind ((watches_phase env tick).recent_across _ 8 8) fun answer _ => honest_pure _
  · exact Keeps.bind honest_hub fun h _ => honest_pings 8 h.traces
  · exact honest_queue (adds_ping_all 3072 traces)
  · refine Keeps.bind (keeps_session c) fun s _ => Keeps.bind honest_hub fun h _ => ?_
    exact honest_queue (adds_ping_echo 3072 (roomId s.room) _)

end Network

section Combat

theorem adds_shiv : Adds readyShiv := by
  unfold readyShiv
  apply_rules [adds_tame, tame_append, tame_lit, eventless_lit]

theorem tame_nothing : Tame nothingToWear := by
  unfold nothingToWear
  apply_rules [tame_append, tame_lit, eventless_lit]

theorem tame_unseen : Tame dontSee := by
  unfold dontSee
  apply_rules [tame_append, tame_lit, eventless_lit]

theorem tame_locked : Tame fightBlock := by
  unfold fightBlock
  apply_rules [tame_append, tame_lit, eventless_lit]

theorem honest_wield (arg : Ptr) : Honest tick (cmdWield c arg) :=
  Keeps.branch (Keeps.seq (honest_update _) (Keeps.seq (honest_queue adds_shiv) honest_equipment))
    (honest_text tame_nothing)

theorem honest_remove (arg : Ptr) : Honest tick (cmdRemove c arg) := by
  refine Keeps.bind (keeps_session c) fun s _ => Keeps.branch (honest_text tame_nothing) ?_
  refine Keeps.branch (honest_text ?_) (Keeps.seq (honest_update _) (Keeps.seq ?_ honest_equipment))
  · apply_rules [tame_append, tame_lit, eventless_lit]
  · refine honest_text ?_
    apply_rules [tame_append, tame_lit, eventless_lit]

theorem honest_arm (at_ms : Int) : Honest tick (armAt c at_ms) :=
  Keeps.bind (keeps_session c) fun _ _ => honest_fight _

theorem honest_calm : Honest tick (calm c) :=
  Keeps.bind (keeps_session c) fun _ _ => honest_fight _

theorem honest_start : Honest tick (startFight env c) := by
  refine Keeps.bind (keeps_session c) fun s _ => Keeps.seq (honest_fight _) ?_
  refine Keeps.seq (honest_update _) (Keeps.seq ?_ (Keeps.seq (honest_text ?_) ?_))
  · exact honest_cut 500 (adds_combat_start "rat" "a glow-rat")
  · apply_rules [tame_append, tame_lit, eventless_lit]
  · exact Keeps.seq honest_vitals (Keeps.bind honest_now fun now _ => honest_arm _)

theorem honest_attack (arg : Ptr) : Honest tick (cmdAttack env c arg) := by
  refine Keeps.bind (keeps_session c) fun s _ => Keeps.bind keeps_world fun w _ => ?_
  refine Keeps.branch (honest_text ?_) (Keeps.branch honest_start (honest_cut 500 (adds_tame ?_)))
  · apply_rules [tame_append, tame_lit, eventless_lit]
  · exact tame_attack_miss arg _

theorem honest_consider (arg : Ptr) : Honest tick (cmdConsider c arg) := by
  refine Keeps.bind (keeps_session c) fun s _ => Keeps.bind keeps_world fun w _ => ?_
  refine Keeps.branch (honest_text tame_unseen) ?_
  cases arg with
  | none => exact Keeps.throw trivial
  | some word =>
    refine Keeps.branch (honest_text ?_) (honest_text tame_unseen)
    apply_rules [tame_append, tame_lit, eventless_lit]

theorem honest_look_mob (arg : Ptr) : Honest tick (cmdLookMob c arg) := by
  refine Keeps.bind (keeps_session c) fun s _ => Keeps.bind keeps_world fun w _ => ?_
  refine Keeps.branch (honest_text ?_) (honest_text tame_unseen)
  apply_rules [tame_append, tame_lit, eventless_lit]

theorem honest_look_at (arg : Ptr) : Honest tick (lookAt c arg) :=
  Keeps.bind (honest_look_player arg) fun _ _ =>
    Keeps.branch (honest_pure ()) (honest_look_mob arg)

theorem honest_exits : Honest tick (cmdExits c) := by
  refine Keeps.bind (keeps_session c) fun s _ => honest_cut 240 (adds_tame ?_)
  have exits := @eventless_exits s.room ['(', 'n', 'u', 'l', 'l', ')'] rfl
  apply_rules [tame_append, tame_lit, eventless_lit]

theorem honest_rest : Honest tick (cmdRest c) := by
  refine Keeps.bind (keeps_session c) fun s _ => Keeps.branch (honest_text tame_locked) ?_
  refine Keeps.seq (honest_update _) (Keeps.seq (honest_world fun _ => rfl) (Keeps.seq ?_ ?_))
  · refine honest_text ?_
    apply_rules [tame_append, tame_lit, eventless_lit]
  · exact honest_vitals

theorem honest_stand : Honest tick (cmdStand c) := by
  refine Keeps.seq (honest_update _) (Keeps.seq (honest_text ?_) honest_vitals)
  apply_rules [tame_append, tame_lit, eventless_lit]

theorem honest_sleep : Honest tick (cmdSleep c) := by
  refine Keeps.bind (keeps_session c) fun s _ => Keeps.branch (honest_text tame_locked) ?_
  refine Keeps.seq (honest_update _) (Keeps.seq (honest_text ?_) ?_)
  · apply_rules [tame_append, tame_lit, eventless_lit]
  · exact Keeps.seq honest_dream_now honest_vitals

theorem honest_join : Honest tick (cmdJoin env c) := by
  refine Keeps.bind (keeps_session c) fun s _ => Keeps.branch honest_pledge ?_
  refine Keeps.branch (honest_text ?_) (Keeps.seq (honest_update _) (Keeps.seq (honest_text ?_) ?_))
  · apply_rules [tame_append, tame_lit, eventless_lit]
  · split
    · unfold joinAsh
      apply_rules [tame_append, tame_lit, eventless_lit]
    · unfold joinPlain
      apply_rules [tame_append, tame_lit, eventless_lit]
  refine Keeps.seq honest_affects (Keeps.seq honest_vitals (Keeps.seq honest_oath ?_))
  exact Keeps.seq (honest_shift _) (Keeps.seq honest_arc honest_save)

theorem honest_defend : Honest tick (cmdDefend env c) := by
  refine Keeps.bind (keeps_session c) fun s _ => Keeps.branch (honest_text ?_) ?_
  · apply_rules [tame_append, tame_lit, eventless_lit]
  refine Keeps.seq (honest_update _) (Keeps.seq (honest_text ?_) ?_)
  · apply_rules [tame_append, tame_lit, eventless_lit]
  refine Keeps.seq honest_affects (Keeps.seq honest_vitals ?_)
  exact Keeps.seq (honest_shift _) honest_save

theorem honest_sky : Honest tick (cmdWorld c) := by
  refine Keeps.bind keeps_world fun w _ => Keeps.seq (honest_cut 240 (adds_tame ?_)) ?_
  · have phase : Eventless (lit (phaseOf w.tick)) := by
      unfold phaseOf
      split <;> exact eventless_lit _ rfl
    apply_rules [tame_append, tame_lit, eventless_lit]
  · exact honest_world_state

theorem honest_title (arg : Ptr) : Honest tick (cmdTitle env c arg) := by
  unfold cmdTitle
  simp only
  refine Keeps.branch (Keeps.seq (honest_update _) (Keeps.seq (honest_text ?_) honest_save))
    (Keeps.seq (honest_update _) (Keeps.seq (honest_cut 240 (adds_tame ?_)) honest_save))
  · apply_rules [tame_append, tame_lit, eventless_lit]
  · apply_rules [tame_append, tame_lit, eventless_raw, eventless_lit]

theorem honest_all_clear : Honest tick (cmdAffects c) := by
  refine Keeps.seq honest_affects (honest_text ?_)
  apply_rules [tame_append, tame_lit, eventless_lit]

theorem honest_inscribe (arg : Ptr) : Honest tick (cmdInscribe env c arg) := by
  refine Keeps.bind (keeps_session c) fun s _ => ?_
  simp only
  have carved : Honest tick (inscribeAt env s.room s.name (argument arg)) := by
    unfold inscribeAt
    split
    · exact honest_inscribes
    · exact honest_pure ()
  refine Keeps.branch (honest_text ?_) (Keeps.seq carved (Keeps.seq (honest_text ?_) ?_))
  · apply_rules [tame_append, tame_lit, eventless_lit]
  · apply_rules [tame_append, tame_lit, eventless_lit]
  refine Keeps.bind (honest_ask _) fun memory _ => Keeps.seq (honest_queue ?_) (honest_text ?_)
  · refine adds_overread 120 memory (adds_tame ?_)
    apply_rules [tame_append, tame_lit, eventless_raw, eventless_lit]
  · apply_rules [tame_append, tame_lit, eventless_lit]

theorem honest_help : Honest tick (cmdHelp c) := by
  refine honest_text ?_
  apply_rules [tame_append, tame_lit, eventless_lit]

theorem honest_quit : Honest tick (cmdQuit c) := by
  refine Keeps.seq honest_close (honest_text ?_)
  apply_rules [tame_append, tame_lit, eventless_lit]

theorem honest_unknown : Honest tick (unknownCommand c) := by
  refine honest_text ?_
  apply_rules [tame_append, tame_lit, eventless_lit]

theorem honest_no_way : Honest tick (cantMove c) := by
  refine honest_text ?_
  apply_rules [tame_append, tame_lit, eventless_lit]

end Combat

end HollowGrid
