import HollowGrid.Permits

/-! The commands that change the world, each within what the sessions in play are
permitted. -/
namespace HollowGrid

variable {strict : Prop} {env : Env} {E : Fault → Prop} {T : Block → Prop}
  {may : Block → Part → Prop} {free : Table → Prop} {I : Server → Prop}

theorem careful_inv_add {item : Bytes} (clean : Clean strict item) :
    Careful strict (invAdd item) := by
  intro ch tidy
  unfold invAdd
  split
  · exact tidy
  · refine { tidy with inventory := fun other member => ?_ }
    rcases List.mem_append.mp member with old | new
    · exact tidy.inventory other old
    · obtain rfl := List.mem_singleton.mp new
      exact clean_take 15 clean

theorem careful_inv_remove (slot : Nat) : Careful strict (invRemove slot) :=
  fun _ tidy =>
    { tidy with inventory := fun item member => tidy.inventory item (List.mem_of_mem_eraseIdx member) }

theorem careful_return : Careful strict returnTo := by
  intro ch tidy
  have title : Clean strict (if ch.title = [] then str "the Returned" else ch.title) := by
    split
    · exact clean_str _ rfl
    · exact tidy.title
  exact { tidy with title := title }

theorem careful_remember {name : List Char} (clean : Clean strict (str (String.ofList name))) :
    Careful strict (rememberFreed (String.ofList name)) := by
  intro ch tidy
  have freed : Clean strict
      (if ch.lastFreed = [] then str (String.ofList name) else ch.lastFreed) := by
    split
    · exact clean
    · exact tidy.lastFreed
  exact { tidy with lastFreed := freed }

theorem clean_space : Clean strict [space] := fun _ x member => by
  obtain rfl := List.mem_singleton.mp member
  rfl

theorem clean_words (fuel : Nat) {text : Bytes} (clean : Clean strict text) :
    ∀ word ∈ words fuel text, Clean strict word := by
  induction fuel generalizing text with
  | zero =>
    intro word member
    cases member
  | succ fuel ih =>
    intro word member
    have start := clean_skip isBlank clean
    unfold words at member
    split at member
    · cases member
    · rename_i found
      rcases List.mem_cons.mp member with rfl | later
      · exact clean_of_subset start fun x => take_while_subset _ _ x
      · exact ih (clean_skip _ start) word later

theorem clean_join {buf : Bytes} {rest : List Bytes} (clean : Clean strict buf)
    (each : ∀ word ∈ rest, Clean strict word) : Clean strict (joinItem buf rest) := by
  induction rest generalizing buf with
  | nil => exact clean
  | cons word rest ih =>
    unfold joinItem
    split
    · exact clean
    · refine ih (clean_take 63 ?_) fun other member => each other (by simp [member])
      exact clean_append (clean_append clean clean_space) (each word List.mem_cons_self)

theorem clean_phrase {items : List Bytes} (each : ∀ word ∈ items, Clean strict word) :
    Clean strict (itemPhrase items) := by
  cases items with
  | nil => exact clean_nil
  | cons word rest =>
    exact clean_join (clean_take 63 (each word List.mem_cons_self)) fun other member =>
      each other (by simp [member])

theorem clean_last {tokens : List Bytes} (each : ∀ word ∈ tokens, Clean strict word) :
    Clean strict (tokens.getLastD []) := by
  rw [List.getLastD_eq_getLast?]
  cases found : tokens.getLast? with
  | none => exact clean_nil
  | some word => exact each word (List.mem_of_getLast? found)

theorem clean_give {line phrase target : Bytes} (clean : Clean strict line)
    (given : giveTokens line = some (phrase, target)) :
    Clean strict phrase ∧ Clean strict target := by
  have tokens : ∀ word ∈ (line.take 199).takeWhile (fun b => !isBlank b) ::
      words 16 ((line.take 199).drop ((line.take 199).takeWhile fun b => !isBlank b).length),
      Clean strict word := by
    intro word member
    rcases List.mem_cons.mp member with rfl | later
    · exact clean_of_subset (clean_take 199 clean) fun x => take_while_subset _ _ x
    · exact clean_words 16 (clean_drop _ (clean_take 199 clean)) word later
  simp only [giveTokens, Option.ite_none_left_eq_some, Option.some.injEq, Prod.mk.injEq] at given
  obtain ⟨_, _, rfl, rfl⟩ := given
  refine ⟨clean_phrase fun word member => tokens word ?_, clean_take 39 (clean_last tokens)⟩
  split at member
  · exact List.dropLast_subset _ (List.dropLast_subset _ member)
  · exact List.dropLast_subset _ member

theorem clean_slot {items : List Bytes} (each : ∀ item ∈ items, Clean strict item) (i : Nat) :
    Clean strict (items.getD i []) := by
  rw [List.getD_eq_getElem?_getD]
  cases found : items[i]? with
  | none => exact clean_nil
  | some item => exact each item (List.mem_of_getElem? found)

theorem clean_room_ids : ∀ r ∈ rooms, Clean strict (str r.id) := by
  simp only [rooms, List.forall_mem_cons, List.not_mem_nil, false_implies, implies_true, and_true]
  repeat' apply And.intro
  all_goals exact clean_str _ rfl

theorem clean_room_id (room : Int) {id : String} (found : roomId room = some id) :
    Clean strict (str id) := by
  obtain ⟨r, there, rfl⟩ := Option.map_eq_some_iff.mp found
  unfold room? at there
  split at there
  · exact clean_room_ids r (List.mem_of_getElem? there)
  · cases there

theorem clean_room_bytes (room : Int) : Clean strict (roomIdBytes room) := by
  unfold roomIdBytes
  cases found : roomId room with
  | none => exact clean_nil
  | some id => exact clean_room_id room found

theorem clean_node (room : Int) {chars : List Char} (plain : staysInline chars = true) :
    Clean strict (nodeOr room (String.ofList chars)) := by
  unfold nodeOr
  cases found : roomId room with
  | none => exact clean_str chars plain
  | some id => exact clean_room_id room found

theorem quote_fits {msg : Bytes} (short : msg.length < 114) :
    (lit "  \"" ++ raw msg ++ lit "\"" ++ crlf).length < 120 := by
  have opening : (lit "  \"").length = 3 := length_lit _
  have closing : (lit "\"").length = 1 := length_lit _
  have ending : crlf.length = 2 := length_lit _
  simp only [List.length_append, length_raw, opening, closing, ending]
  omega

namespace Permits

variable (p : Permits strict env E T may free I) {c : Block} (self : T c)
include p self

attribute [local irreducible] Sound MidLine Inline Clean lit raw number orText boolText escaped
  slotText snprintf List.append

section Social

theorem ability_kept (purse : may c .purse) (trait : may c .trait) :
    Keeps I E (emitAbility env c) Any := by
  have r := p.reports self
  refine Keeps.bind p.times fun now _ => Keeps.bind (p.reads c) fun s _ => Keeps.branch ?_ ?_
  · exact r.said (sound_snprintf 500 (sound_recharging _ _))
  · refine Keeps.seq (p.updates self (fun _ tidy => { tidy with })
      (by intro q shut ch; cases q <;> first | rfl | contradiction)) (Keeps.seq ?_ r.vitals)
    refine r.said ?_
    apply_rules [sound_text, sound_lit]

theorem pay_kept (purse : may c .purse) (pack : may c .pack) (price : Int) {item : List Char} (pretty : String)
    (plain : staysInline item = true) :
    Keeps I E (pay env c price (String.ofList item) pretty) Any := by
  have r := p.reports self
  refine Keeps.bind (p.reads c) fun s _ => Keeps.branch (r.line (sound_snprintf 160 ?_)) ?_
  · apply_rules [sound_text, sound_numbered, sound_lit]
  · have spares := spares_comp (spares_purse purse fun ch => ch.gold - price)
      (spares_inv_add pack (str (String.ofList item)))
    refine Keeps.seq (p.updates self ?_ spares) (Keeps.seq (p.saves self) (Keeps.seq ?_ r.vitals_now))
    · exact careful_comp (fun _ tidy => { tidy with }) (careful_inv_add (clean_str item plain))
    · refine r.line (sound_snprintf 160 ?_)
      apply_rules [sound_text, sound_lit]

theorem buy_workshop_kept (purse : may c .purse) (pack : may c .pack) (arg : Ptr) :
    Keeps I E (buyWorkshop env c arg) Any := by
  refine Keeps.branch ?_ (Keeps.branch ?_ (Keeps.branch ?_ ?_))
  · exact p.pay_kept self purse pack 14 _ rfl
  · exact p.pay_kept self purse pack 18 _ rfl
  · exact p.pay_kept self purse pack 20 _ rfl
  · exact (p.reports self).line (sound_lit _)

theorem buy_kept (purse : may c .purse) (pack : may c .pack) (arg : Ptr) :
    Keeps I E (cmdBuy env c arg) Any := by
  have r := p.reports self
  have dust : Careful strict (invAdd (str "dust")) := careful_inv_add (clean_str _ rfl)
  refine Keeps.bind (p.reads c) fun s _ => Keeps.branch (Keeps.branch (Keeps.branch ?_ ?_) ?_) ?_
  · exact r.line (sound_lit _)
  · have spares := spares_comp (spares_purse purse fun ch => ch.gold - 10)
      (spares_inv_add pack (str "dust"))
    refine Keeps.seq (p.updates self (careful_comp (fun _ tidy => { tidy with }) dust) spares) ?_
    refine Keeps.seq (p.saves self) (Keeps.seq (r.line (sound_snprintf 160 ?_)) r.vitals_now)
    apply_rules [sound_text, sound_numbered, sound_lit]
  · exact r.line (sound_lit _)
  · exact Keeps.branch (p.buy_workshop_kept self purse pack arg) (r.line (sound_lit _))

theorem emote_kept {arg : Ptr} (clean : CleanPtr strict arg) : Keeps I E (cmdEmote c arg) Any := by
  have words := clean_argument clean
  refine Keeps.bind (p.reads c) fun s tidy => Keeps.branch ((p.reports self).line (sound_lit _)) ?_
  have named : Sound strict (raw s.name) := sound_name tidy.name
  refine p.delivers_room s.room [] (sound_snprintf 280 ?_)
  clear clean
  apply_rules [sound_text, sound_raw, mid_text]

theorem treat_kept (life : may c .life) : Keeps I E (cmdTreat env c) Any := by
  have r := p.reports self
  have done : Sound strict treatDone := by
    unfold treatDone
    apply_rules [sound_text, sound_lit]
  have evt (n : Int) : Sound strict (treatEvt n) := by
    unfold treatEvt
    apply_rules [sound_text, sound_numbered, sound_lit]
  refine Keeps.bind (p.reads c) fun s _ => Keeps.branch (r.line ?_) ?_
  · exact sound_append (sound_lit _) (sound_lit _)
  refine Keeps.branch (r.line (sound_lit _)) (Keeps.bind (p.asks_any _) fun front _ => ?_)
  refine Keeps.branch (r.line (sound_append (sound_lit _) (sound_lit _))) (Keeps.branch ?_ ?_)
  · refine Keeps.seq (r.said ?_) (r.said (evt 0))
    clear evt
    apply_rules [sound_text, sound_lit]
  · refine Keeps.seq (p.updates self (fun _ tidy => { tidy with })
      (by intro q shut ch; cases q <;> first | rfl | contradiction)) (Keeps.seq (p.saves self) ?_)
    exact Keeps.seq (r.said done) (Keeps.seq (r.said (sound_snprintf 160 (evt _))) r.vitals_now)

theorem mend_kept (life : ∀ d, T d → may d .life) (arg : Ptr) :
    Keeps I E (cmdMend c arg) Any := by
  have r := p.reports self
  refine Keeps.bind (p.reads c) fun s tidy => Keeps.bind (p.finds_prefix _ _ _) fun found seen => ?_
  cases found with
  | none => exact r.line (sound_lit _)
  | some d =>
    have peer : T d := p.seen (seen d rfl)
    refine Keeps.bind (p.reads d) fun t other => ?_
    have mine : Sound strict (raw s.name) := sound_name tidy.name
    have theirs : Sound strict (raw t.name) := sound_name other.name
    have clean := other.clean_name
    have mine_life : may c .life := life c self
    have their_life : may d .life := life d peer
    refine Keeps.branch (r.line (sound_snprintf 160 ?_)) (Keeps.branch (r.line (sound_lit _)) ?_)
    · exact sound_text theirs
    refine Keeps.seq (p.updates self (fun _ tidy => { tidy with })
        (by intro q shut ch; cases q <;> first | rfl | contradiction)) ?_
    refine Keeps.seq (p.updates peer (fun _ tidy => { tidy with })
        (by intro q shut ch; cases q <;> first | rfl | contradiction)) ?_
    refine Keeps.seq (r.line (sound_snprintf 160 ?_)) (Keeps.seq (p.tells peer ?_) r.vitals_now)
    · clear seen
      apply_rules [sound_text, sound_raw, sound_lit, mid_lit]
    · exact sound_snprintf 160 (sound_text (sound_text mine))

theorem give_kept (pack : ∀ d, T d → may d .pack) {arg : Ptr} (clean : CleanPtr strict arg) :
    Keeps I E (cmdGive env c arg) Any := by
  have r := p.reports self
  refine Keeps.bind (p.reads c) fun s tidy => ?_
  split
  · exact r.line (sound_lit _)
  · rename_i phrase target given
    obtain ⟨phrased, named⟩ := clean_give (clean_argument clean) given
    clear clean
    refine Keeps.bind (p.finds_slot _ _ _) fun slot _ => ?_
    cases slot with
    | none =>
      refine r.line (sound_snprintf 160 ?_)
      apply_rules [sound_text, sound_raw, sound_lit, mid_lit]
    | some i =>
      refine Keeps.bind (p.finds_prefix _ _ _) fun found seen => ?_
      cases found with
      | none =>
        refine r.line (sound_snprintf 160 ?_)
        apply_rules [sound_text, sound_raw, sound_lit, mid_lit]
      | some d =>
        have peer : T d := p.seen (seen d rfl)
        clear seen
        refine Keeps.bind (p.reads d) fun t other => ?_
        have item : Clean strict (s.inventory.getD i []) := clean_slot tidy.inventory i
        have mine : Sound strict (raw s.name) := sound_name tidy.name
        have theirs := other.clean_name
        have mine_pack : may c .pack := pack c self
        refine Keeps.seq (p.updates self (careful_inv_remove i)
            (by intro q shut ch; cases q <;> first | rfl | contradiction)) ?_
        have added := spares_inv_add (pack d peer) (s.inventory.getD i [])
        refine Keeps.seq (p.updates peer (careful_inv_add item) added) ?_
        refine Keeps.seq (p.saves self) (Keeps.seq (p.saves peer) ?_)
        refine Keeps.seq (r.line (sound_snprintf 160 ?_)) (p.tells peer (sound_snprintf 160 ?_))
        · apply_rules [sound_text, sound_raw, sound_lit, mid_text, mid_lit]
        · apply_rules [sound_text, sound_raw, mid_text]

theorem tell_impl_kept (reply : ∀ d, T d → may d .reply) {line : Bytes} (clean : Clean strict line) :
    Keeps I E (tellImpl c line) Any := by
  have r := p.reports self
  refine Keeps.bind (p.reads c) fun s tidy => ?_
  have msg : Clean strict (tellParts (skipSpaces line)).2 :=
    clean_skip _ (clean_drop _ (clean_skip _ clean))
  refine Keeps.branch (r.line (sound_lit _)) (Keeps.bind (p.finds_told _) fun found seen => ?_)
  cases found with
  | none => exact r.line (sound_lit _)
  | some d =>
    have peer : T d := p.seen (seen d rfl)
    clear seen
    refine Keeps.bind (p.reads d) fun t other => ?_
    have mine : Sound strict (raw s.name) := sound_name tidy.name
    have theirs := other.clean_name
    have open_reply : may d .reply := reply d peer
    refine Keeps.seq (p.updates peer (fun _ old => { old with replyTo := tidy.clean_name })
        (by intro q shut ch; cases q <;> first | rfl | contradiction)) ?_
    split
    · rename_i name text first second
      have evt := @sound_tell_evt strict "comm.tell" _ _ (inline_json_escape first)
        (inline_json_escape second)
      refine Keeps.seq (p.tells peer (sound_append ?_ ?_)) (r.line (sound_snprintf 120 ?_))
      · refine sound_snprintf 280 ?_
        apply_rules [sound_text, sound_raw, mid_text]
      · exact sound_snprintf 320 evt
      · apply_rules [sound_text, sound_raw, sound_lit, mid_text, mid_lit]
    · exact Keeps.pure trivial

theorem tell_kept (reply : ∀ d, T d → may d .reply) {arg : Ptr} (clean : CleanPtr strict arg) :
    Keeps I E (cmdTell c arg) Any :=
  p.tell_impl_kept self reply (clean_get clean)

theorem reply_kept (reply : ∀ d, T d → may d .reply) {arg : Ptr} (clean : CleanPtr strict arg) :
    Keeps I E (cmdReply c arg) Any := by
  refine Keeps.bind (p.reads c) fun s tidy => Keeps.branch ((p.reports self).line (sound_lit _)) ?_
  refine p.tell_impl_kept self reply (clean_take 279 ?_)
  exact clean_append (clean_append tidy.replyTo clean_space) (clean_argument clean)

theorem yell_kept {arg : Ptr} (clean : CleanPtr strict arg) :
    Keeps I E (cmdYell env c arg) Any := by
  have msg := clean_argument clean
  clear clean
  refine Keeps.bind (p.reads c) fun s tidy => Keeps.branch ((p.reports self).line (sound_lit _)) ?_
  have mine : Sound strict (raw s.name) := sound_name tidy.name
  split
  · rename_i name text first second
    have evt := @sound_tell_evt strict "comm.yell" _ _ (inline_json_escape first)
      (inline_json_escape second)
    refine Keeps.bind p.lists fun found listed => Keeps.for_each fun d member => ?_
    refine Keeps.branch (Keeps.pure trivial) (Keeps.bind (p.asks_any _) fun you _ => ?_)
    refine p.tells (p.seen (listed d member).2) (sound_append (sound_snprintf 280 ?_) ?_)
    · split <;> apply_rules [sound_text, sound_raw, sound_lit, mid_text, mid_lit]
    · exact sound_snprintf 320 evt
  · exact Keeps.pure trivial

theorem wall_kept {arg : Ptr} (clean : CleanPtr strict arg) :
    Keeps I E (cmdWall env c arg) Any := by
  have r := p.reports self
  have msg := clean_argument clean
  clear clean
  refine Keeps.bind (p.reads c) fun s _ => Keeps.branch (r.line (sound_lit _)) ?_
  refine Keeps.branch (r.line (sound_lit _)) ?_
  split
  · rename_i name text first second
    have evt := @sound_tell_evt strict "server.announce" _ _ (inline_json_escape first)
      (inline_json_escape second)
    refine p.delivers_all [] (sound_append (sound_snprintf 320 ?_) (sound_snprintf 400 evt))
    apply_rules [sound_text, sound_raw, sound_lit, mid_lit]
  · exact Keeps.pure trivial

end Social

section Deeds

theorem return_kept (arc : may c .arc) : Keeps I E (resolveReturn env c) Any := by
  refine Keeps.seq (p.updates self careful_return
      (by intro q shut ch; cases q <;> first | rfl | contradiction)) (Keeps.seq (p.saves self) ?_)
  refine Keeps.bind (p.reads c) fun s tidy => Keeps.seq ?_ ?_
  · exact p.tells self (sound_snprintf 96 (sound_redemption _ _))
  · exact p.echoes (clean_node _ rfl) (clean_str _ rfl)
      (clean_take 159 (clean_append tidy.clean_name (clean_str _ rfl)))

theorem arc_kept (arc : may c .arc) : Keeps I E (moralArc env c) Any := by
  have r := p.reports self
  refine Keeps.bind (p.reads c) fun s _ => Keeps.branch (Keeps.pure trivial) (Keeps.branch ?_ ?_)
  · refine keeps_when (Keeps.seq (p.updates self (fun _ tidy => { tidy with })
      (by intro q shut ch; cases q <;> first | rfl | contradiction)) ?_)
    exact Keeps.seq (p.saves self) (r.line (sound_append (sound_lit _) (sound_lit _)))
  · refine Keeps.branch (Keeps.pure trivial) (Keeps.branch ?_ ?_)
    · refine Keeps.seq (p.updates self (fun _ tidy => { tidy with })
        (by intro q shut ch; cases q <;> first | rfl | contradiction)) ?_
      exact Keeps.seq (p.saves self) (r.line (sound_append (sound_lit _) (sound_lit _)))
    · exact Keeps.seq (p.return_kept self arc)
        (r.line (sound_append (sound_lit _) (sound_lit _)))

theorem oath_kept : Keeps I E (joinRecordOath env c) Any := by
  refine Keeps.bind (p.reads c) fun s tidy => Keeps.seq ?_ (p.reports self).room_actions_now
  refine p.echoes (clean_node _ rfl) (clean_str _ rfl)
    (clean_take 159 (clean_append tidy.clean_name ?_))
  split <;> exact clean_str _ rfl

theorem steal_kept (morals : may c .morals) (purse : may c .purse) (arc : may c .arc)
    (deeds : free .deeds) : Keeps I E (cmdSteal env c) Any := by
  have r := p.reports self
  refine Keeps.bind (p.reads c) fun s tidy => Keeps.branch (r.line (sound_lit _)) ?_
  have named : Sound strict (raw s.name) := sound_name tidy.name
  have counted := spares_deed deeds s.name .stolen
  refine Keeps.seq (p.updates self (fun _ tidy => { tidy with })
      (by intro q shut ch; cases q <;> first | rfl | contradiction))
    (Keeps.seq (p.on_ledger _ counted) ?_)
  refine Keeps.seq (p.saves self) (Keeps.seq (p.delivers_room _ _ (sound_snprintf 120 ?_)) ?_)
  · exact sound_text (sound_text named)
  refine Keeps.seq (r.line (sound_append (sound_lit _) (sound_lit _))) ?_
  exact Keeps.seq r.vitals_now (Keeps.seq r.affects_now (p.arc_kept self arc))

theorem cache_kept (morals : may c .morals) (purse : may c .purse) (caches : free .caches)
    (arg : Ptr) : Keeps I E (cmdCache env c arg) Any := by
  have r := p.reports self
  refine Keeps.bind (p.reads c) fun s tidy => Keeps.branch (r.line (sound_lit _)) ?_
  refine Keeps.branch (r.line (sound_snprintf 120 ?_)) ?_
  · apply_rules [sound_text, sound_numbered, sound_lit]
  · cases cacheCell s.room with
    | none => exact Keeps.pure trivial
    | some cell =>
      refine Keeps.seq (p.updates self (fun _ tidy => { tidy with })
          (by intro q shut ch; cases q <;> first | rfl | contradiction)) (Keeps.seq (p.on_ledger _
          (by intro t shut l; cases t <;> first | rfl | contradiction)) ?_)
      refine Keeps.seq (p.saves self) (Keeps.seq ?_ (Keeps.seq (r.line (sound_snprintf 120 ?_)) ?_))
      · exact p.echoes (clean_node _ rfl) (clean_str _ rfl)
          (clean_take 159 (clean_append tidy.clean_name (clean_str _ rfl)))
      · apply_rules [sound_text, sound_numbered, sound_lit]
      · exact Keeps.seq r.vitals_now r.affects_now

theorem gather_kept (purse : may c .purse) (caches : free .caches) :
    Keeps I E (cmdGather env c) Any := by
  have r := p.reports self
  refine Keeps.bind (p.reads c) fun s _ => Keeps.bind keeps_ledger fun l _ => ?_
  simp only
  cases cacheCell s.room with
  | none => exact r.line (sound_append (sound_lit _) (sound_lit _))
  | some cell =>
    refine Keeps.branch (Keeps.seq (p.on_ledger _
        (by intro t shut l; cases t <;> first | rfl | contradiction)) ?_)
      (r.line (sound_append (sound_lit _) (sound_lit _)))
    refine Keeps.seq (p.updates self (fun _ tidy => { tidy with })
        (by intro q shut ch; cases q <;> first | rfl | contradiction)) (Keeps.seq (p.saves self) ?_)
    refine Keeps.bind (p.reads c) fun s _ => Keeps.seq (r.line (sound_snprintf 200 ?_)) r.vitals_now
    apply_rules [sound_text, sound_numbered, sound_lit]

end Deeds

section Rescue

theorem free_pit_kept (morals : may c .morals) (pack : may c .pack) (deeds : free .deeds) :
    Keeps I E (freePit env c) Any := by
  have r := p.reports self
  refine Keeps.bind (p.reads c) fun s tidy => Keeps.bind (p.finds_slot _ _ _) fun slot _ => ?_
  have added := spares_inv_add pack (str "antidote")
  have counted := spares_deed deeds s.name .freed
  refine Keeps.branch (r.line (sound_lit _)) (Keeps.seq (p.updates self ?_ ?_) ?_)
  · intro ch old
    have given := careful_inv_add (clean_str ['a', 'n', 't', 'i', 'd', 'o', 't', 'e'] rfl) ch old
    exact careful_remember (clean_str _ rfl) _ { given with }
  · intro q shut ch
    rw [← added q shut ch]
    cases q <;> first | rfl | contradiction
  refine Keeps.seq (p.on_ledger _ counted) (Keeps.bind p.times fun now _ => Keeps.seq ?_ ?_)
  · exact p.rescues now (clean_str _ rfl) (clean_str _ rfl) tidy.clean_name
  refine Keeps.seq (r.line (sound_snprintf 320 ?_)) (Keeps.seq (r.said ?_) ?_)
  · apply_rules [sound_text, sound_lit]
  · exact sound_snprintf 80 (sound_rescued_one _ _)
  · exact Keeps.seq (p.shifts 0) (Keeps.seq r.affects_now (p.saves self))

theorem free_two_kept (morals : may c .morals) (deeds : free .deeds) (now : Int) (deed : Deed) {first second : List Char} {prose : Text}
    (one : staysInline first = true) (two : staysInline second = true)
    (sound : Sound strict prose) :
    Keeps I E (freeTwo env c now deed (String.ofList first) (String.ofList second) prose) Any := by
  have r := p.reports self
  refine Keeps.bind (p.reads c) fun s tidy => Keeps.seq (p.updates self ?_
      (by intro q shut ch; cases q <;> rfl)) ?_
  · exact careful_remember (clean_str first one)
  have counted := spares_deed deeds s.name deed
  refine Keeps.seq (p.on_ledger _ counted) (Keeps.seq ?_ (Keeps.seq ?_ ?_))
  · exact p.rescues now (clean_str _ rfl) (clean_str first one) tidy.clean_name
  · exact p.rescues now (clean_str _ rfl) (clean_str second two) tidy.clean_name
  refine Keeps.seq (p.updates self (fun _ tidy => { tidy with })
      (by intro q shut ch; cases q <;> first | rfl | contradiction)) (Keeps.seq (r.said sound) ?_)
  refine Keeps.seq (r.said (sound_snprintf 160 (sound_rescued_two _ _ _))) ?_
  exact Keeps.seq r.affects_now (p.saves self)

theorem free_kept (morals : may c .morals) (pack : may c .pack) (deeds : free .deeds)
    (hours : free .hours) : Keeps I E (cmdFree env c) Any := by
  have r := p.reports self
  refine Keeps.bind (p.reads c) fun s _ => 
    Keeps.branch (p.free_pit_kept self morals pack deeds) (Keeps.branch ?_ ?_)
  · refine Keeps.bind p.times fun now _ => Keeps.bind keeps_ledger fun l _ => Keeps.branch ?_ ?_
    · exact r.line (sound_append (sound_lit _) (sound_lit _))
    · refine Keeps.seq (p.on_ledger _
        (by intro t shut l; cases t <;> first | rfl | contradiction)) (p.free_two_kept self morals deeds now _ rfl rfl ?_)
      apply_rules [sound_text, sound_lit]
  · exact r.line (sound_lit _)

theorem shelter_kept (morals : may c .morals) (deeds : free .deeds) (hours : free .hours) :
    Keeps I E (cmdShelter env c) Any := by
  have r := p.reports self
  refine Keeps.bind (p.reads c) fun s _ => Keeps.branch (r.line ?_) ?_
  · exact sound_append (sound_lit _) (sound_lit _)
  refine Keeps.bind p.times fun now _ => Keeps.bind keeps_ledger fun l _ => Keeps.branch ?_ ?_
  · exact r.line (sound_text (sound_text (sound_lit _)))
  · refine Keeps.seq (p.on_ledger _
      (by intro t shut l; cases t <;> first | rfl | contradiction)) (p.free_two_kept self morals deeds now _ rfl rfl ?_)
    apply_rules [sound_text, sound_lit]

theorem gridcast_kept {arg : Ptr} (clean : CleanPtr strict arg)
    (guarded : arg = none → E .nullRead) : Keeps I E (cmdGridcast env c arg) Any := by
  have r := p.reports self
  refine Keeps.bind (p.reads c) fun s _ => ?_
  cases arg with
  | none => exact Keeps.throw (guarded rfl)
  | some line =>
    have words : Clean strict (skipSpaces line) := clean_skip _ (clean line rfl)
    refine Keeps.branch (r.line (sound_append (sound_lit _) (sound_lit _))) ?_
    refine Keeps.bind (p.casts _ _) fun carried _ => Keeps.branch ?_ (r.line (sound_lit _))
    refine Keeps.bind (p.reads c) fun s _ => Keeps.seq (r.line (sound_snprintf 280 ?_)) ?_
    · clear clean guarded
      apply_rules [sound_text, sound_raw, sound_lit, mid_lit]
    · exact p.delivers_all [] (sound_snprintf 400 (sound_gridcast env _ _))

theorem prune_kept : Keeps I E (cmdGridprune env c) Any := by
  have r := p.reports self
  refine Keeps.bind (p.reads c) fun s _ => Keeps.branch ?_ (r.line (sound_lit _))
  refine Keeps.bind (p.stats 32) fun first _ => ?_
  cases first with
  | none => exact r.line (sound_lit _)
  | some old =>
    refine Keeps.bind p.prunes fun pruned _ => ?_
    cases pruned with
    | none => exact r.line (sound_lit _)
    | some removed =>
      refine Keeps.bind (p.stats 32) fun second _ => ?_
      refine Keeps.bind (p.roll fun row _ => sound_kind_json row) fun json sound => ?_
      refine Keeps.seq (r.said (sound_snprintf 960 ?_)) (Keeps.seq ?_ ?_)
      · apply_rules [sound_append, sound_lit, sound_number]
      · refine r.line (sound_snprintf 160 ?_)
        apply_rules [sound_text, sound_numbered, sound_lit]
      · refine r.line (sound_snprintf 160 ?_)
        apply_rules [sound_text, sound_numbered, sound_lit]

theorem forgiven_target_kept {self_name : Bytes} (named : Named strict self_name)
    (ashsworn redeemedPath : Bool) :
    Keeps I E (emitForgivenTargetNow c self_name ashsworn redeemedPath) Any := by
  have r := p.reports self
  have mine : Sound strict (raw self_name) := sound_name named
  refine Keeps.seq (r.said (sound_snprintf 280 (sound_text (sound_text mine)))) ?_
  refine Keeps.branch (Keeps.seq (r.said ?_) (r.said ?_)) (Keeps.branch (Keeps.pure trivial) ?_)
  · apply_rules [sound_text, sound_lit]
  · exact sound_snprintf 240 (sound_forgiven _ _ _)
  · refine Keeps.seq (r.said (sound_snprintf 240 (sound_forgiven _ _ _))) (r.said ?_)
    apply_rules [sound_text, sound_lit]

theorem forgiven_redeemed_kept (self_name : Bytes) :
    Keeps I E (emitForgivenRedeemedNow c self_name) Any := by
  have r := p.reports self
  refine Keeps.bind (p.reads c) fun t _ => Keeps.seq (r.said ?_) (Keeps.seq (r.said ?_) ?_)
  · exact sound_snprintf 240 (sound_forgiven _ _ _)
  · exact sound_snprintf 240 (sound_redemption _ _)
  · refine Keeps.seq (r.said ?_) r.affects_now
    apply_rules [sound_text, sound_lit]

theorem forgiven_path_kept (arc : may c .arc) {self_name : Bytes} (named : Named strict self_name) (t : Session) :
    Keeps I E (forgivenPath env c self_name t) Any := by
  refine Keeps.branch (p.forgiven_target_kept self named _ _) (Keeps.branch ?_ ?_)
  · exact p.forgiven_target_kept self named _ _
  · exact Keeps.seq (p.updates self careful_return
      (by intro q shut ch; cases q <;> first | rfl | contradiction))
      (Keeps.seq (p.saves self) (p.forgiven_redeemed_kept self _))

theorem forgive_pair_kept (morals : ∀ d, T d → may d .morals) (arc : ∀ d, T d → may d .arc)
    (pairs : free .forgiven) (deeds : free .deeds) {d : Block} (peer : T d) :
    Keeps I E (forgive env c d) Any := by
  have r := p.reports self
  refine Keeps.bind (p.reads c) fun s tidy => Keeps.bind (p.reads d) fun t other => ?_
  have mine : Sound strict (raw s.name) := sound_name tidy.name
  have theirs := other.clean_name
  have mine_morals : may c .morals := morals c self
  have their_morals : may d .morals := morals d peer
  have counted := spares_ledger_comp (spares_forgiven pairs s.name t.name)
    (spares_deed deeds s.name .forgave)
  refine Keeps.seq (p.on_ledger _ counted) (Keeps.seq (p.updates peer (fun _ tidy => { tidy with })
      (by intro q shut ch; cases q <;> first | rfl | contradiction)) ?_)
  refine Keeps.seq (p.updates self (fun _ tidy => { tidy with })
      (by intro q shut ch; cases q <;> first | rfl | contradiction)) (Keeps.seq ?_ (Keeps.seq ?_ ?_))
  · refine p.echoes (clean_node _ rfl) (clean_str _ rfl) (clean_take 159 ?_)
    exact clean_append (clean_append (clean_append tidy.clean_name (clean_str _ rfl)) theirs)
      (clean_str _ rfl)
  · exact p.forgiven_path_kept peer (arc d peer) tidy.name t
  refine Keeps.seq (p.delivers_room _ _ (sound_snprintf 160 ?_)) (Keeps.seq (r.line ?_) ?_)
  · apply_rules [sound_text, sound_raw, mid_text]
  · refine sound_snprintf 160 ?_
    apply_rules [sound_text, sound_raw, sound_lit, mid_lit]
  · exact r.affects_now

theorem forgive_kept (morals : ∀ d, T d → may d .morals) (arc : ∀ d, T d → may d .arc)
    (pairs : free .forgiven) (deeds : free .deeds) {arg : Ptr} (clean : CleanPtr strict arg) :
    Keeps I E (cmdForgive env c arg) Any := by
  have r := p.reports self
  have word : Clean strict (firstWord arg) :=
    clean_take 38 (clean_of_subset (clean_argument clean) fun x => take_while_subset _ _ x)
  clear clean
  refine Keeps.bind (p.reads c) fun s tidy => Keeps.branch (r.line (sound_lit _)) ?_
  refine Keeps.branch (r.line (sound_lit _)) (Keeps.bind (p.finds_prefix _ _ _) fun found seen => ?_)
  cases found with
  | none =>
    refine r.line (sound_snprintf 120 ?_)
    apply_rules [sound_text, sound_raw, sound_lit, mid_lit]
  | some d =>
    have peer : T d := p.seen (seen d rfl)
    clear seen
    refine Keeps.bind (p.reads d) fun t other => Keeps.bind keeps_ledger fun l _ => ?_
    have theirs := other.clean_name
    have named : Sound strict (raw t.name) := sound_name other.name
    refine Keeps.branch (r.line ?_) 
      (Keeps.branch (p.forgive_pair_kept self morals arc pairs deeds peer) (r.line ?_))
    · refine sound_snprintf 160 ?_
      apply_rules [sound_text, sound_raw, sound_lit, mid_lit]
    · refine sound_snprintf 160 ?_
      apply_rules [sound_text]

theorem keep_name_kept (morals : may c .morals) (pairs : free .kept) (deeds : free .deeds)
    {row : Fallen} (tidy : TidyFallen strict row) :
    Keeps I E (keepName env c row) Any := by
  have r := p.reports self
  have fallen := tidy.name
  refine Keeps.bind (p.reads c) fun s mine => ?_
  have counted := spares_ledger_comp (spares_kept pairs s.name row.name)
    (spares_deed deeds s.name .kept)
  refine Keeps.seq (p.on_ledger _ counted) ?_
  refine Keeps.seq (p.updates self (fun _ tidy => { tidy with })
      (by intro q shut ch; cases q <;> first | rfl | contradiction)) (Keeps.seq (p.saves self) ?_)
  refine Keeps.seq ?_ (Keeps.seq (r.line (sound_snprintf 160 ?_)) (Keeps.seq (r.said ?_) ?_))
  · refine p.echoes (clean_node _ rfl) (clean_str _ rfl) (clean_take 159 ?_)
    exact clean_append (clean_append (clean_append mine.clean_name (clean_str _ rfl)) fallen)
      (clean_str _ rfl)
  · apply_rules [sound_text, sound_raw, sound_lit, mid_lit]
  · exact sound_snprintf 280 (sound_remembrance row)
  · exact r.affects_now

theorem witness_kept (morals : may c .morals) (pairs : free .kept) (deeds : free .deeds)
    {arg : Ptr} (clean : CleanPtr strict arg) :
    Keeps I E (cmdWitness env c arg) Any := by
  have r := p.reports self
  have word : Clean strict (firstWord arg) :=
    clean_take 38 (clean_of_subset (clean_argument clean) fun x => take_while_subset _ _ x)
  clear clean
  refine Keeps.bind (p.reads c) fun s _ => Keeps.bind (p.recent_fallen 12 12) fun answer tidy => ?_
  refine Keeps.branch r.fallen_roll_now (Keeps.branch (r.line (sound_lit _)) ?_)
  split
  · clear tidy
    refine r.line (sound_snprintf 160 ?_)
    apply_rules [sound_text, sound_raw, sound_lit, mid_lit]
  · rename_i row found
    have known := tidy row (List.mem_of_find?_eq_some found)
    have fallen := known.name
    refine Keeps.bind keeps_ledger fun l _ => Keeps.branch (r.line (sound_snprintf 160 ?_)) ?_
    · clear tidy
      apply_rules [sound_text, sound_raw, sound_lit, mid_lit]
    · exact p.keep_name_kept self morals pairs deeds known

theorem pledge_kept (morals : may c .morals) (side : may c .side) (arc : may c .arc)
    (deeds : free .deeds) : Keeps I E (daisPledge env c) Any := by
  have r := p.reports self
  refine Keeps.bind (p.reads c) fun s tidy => Keeps.branch (r.line (sound_lit _)) ?_
  have named : Sound strict (raw s.name) := sound_name tidy.name
  refine Keeps.bind (p.asks_any _) fun unsworn _ => Keeps.branch (r.line ?_) ?_
  · exact sound_append (sound_lit _) (sound_lit _)
  have sworn := spares_swear morals side arc s
  have counted := spares_deed deeds s.name .pledged
  refine Keeps.seq (p.updates self ?_ sworn) (Keeps.seq ?_ (Keeps.seq (p.on_ledger _ counted) ?_))
  · intro ch old
    unfold swear
    split <;> exact { old with faction := clean_str _ rfl }
  · refine Keeps.branch (r.said ?_) (r.line (sound_append (sound_lit _) (sound_lit _)))
    unfold daisAsh
    apply_rules [sound_text, sound_lit]
  refine Keeps.seq (p.shifts _) (Keeps.seq ?_ (Keeps.seq (p.saves self) (Keeps.seq ?_ ?_)))
  · exact p.echoes (clean_str _ rfl) (clean_str _ rfl)
      (clean_take 159 (clean_append tidy.clean_name (clean_str _ rfl)))
  · exact p.delivers_room _ _ (sound_snprintf 160 (sound_text (sound_text named)))
  · exact Keeps.seq (p.arc_kept self arc)
      (Keeps.seq r.affects_now (Keeps.seq r.vitals_now r.room_actions_now))

theorem defy_kept (morals : may c .morals) (side : may c .side) (arc : may c .arc)
    (deeds : free .deeds) : Keeps I E (cmdDefy env c) Any := by
  have r := p.reports self
  refine Keeps.bind (p.reads c) fun s tidy => Keeps.branch (r.line (sound_lit _)) ?_
  have named : Sound strict (raw s.name) := sound_name tidy.name
  refine Keeps.bind (p.asks_any _) fun sworn _ => Keeps.branch (r.line (sound_lit _)) ?_
  refine Keeps.seq (p.updates self (fun _ old => { old with faction := clean_str _ rfl })
      (by intro q shut ch; cases q <;> first | rfl | contradiction)) ?_
  have counted := spares_deed deeds s.name .defected
  refine Keeps.seq (r.said ?_) (Keeps.seq (p.on_ledger _ counted) (Keeps.seq (p.shifts _) ?_))
  · split
    · unfold defyAsh
      apply_rules [sound_text, sound_lit]
    · unfold defyPlain
      apply_rules [sound_text, sound_lit]
  refine Keeps.seq ?_ (Keeps.seq (p.saves self) (Keeps.seq ?_ (Keeps.seq ?_ ?_)))
  · exact p.echoes (clean_str _ rfl) (clean_str _ rfl)
      (clean_take 159 (clean_append tidy.clean_name (clean_str _ rfl)))
  · exact p.delivers_room _ _ (sound_snprintf 160 (sound_text (sound_text named)))
  · exact Keeps.branch (p.return_kept self arc) (p.arc_kept self arc)
  · exact Keeps.seq r.affects_now (Keeps.seq r.vitals_now r.room_actions_now)

end Rescue

section Combat

theorem wield_kept (gear : may c .gear) (arg : Ptr) : Keeps I E (cmdWield c arg) Any := by
  have r := p.reports self
  refine Keeps.branch (Keeps.seq ?_ (Keeps.seq ?_ r.equipment)) (r.said ?_)
  · exact p.updates self (fun _ old => { old with weapon := clean_str _ rfl })
      (by intro q shut ch; cases q <;> first | rfl | contradiction)
  · exact r.said (sound_text (sound_text (sound_lit _)))
  · exact sound_text (sound_text (sound_lit _))

theorem remove_kept (gear : may c .gear) (arg : Ptr) : Keeps I E (cmdRemove c arg) Any := by
  have r := p.reports self
  refine Keeps.bind (p.reads c) fun s _ => Keeps.branch (r.said ?_) (Keeps.branch (r.said ?_) ?_)
  · exact sound_text (sound_text (sound_lit _))
  · exact sound_text (sound_text (sound_lit _))
  · refine Keeps.seq (p.updates self (fun _ old => { old with weapon := clean_nil })
      (by intro q shut ch; cases q <;> first | rfl | contradiction)) ?_
    exact Keeps.seq (r.said (sound_text (sound_text (sound_lit _)))) r.equipment

theorem attack_kept (stance : may c .stance) (fight : may c .fight) {arg : Ptr}
    (clean : CleanPtr strict arg) :
    Keeps I E (cmdAttack env c arg) Any := by
  have r := p.reports self
  refine Keeps.bind (p.reads c) fun s _ => Keeps.bind keeps_world fun w _ => ?_
  refine Keeps.branch (r.said (sound_text (sound_text (sound_lit _)))) (Keeps.branch ?_ ?_)
  · refine Keeps.bind (p.reads c) fun s _ => Keeps.seq (p.fights self fight _) ?_
    refine Keeps.seq (p.updates self (fun _ old => { old with position := clean_str _ rfl })
        (by intro q shut ch; cases q <;> first | rfl | contradiction)) ?_
    refine Keeps.seq (r.said (sound_snprintf 500 (sound_combat_start _ _))) ?_
    refine Keeps.seq (r.said (sound_text (sound_lit _))) (Keeps.seq r.vitals ?_)
    refine Keeps.bind p.times fun now _ => Keeps.bind (p.reads c) fun s _ => ?_
    exact p.fights self fight _
  · exact r.said (sound_snprintf 500 (sound_attack_miss (clean_get clean) _))

theorem rest_kept (stance : may c .stance) (clock : free .clock) : Keeps I E (cmdRest c) Any := by
  have r := p.reports self
  refine Keeps.bind (p.reads c) fun s _ => Keeps.branch (r.said ?_) ?_
  · exact sound_text (sound_text (sound_lit _))
  · refine Keeps.seq (p.updates self (fun _ old => { old with position := clean_str _ rfl })
      (by intro q shut ch; cases q <;> first | rfl | contradiction)) ?_
    refine Keeps.seq (p.on_world _
        (by intro t shut w; cases t <;> first | rfl | contradiction)) (Keeps.seq (r.said ?_) r.vitals)
    exact sound_text (sound_text (sound_lit _))

theorem stand_kept (stance : may c .stance) : Keeps I E (cmdStand c) Any := by
  have r := p.reports self
  refine Keeps.seq (p.updates self (fun _ old => { old with position := clean_str _ rfl })
      (by intro q shut ch; cases q <;> first | rfl | contradiction)) ?_
  exact Keeps.seq (r.said (sound_text (sound_text (sound_lit _)))) r.vitals

theorem sleep_kept (stance : may c .stance) : Keeps I E (cmdSleep c) Any := by
  have r := p.reports self
  refine Keeps.bind (p.reads c) fun s _ => Keeps.branch (r.said ?_) ?_
  · exact sound_text (sound_text (sound_lit _))
  · refine Keeps.seq (p.updates self (fun _ old => { old with position := clean_str _ rfl })
      (by intro q shut ch; cases q <;> first | rfl | contradiction)) ?_
    refine Keeps.seq (r.said ?_) (Keeps.seq r.dream_now r.vitals)
    exact sound_text (sound_text (sound_lit _))

theorem join_kept (morals : may c .morals) (side : may c .side) (arc : may c .arc)
    (market : may c .market) (deeds : free .deeds) : Keeps I E (cmdJoin env c) Any := by
  have r := p.reports self
  refine Keeps.bind (p.reads c) fun s _ => 
    Keeps.branch (p.pledge_kept self morals side arc deeds) (Keeps.branch ?_ ?_)
  · exact r.said (sound_text (sound_text (sound_lit _)))
  · have coined := spares_coin morals side arc market s
    refine Keeps.seq (p.updates self ?_ coined) (Keeps.seq (r.said ?_) (Keeps.seq r.affects ?_))
    · intro ch old
      unfold takeCoin
      split <;> exact { old with faction := clean_str _ rfl }
    · split
      · unfold joinAsh
        apply_rules [sound_text, sound_lit]
      · unfold joinPlain
        apply_rules [sound_text, sound_lit]
    · refine Keeps.seq r.vitals (Keeps.seq (p.oath_kept self) (Keeps.seq (p.shifts _) ?_))
      exact Keeps.seq (p.arc_kept self arc) (p.saves self)

theorem defend_kept (morals : may c .morals) (side : may c .side) (market : may c .market)
    (pack : may c .pack) : Keeps I E (cmdDefend env c) Any := by
  have r := p.reports self
  refine Keeps.bind (p.reads c) fun s _ => Keeps.branch (r.said ?_) ?_
  · exact sound_text (sound_text (sound_lit _))
  · have chosen : Spares (may c) fun ch : Character =>
        { ch with mktResolved := 2, faction := str "ally", morality := ch.morality + 25 } := by
      intro q shut ch
      cases q <;> first | rfl | contradiction
    have spares := spares_comp chosen (spares_inv_add pack (str "charm"))
    refine Keeps.seq (p.updates self ?_ spares) (Keeps.seq (r.said ?_) (Keeps.seq r.affects ?_))
    · refine careful_comp (fun ch old => ?_) (careful_inv_add (clean_str _ rfl))
      exact { old with faction := clean_str _ rfl }
    · apply_rules [sound_text, sound_lit]
    · exact Keeps.seq r.vitals (Keeps.seq (p.shifts _) (p.saves self))

theorem title_kept {arg : Ptr} (clean : CleanPtr strict arg) :
    Keeps I E (cmdTitle env c arg) Any := by
  have r := p.reports self
  have title : Clean strict ((arg.getD []).take 47) := clean_take 47 (clean_get clean)
  clear clean
  refine Keeps.branch ?_ ?_
  · refine Keeps.seq (p.updates self (fun _ old => { old with title := clean_nil })
      (by intro q shut ch; cases q <;> rfl)) ?_
    exact Keeps.seq (r.said (sound_text (sound_text (sound_lit _)))) (p.saves self)
  · refine Keeps.seq (p.updates self (fun _ old => { old with title := title })
      (by intro q shut ch; cases q <;> rfl)) ?_
    refine Keeps.seq (r.said (sound_snprintf 240 ?_)) (p.saves self)
    apply_rules [sound_text, sound_raw, sound_lit, mid_lit]

theorem inscribe_kept {arg : Ptr} (clean : CleanPtr strict arg)
    (fits : strict → (argument arg).length < 114) : Keeps I E (cmdInscribe env c arg) Any := by
  have r := p.reports self
  have msg := clean_argument clean
  clear clean
  refine Keeps.bind (p.reads c) fun s tidy => Keeps.branch (r.said ?_) ?_
  · exact sound_text (sound_text (sound_lit _))
  have carved : Keeps I E (inscribeAt env s.room s.name (argument arg)) Any := by
    unfold inscribeAt
    cases found : roomId s.room with
    | none => exact Keeps.pure trivial
    | some id => exact p.inscribes (clean_room_id s.room found) tidy.clean_name msg
  refine Keeps.seq carved (Keeps.seq (r.said (sound_text (sound_lit _))) ?_)
  refine Keeps.bind (p.asks_any _) fun memory _ => Keeps.seq (r.said ?_) (r.said ?_)
  · refine sound_overread memory ?_ fun on => ?_
    · clear fits
      apply_rules [sound_text, sound_raw, sound_lit, mid_lit]
    · exact quote_fits (fits on)
  · apply_rules [sound_text, sound_lit]

end Combat

section World

theorem move_kept (place : may c .place) (room : Int) : Keeps I E (moveTo c room) Any :=
  Keeps.seq (p.updates self (fun _ old => { old with })
      (by intro q shut ch; cases q <;> first | rfl | contradiction)) (p.reports self).scene_now

theorem stairs_kept (place : may c .place) (here there : Int) : Keeps I E (stairs c here there) Any :=
  Keeps.bind (p.reads c) fun _ _ =>
    Keeps.branch (p.move_kept self place there) (p.reports self).cant_move_kept

theorem recall_kept (place : may c .place) (stance : may c .stance) : Keeps I E (cmdRecall c) Any :=
  Keeps.seq (p.updates self (fun _ old => { old with position := clean_str _ rfl })
      (by intro q shut ch; cases q <;> first | rfl | contradiction))
    (p.reports self).scene_now

end World

end Permits

end HollowGrid
