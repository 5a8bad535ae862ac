import HollowGrid.Lines

/-! Programs that report to one connection and change nothing else. Each rule holds of
every invariant that outlasts a queued line, a question and the close flag. -/
namespace HollowGrid

/-- An argument with no line ends, or the null pointer. -/
def CleanPtr (strict : Prop) (arg : Ptr) : Prop := ∀ b, arg = some b → Clean strict b

/-- What a program that only looks needs of an invariant. -/
structure Watches (strict : Prop) (env : Env) (E : Fault → Prop) (I : Server → Prop) : Prop where
  bounds : E .outOfBounds
  outside : Outside strict env
  tidy : ∀ g, I g → Tidy strict g
  asked : ∀ g, I g → I { g with asked := g.asked + 1 }

structure Reports (strict : Prop) (env : Env) (E : Fault → Prop) (c : Block)
    (I : Server → Prop) : Prop extends Watches strict env E I where
  say : ∀ g t, I g → Sound strict t → I (g.queued c t)
  close : ∀ g, I g → I (g.closing c)

variable {strict : Prop} {env : Env} {E : Fault → Prop} {c : Block} {I : Server → Prop}

theorem clean_argument {arg : Ptr} (clean : CleanPtr strict arg) : Clean strict (argument arg) := by
  unfold argument skipSpaces
  cases arg with
  | none => exact clean_skip _ clean_nil
  | some b => exact clean_skip _ (clean b rfl)

theorem clean_get {arg : Ptr} (clean : CleanPtr strict arg) : Clean strict (arg.getD []) := by
  cases arg with
  | none => exact clean_nil
  | some b => exact clean b rfl

theorem clean_world_row {row : Json} (clean : CleanJson strict row) :
    CleanWorld strict (worldRow row) :=
  ⟨clean_safe_copy 48 (clean_json_str clean "id"), clean_safe_copy 160 (clean_json_str clean "url")⟩

/-- A world travel may hand over to within its buffer. -/
structure FitWorld (strict : Prop) (row : WorldRow) : Prop extends CleanWorld strict row where
  fits : strict → (handoffText row).length < 512

theorem fit_saltreach :
    FitWorld strict ⟨str "Saltreach", str "wss://saltreach.example/ws", 0⟩ where
  id := clean_str _ rfl
  url := clean_str _ rfl
  fits := fun _ => by decide +kernel

theorem fit_dustfall (at_ms : Int) :
    FitWorld strict ⟨str "Dustfall", str "wss://dustfall.skyphusion.org/ws", at_ms⟩ where
  id := clean_str _ rfl
  url := clean_str _ rfl
  fits := fun _ => by
    have seen : (handoffText ⟨str "Dustfall", str "wss://dustfall.skyphusion.org/ws", 0⟩).length <
        512 := by decide +kernel
    exact seen

def Seen (I : Server → Prop) (d : Block) : Prop := ∃ g, I g ∧ some d ∈ g.sessionTable

/-- An answer the hub gives to one of the questions. -/
def Answered (env : Env) (method : String) (params : List Json) (answer : Option Json) : Prop :=
  ∀ j, answer = some j → ∃ n, env.rpc n (str method) params = some j

theorem clean_character (outside : Outside strict env) {n : Nat} {method : Bytes}
    {params : List Json} {result : Json} (called : env.rpc n method params = some result) :
    Clean strict (characterRow result).faction ∧ Clean strict (characterRow result).title ∧
      Clean strict (characterRow result).race := by
  have clean := outside.hub n method params result called
  exact ⟨clean_safe_copy 16 (clean_json_str clean "faction"),
    clean_safe_copy 48 (clean_json_str clean "title"),
    clean_safe_copy 16 (clean_json_str clean "race")⟩

theorem keeps_session (d : Block) : Keeps I E (session d) Any := fun _ holds => ⟨holds, trivial⟩

theorem keeps_world : Keeps I E getWorld Any := fun _ holds => ⟨holds, trivial⟩

theorem keeps_ledger : Keeps I E getLedger Any := fun _ holds => ⟨holds, trivial⟩

theorem keeps_ignored {α : Type} {m : Act α} {Q : α → Prop} (kept : Keeps I E m Q) :
    Keeps I E (ignore m) Any :=
  Keeps.bind kept fun _ _ => Keeps.pure trivial

theorem keeps_when {p : Prop} [Decidable p] {m : Act Unit} (kept : Keeps I E m Any) :
    Keeps I E (when p m) Any :=
  Keeps.branch kept (Keeps.pure trivial)

namespace Watches

variable (r : Watches strict env E I)
include r

theorem reads (d : Block) : Keeps I E (session d) (TidySession strict) :=
  fun g holds => ⟨holds, (r.tidy g holds).session d⟩

theorem lists : Keeps I E listed fun found =>
    ∀ d ∈ found, TidySession strict d.2 ∧ Seen I d.1 := by
  refine fun g holds => ⟨holds, fun d member => ?_⟩
  obtain ⟨b, there, rfl⟩ := List.mem_map.mp member
  obtain ⟨entry, entered, rfl⟩ := List.mem_filterMap.mp there
  exact ⟨(r.tidy g holds).session b, g, holds, entered⟩

theorem asks {α : Type} (answers : Nat → α) :
    Keeps I E (ask answers) fun a => ∃ n, answers n = a :=
  fun g holds => ⟨r.asked g holds, g.asked, rfl⟩

theorem asks_any {α : Type} (answers : Nat → α) : Keeps I E (ask answers) Any :=
  (r.asks answers).weaken fun _ _ => trivial

theorem hub : Keeps I E getGrid (TidyHub strict) := fun g holds => ⟨holds, (r.tidy g holds).hub⟩

theorem finds_slot (word : Bytes) (i : Nat) (items : List Bytes) :
    Keeps I E (invFindSlot env word i items) Any := by
  induction items generalizing i with
  | nil => exact Keeps.pure trivial
  | cons item rest ih =>
    refine Keeps.branch (Keeps.pure trivial) (Keeps.branch (Keeps.pure trivial) ?_)
    refine Keeps.bind (r.asks_any _) fun elsewhere _ => Keeps.bind (r.asks_any _) fun chance _ => ?_
    exact Keeps.branch (Keeps.pure trivial) (ih (i + 1))

theorem finds_prefix (room : Int) (word : Bytes) (except : Ptr) :
    Keeps I E (findPlayerPrefix room word except) fun found => ∀ d, found = some d → Seen I d := by
  refine Keeps.branch (Keeps.pure fun d absurd_some => by cases absurd_some) ?_
  refine Keeps.bind r.lists fun found seen => ?_
  split
  · rename_i d alone
    refine Keeps.pure fun b same => ?_
    cases same
    have member : d ∈ found.filter fun d => mayMatch room word except d.2 := by simp [alone]
    exact (seen d (List.mem_of_mem_filter member)).2
  · exact Keeps.pure fun d absurd_some => by cases absurd_some

theorem finds_name (name : Bytes) :
    Keeps I E (findSessionName name) fun found => ∀ d, found = some d → Seen I d := by
  refine Keeps.branch (Keeps.pure fun d absurd_some => by cases absurd_some) ?_
  refine Keeps.bind r.lists fun found seen => Keeps.pure fun b same => ?_
  obtain ⟨d, there, rfl⟩ := Option.map_eq_some_iff.mp same
  exact (seen d (List.mem_of_find?_eq_some there)).2

theorem finds_told (target : Bytes) :
    Keeps I E (findTold target) fun found => ∀ d, found = some d → Seen I d := by
  refine Keeps.bind (r.finds_name target) fun named seen => ?_
  cases named with
  | some d => exact Keeps.pure seen
  | none =>
    refine Keeps.bind r.lists fun found listed => ?_
    split
    · rename_i d alone
      refine Keeps.pure fun b same => ?_
      cases same
      have member : d ∈ found.filter fun d => startsFold target d.2.name := by simp [alone]
      exact (listed d (List.mem_of_mem_filter member)).2
    · exact Keeps.pure fun d absurd_some => by cases absurd_some

theorem calls (method : String) (params : List Json) :
    Keeps I E (rpcCall env method params) (Answered env method params) := by
  refine Keeps.branch ((r.asks _).weaken ?_) (Keeps.pure fun j absurd_some => by cases absurd_some)
  rintro answer ⟨n, rfl⟩ j answered
  exact ⟨n, answered⟩

theorem clean_answer {method : String} {params : List Json} {answer : Option Json}
    (answered : Answered env method params answer) : ∀ j, answer = some j → CleanJson strict j := by
  intro j found
  obtain ⟨n, called⟩ := answered j found
  exact r.outside.hub n _ params j called

theorem times : Keeps I E (nowMs env) Any := r.asks_any env.now

theorem commits (c : Block) : Keeps I E (gridCommitSession env c) Any :=
  Keeps.branch
    (Keeps.bind (r.reads c) fun _ _ => Keeps.bind (r.calls _ _) fun _ _ => Keeps.pure trivial)
    (Keeps.pure trivial)

theorem clean_boot : Clean strict (bootName env) := clean_safe_copy 64 r.outside.world

theorem clean_grid_name : Clean strict (gridWorldName env) := by
  have boot := r.clean_boot
  unfold gridWorldName
  split
  · exact clean_str _ rfl
  · rename_i name _
    exact boot

theorem rows {α : Type} {P : α → Prop} {make : List Json → List α} (method : String)
    (params : List Json)
    (each : ∀ found : List Json, Answered env method params (some (.arr found)) →
      ∀ x ∈ make found, P x) :
    Keeps I E (rpcCall env method params >>= fun answer => pure ((rpcRows answer).map make))
      fun made => ∀ x ∈ made.getD [], P x := by
  refine Keeps.bind (r.calls method params) fun answer answered => Keeps.pure ?_
  unfold rpcRows
  split
  · exact each _ answered
  · intro x member
    cases member

theorem clean_found {method : String} {params found : List Json}
    (answered : Answered env method params (some (.arr found))) : ∀ row ∈ found, CleanJson strict row :=
  clean_rows (r.clean_answer answered) rfl

theorem worlds : Keeps I E (gridListWorlds env) fun answer =>
    ∀ row ∈ answer.getD [], FitWorld strict row := by
  refine Keeps.branch ?_ ?_
  · refine r.rows "listWorlds" [] fun found answered x member => ?_
    obtain ⟨row, there, rfl⟩ := List.mem_map.mp member
    have listed : row ∈ found := List.mem_of_mem_take there
    obtain ⟨n, called⟩ := answered _ rfl
    exact ⟨clean_world_row (r.clean_found answered row listed),
      fun on => r.outside.handoff on _ (.hub n found row called listed)⟩
  · refine Keeps.bind r.times fun first _ => Keeps.bind r.times fun second _ => Keeps.pure ?_
    simp only [Option.getD_some, List.forall_mem_cons, List.not_mem_nil, false_implies,
      implies_true, and_true]
    refine ⟨fit_saltreach, fit_dustfall first, ?_⟩
    exact ⟨⟨clean_safe_copy 48 r.clean_boot, clean_safe_copy 160 r.outside.url⟩,
      fun on => r.outside.handoff on _ (.own second)⟩

theorem fetches (name : Bytes) : Keeps I E (gridFetchCharacter env name) fun fetched =>
    ∀ row, fetched = some row → row = {} ∨
      ∃ n result, env.rpc n (str "loadCharacter") [.str name] = some result ∧
        row = characterRow result := by
  refine Keeps.branch (Keeps.bind (r.calls _ _) fun answer answered => Keeps.pure ?_)
    (Keeps.pure fun row found => .inl (Option.some.inj found).symm)
  intro row found
  cases answer with
  | none => cases found
  | some result =>
    simp only [Option.ite_none_right_eq_some, Option.some.injEq] at found
    obtain ⟨n, called⟩ := answered result rfl
    exact .inr ⟨n, result, called, found.2.symm⟩

theorem character (name : Bytes) : Keeps I E (gridFetchCharacter env name) fun fetched =>
    ∀ row, fetched = some row →
      Clean strict row.faction ∧ Clean strict row.title ∧ Clean strict row.race := by
  refine (r.fetches name).weaken fun fetched made row found => ?_
  rcases made row found with rfl | ⟨n, result, called, rfl⟩
  · exact ⟨clean_nil, clean_nil, clean_nil⟩
  · exact clean_character r.outside called

theorem traces (method : String) (params : List Json) (cap : Nat) :
    Keeps I E (rpcCall env method params >>= fun answer => pure (traceRows answer cap))
      fun made => ∀ t ∈ made.getD [], TidyTrace strict t := by
  refine r.rows method params fun found answered t member => ?_
  obtain ⟨row, there, rfl⟩ := List.mem_map.mp member
  exact tidy_trace_row
    (r.clean_found answered row (List.mem_of_mem_filter (List.mem_of_mem_take there)))

theorem recent (limit cap : Nat) : Keeps I E (gridFetchRecent env limit cap) fun made =>
    ∀ t ∈ made.getD [], TidyTrace strict t :=
  Keeps.branch (r.traces _ _ cap) (Keeps.pure fun _ member => by cases member)

theorem recent_across (limit : Int) (out cap : Nat) :
    Keeps I E (gridFetchRecentAcross env limit out cap) fun made =>
      ∀ t ∈ made.getD [], TidyTrace strict t := by
  have stored : (rpcCall env "recentAcross" [.str (bootName env), .num limit] >>= fun answer =>
      storeTraces out (traceRows answer cap)) =
      (rpcCall env "recentAcross" [.str (bootName env), .num limit] >>= fun answer =>
        pure (traceRows answer cap)) >>= storeTraces out := by
    simp only [bind_assoc, pure_bind]
  refine Keeps.branch (Keeps.pure fun _ member => by cases member) (Keeps.branch ?_
    (Keeps.pure fun _ member => by cases member))
  rw [stored]
  refine Keeps.bind (r.traces _ _ cap) fun rows clean => ?_
  exact Keeps.branch (Keeps.throw r.bounds) (Keeps.pure clean)

theorem tide : Keeps I E (gridTide env) Any :=
  Keeps.branch (Keeps.bind (r.calls _ _) fun _ _ => Keeps.pure trivial)
    (Keeps.bind r.hub fun _ _ => Keeps.pure trivial)

theorem presence (maxAge : Int) (cap : Nat) : Keeps I E (gridPresence env maxAge cap) Any :=
  Keeps.branch (Keeps.bind (r.calls _ _) fun _ _ => Keeps.pure trivial) (Keeps.pure trivial)

theorem fallen_rows (method key : String) (width : Nat) (params : List Json) (cap : Nat) :
    Keeps I E (rpcCall env method params >>= fun answer =>
      pure ((rpcRows answer).map fun rows => (rows.take cap).map (fallenRow key width)))
      fun made => ∀ row ∈ made.getD [], TidyFallen strict row := by
  refine r.rows method params fun found answered row member => ?_
  obtain ⟨json, there, rfl⟩ := List.mem_map.mp member
  exact tidy_fallen_row key width (r.clean_found answered json (List.mem_of_mem_take there))

theorem recent_rescued (limit : Int) (cap : Nat) :
    Keeps I E (gridRecentRescued env limit cap) fun made =>
      ∀ row ∈ made.getD [], TidyFallen strict row := by
  refine Keeps.branch (r.fallen_rows _ "savedBy" 33 _ cap)
    (Keeps.bind r.hub fun h tidy => Keeps.pure fun row member => ?_)
  obtain ⟨old, there, rfl⟩ := List.mem_map.mp member
  exact tidy_copy_row 33 (tidy_recent tidy.rescued old there)

theorem recent_fallen (limit : Int) (cap : Nat) :
    Keeps I E (gridRecentFallen env limit cap) fun made =>
      ∀ row ∈ made.getD [], TidyFallen strict row := by
  refine Keeps.branch (r.fallen_rows _ "room" 32 _ cap)
    (Keeps.bind r.hub fun h tidy => Keeps.pure fun row member => ?_)
  obtain ⟨old, there, rfl⟩ := List.mem_map.mp member
  exact tidy_copy_row 32 (tidy_recent tidy.fallen old there)

theorem stats (cap : Nat) : Keeps I E (gridLedgerStats env cap) fun made =>
    ∀ row ∈ made.getD [], Clean strict row.1 := by
  refine Keeps.branch (r.rows _ _ fun found answered row member => ?_)
    (Keeps.bind r.hub fun h tidy => Keeps.pure ?_)
  · obtain ⟨json, there, rfl⟩ := List.mem_map.mp member
    exact clean_safe_copy 32
      (clean_json_str (r.clean_found answered json (List.mem_of_mem_take there)) "kind")
  · exact clean_ledger_rows (fun _ member => by cases member) tidy.traces

attribute [local irreducible] Sound MidLine Inline Clean lit raw number orText boolText escaped
  slotText snprintf List.append

theorem roll {cap : Nat} {α : Type} {row : α → Text} {xs : List α}
    (each : ∀ x ∈ xs, Sound strict (row x)) :
    Keeps I E (rollJson cap (jsonRows (fun _ => row) 0 xs)) (Sound strict) := by
  have rows : Sound strict (jsonRows (fun _ => row) 0 xs).flatten :=
    sound_flatten (sound_json_rows 0 fun _ => each)
  refine Keeps.branch (Keeps.pure ?_) (Keeps.throw r.bounds)
  apply_rules [sound_append, sound_lit]

end Watches

namespace Reports

variable (r : Reports strict env E c I)
include r

theorem said {t : Text} (sound : Sound strict t) : Keeps I E (queue c t) Any :=
  Keeps.modify fun g holds => r.say g t holds sound

theorem line {t : Text} (sound : Sound strict t) : Keeps I E (queueLine c t) Any :=
  keeps_when (r.said (sound_append sound (sound_lit _)))

theorem closes : Keeps I E (setClose c) Any := Keeps.modify r.close

theorem vitals : Keeps I E (emitVitals c) Any :=
  Keeps.bind (r.reads c) fun _ tidy => r.said (sound_snprintf 500 (sound_vitals tidy _))

theorem affects : Keeps I E (emitAffects c) Any :=
  Keeps.bind (r.reads c) fun _ tidy => r.said (sound_snprintf 500 (sound_affects tidy))

theorem equipment : Keeps I E (emitEquipment c) Any :=
  Keeps.bind (r.reads c) fun _ tidy => r.said (sound_snprintf 500 (sound_equipment tidy))

theorem vitals_now : Keeps I E (emitVitalsNow c) Any :=
  Keeps.bind (r.reads c) fun _ tidy => r.said (sound_snprintf 4096 (sound_vitals tidy _))

theorem affects_now : Keeps I E (emitAffectsNow c) Any :=
  Keeps.bind (r.reads c) fun _ tidy => r.said (sound_snprintf 4096 (sound_affects tidy))

theorem dream_now : Keeps I E (emitDreamNow c) Any :=
  Keeps.bind (r.reads c) fun _ _ => r.said (sound_snprintf 4096 (sound_get fun _ => sound_dream))

theorem world_state : Keeps I E (emitWorldState c) Any :=
  Keeps.bind keeps_world fun _ _ => r.said (sound_snprintf 240 (sound_world_state _ _))

theorem cache_now : Keeps I E (announceCacheNow c) Any := by
  refine Keeps.bind (r.reads c) fun s _ => Keeps.bind keeps_ledger fun l _ => ?_
  have announced : Sound strict (cacheAnnounce (cachePeek l s.room)) := by
    unfold cacheAnnounce
    apply_rules [sound_text, sound_numbered, sound_lit]
  have evt : Sound strict (cacheEvt (cachePeek l s.room)) := by
    unfold cacheEvt
    apply_rules [sound_text, sound_numbered, sound_lit]
  refine Keeps.branch (Keeps.pure trivial) (Keeps.seq ?_ ?_)
  · exact r.line (sound_snprintf 160 announced)
  · exact r.said (sound_snprintf 80 evt)

theorem scene_now : Keeps I E (emitSceneNow c) Any := by
  refine Keeps.bind (r.reads c) fun s _ => Keeps.seq ?_ ?_
  · exact r.said (sound_snprintf 1024 (sound_scene s.room))
  refine Keeps.bind r.lists fun found _ => Keeps.bind keeps_world fun w _ => Keeps.seq ?_ ?_
  · exact r.said (sound_snprintf 4096 (sound_room_info _ _ (sound_players _ _ _ _)))
  refine Keeps.seq r.vitals_now (Keeps.seq r.affects_now (Keeps.seq ?_ (Keeps.seq ?_ r.cache_now)))
  · exact r.said (sound_snprintf 4096 (sound_room_menu s))
  · exact r.said (sound_snprintf 4096 (sound_world_state _ _))

theorem room_actions_now : Keeps I E (emitRoomActionsNow c) Any :=
  Keeps.bind (r.reads c) fun s _ => r.said (sound_snprintf 1400 (sound_room_menu s))

theorem grid_who_now : Keeps I E (emitGridWhoNow env c) Any := by
  refine Keeps.bind r.lists fun found _ => Keeps.bind (r.presence 30000 32) fun answer _ => ?_
  have sound : Sound strict _ := sound_who env found (answer.getD [])
  simp only
  generalize whoAppend 2048 (whoAppend 2048 _ _) _ = far at sound ⊢
  refine Keeps.seq (r.said (sound_snprintf 2200 ?_)) (Keeps.branch ?_ ?_)
  · split <;> apply_rules [sound_append, sound_lit]
  · exact r.line (sound_lit _)
  · exact r.line (sound_lit _)

theorem saved_roll_now : Keeps I E (emitSavedRollNow env c) Any := by
  refine Keeps.bind (r.recent_rescued 12 12) fun answer tidy => Keeps.branch ?_ ?_
  · exact r.line (sound_append (sound_lit _) (sound_lit _))
  · refine Keeps.seq (r.line (sound_lit _)) (Keeps.seq (Keeps.for_each fun row member => ?_) ?_)
    · have name := (tidy row member).name
      have rescuer := (tidy row member).third
      refine r.line (sound_snprintf 160 ?_)
      apply_rules [sound_raw, sound_text, sound_lit, mid_text, mid_lit]
    · refine Keeps.bind (r.roll fun row _ => sound_rescued_json row) fun json sound => ?_
      refine r.said (sound_snprintf 1400 ?_)
      apply_rules [sound_append, sound_lit]

theorem fallen_lines {rows : List Fallen} (tidy : ∀ row ∈ rows, TidyFallen strict row) :
    Keeps I E (fallenLines c rows) Any := by
  refine Keeps.branch ?_ (Keeps.seq ?_ (Keeps.for_each fun row member => ?_))
  · exact r.line (sound_append (sound_lit _) (sound_lit _))
  · exact r.line (sound_append (sound_lit _) (sound_lit _))
  · have name := (tidy row member).name
    have room := (tidy row member).third
    refine r.line (sound_snprintf 160 ?_)
    apply_rules [sound_raw, sound_text, sound_lit, mid_text, mid_lit]

theorem fallen_roll_now : Keeps I E (emitFallenRollNow env c) Any := by
  refine Keeps.bind (r.recent_fallen 12 12) fun answer tidy => ?_
  refine Keeps.seq (r.fallen_lines tidy) ?_
  refine Keeps.bind (r.roll fun row _ => sound_fallen_json row) fun json sound => ?_
  refine r.said (sound_snprintf 1400 ?_)
  apply_rules [sound_append, sound_lit]

theorem gridstats_now : Keeps I E (emitGridstatsCmdNow env c) Any := by
  refine Keeps.bind (r.stats 32) fun answer clean => ?_
  cases answer with
  | none => exact r.line (sound_lit _)
  | some rows =>
    refine Keeps.bind (r.roll fun row _ => sound_kind_json row) fun json sound => ?_
    refine Keeps.seq (r.said (sound_snprintf 900 ?_)) (Keeps.seq (r.line (sound_snprintf 160 ?_)) ?_)
    · apply_rules [sound_append, sound_lit, sound_number]
    · apply_rules [sound_append, sound_lit, sound_number]
    · exact Keeps.for_each fun row member =>
        r.line (sound_snprintf 160 (sound_kind_line (clean row member)))

theorem inventory : Keeps I E (emitInventory c) Any := by
  refine Keeps.bind (r.reads c) fun s tidy => Keeps.branch ?_ ?_
  · exact r.said (sound_text (sound_lit _))
  · exact r.said (sound_inventory fun item member => tidy.inventory item (List.mem_of_mem_take member))

end Reports

end HollowGrid
