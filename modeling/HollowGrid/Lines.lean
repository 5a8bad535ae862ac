import HollowGrid.Tidy

/-! Every text the server says keeps what it quotes inside a line it opened itself. -/
namespace HollowGrid

variable {strict : Prop}

theorem hex_digit_plain (n : UInt8) (small : n < 16) : isBreak (hexDigit n) = false := by
  have bound : n.toNat < 16 := small
  refine break_below ?_
  unfold hexDigit
  split <;> simp only [UInt8.toNat_add, UInt8.reduceToNat] <;> omega

theorem hex_text_plain (b x : UInt8) (member : x ∈ hexText b) : isBreak x = false := by
  rcases List.mem_append.mp member with front | back
  · exact @clean_str True _ rfl trivial x front
  · have high : b / 16 < 16 := by
      rw [UInt8.lt_iff_toNat_lt, UInt8.toNat_div]
      exact Nat.div_lt_of_lt_mul b.toNat_lt
    have low : b % 16 < 16 := by
      rw [UInt8.lt_iff_toNat_lt, UInt8.toNat_mod]
      exact Nat.mod_lt _ (by decide)
    rcases List.mem_pair.mp back with rfl | rfl
    · exact hex_digit_plain _ high
    · exact hex_digit_plain _ low

theorem escape_byte_plain (b x : UInt8) (member : x ∈ escapeByte b) : isBreak x = false := by
  have literal (chars : List Char) (plain : staysInline chars = true)
      (there : x ∈ str (String.ofList chars)) : isBreak x = false :=
    @clean_str True chars plain trivial x there
  unfold escapeByte at member
  split_ifs at member with quote slash back form line carriage tabbed control
  · exact literal _ rfl member
  · exact literal _ rfl member
  · exact literal _ rfl member
  · exact literal _ rfl member
  · exact literal _ rfl member
  · exact literal _ rfl member
  · exact literal _ rfl member
  · exact hex_text_plain b x member
  · obtain rfl := List.mem_singleton.mp member
    refine break_below ?_
    rw [UInt8.lt_iff_toNat_lt] at control
    exact Nat.le_of_not_lt control

theorem inline_escape (b : Bytes) : Inline strict (escapeText b) := by
  refine inline_raw fun _ x member => ?_
  obtain ⟨y, _, there⟩ := List.mem_flatMap.mp member
  exact escape_byte_plain y x there

theorem inline_json_escape {cap : Nat} {b : Bytes} {t : Text} (fits : jsonEscape cap b = some t) :
    Inline strict t := by
  simp only [jsonEscape, Option.ite_none_right_eq_some] at fits
  obtain ⟨_, ⟨⟩⟩ := fits
  exact inline_escape b

theorem inline_escaped (cap : Nat) (b : Bytes) : Inline strict (escaped cap b) := by
  unfold escaped
  cases fits : jsonEscape cap b with
  | some t => exact inline_json_escape fits
  | none => exact inline_nil

theorem inline_or {b : Bytes} {chars : List Char} (plain : staysInline chars = true)
    (clean : Clean strict b) : Inline strict (orText b (String.ofList chars)) := by
  unfold orText
  split
  · exact inline_lit chars plain
  · exact inline_raw clean

section Pieces

variable {t : Text} {b : Bytes}

theorem sound_escaped {cap : Nat} (sound : Sound strict t) (mid : MidLine strict t) :
    Sound strict (t ++ escaped cap b) :=
  sound_field sound mid (inline_escaped cap b)

theorem sound_raw (sound : Sound strict t) (mid : MidLine strict t) (clean : Clean strict b) :
    Sound strict (t ++ raw b) :=
  sound_field sound mid (inline_raw clean)

theorem sound_or {chars : List Char} (sound : Sound strict t) (mid : MidLine strict t)
    (plain : staysInline chars = true) (clean : Clean strict b) :
    Sound strict (t ++ orText b (String.ofList chars)) :=
  sound_field sound mid (inline_or plain clean)

theorem sound_text {s : String} (sound : Sound strict t) : Sound strict (t ++ lit s) :=
  sound_append sound (sound_lit s)

theorem mid_text {chars : List Char} (leaves : leavesOpen chars = true) :
    MidLine strict (t ++ lit (String.ofList chars)) :=
  mid_tail (mid_lit chars leaves)

theorem sound_bool (flag : Bool) : Sound strict (boolText flag) := by
  unfold boolText
  split <;> exact sound_lit _

theorem sound_numbered {n : Int} (sound : Sound strict t) : Sound strict (t ++ number n) :=
  sound_append sound (sound_number n)

theorem sound_flagged {flag : Bool} (sound : Sound strict t) : Sound strict (t ++ boolText flag) :=
  sound_append sound (sound_bool flag)

theorem inline_gap (p : Prop) [Decidable p] {chars : List Char} (plain : staysInline chars = true) :
    Inline strict (if p then [] else lit (String.ofList chars)) := by
  split
  · exact inline_nil
  · exact inline_lit chars plain

theorem sound_comma (i : Nat) : Sound strict (comma i) := by
  unfold comma
  split
  · exact sound_nil
  · exact sound_lit _

theorem sound_flatten {pieces : List Text} (each : ∀ p ∈ pieces, Sound strict p) :
    Sound strict pieces.flatten := by
  induction pieces with
  | nil => exact sound_nil
  | cons p rest ih =>
    exact sound_append (each p List.mem_cons_self) (ih fun q member => each q (by simp [member]))

theorem sound_get {found : Option Text} (each : ∀ p, found = some p → Sound strict p) :
    Sound strict (found.getD []) := by
  cases found with
  | some p => exact each p rfl
  | none => exact sound_nil

theorem sound_append_all {cap : Nat} {buf : Text} {pieces : List Text}
    (fits : fmtAppendAll cap buf pieces = some t) (first : Sound strict buf)
    (each : ∀ p ∈ pieces, Sound strict p) : Sound strict t := by
  induction pieces generalizing buf with
  | nil =>
    cases fits
    exact first
  | cons p rest ih =>
    simp only [fmtAppendAll, fmtAppend, Option.bind_eq_some_iff,
      Option.ite_none_right_eq_some] at fits
    obtain ⟨_, ⟨_, ⟨⟩⟩, fits⟩ := fits
    exact ih fits (sound_append first (each p List.mem_cons_self))
      fun q member => each q (by simp [member])

theorem sound_json_rows {α : Type} {row : Nat → α → Text} {xs : List α} (i : Nat)
    (each : ∀ j, ∀ x ∈ xs, Sound strict (row j x)) :
    ∀ p ∈ jsonRows row i xs, Sound strict p := by
  induction xs generalizing i with
  | nil =>
    intro p member
    cases member
  | cons x rest ih =>
    intro p member
    rcases List.mem_cons.mp member with rfl | later
    · exact sound_append (sound_comma i) (each i x List.mem_cons_self)
    · exact ih (i + 1) (fun j y there => each j y (by simp [there])) p later

theorem sound_json {α : Type} {cap : Nat} {row : α → Text} {xs : List α}
    (fits : fmtJson cap row xs = some t) (each : ∀ x ∈ xs, Sound strict (row x)) :
    Sound strict t := by
  refine sound_append_all fits sound_nil fun p member => ?_
  simp only [List.cons_append, List.mem_cons, List.mem_append, List.not_mem_nil, or_false] at member
  rcases member with rfl | rows | rfl
  · exact sound_lit _
  · exact sound_json_rows 0 (fun _ => each) p rows
  · exact sound_lit _

end Pieces

attribute [local irreducible] Sound MidLine Inline Clean lit raw number orText boolText escaped
  slotText snprintf List.append

section Formats

variable {s : Session}

theorem sound_vitals (tidy : TidySession strict s) (room : Option String) :
    Sound strict (fmtVitals s room) := by
  have position := tidy.position
  unfold fmtVitals
  apply_rules [sound_or, sound_append, sound_lit, sound_number, sound_bool, mid_text]

theorem sound_affects (tidy : TidySession strict s) : Sound strict (fmtAffects s) := by
  have faction := tidy.faction
  have race := tidy.race
  unfold fmtAffects
  apply_rules [sound_or, sound_append, sound_lit, sound_number, sound_bool, mid_text]

theorem sound_slot {slot : Bytes} (clean : Clean strict slot) : Sound strict (slotText slot) := by
  unfold slotText
  split
  · exact sound_lit _
  · apply_rules [sound_snprintf, sound_raw, sound_append, sound_lit, mid_lit]

theorem sound_equipment (tidy : TidySession strict s) : Sound strict (fmtEquipment s) := by
  have weapon := sound_slot tidy.weapon
  have head := sound_slot tidy.head
  have body := sound_slot tidy.body
  have hands := sound_slot tidy.hands
  have feet := sound_slot tidy.feet
  unfold fmtEquipment
  apply_rules [sound_append, sound_lit]

theorem sound_dream {t : Text} (fits : fmtDream s = some t) : Sound strict t := by
  simp only [fmtDream, Option.bind_eq_bind, Option.bind_eq_some_iff] at fits
  obtain ⟨⟨text, subject⟩, _, esc, escapes, fits⟩ := fits
  have inline : Inline strict esc := inline_json_escape escapes
  cases subject with
  | some freed =>
    simp only [Option.bind_eq_some_iff, Option.pure_def, Option.some.injEq] at fits
    obtain ⟨subj, fitting, rfl⟩ := fits
    have named : Inline strict subj := inline_json_escape fitting
    apply_rules [sound_text, sound_field, sound_lit, mid_text, mid_lit]
  | none =>
    simp only [Option.pure_def, Option.some.injEq] at fits
    subst fits
    apply_rules [sound_text, sound_field, sound_lit, mid_lit]

theorem sound_world_state (tick : Int) (phase : String) :
    Sound strict (fmtWorldState tick phase) := by
  unfold fmtWorldState
  apply_rules [sound_append, sound_lit, sound_number]

theorem sound_combat_start (mob name : String) :
    Sound strict ((fmtCombatStart mob name).getD []) := by
  refine sound_get fun t fits => ?_
  simp only [fmtCombatStart, Option.bind_eq_bind, Option.bind_eq_some_iff, Option.pure_def,
    Option.some.injEq] at fits
  obtain ⟨id, first, named, second, rfl⟩ := fits
  have opened : Inline strict id := inline_json_escape first
  have closed : Inline strict named := inline_json_escape second
  apply_rules [sound_text, sound_field, sound_lit, mid_text, mid_lit]

theorem sound_combat_round (mob : String) (mobHp mobMax playerDmg mobDmg hp : Int) :
    Sound strict (fmtCombatRound mob mobHp mobMax playerDmg mobDmg hp) := by
  unfold fmtCombatRound
  apply_rules [sound_append, sound_lit, sound_number]

theorem sound_combat_end (mob result : String) : Sound strict (fmtCombatEnd mob result) := by
  unfold fmtCombatEnd
  apply_rules [sound_append, sound_lit]

theorem sound_char_died (room : String) (hp maxHp : Int) :
    Sound strict (fmtCharDied room hp maxHp) := by
  unfold fmtCharDied
  apply_rules [sound_append, sound_lit, sound_number]

theorem sound_recharging (name : String) (seconds : Int) :
    Sound strict (fmtAbilityRecharging name seconds) := by
  unfold fmtAbilityRecharging
  apply_rules [sound_append, sound_lit, sound_number]

theorem sound_attack_miss {target : Ptr} (clean : Clean strict (target.getD []))
    (suggestion : Option String) : Sound strict (fmtAttackMiss target suggestion) := by
  cases suggestion with
  | some s =>
    unfold fmtAttackMiss
    apply_rules [sound_text, sound_or, sound_lit, mid_lit]
  | none =>
    unfold fmtAttackMiss
    apply_rules [sound_text, sound_lit]

end Formats

section Rooms

/-- The texts of a room are the server's own. -/
structure SoundRoom (strict : Prop) (r : Room) : Prop where
  desc : Sound strict r.desc
  mobs : Sound strict r.mobs
  actions : Sound strict r.actions

theorem sound_rooms : ∀ r ∈ rooms, SoundRoom strict r := by
  have none_here : Sound strict emptyActions := sound_lit _
  have nobody : Sound strict emptyMobs := sound_lit _
  have rat : Sound strict ratMobs := sound_lit _
  have leech : Sound strict leechMobs := sound_lit _
  have raider : Sound strict raiderMobs := sound_lit _
  have trooper : Sound strict trooperMobs := sound_lit _
  have ashmonger : Sound strict ashmongerMobs := sound_lit _
  have custodian : Sound strict custodianMobs := sound_lit _
  have nexus : Sound strict actionsNexus := by
    unfold actionsNexus
    apply_rules [sound_text, sound_lit]
  have tunnels : Sound strict actionsTunnels := by
    unfold actionsTunnels
    apply_rules [sound_text, sound_lit]
  have market : Sound strict actionsMarket := by
    unfold actionsMarket
    apply_rules [sound_text, sound_lit]
  have tavern : Sound strict actionsTavern := by
    unfold actionsTavern
    apply_rules [sound_text, sound_lit]
  have lock : Sound strict actionsLock := by
    unfold actionsLock
    apply_rules [sound_text, sound_lit]
  have repeater : Sound strict actionsRepeater := by
    unfold actionsRepeater
    apply_rules [sound_text, sound_lit]
  simp only [rooms, List.forall_mem_cons, List.not_mem_nil, false_implies, implies_true, and_true]
  repeat' apply And.intro
  all_goals apply_rules [SoundRoom.mk, sound_text, sound_lit]

theorem sound_room_field {field : Room → Text} (each : ∀ r ∈ rooms, Sound strict (field r))
    (room : Int) (fallback : Text) (otherwise : Sound strict fallback) :
    Sound strict (((room? room).map field).getD fallback) := by
  cases found : room? room with
  | none => exact otherwise
  | some r =>
    refine each r ?_
    unfold room? at found
    split at found
    · exact List.mem_of_getElem? found
    · cases found

theorem sound_room_desc (room : Int) : Sound strict ((roomDesc room).getD []) :=
  sound_room_field (fun r member => (sound_rooms r member).desc) room [] sound_nil

theorem sound_room_actions (room : Int) : Sound strict ((roomActions room).getD (lit "[]")) :=
  sound_room_field (fun r member => (sound_rooms r member).actions) room _ (sound_lit _)

theorem sound_live_mobs (w : World) (room : Int) :
    Sound strict ((roomLiveMobs w room).getD (lit "[]")) := by
  unfold roomLiveMobs
  split
  · exact sound_lit _
  · exact sound_room_field (fun r member => (sound_rooms r member).mobs) room _ (sound_lit _)

theorem sound_scene (room : Int) : Sound strict (sceneProse room) := by
  have desc : Sound strict ((roomDesc room).getD []) := sound_room_desc room
  unfold sceneProse
  apply_rules [sound_append, sound_lit]

theorem sound_room_info {players : Text} (room : Int) (w : World) (sound : Sound strict players) :
    Sound strict (fmtRoomInfo room (roomLiveMobs w room) players) := by
  have mobs : Sound strict ((roomLiveMobs w room).getD (lit "[]")) := sound_live_mobs w room
  unfold fmtRoomInfo
  apply_rules [sound_append, sound_lit]

theorem sound_add_action {cap : Nat} {buf frag next : Text}
    (fits : addAction cap buf frag = some next) (sound : Sound strict buf)
    (piece : Sound strict frag) : Sound strict next := by
  unfold addAction at fits
  split_ifs at fits
  · cases fits
    exact sound_append sound piece
  · cases fits
    exact sound_append (sound_text sound) piece

theorem sound_add_actions {cap : Nat} {buf t : Text} {frags : List Text}
    (fits : addActions cap buf frags = some t) (sound : Sound strict buf)
    (each : ∀ frag ∈ frags, Sound strict frag) : Sound strict t := by
  induction frags generalizing buf with
  | nil =>
    simp only [addActions, Option.ite_none_left_eq_some, Option.some.injEq] at fits
    obtain ⟨_, rfl⟩ := fits
    exact sound_text sound
  | cons frag rest ih =>
    simp only [addActions, Option.bind_eq_some_iff] at fits
    obtain ⟨next, added, fits⟩ := fits
    exact ih fits (sound_add_action added sound (each frag List.mem_cons_self))
      fun other member => each other (by simp [member])

theorem sound_market_actions (s : Session) : ∀ frag ∈ marketActions s, Sound strict frag := by
  have defend : Sound strict actionDefend := sound_append (sound_lit _) (sound_lit _)
  have grave : Sound strict actionJoinGrave := sound_append (sound_lit _) (sound_lit _)
  have corrupt : Sound strict actionJoinCorrupt := sound_append (sound_lit _) (sound_lit _)
  have sell : Sound strict actionSell := sound_lit _
  have steal : Sound strict actionSteal := sound_append (sound_lit _) (sound_lit _)
  intro frag member
  simp only [marketActions, List.mem_append, List.mem_singleton] at member
  rcases member with (moral | trade) | rfl
  · split at moral
    · cases moral
    · rcases List.mem_pair.mp moral with rfl | rfl
      · exact defend
      · split <;> assumption
  · split at trade
    · cases trade
    · obtain rfl := List.mem_singleton.mp trade
      exact sell
  · exact steal

theorem sound_dais_actions (s : Session) : ∀ frag ∈ daisActions s, Sound strict frag := by
  have defy : Sound strict actionDefy := sound_append (sound_lit _) (sound_lit _)
  have talk : Sound strict actionTalk := sound_lit _
  have kneel : Sound strict actionKneel := sound_append (sound_lit _) (sound_lit _)
  have pledge : Sound strict actionPledge := sound_append (sound_lit _) (sound_lit _)
  intro frag member
  unfold daisActions at member
  split_ifs at member
  · rcases List.mem_pair.mp member with rfl | rfl <;> assumption
  · obtain rfl := List.mem_singleton.mp member
    exact talk
  · rcases List.mem_pair.mp member with rfl | rfl <;> assumption
  · rcases List.mem_pair.mp member with rfl | rfl <;> assumption

theorem sound_actions {s : Session} {cap : Nat} {t : Text} (fits : actionsJsonFor s cap = some t) :
    Sound strict t := by
  unfold actionsJsonFor at fits
  split_ifs at fits
  · exact sound_add_actions fits (sound_lit _) (sound_market_actions s)
  · cases fits
    unfold actionTavern
    apply_rules [sound_text, sound_lit]
  · exact sound_add_actions fits (sound_lit _) (sound_dais_actions s)
  · cases fits
    exact sound_lit _

theorem sound_menu (s : Session) : Sound strict (menuJson s) := by
  unfold menuJson
  split
  · rename_i menu fits
    split
    · exact sound_room_actions s.room
    · exact sound_actions fits
  · exact sound_room_actions s.room

theorem sound_room_menu (s : Session) : Sound strict (fmtRoomActions (menuJson s)) := by
  have menu : Sound strict (menuJson s) := sound_menu s
  unfold fmtRoomActions
  apply_rules [sound_append, sound_lit]

end Rooms

section Quotes

variable {s : Session}

structure CleanIdentity (strict : Prop) (i : Identity) : Prop where
  faction : Clean strict i.faction
  title : Clean strict i.title
  race : Clean strict i.race

theorem sound_identity {name : Bytes} {i : Identity} (named : Clean strict name)
    (clean : CleanIdentity strict i) : Sound strict (fmtCharIdentity name i) := by
  obtain ⟨faction, title, race⟩ := clean
  have gap : Inline strict (if i.title = [] then [] else lit " ") := inline_gap _ rfl
  unfold fmtCharIdentity
  -- The event line first, then the prose in front of it.
  apply_rules [sound_text, sound_numbered, sound_flagged, sound_escaped, mid_text]
  all_goals apply_rules [sound_text, sound_numbered, sound_or, sound_raw, sound_field, sound_lit,
    mid_text, mid_lit, mid_field, inline_or]

theorem sound_travel_missing {target : Bytes} (clean : Clean strict target) :
    Sound strict (fmtGridTravelMissing target) := by
  unfold fmtGridTravelMissing
  apply_rules [sound_text, sound_raw, sound_lit, mid_lit]

theorem sound_travel_here {world : Bytes} (clean : Clean strict world) :
    Sound strict (fmtGridTravelHere world) := by
  unfold fmtGridTravelHere
  apply_rules [sound_text, sound_raw, sound_lit, mid_lit]

structure CleanWorld (strict : Prop) (row : WorldRow) : Prop where
  id : Clean strict row.id
  url : Clean strict row.url

theorem sound_handoff {row : WorldRow} (clean : CleanWorld strict row) :
    Sound strict (handoffText row) := by
  obtain ⟨id, url⟩ := clean
  unfold handoffText fmtGridTravelHandoff
  apply_rules [sound_text, sound_escaped, sound_raw, sound_lit, mid_text, mid_lit]

theorem sound_world_json (w : WorldTags) : Sound strict (worldJson w) := by
  unfold worldJson
  apply_rules [sound_text, sound_numbered, sound_flagged, sound_escaped, sound_lit, mid_lit]

theorem sound_worlds {cap : Nat} {worlds : List WorldTags}
    (clean : ∀ w ∈ worlds, CleanWorld strict w.row) :
    Sound strict ((fmtGridWorlds cap worlds).getD []) := by
  refine sound_get fun t fits => ?_
  simp only [fmtGridWorlds, Option.bind_eq_bind, Option.bind_eq_some_iff] at fits
  obtain ⟨json, made, fits⟩ := fits
  have rows : Sound strict json := sound_json made fun w _ => sound_world_json w
  refine sound_append_all fits sound_nil fun p member => ?_
  rcases List.mem_append.mp member with front | tail
  · rcases List.mem_cons.mp front with rfl | listed
    · apply_rules [sound_text, sound_lit]
    · obtain ⟨w, there, rfl⟩ := List.mem_map.mp listed
      have id := (clean w there).id
      apply_rules [sound_text, sound_raw, sound_lit, mid_lit]
  · obtain rfl := List.mem_singleton.mp tail
    apply_rules [sound_append, sound_lit]

theorem sound_listen_head : Sound strict listenHead := by
  unfold listenHead
  apply_rules [sound_text, sound_lit]

theorem mid_listen_head : MidLine strict listenHead := mid_text rfl

theorem sound_transmission {esc : Text} (kind : String) (inline : Inline strict esc) :
    Sound strict (transmission kind esc) := by
  unfold transmission
  apply_rules [sound_text, sound_field, sound_lit, mid_text]

theorem sound_listen_echo {text : Bytes} (clean : Clean strict text) :
    Sound strict (fmtGridListenEcho text) := by
  have tail : Sound strict (transmission "echo" (escaped 220 text)) :=
    sound_transmission "echo" (inline_escaped 220 text)
  have head : Sound strict listenHead := sound_listen_head
  have mid : MidLine strict listenHead := mid_listen_head
  unfold fmtGridListenEcho
  apply_rules [sound_text, sound_raw, sound_append]

theorem sound_listen_trace {cap : Nat} {text world selfWorld : Bytes} (clean : Clean strict text)
    (known : Clean strict world) :
    Sound strict ((fmtGridListenTrace cap text world selfWorld).getD []) := by
  have head : Sound strict listenHead := sound_listen_head
  have mid : MidLine strict listenHead := mid_listen_head
  refine sound_get fun t fits => sound_append_all fits sound_nil fun p member => ?_
  simp only [List.mem_append, List.mem_singleton] at member
  rcases member with (rfl | there) | rfl
  · apply_rules [sound_text, sound_raw]
  · split at there
    · obtain rfl := List.mem_singleton.mp there
      apply_rules [sound_text, sound_raw, sound_lit, mid_lit]
    · cases there
  · exact sound_transmission "echo" (inline_escaped 220 text)

theorem sound_listen_empty : Sound strict fmtGridListenEmpty := by
  have tail : Sound strict (transmission "empty" []) := sound_transmission "empty" inline_nil
  unfold fmtGridListenEmpty
  apply_rules [sound_append, sound_lit]

theorem sound_echo_json (t : Trace) : Sound strict (echoJson t) := by
  unfold echoJson
  apply_rules [sound_text, sound_numbered, sound_escaped, sound_lit, mid_text, mid_lit]

theorem sound_trace_json (t : Trace) : Sound strict (traceJson t) := by
  unfold traceJson
  apply_rules [sound_text, sound_numbered, sound_escaped, sound_lit, mid_text, mid_lit]

theorem sound_ping_echo {cap : Nat} {room : Option String} {echoes : List Trace}
    (tidy : ∀ t ∈ echoes, TidyTrace strict t) :
    Sound strict ((fmtGridPingEcho cap room echoes).getD []) := by
  refine sound_get fun t fits => ?_
  simp only [fmtGridPingEcho, Option.bind_eq_bind, Option.bind_eq_some_iff] at fits
  obtain ⟨json, made, fits⟩ := fits
  have rows : Sound strict json := sound_json made fun t _ => sound_echo_json t
  refine sound_append_all fits sound_nil fun p member => ?_
  rcases List.mem_append.mp member with front | tail
  · split at front
    · obtain rfl := List.mem_singleton.mp front
      apply_rules [sound_text, sound_lit]
    · simp only [List.cons_append, List.mem_cons, List.mem_append, List.mem_map,
        List.not_mem_nil, or_false] at front
      rcases front with rfl | ⟨t, there, rfl⟩ | rfl
      · apply_rules [sound_text, sound_lit]
      · have text := (tidy t there).text
        apply_rules [sound_text, sound_raw, sound_lit, mid_lit]
      · apply_rules [sound_text, sound_lit]
  · obtain rfl := List.mem_singleton.mp tail
    have named : Sound strict
        (lit r#"@event grid.echo {"node":""# ++ escaped 80 (str (room.getD ""))) :=
      sound_escaped (sound_lit _) (mid_lit _ rfl)
    apply_rules [sound_append, sound_lit]

theorem sound_ping_all {cap : Nat} {traces : List Trace}
    (tidy : ∀ t ∈ traces, TidyTrace strict t) :
    Sound strict ((fmtGridPingAll cap traces).getD []) := by
  refine sound_get fun t fits => ?_
  unfold fmtGridPingAll at fits
  split at fits
  · cases fits
    apply_rules [sound_text, sound_lit]
  · simp only [Option.bind_eq_bind, Option.bind_eq_some_iff] at fits
    obtain ⟨json, made, fits⟩ := fits
    have rows : Sound strict json := sound_json made fun t _ => sound_trace_json t
    refine sound_append_all fits sound_nil fun p member => ?_
    simp only [List.cons_append, List.mem_cons, List.mem_append, List.mem_map,
      List.not_mem_nil, or_false] at member
    rcases member with rfl | ⟨t, there, rfl⟩ | rfl
    · apply_rules [sound_text, sound_lit]
    · have text := (tidy t there).text
      have world := (tidy t there).world
      apply_rules [sound_text, sound_raw, sound_lit, mid_text, mid_lit]
    · apply_rules [sound_append, sound_lit]

end Quotes

section Players

variable {s : Session}

theorem sound_player_row {t : Text} (fits : playerRow s = some t) : Sound strict t := by
  simp only [playerRow, Option.bind_eq_bind, Option.bind_eq_some_iff, Option.pure_def,
    Option.some.injEq] at fits
  obtain ⟨name, first, standing, second, rfl⟩ := fits
  have named : Inline strict name := inline_json_escape first
  have brand : Inline strict standing := inline_json_escape second
  apply_rules [sound_text, sound_field, sound_lit, mid_text, mid_lit]

theorem sound_players (sessions : List Session) (room : Int) (except : Bytes) (cap : Nat) :
    Sound strict (playersJson sessions room except cap) := by
  unfold playersJson
  simp only
  generalize sessions.filter _ = here
  cases fits : fmtJson cap id (here.filterMap playerRow) with
  | none => exact sound_lit _
  | some t =>
    refine sound_json fits fun row member => ?_
    obtain ⟨_, _, made⟩ := List.mem_filterMap.mp member
    exact sound_player_row made

theorem sound_who_append {cap : Nat} {buf : Text} {rows : List Text} (sound : Sound strict buf)
    (each : ∀ row ∈ rows, Sound strict row) : Sound strict (whoAppend cap buf rows) := by
  induction rows generalizing buf with
  | nil => exact sound
  | cons row rest ih =>
    have piece : Sound strict ((if buf.length = 1 then [] else lit ",") ++ row) := by
      refine sound_append ?_ (each row List.mem_cons_self)
      split
      · exact sound_nil
      · exact sound_lit _
    unfold whoAppend
    generalize (if buf.length = 1 then [] else lit ",") ++ row = joined at piece ⊢
    simp only
    split
    · exact ih (sound_append sound piece) fun other member => each other (by simp [member])
    · exact sound

theorem sound_who_json (here : Bool) {world name regard title : Text} (w : Inline strict world)
    (n : Inline strict name) (r : Inline strict regard) (t : Inline strict title) :
    Sound strict (whoJson here world name regard title) := by
  unfold whoJson
  apply_rules [sound_text, sound_flagged, sound_field, sound_lit, mid_text, mid_lit]

theorem sound_who_local {env : Env} {t : Text} (fits : whoLocal env s = some t) :
    Sound strict t := by
  unfold whoLocal at fits
  split at fits
  · cases fits
  · simp only [Option.bind_eq_bind, Option.bind_eq_some_iff, Option.pure_def,
      Option.some.injEq] at fits
    obtain ⟨name, n, title, t, regard, r, world, w, rfl⟩ := fits
    exact sound_who_json true (inline_json_escape w) (inline_json_escape n)
      (inline_json_escape r) (inline_json_escape t)

theorem sound_who_remote {env : Env} {row : PresenceRow} {t : Text}
    (fits : whoRemote env row = some t) : Sound strict t := by
  unfold whoRemote at fits
  split at fits
  · cases fits
  · simp only [Option.bind_eq_bind, Option.bind_eq_some_iff, Option.pure_def,
      Option.some.injEq] at fits
    obtain ⟨name, n, title, t, regard, r, world, w, rfl⟩ := fits
    exact sound_who_json false (inline_json_escape w) (inline_json_escape n)
      (inline_json_escape r) (inline_json_escape t)

theorem sound_who (env : Env) (sessions : List (Block × Session)) (rows : List PresenceRow) :
    Sound strict (whoAppend 2048 (whoAppend 2048 (lit "[")
      (sessions.filterMap fun d => whoLocal env d.2)) (rows.filterMap (whoRemote env))) := by
  refine sound_who_append (sound_who_append (sound_lit _) fun row member => ?_) fun row member => ?_
  · obtain ⟨_, _, made⟩ := List.mem_filterMap.mp member
    exact sound_who_local made
  · obtain ⟨_, _, made⟩ := List.mem_filterMap.mp member
    exact sound_who_remote made

theorem sound_gridcast (env : Env) (self text : Bytes) :
    Sound strict (commGridcast env self text) := by
  unfold commGridcast
  apply_rules [sound_text, sound_escaped, sound_lit, mid_text, mid_lit]

theorem sound_rescued_json (row : Fallen) : Sound strict (rescuedJson row) := by
  unfold rescuedJson
  apply_rules [sound_text, sound_numbered, sound_escaped, sound_lit, mid_text, mid_lit]

theorem sound_fallen_json (row : Fallen) : Sound strict (fallenJson row) := by
  unfold fallenJson
  apply_rules [sound_text, sound_numbered, sound_escaped, sound_lit, mid_text, mid_lit]

theorem sound_kind_json (row : Bytes × Int) : Sound strict (kindJson row) := by
  unfold kindJson
  apply_rules [sound_text, sound_numbered, sound_escaped, sound_lit, mid_lit]

theorem sound_kind_line {row : Bytes × Int} (clean : Clean strict row.1) :
    Sound strict (kindLine row) := by
  have kind : Clean strict (row.1.take 32) := clean_take 32 clean
  have padding : Sound strict
      (List.replicate (10 - (row.1.take 32).length) (⟨space, .server⟩ : Cell)) := by
    refine sound_server fun cell member => ?_
    rw [List.eq_of_mem_replicate member]
  unfold kindLine
  apply_rules [sound_text, sound_numbered, sound_raw, sound_append, sound_lit, mid_lit]

theorem sound_forgiven (by_name : Bytes) (ashsworn redeemed : Bool) :
    Sound strict (charForgiven by_name ashsworn redeemed) := by
  unfold charForgiven
  apply_rules [sound_text, sound_flagged, sound_escaped, sound_lit, mid_lit]

theorem sound_redemption (name title : Bytes) : Sound strict (gridRedemption name title) := by
  unfold gridRedemption
  apply_rules [sound_text, sound_escaped, sound_lit, mid_text, mid_lit]

theorem sound_inventory_loop {buf : Text} {first : Bool} {items : List Bytes}
    (sound : Sound strict buf) (mid : MidLine strict buf)
    (clean : ∀ item ∈ items, Clean strict item) :
    Sound strict (inventoryLoop buf first items) := by
  induction items generalizing buf first with
  | nil => exact sound
  | cons item rest ih =>
    have gap : Inline strict (if first then [] else lit ", ") := inline_gap _ rfl
    have here : Clean strict item := clean item List.mem_cons_self
    have later : ∀ other ∈ rest, Clean strict other :=
      fun other member => clean other (by simp [member])
    unfold inventoryLoop
    split
    · exact sound
    · refine ih ?_ ?_ later <;> clear clean later
      · apply_rules [sound_raw, sound_field, mid_field]
      · apply_rules [mid_field, inline_raw]

theorem sound_inventory {items : List Bytes} (clean : ∀ item ∈ items, Clean strict item) :
    Sound strict (inventoryText items) := by
  have buf : Sound strict (inventoryLoop (lit "You carry: ") true items) :=
    sound_inventory_loop (sound_lit _) (mid_lit _ rfl) clean
  unfold inventoryText
  simp only
  split
  · exact buf
  · apply_rules [sound_text]

theorem sound_tell_evt (kind : String) {name text : Text} (n : Inline strict name)
    (t : Inline strict text) : Sound strict (tellEvt kind name text) := by
  unfold tellEvt
  apply_rules [sound_text, sound_field, sound_lit, mid_text]

theorem sound_look_line (tidy : TidySession strict s) : Sound strict (lookLine s) := by
  have named : Sound strict (raw s.name) := sound_name tidy.name
  have title := tidy.title
  have brand : Clean strict (brandStanding s) := by
    unfold brandStanding
    split_ifs <;> first | exact clean_str _ rfl | exact clean_nil
  unfold lookLine
  simp only
  split_ifs
  · apply_rules [sound_text]
  · apply_rules [sound_text, sound_raw, mid_text]
  · apply_rules [sound_text, sound_raw, mid_text]

theorem sound_look_evt (t : Session) : Sound strict (lookEvt t) := by
  unfold lookEvt
  apply_rules [sound_text, sound_flagged, sound_escaped, sound_lit, mid_text, mid_lit]

theorem sound_deed_kv (i : Nat) (kind : Deed) (n : Int) : Sound strict (deedKv i kind n) := by
  unfold deedKv
  apply_rules [sound_text, sound_numbered, sound_append, sound_lit, sound_comma]

theorem sound_deeds {buf : Text} {i : Nat} {rows : List (Deed × Int)} (sound : Sound strict buf) :
    Sound strict (deedsJson buf i rows) := by
  induction rows generalizing buf i with
  | nil => exact sound_text sound
  | cons row rest ih =>
    obtain ⟨kind, n⟩ := row
    exact ih (sound_take 620 (sound_append sound (sound_deed_kv i kind n)))

theorem sound_standing (s : Session) : Sound strict (standingLine s) := by
  unfold standingLine
  refine sound_append ?_ ?_
  · apply_rules [sound_text, sound_numbered, sound_lit]
  · split
    · exact sound_lit _
    · exact sound_nil

theorem sound_reckoning {deeds : Text} (sound : Sound strict deeds) :
    Sound strict (reckoningEvt s deeds) := by
  unfold reckoningEvt
  apply_rules [sound_text, sound_numbered, sound_flagged, sound_escaped, sound_append, sound_lit,
    sound_number, mid_text]

theorem sound_arc (s : Session) : ∀ t ∈ (reckoningArc s).toList, Sound strict t := by
  intro t member
  unfold reckoningArc at member
  split_ifs at member
  · obtain rfl := List.mem_singleton.mp member
    exact sound_append (sound_lit _) (sound_lit _)
  · obtain rfl := List.mem_singleton.mp member
    exact sound_lit _
  · obtain rfl := List.mem_singleton.mp member
    exact sound_append (sound_lit _) (sound_lit _)
  · cases member

theorem sound_rescued_two (name : Bytes) (first second : String) :
    Sound strict (rescuedTwo name first second) := by
  unfold rescuedTwo
  apply_rules [sound_text, sound_escaped, sound_lit, mid_lit]

theorem sound_rescued_one (name : Bytes) (freed : String) :
    Sound strict (rescuedOne name freed) := by
  unfold rescuedOne
  apply_rules [sound_text, sound_escaped, sound_lit, mid_text, mid_lit]

theorem sound_remembrance (row : Fallen) : Sound strict (remembranceEvt row) := by
  unfold remembranceEvt
  apply_rules [sound_text, sound_escaped, sound_lit, mid_text, mid_lit]

end Players

end HollowGrid
