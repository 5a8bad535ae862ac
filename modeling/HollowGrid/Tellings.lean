import HollowGrid.Phases

/-! The texts of the server, none of which starts a world.state event. -/
namespace HollowGrid

theorem lit_none : lit "" = [] := rfl

attribute [local irreducible] Tame Eventless Unmarked lit raw number orText boolText escaped
  slotText snprintf List.append

variable {t : Text} {s : Session}

section Rooms

structure EventlessRoom (r : Room) : Prop where
  id : Eventless (lit r.id)
  name : Tame (lit r.name)
  desc : Eventless r.desc
  exits : Eventless (lit r.exits)
  mobs : Eventless r.mobs
  actions : Eventless r.actions

theorem eventless_rooms : ∀ r ∈ rooms, EventlessRoom r := by
  have none_here : Eventless emptyActions := eventless_lit _ rfl
  have nobody : Eventless emptyMobs := eventless_lit _ rfl
  have rat : Eventless ratMobs := eventless_lit _ rfl
  have leech : Eventless leechMobs := eventless_lit _ rfl
  have raider : Eventless raiderMobs := eventless_lit _ rfl
  have trooper : Eventless trooperMobs := eventless_lit _ rfl
  have ashmonger : Eventless ashmongerMobs := eventless_lit _ rfl
  have custodian : Eventless custodianMobs := eventless_lit _ rfl
  have nexus : Eventless actionsNexus := by
    unfold actionsNexus
    apply_rules [eventless_append, eventless_lit]
  have tunnels : Eventless actionsTunnels := by
    unfold actionsTunnels
    apply_rules [eventless_append, eventless_lit]
  have market : Eventless actionsMarket := by
    unfold actionsMarket
    apply_rules [eventless_append, eventless_lit]
  have tavern : Eventless actionsTavern := by
    unfold actionsTavern
    apply_rules [eventless_append, eventless_lit]
  have lock : Eventless actionsLock := by
    unfold actionsLock
    apply_rules [eventless_append, eventless_lit]
  have repeater : Eventless actionsRepeater := by
    unfold actionsRepeater
    apply_rules [eventless_append, eventless_lit]
  simp only [rooms, List.forall_mem_cons, List.not_mem_nil, false_implies, implies_true, and_true]
  repeat' apply And.intro
  all_goals apply_rules [EventlessRoom.mk, eventless_append, eventless_lit, tame_lit]

theorem room_cases (room : Int) : room? room = none ∨ ∃ r ∈ rooms, room? room = some r := by
  cases found : room? room with
  | none => exact .inl rfl
  | some r =>
    refine .inr ⟨r, ?_, rfl⟩
    unfold room? at found
    split at found
    · exact List.mem_of_getElem? found
    · cases found

theorem eventless_field {field : Room → Text} (each : ∀ r ∈ rooms, Eventless (field r))
    (room : Int) {fallback : Text} (otherwise : Eventless fallback) :
    Eventless (((room? room).map field).getD fallback) := by
  obtain none | ⟨r, member, found⟩ := room_cases room
  · rwa [none]
  · rw [found]
    exact each r member

theorem eventless_word {field : Room → String} (each : ∀ r ∈ rooms, Eventless (lit (field r)))
    (room : Int) {fallback : String} (otherwise : Eventless (lit fallback)) :
    Eventless (lit (((room? room).map field).getD fallback)) := by
  obtain none | ⟨r, member, found⟩ := room_cases room
  · rwa [none]
  · rw [found]
    exact each r member

theorem eventless_mobs (w : World) (room : Int) :
    Eventless ((roomLiveMobs w room).getD (lit "[]")) := by
  unfold roomLiveMobs
  split
  · exact eventless_lit _ rfl
  · exact eventless_field (fun r member => (eventless_rooms r member).mobs) room
      (eventless_lit _ rfl)

theorem eventless_room_actions (room : Int) : Eventless ((roomActions room).getD (lit "[]")) :=
  eventless_field (fun r member => (eventless_rooms r member).actions) room (eventless_lit _ rfl)

theorem eventless_exits (room : Int) {chars : List Char}
    (shut : everyTail (parts headChars) chars = true) :
    Eventless (lit ((roomExits room).getD (String.ofList chars))) :=
  eventless_word (fun r member => (eventless_rooms r member).exits) room (eventless_lit _ shut)

theorem tame_scene (room : Int) : Tame (sceneProse room) := by
  have desc : Eventless ((roomDesc room).getD []) :=
    eventless_field (fun r member => (eventless_rooms r member).desc) room eventless_nil
  have name : Tame (lit ((roomName room).getD "") ++ crlf) := by
    unfold roomName
    obtain none | ⟨r, member, found⟩ := room_cases room
    · rw [none, Option.map_none, Option.getD_none, lit_none, List.nil_append]
      exact tame_lit _ rfl
    · rw [found]
      exact tame_append (eventless_rooms r member).name (eventless_lit _ rfl)
  unfold sceneProse
  apply_rules [tame_append, eventless_lit]

theorem tame_room_info {players : Text} (room : Int) (w : World) (others : Eventless players) :
    Tame (fmtRoomInfo room (roomLiveMobs w room) players) := by
  have mobs := eventless_mobs w room
  have id : Eventless (lit ((roomId room).getD "")) :=
    eventless_word (fun r member => (eventless_rooms r member).id) room (eventless_lit [] rfl)
  have name : Eventless (lit ((roomName room).getD "")) :=
    eventless_word (fun r member => tame_eventless (eventless_rooms r member).name) room
      (eventless_lit [] rfl)
  have exits := @eventless_exits room ['[', ']'] rfl
  unfold fmtRoomInfo
  apply_rules [tame_append, tame_lit, eventless_lit]

theorem eventless_add {cap : Nat} {buf frag next : Text}
    (fits : addAction cap buf frag = some next) (before : Eventless buf)
    (piece : Eventless frag) : Eventless next := by
  unfold addAction at fits
  split_ifs at fits
  · cases fits
    exact eventless_append before piece
  · cases fits
    exact eventless_append (eventless_append before (eventless_lit _ rfl)) piece

theorem eventless_adds {cap : Nat} {buf : Text} {frags : List Text}
    (fits : addActions cap buf frags = some t) (before : Eventless buf)
    (each : ∀ frag ∈ frags, Eventless frag) : Eventless t := by
  induction frags generalizing buf with
  | nil =>
    simp only [addActions, Option.ite_none_left_eq_some, Option.some.injEq] at fits
    obtain ⟨_, rfl⟩ := fits
    exact eventless_append before (eventless_lit _ rfl)
  | cons frag rest ih =>
    simp only [addActions, Option.bind_eq_some_iff] at fits
    obtain ⟨next, added, fits⟩ := fits
    exact ih fits (eventless_add added before (each frag List.mem_cons_self))
      fun other member => each other (by simp [member])

theorem eventless_market (s : Session) : ∀ frag ∈ marketActions s, Eventless frag := by
  have defend : Eventless actionDefend := by
    unfold actionDefend
    apply_rules [eventless_append, eventless_lit]
  have grave : Eventless actionJoinGrave := by
    unfold actionJoinGrave
    apply_rules [eventless_append, eventless_lit]
  have corrupt : Eventless actionJoinCorrupt := by
    unfold actionJoinCorrupt
    apply_rules [eventless_append, eventless_lit]
  have sell : Eventless actionSell := eventless_lit _ rfl
  have steal : Eventless actionSteal := by
    unfold actionSteal
    apply_rules [eventless_append, eventless_lit]
  intro frag member
  unfold marketActions at member
  split_ifs at member <;> simp at member <;> rcases member with rfl | rfl | rfl | rfl <;> assumption

theorem eventless_dais (s : Session) : ∀ frag ∈ daisActions s, Eventless frag := by
  have defy : Eventless actionDefy := by
    unfold actionDefy
    apply_rules [eventless_append, eventless_lit]
  have talk : Eventless actionTalk := eventless_lit _ rfl
  have kneel : Eventless actionKneel := by
    unfold actionKneel
    apply_rules [eventless_append, eventless_lit]
  have pledge : Eventless actionPledge := by
    unfold actionPledge
    apply_rules [eventless_append, eventless_lit]
  intro frag member
  unfold daisActions at member
  split_ifs at member <;> simp at member <;> rcases member with rfl | rfl <;> assumption

theorem eventless_actions {cap : Nat} (fits : actionsJsonFor s cap = some t) : Eventless t := by
  unfold actionsJsonFor at fits
  split_ifs at fits
  · exact eventless_adds fits (eventless_lit _ rfl) (eventless_market s)
  · cases fits
    unfold actionTavern
    apply_rules [eventless_append, eventless_lit]
  · exact eventless_adds fits (eventless_lit _ rfl) (eventless_dais s)
  · cases fits
    exact eventless_lit _ rfl

theorem tame_menu (s : Session) : Tame (fmtRoomActions (menuJson s)) := by
  have menu : Eventless (menuJson s) := by
    unfold menuJson
    split
    · rename_i menu fits
      split
      · exact eventless_room_actions s.room
      · exact eventless_actions fits
    · exact eventless_room_actions s.room
  unfold fmtRoomActions
  apply_rules [tame_append, tame_lit, eventless_lit]

end Rooms

section Events

theorem tame_vitals (s : Session) : Tame (fmtVitals s (roomId s.room)) := by
  have room : Eventless (lit ((roomId s.room).getD "nexus")) :=
    eventless_word (fun r member => (eventless_rooms r member).id) s.room (eventless_lit _ rfl)
  unfold fmtVitals
  apply_rules [tame_append, tame_lit]
  all_goals apply_rules [eventless_number, eventless_or, eventless_lit, eventless_bool]

theorem tame_affects (s : Session) : Tame (fmtAffects s) := by
  unfold fmtAffects
  apply_rules [tame_append, tame_lit, eventless_number, eventless_or, eventless_lit,
    eventless_bool]

theorem eventless_slot (slot : Bytes) : Eventless (slotText slot) := by
  refine unmarked_eventless ?_
  unfold slotText
  split
  · exact unmarked_lit _ rfl
  · apply_rules [unmarked_snprintf, unmarked_append, unmarked_lit, unmarked_raw]

theorem tame_equipment (s : Session) : Tame (fmtEquipment s) := by
  unfold fmtEquipment
  apply_rules [tame_append, tame_lit, eventless_slot, eventless_lit]

theorem adds_dream (s : Session) : Adds ((fmtDream s).getD []) := by
  refine adds_get fun t fits => ?_
  simp only [fmtDream, Option.bind_eq_bind, Option.bind_eq_some_iff] at fits
  obtain ⟨⟨text, subject⟩, _, esc, escapes, fits⟩ := fits
  have quoted := eventless_escape escapes
  cases subject with
  | some freed =>
    simp only [Option.bind_eq_some_iff, Option.pure_def, Option.some.injEq] at fits
    obtain ⟨subj, fitting, rfl⟩ := fits
    have named := eventless_escape fitting
    apply_rules [tame_append, tame_lit, eventless_lit]
  | none =>
    simp only [Option.pure_def, Option.some.injEq] at fits
    subst fits
    apply_rules [tame_append, tame_lit, eventless_lit]

theorem adds_combat_start (mob name : String) : Adds ((fmtCombatStart mob name).getD []) := by
  refine adds_get fun t fits => ?_
  simp only [fmtCombatStart, Option.bind_eq_bind, Option.bind_eq_some_iff, Option.pure_def,
    Option.some.injEq] at fits
  obtain ⟨id, first, named, second, rfl⟩ := fits
  have opened := eventless_escape first
  have closed := eventless_escape second
  apply_rules [tame_append, tame_lit, eventless_lit]

theorem tame_combat_round (mobHp mobMax playerDmg mobDmg hp : Int) :
    Tame (fmtCombatRound "rat" mobHp mobMax playerDmg mobDmg hp) := by
  unfold fmtCombatRound
  apply_rules [tame_append, tame_lit, eventless_number, eventless_lit]

theorem tame_combat_end {chars : List Char} (shut : everyTail (parts headChars) chars = true) :
    Tame (fmtCombatEnd "rat" (String.ofList chars)) := by
  unfold fmtCombatEnd
  apply_rules [tame_append, tame_lit, eventless_lit]

theorem tame_char_died (hp maxHp : Int) : Tame (fmtCharDied "nexus" hp maxHp) := by
  unfold fmtCharDied
  apply_rules [tame_append, tame_lit, eventless_number, eventless_lit]

theorem tame_recharging (seconds : Int) : Tame (fmtAbilityRecharging "Requisition" seconds) := by
  unfold fmtAbilityRecharging
  apply_rules [tame_append, tame_lit, eventless_number, eventless_lit]

theorem tame_attack_miss (target : Ptr) (rat : Prop) [Decidable rat] :
    Tame (fmtAttackMiss target (if rat then some "a glow-rat" else none)) := by
  unfold fmtAttackMiss
  split_ifs
  · apply_rules [tame_append, tame_lit, eventless_or, eventless_lit]
  · apply_rules [tame_append, tame_lit, eventless_lit]

theorem tame_identity (name : Bytes) (i : Identity) : Tame (fmtCharIdentity name i) := by
  have gap : Eventless (if i.title = [] then [] else lit " ") := eventless_gap (eventless_lit _ rfl)
  unfold fmtCharIdentity
  apply_rules [tame_append, tame_lit]
  all_goals apply_rules [eventless_number, eventless_or, eventless_lit, eventless_raw,
    eventless_escaped, eventless_bool]

theorem tame_gridcast (env : Env) (self text : Bytes) : Tame (commGridcast env self text) := by
  unfold commGridcast
  apply_rules [tame_append, tame_lit, eventless_escaped, eventless_lit]

theorem tame_forgiven (by_name : Bytes) (ashsworn redeemed : Bool) :
    Tame (charForgiven by_name ashsworn redeemed) := by
  unfold charForgiven
  apply_rules [tame_append, tame_lit, eventless_escaped, eventless_bool, eventless_lit]

theorem tame_redemption (name title : Bytes) : Tame (gridRedemption name title) := by
  unfold gridRedemption
  apply_rules [tame_append, tame_lit, eventless_escaped, eventless_lit]

theorem tame_tell {chars : List Char} {name text : Text} (n : Eventless name)
    (m : Eventless text)
    (tame : standsApart ('@' :: 'e' :: 'v' :: 'e' :: 'n' :: 't' :: ' ' :: chars) = true) :
    Tame (tellEvt (String.ofList chars) name text) := by
  have opens : Tame (lit "@event " ++ lit (String.ofList chars)) := by
    have whole := tame_lit _ tame
    rw [lit_chars] at whole
    rw [lit_chars, lit_chars]
    simpa using whole
  unfold tellEvt
  apply_rules [tame_append, eventless_lit]

theorem tame_look_line (t : Session) : Tame (lookLine t) := by
  unfold lookLine
  simp only
  split_ifs <;> apply_rules [tame_raw, tame_append, tame_lit, eventless_raw, eventless_lit]

theorem tame_look_evt (t : Session) : Tame (lookEvt t) := by
  unfold lookEvt
  apply_rules [tame_append, tame_lit, eventless_escaped, eventless_bool, eventless_lit]

theorem tame_rescued_two (name : Bytes) {first second : List Char}
    (one : everyTail (parts headChars) first = true)
    (two : everyTail (parts headChars) second = true) :
    Tame (rescuedTwo name (String.ofList first) (String.ofList second)) := by
  unfold rescuedTwo
  apply_rules [tame_append, tame_lit, eventless_escaped, eventless_lit]

theorem tame_rescued_one (name : Bytes) (freed : String) : Tame (rescuedOne name freed) := by
  unfold rescuedOne
  apply_rules [tame_append, tame_lit, eventless_escaped, eventless_lit]

theorem tame_remembrance (row : Fallen) : Tame (remembranceEvt row) := by
  unfold remembranceEvt
  apply_rules [tame_append, tame_lit, eventless_escaped, eventless_lit]

theorem unmarked_deeds {buf : Text} {i : Nat} {rows : List (Deed × Int)} (before : Unmarked buf) :
    Unmarked (deedsJson buf i rows) := by
  induction rows generalizing buf i with
  | nil => exact unmarked_append before (unmarked_lit _ rfl)
  | cons row rest ih =>
    obtain ⟨kind, n⟩ := row
    have word : Unmarked (lit kind.name) := by cases kind <;> exact unmarked_lit _ rfl
    have gap : Unmarked (comma i) := by
      unfold comma
      split
      · exact unmarked_nil
      · exact unmarked_lit _ rfl
    refine ih (unmarked_take 620 (unmarked_append before ?_))
    unfold deedKv
    apply_rules [unmarked_append, unmarked_lit, unmarked_number]

theorem tame_reckoning {deeds : Text} (counted : Eventless deeds) :
    Tame (reckoningEvt s deeds) := by
  unfold reckoningEvt
  apply_rules [tame_append, tame_lit]
  all_goals apply_rules [eventless_number, eventless_escaped, eventless_bool, eventless_lit]

theorem tame_standing (s : Session) : Tame (standingLine s) := by
  unfold standingLine
  split_ifs <;> apply_rules [tame_append, tame_lit, eventless_number, eventless_lit, eventless_nil]

theorem tame_arc (s : Session) : ∀ t ∈ (reckoningArc s).toList, Tame t := by
  intro t member
  unfold reckoningArc at member
  split_ifs at member
  · obtain rfl := List.mem_singleton.mp member
    apply_rules [tame_append, tame_lit, eventless_lit]
  · obtain rfl := List.mem_singleton.mp member
    exact tame_lit _ rfl
  · obtain rfl := List.mem_singleton.mp member
    apply_rules [tame_append, tame_lit, eventless_lit]
  · cases member

end Events

section Network

theorem tame_travel_missing (target : Bytes) : Tame (fmtGridTravelMissing target) := by
  unfold fmtGridTravelMissing
  apply_rules [tame_append, tame_lit, eventless_raw, eventless_lit]

theorem tame_travel_here (world : Bytes) : Tame (fmtGridTravelHere world) := by
  unfold fmtGridTravelHere
  apply_rules [tame_append, tame_lit, eventless_raw, eventless_lit]

theorem tame_handoff {id url idesc udesc : Text} (i : Eventless id) (u : Eventless url)
    (d : Eventless idesc) (e : Eventless udesc) :
    Tame (fmtGridTravelHandoff id url idesc udesc) := by
  unfold fmtGridTravelHandoff
  apply_rules [tame_append, tame_lit, eventless_lit]

theorem tame_append_all {cap : Nat} {first : Text} {rest : List Text}
    (fits : fmtAppendAll cap [] (first :: rest) = some t) (opens : Tame first)
    (each : ∀ p ∈ rest, Eventless p) : Tame t := by
  rw [append_all_flatten fits, List.nil_append, List.flatten_cons]
  exact tame_append opens (eventless_flatten each)

theorem adds_worlds (cap : Nat) (worlds : List WorldTags) :
    Adds ((fmtGridWorlds cap worlds).getD []) := by
  refine adds_get fun t fits => ?_
  simp only [fmtGridWorlds, Option.bind_eq_bind, Option.bind_eq_some_iff] at fits
  obtain ⟨json, made, fits⟩ := fits
  have rows : Eventless json := by
    refine eventless_json made fun w _ => ?_
    unfold worldJson
    apply_rules [eventless_append, eventless_lit, eventless_escaped, eventless_number,
      eventless_bool]
  rw [List.cons_append] at fits
  refine tame_append_all fits ?_ fun p member => ?_
  · apply_rules [tame_append, tame_lit, eventless_lit]
  rcases List.mem_append.mp member with listed | last
  · obtain ⟨w, _, rfl⟩ := List.mem_map.mp listed
    have tag : Eventless (lit (worldTag w)) := by
      unfold worldTag
      split_ifs <;> exact eventless_lit _ rfl
    apply_rules [eventless_append, eventless_lit, eventless_raw]
  · obtain rfl := List.mem_singleton.mp last
    apply_rules [eventless_append, eventless_lit]

theorem tame_listen_head : Tame listenHead := by
  unfold listenHead
  apply_rules [tame_append, tame_lit, eventless_lit]

theorem eventless_transmission {chars : List Char} {esc : Text}
    (shut : everyTail (parts headChars) chars = true) (inside : Eventless esc) :
    Eventless (transmission (String.ofList chars) esc) := by
  unfold transmission
  apply_rules [eventless_append, eventless_lit]

theorem tame_listen_echo (text : Bytes) : Tame (fmtGridListenEcho text) := by
  have head := tame_listen_head
  have tail : Eventless (transmission "echo" (escaped 220 text)) :=
    eventless_transmission rfl (eventless_escaped 220 text)
  unfold fmtGridListenEcho
  apply_rules [tame_append, eventless_raw, eventless_lit]

theorem adds_listen_trace (cap : Nat) (text world selfWorld : Bytes) :
    Adds ((fmtGridListenTrace cap text world selfWorld).getD []) := by
  have head := tame_listen_head
  refine adds_get fun t fits => ?_
  simp only [fmtGridListenTrace, List.cons_append, List.nil_append] at fits
  refine tame_append_all fits ?_ fun p member => ?_
  · apply_rules [tame_append, eventless_raw, eventless_lit]
  rcases List.mem_append.mp member with there | last
  · split_ifs at there
    · obtain rfl := List.mem_singleton.mp there
      apply_rules [eventless_append, eventless_raw, eventless_lit]
    · cases there
  · obtain rfl := List.mem_singleton.mp last
    exact eventless_transmission rfl (eventless_escaped 220 text)

theorem tame_listen_empty : Tame fmtGridListenEmpty := by
  have tail : Eventless (transmission "empty" []) := eventless_transmission rfl eventless_nil
  unfold fmtGridListenEmpty
  apply_rules [tame_append, tame_lit, eventless_lit]

theorem adds_ping_echo (cap : Nat) (room : Option String) (echoes : List Trace) :
    Adds ((fmtGridPingEcho cap room echoes).getD []) := by
  refine adds_get fun t fits => ?_
  simp only [fmtGridPingEcho, Option.bind_eq_bind, Option.bind_eq_some_iff] at fits
  obtain ⟨json, made, fits⟩ := fits
  have rows : Eventless json := by
    refine eventless_json made fun t _ => ?_
    unfold echoJson
    apply_rules [eventless_append, eventless_lit, eventless_escaped, eventless_number]
  have event : Eventless (lit r#"@event grid.echo {"node":""# ++ escaped 80 (str (room.getD "")) ++
      lit r#"","traces":"# ++ json ++ lit "\x7d" ++ crlf) := by
    apply_rules [eventless_append, eventless_lit, eventless_escaped]
  split at fits <;> simp only [List.cons_append, List.nil_append] at fits
  · refine tame_append_all fits ?_ fun p member => ?_
    · apply_rules [tame_append, tame_lit, eventless_lit]
    · obtain rfl := List.mem_singleton.mp member
      exact event
  · refine tame_append_all fits ?_ fun p member => ?_
    · apply_rules [tame_append, tame_lit, eventless_lit]
    simp only [List.mem_append, List.mem_map, List.mem_singleton] at member
    rcases member with (⟨t, _, rfl⟩ | rfl) | rfl
    · apply_rules [eventless_append, eventless_raw, eventless_lit]
    · apply_rules [eventless_append, eventless_lit]
    · exact event

theorem adds_ping_all (cap : Nat) (traces : List Trace) :
    Adds ((fmtGridPingAll cap traces).getD []) := by
  refine adds_get fun t fits => ?_
  unfold fmtGridPingAll at fits
  split at fits
  · cases fits
    apply_rules [tame_append, tame_lit, eventless_lit]
  · simp only [Option.bind_eq_bind, Option.bind_eq_some_iff] at fits
    obtain ⟨json, made, fits⟩ := fits
    have rows : Eventless json := by
      refine eventless_json made fun t _ => ?_
      unfold traceJson
      apply_rules [eventless_append, eventless_lit, eventless_escaped, eventless_number]
    rw [List.cons_append] at fits
    refine tame_append_all fits ?_ fun p member => ?_
    · apply_rules [tame_append, tame_lit, eventless_lit]
    simp only [List.mem_append, List.mem_map, List.mem_singleton] at member
    rcases member with ⟨t, _, rfl⟩ | rfl
    · apply_rules [eventless_append, eventless_raw, eventless_lit]
    · apply_rules [eventless_append, eventless_lit]

theorem eventless_players (sessions : List Session) (room : Int) (except : Bytes) (cap : Nat) :
    Eventless (playersJson sessions room except cap) := by
  unfold playersJson
  simp only
  generalize sessions.filter _ = here
  cases fits : fmtJson cap id (here.filterMap playerRow) with
  | none => exact eventless_lit _ rfl
  | some t =>
    refine eventless_json fits fun row member => ?_
    obtain ⟨s, _, made⟩ := List.mem_filterMap.mp member
    simp only [playerRow, Option.bind_eq_bind, Option.bind_eq_some_iff, Option.pure_def,
      Option.some.injEq] at made
    obtain ⟨name, first, standing, second, rfl⟩ := made
    have named := eventless_escape first
    have brand := eventless_escape second
    change Eventless (lit r#"{"name":""# ++ name ++ lit r#"","standing":""# ++ standing ++
      lit r#""}"#)
    apply_rules [eventless_append, eventless_lit]

theorem eventless_who_append {cap : Nat} {buf : Text} {rows : List Text} (before : Eventless buf)
    (each : ∀ row ∈ rows, Eventless row) : Eventless (whoAppend cap buf rows) := by
  induction rows generalizing buf with
  | nil => exact before
  | cons row rest ih =>
    have piece : Eventless ((if buf.length = 1 then [] else lit ",") ++ row) :=
      eventless_append (eventless_gap (eventless_lit _ rfl)) (each row List.mem_cons_self)
    unfold whoAppend
    generalize (if buf.length = 1 then [] else lit ",") ++ row = joined at piece ⊢
    simp only
    split
    · exact ih (eventless_append before piece) fun other member => each other (by simp [member])
    · exact before

theorem eventless_who (env : Env) (sessions : List (Block × Session)) (rows : List PresenceRow) :
    Eventless (whoAppend 2048 (whoAppend 2048 (lit "[")
      (sessions.filterMap fun d => whoLocal env d.2)) (rows.filterMap (whoRemote env))) := by
  have json (here : Bool) {world name regard title : Text} (w : Eventless world)
      (n : Eventless name) (r : Eventless regard) (t : Eventless title) :
      Eventless (whoJson here world name regard title) := by
    unfold whoJson
    apply_rules [eventless_append, eventless_lit, eventless_bool]
  refine eventless_who_append (eventless_who_append (eventless_lit _ rfl) fun row member => ?_)
    fun row member => ?_
  · obtain ⟨d, _, made⟩ := List.mem_filterMap.mp member
    simp only [whoLocal, Option.ite_none_left_eq_some, Option.bind_eq_bind,
      Option.bind_eq_some_iff, Option.pure_def, Option.some.injEq] at made
    obtain ⟨_, name, n, title, t, regard, r, world, w, rfl⟩ := made
    exact json true (eventless_escape w) (eventless_escape n) (eventless_escape r)
      (eventless_escape t)
  · obtain ⟨d, _, made⟩ := List.mem_filterMap.mp member
    simp only [whoRemote, Option.ite_none_left_eq_some, Option.bind_eq_bind,
      Option.bind_eq_some_iff, Option.pure_def, Option.some.injEq] at made
    obtain ⟨_, name, n, title, t, regard, r, world, w, rfl⟩ := made
    exact json false (eventless_escape w) (eventless_escape n) (eventless_escape r)
      (eventless_escape t)

theorem eventless_rescued (row : Fallen) : Eventless (rescuedJson row) := by
  unfold rescuedJson
  apply_rules [eventless_append, eventless_lit, eventless_escaped, eventless_number]

theorem eventless_fallen (row : Fallen) : Eventless (fallenJson row) := by
  unfold fallenJson
  apply_rules [eventless_append, eventless_lit, eventless_escaped, eventless_number]

theorem eventless_kind (row : Bytes × Int) : Eventless (kindJson row) := by
  unfold kindJson
  apply_rules [eventless_append, eventless_lit, eventless_escaped, eventless_number]

theorem tame_kind_line (row : Bytes × Int) : Tame (kindLine row) := by
  have padding : Eventless
      (List.replicate (10 - (row.1.take 32).length) (⟨space, .server⟩ : Cell)) := by
    refine unmarked_eventless (unmarked_of fun cell member _ => ?_)
    rw [List.eq_of_mem_replicate member]
    decide
  unfold kindLine
  apply_rules [tame_append, tame_lit, eventless_raw, eventless_number, eventless_lit]

theorem tame_inventory (items : List Bytes) : Tame (inventoryText items) := by
  have loop (buf : Text) (first : Bool) (before : Tame buf) :
      Tame (inventoryLoop buf first items) := by
    induction items generalizing buf first with
    | nil => exact before
    | cons item rest ih =>
      have gap : Eventless (if first then [] else lit ", ") := eventless_gap (eventless_lit _ rfl)
      unfold inventoryLoop
      split
      · exact before
      · exact ih _ _ (tame_append (tame_append before gap) (eventless_raw item))
  have told := loop (lit "You carry: ") true (tame_lit _ rfl)
  unfold inventoryText
  simp only
  split
  · exact told
  · exact tame_append (tame_append told (eventless_lit _ rfl)) (eventless_lit _ rfl)

end Network

end HollowGrid
