import HollowGrid.Commands

/-! One message of a player and one beat of the timer, within the same permissions. -/
namespace HollowGrid

variable {strict : Prop} {env : Env} {E : Fault → Prop} {T : Block → Prop}
  {may : Block → Part → Prop} {free : Table → Prop} {I : Server → Prop}

theorem parse_word {msg : Bytes} {arm : Arm} {word : Bytes}
    (parsed : parse msg = some (arm, some word)) : ∃ n, word = msg.drop n := by
  simp only [parse, Option.map_eq_some_iff, Prod.mk.injEq] at parsed
  obtain ⟨_, _, _, n, _, rfl⟩ := parsed
  exact ⟨n, rfl⟩

/-- What strict asks of one message: no line ends, and a quote that fits its buffer. -/
structure Fair (strict : Prop) (msg : Bytes) : Prop where
  clean : Clean strict msg
  short : strict → msg.length < 256
  carved : strict → ∀ arg, parse msg = some (.inscribe, arg) → (argument arg).length < 114

theorem Fair.arg {msg : Bytes} (fair : Fair strict msg) {arm : Arm} {arg : Ptr}
    (parsed : parse msg = some (arm, arg)) : CleanPtr strict arg := by
  rintro word rfl
  obtain ⟨n, rfl⟩ := parse_word parsed
  exact clean_drop n fair.clean

theorem Fair.arg_short {msg : Bytes} (fair : Fair strict msg) {arm : Arm} {arg : Ptr}
    (parsed : parse msg = some (arm, arg)) (on : strict) :
    ∀ word, arg = some word → word.length < 256 := by
  rintro word rfl
  obtain ⟨n, rfl⟩ := parse_word parsed
  have short := fair.short on
  rw [List.length_drop]
  omega

def Arm.reports : Arm → Bool
  | .exits | .talk | .list | .war | .saved | .sell | .sense | .reckoning | .gridstats | .ping
  | .world | .listen | .whoami | .worlds | .travel | .who | .affects | .help | .inventory
  | .equipment | .quit | .consider => true
  | _ => false

/-- The arms that hand a null argument on as it is. -/
def Arm.unguarded : Arm → Bool
  | .gridcast | .consider => true
  | _ => false

/-- A handler that only reports needs no permission beyond that. -/
theorem Reports.exec_kept {c : Block} (r : Reports strict env E c I) {arm : Arm} {arg : Ptr}
    (quiet : arm.reports = true) (clean : CleanPtr strict arg)
    (short : strict → ∀ b, arg = some b → b.length < 256)
    (guarded : arm.unguarded = true → arg = none →
      E .nullRead ∨ ∀ g, I g → ratHere (g.blocks c) g.world = false) :
    Keeps I E (exec env c arg arm) Any := by
  cases arm with
  | exits => exact r.exits_kept
  | talk => exact r.talk_kept
  | list => exact r.list_kept
  | war => exact r.war_kept
  | saved => exact r.saved_kept
  | sell => exact r.sell_kept clean
  | sense => exact r.sense_kept
  | reckoning => exact r.reckoning_kept
  | gridstats => exact r.gridstats_kept
  | ping => exact r.ping_kept arg
  | world => exact r.world_kept
  | listen => exact r.listen_kept
  | whoami => exact r.whoami_kept
  | worlds => exact r.worlds_kept
  | travel => exact r.travel_kept clean short
  | who => exact r.who_kept
  | affects => exact r.affects_kept
  | help => exact r.help_kept
  | inventory => exact r.inventory
  | equipment => exact r.equipment
  | quit => exact r.quit_kept
  | consider => exact r.consider_kept (guarded rfl)
  | _ => cases quiet

/-- The parts of the player's own session that a command may write. -/
def Arm.writes : Arm → List Part
  | .wield | .remove => [.gear]
  | .attack => [.stance, .fight]
  | .sleep | .stand | .rest => [.stance]
  | .buy => [.purse, .pack]
  | .treat => [.life]
  | .cache => [.morals, .purse]
  | .gather => [.purse]
  | .steal => [.morals, .purse, .arc]
  | .free => [.morals, .pack]
  | .shelter | .witness => [.morals]
  | .join => [.morals, .side, .arc, .market]
  | .defend => [.morals, .side, .market, .pack]
  | .defy => [.morals, .side, .arc]
  | .recall => [.place, .stance]
  | .down | .up => [.place]
  | .ability => [.purse, .trait]
  | _ => []

/-- The parts a command may write of its player and of others. -/
def Arm.reaches : Arm → List Part
  | .mend => [.life]
  | .give => [.pack]
  | .tell | .reply => [.reply]
  | .forgive => [.morals, .arc]
  | _ => []

def Arm.tables : Arm → List Table
  | .rest => [.clock]
  | .cache | .gather => [.caches]
  | .steal | .join | .defy => [.deeds]
  | .free | .shelter => [.deeds, .hours]
  | .forgive => [.forgiven, .deeds]
  | .witness => [.kept, .deeds]
  | _ => []

/-- A command writes only what it may. -/
structure Arm.Within (arm : Arm) (c : Block) (T : Block → Prop) (may : Block → Part → Prop)
    (free : Table → Prop) : Prop where
  own : ∀ q ∈ arm.writes, may c q
  others : ∀ q ∈ arm.reaches, ∀ d, T d → may d q
  tables : ∀ t ∈ arm.tables, free t

theorem Arm.within_all {c : Block} (arm : Arm) :
    arm.Within c T (fun _ _ => True) (fun _ => True) :=
  ⟨fun _ _ => trivial, fun _ _ _ _ => trivial, fun _ _ => trivial⟩

namespace Permits

variable (p : Permits strict env E T may free I) {c : Block} (self : T c)
include p self

theorem exec_kept {arm : Arm} {arg : Ptr} (within : arm.Within c T may free)
    (clean : CleanPtr strict arg) (short : strict → ∀ b, arg = some b → b.length < 256)
    (carved : strict → arm = .inscribe → (argument arg).length < 114)
    (guarded : arm.unguarded = true → arg = none → E .nullRead) :
    Keeps I E (exec env c arg arm) Any := by
  by_cases quiet : arm.reports = true
  · exact (p.reports self).exec_kept quiet clean short fun bare null => .inl (guarded bare null)
  have own := within.own
  have others := within.others
  have tables := within.tables
  cases arm with
  | wield => exact p.wield_kept self (own .gear (by decide)) arg
  | remove => exact p.remove_kept self (own .gear (by decide)) arg
  | attack => exact p.attack_kept self (own .stance (by decide)) (own .fight (by decide)) clean
  | sleep => exact p.sleep_kept self (own .stance (by decide))
  | stand => exact p.stand_kept self (own .stance (by decide))
  | rest => exact p.rest_kept self (own .stance (by decide)) (tables .clock (by decide))
  | buy => exact p.buy_kept self (own .purse (by decide)) (own .pack (by decide)) arg
  | wall => exact p.wall_kept self clean
  | tell => exact p.tell_kept self (others .reply (by decide)) clean
  | reply => exact p.reply_kept self (others .reply (by decide)) clean
  | yell => exact p.yell_kept self clean
  | emote => exact p.emote_kept self clean
  | mend => exact p.mend_kept self (others .life (by decide)) arg
  | give => exact p.give_kept self (others .pack (by decide)) clean
  | gridcast => exact p.gridcast_kept self clean (guarded rfl)
  | shelter =>
    exact p.shelter_kept self (own .morals (by decide)) (tables .deeds (by decide))
      (tables .hours (by decide))
  | cache =>
    exact p.cache_kept self (own .morals (by decide)) (own .purse (by decide))
      (tables .caches (by decide)) arg
  | gather => exact p.gather_kept self (own .purse (by decide)) (tables .caches (by decide))
  | treat => exact p.treat_kept self (own .life (by decide))
  | steal =>
    exact p.steal_kept self (own .morals (by decide)) (own .purse (by decide))
      (own .arc (by decide)) (tables .deeds (by decide))
  | forgive =>
    exact p.forgive_kept self (others .morals (by decide)) (others .arc (by decide))
      (tables .forgiven (by decide)) (tables .deeds (by decide)) clean
  | join =>
    exact p.join_kept self (own .morals (by decide)) (own .side (by decide)) (own .arc (by decide))
      (own .market (by decide)) (tables .deeds (by decide))
  | defend =>
    exact p.defend_kept self (own .morals (by decide)) (own .side (by decide))
      (own .market (by decide)) (own .pack (by decide))
  | defy =>
    exact p.defy_kept self (own .morals (by decide)) (own .side (by decide)) (own .arc (by decide))
      (tables .deeds (by decide))
  | witness =>
    exact p.witness_kept self (own .morals (by decide)) (tables .kept (by decide))
      (tables .deeds (by decide)) clean
  | gridprune => exact p.prune_kept self
  | title => exact p.title_kept self clean
  | free =>
    exact p.free_kept self (own .morals (by decide)) (own .pack (by decide))
      (tables .deeds (by decide)) (tables .hours (by decide))
  | «recall» => exact p.recall_kept self (own .place (by decide)) (own .stance (by decide))
  | inscribe => exact p.inscribe_kept self clean fun on => carved on rfl
  | down => exact p.stairs_kept self (own .place (by decide)) _ _
  | up => exact p.stairs_kept self (own .place (by decide)) _ _
  | ability => exact p.ability_kept self (own .purse (by decide)) (own .trait (by decide))
  | _ => exact absurd rfl quiet

theorem command_kept {msg : Bytes} (place : may c .place)
    (within : ∀ arm arg, parse msg = some (arm, arg) → arm.Within c T may free)
    (fair : Fair strict msg)
    (guarded : ∀ arm, parse msg = some (arm, none) → arm.unguarded = true → E .nullRead) :
    Keeps I E (worldCommand env c msg) Any := by
  have r := p.reports self
  refine Keeps.branch r.scene_now (Keeps.branch (r.look_kept _) ?_)
  refine Keeps.bind (p.reads c) fun s _ => ?_
  cases roomMove s.room (heading msg) with
  | there room => exact p.move_kept self place room
  | noExit => exact r.cant_move_kept
  | unknown =>
    unfold notMovement
    cases parsed : parse msg with
    | none => exact r.unknown_kept
    | some found =>
      obtain ⟨arm, arg⟩ := found
      refine p.exec_kept self (within arm arg parsed) (fair.arg parsed) (fair.arg_short parsed) ?_
        fun bare null => ?_
      · rintro on rfl
        exact fair.carved on arg parsed
      · subst null
        exact guarded arm parsed bare

end Permits

namespace Permits

section Heartbeat

variable (p : Permits strict env E T may free I) {c : Block} (self : T c)
include p self

theorem calm_kept (fight : may c .fight) : Keeps I E (calm c) Any :=
  Keeps.bind (p.reads c) fun _ _ => p.fights self fight _

theorem died_kept (life : may c .life) (place : may c .place) (fight : may c .fight) :
    Keeps I E (playerDied env c) Any := by
  have r := p.reports self
  refine Keeps.bind (p.reads c) fun s tidy => Keeps.seq ?_ ?_
  · exact p.deaths (clean_room_bytes s.room) tidy.clean_name
  refine Keeps.seq (p.updates self (fun _ old => { old with })
      (by intro q shut ch; cases q <;> first | rfl | contradiction)) (Keeps.seq (p.calm_kept self fight) ?_)
  refine Keeps.seq (r.said (sound_text (sound_text (sound_lit _)))) ?_
  refine Keeps.seq (r.said (sound_char_died _ _ _)) (Keeps.seq (r.said (sound_combat_end _ _)) ?_)
  exact Keeps.seq r.vitals r.scene_now

theorem rat_killed_kept (fight : may c .fight) (rat : free .rat) : Keeps I E (ratKilled env c) Any := by
  have r := p.reports self
  refine Keeps.bind (p.reads c) fun s tidy => Keeps.seq (p.on_world _
      (by intro t shut w; cases t <;> first | rfl | contradiction)) ?_
  refine Keeps.bind p.times fun died _ => Keeps.seq (p.on_world _
      (by intro t shut w; cases t <;> first | rfl | contradiction)) (Keeps.seq ?_ ?_)
  · exact p.calm_kept self fight
  refine Keeps.seq (p.updates self (fun _ old => { old with })
      (by intro q shut ch; cases q <;> rfl)) (Keeps.seq (r.said ?_) ?_)
  · exact sound_snprintf 500 (sound_combat_end _ _)
  refine Keeps.seq (r.said (sound_text (sound_lit _))) (Keeps.seq ?_ ?_)
  · exact p.kills (clean_room_bytes s.room) tidy.clean_name (clean_str _ rfl)
  · exact Keeps.seq r.vitals (p.saves self)

theorem round_kept (life : may c .life) (place : may c .place) (fight : may c .fight)
    (rat : free .rat) : Keeps I E (combatRound env c) Any := by
  have r := p.reports self
  refine Keeps.bind (p.reads c) fun s _ => Keeps.bind keeps_world fun w _ => ?_
  refine Keeps.branch (Keeps.pure trivial) (Keeps.branch ?_ ?_)
  · refine Keeps.bind (p.reads c) fun s _ => Keeps.bind keeps_world fun w _ => ?_
    refine Keeps.seq (p.on_world _
        (by intro t shut w; cases t <;> first | rfl | contradiction)) (Keeps.seq (p.updates self (fun _ old => { old with })
        (by intro q shut ch; cases q <;> first | rfl | contradiction)) ?_)
    refine Keeps.seq (r.said (sound_snprintf 500 (sound_combat_round _ _ _ _ _ _))) ?_
    exact Keeps.branch (p.rat_killed_kept self fight rat)
      (Keeps.branch (p.died_kept self life place fight) r.vitals)
  · refine Keeps.seq (p.calm_kept self fight) (Keeps.seq (r.said ?_) r.vitals)
    exact sound_snprintf 500 (sound_combat_end _ _)

theorem sockets (wsi : Wsi) :
    Keeps I E (modifyGet fun g : Server => (PUnit.unit, g.setWsi c wsi) : Act PUnit) Any :=
  Keeps.modify fun g holds => p.socket g c wsi holds self

theorem arm_kept (fight : may c .fight) (at_ms : Int) : Keeps I E (armAt c at_ms) Any :=
  Keeps.bind (p.reads c) fun _ _ => p.fights self fight _

theorem pulse_kept (life : may c .life) (place : may c .place) (fight : may c .fight)
    (rat : free .rat) (now : Int) : Keeps I E (sessionPulse env c now) Any := by
  refine Keeps.bind Keeps.get fun g _ => Keeps.branch (Keeps.pure trivial) ?_
  cases g.socketOf c with
  | none => exact Keeps.pure trivial
  | some wsi =>
    refine Keeps.seq (p.sockets self wsi) (Keeps.bind (p.reads c) fun s _ => ?_)
    refine Keeps.branch (p.arm_kept self fight _) (Keeps.branch (Keeps.pure trivial) ?_)
    exact Keeps.seq (p.arm_kept self fight _) (p.round_kept self life place fight rat)

theorem tick_session_kept (life : may c .life) : Keeps I E (tickSession c) Any := by
  have r := p.reports self
  refine Keeps.bind Keeps.get fun g _ => ?_
  cases g.socketOf c with
  | none => exact Keeps.pure trivial
  | some wsi =>
    refine Keeps.seq (p.sockets self wsi) (Keeps.branch (Keeps.pure trivial) ?_)
    refine Keeps.seq r.world_state (Keeps.bind (p.reads c) fun s _ => Keeps.branch ?_ ?_)
    · exact Keeps.seq (p.updates self (fun _ old => { old with })
        (by intro q shut ch; cases q <;> first | rfl | contradiction)) r.vitals
    · exact Keeps.pure trivial

end Heartbeat

variable (p : Permits strict env E T may free I)
include p

theorem in_table : Keeps I E inTable fun found => ∀ d ∈ found, T d := by
  refine fun g holds => ⟨holds, fun d member => ?_⟩
  obtain ⟨entry, entered, rfl⟩ := List.mem_filterMap.mp member
  exact p.peers g holds d entered

theorem gate_kept (life : ∀ d, T d → may d .life) (clock : free .clock) (now : Int) :
    Keeps I E (worldGate now) Any := by
  refine Keeps.bind keeps_world fun w _ => Keeps.branch (Keeps.pure trivial) ?_
  refine Keeps.seq (p.on_world _ (by
    intro t shut w
    cases t <;> first | rfl | contradiction)) (Keeps.bind p.in_table fun blocks peers => ?_)
  exact Keeps.for_each fun d member =>
    p.tick_session_kept (peers d member) (life d (peers d member))

theorem respawn_kept (rat : free .rat) (now : Int) : Keeps I E (respawn now) Any := by
  refine p.on_world _ fun t shut w => ?_
  split
  · cases t <;> first | rfl | contradiction
  · rfl

theorem heartbeat_kept (life : ∀ d, T d → may d .life) (place : ∀ d, T d → may d .place)
    (fight : ∀ d, T d → may d .fight) (rat : free .rat) (clock : free .clock) (now : Int) :
    Keeps I E (heartbeat env now) Any := by
  refine Keeps.bind p.in_table fun blocks peers =>
    Keeps.seq ?_ (Keeps.seq (p.gate_kept life clock now) (p.respawn_kept rat now))
  exact Keeps.for_each fun d member =>
    p.pulse_kept (peers d member) (life d (peers d member)) (place d (peers d member))
      (fight d (peers d member)) rat now

theorem federation_kept (now : Int) : Keeps I E (gridFederationTick env now) Any := by
  have clock : Keeps I E (tickTime env now) Any := Keeps.branch p.times (Keeps.pure trivial)
  refine Keeps.bind clock fun at_ms _ => Keeps.bind keeps_world fun w _ => ?_
  refine Keeps.branch (Keeps.pure trivial) (Keeps.seq (p.on_world _
      (by intro t shut w; cases t <;> rfl)) ?_)
  exact keeps_when (keeps_ignored (p.calls _ _))

theorem timer_kept (life : ∀ d, T d → may d .life) (place : ∀ d, T d → may d .place)
    (fight : ∀ d, T d → may d .fight) (rat : free .rat) (clock : free .clock) :
    Keeps I E (tickService env) Any := by
  refine Keeps.bind p.times fun now _ => Keeps.seq ?_ (p.federation_kept now)
  exact p.heartbeat_kept life place fight rat clock now

end Permits

end HollowGrid
