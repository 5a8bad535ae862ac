import HollowGrid.Registry
import HollowGrid.Frames
import HollowGrid.Lib.Simulation

/-! The session table with any number of connections in play. A session that finds every slot
taken at its entry plays on without one. -/
namespace HollowGrid

/-- Every entry of the table is an open connection in play, once and beside its socket, and the
count is that of the entries. -/
structure Seats (g : Server) : Prop where
  slots : g.sessionTable.length = maxSessions
  sockets : g.sessionWsiTable.length = maxSessions
  distinct : g.sessionTable.reduceOption.Nodup
  seated : ∀ c, some c ∈ g.sessionTable → g.socket c ≠ none ∧ (g.blocks c).state = .play
  paired : ∀ (i : Nat) (c : Block), g.sessionTable[i]? = some (some c) →
    g.sessionWsiTable[i]? = g.socket c
  count : g.sessionCount = g.sessionTable.reduceOption.length

/-- What a step does to the slots: one is taken by an entry into play, one is freed by a close,
or none is touched. -/
inductive Reseated (g : Server) (e : Event) (g' : Server) : Prop
  | still : g'.sessionTable = g.sessionTable → g'.sessionWsiTable = g.sessionWsiTable →
      g'.sessionCount = g.sessionCount →
      (∀ c, (g.blocks c).state ≠ .play → (g'.blocks c).state = .play → none ∉ g.sessionTable) →
      (∀ c, e = .close c → some c ∉ g.sessionTable) → Reseated g e g'
  | taken {c : Block} {i : Nat} {wsi : Wsi} : g.socket c = some wsi → (∀ d, e ≠ .close d) →
      (g.blocks c).state ≠ .play → (g'.blocks c).state = .play →
      (∀ d, d ≠ c → g'.blocks d = g.blocks d) → g.sessionTable[i]? = some none →
      g'.sessionTable = g.sessionTable.set i (some c) →
      g'.sessionWsiTable = g.sessionWsiTable.set i wsi →
      g'.sessionCount = g.sessionCount + 1 → Reseated g e g'
  | freed {c : Block} {i : Nat} : e = .close c → g.sessionTable[i]? = some (some c) →
      (∀ d, (g'.blocks d).state = (g.blocks d).state) →
      g'.sessionTable = g.sessionTable.set i none →
      g'.sessionWsiTable = g.sessionWsiTable.set i 0 →
      g'.sessionCount = g.sessionCount - 1 → Reseated g e g'

variable {env : Env} {g g' : Server} {e : Event} {c : Block}

theorem seats_boot (env : Env) (disk : Disk) : Seats (boot env disk) where
  slots := List.length_replicate
  sockets := List.length_replicate
  distinct := by
    change (List.replicate maxSessions none).reduceOption.Nodup
    rw [List.reduceOption_replicate_none]
    exact List.nodup_nil
  seated := fun c member => by cases List.eq_of_mem_replicate member
  paired := fun i c held => by cases List.eq_of_mem_replicate (List.mem_of_getElem? held)
  count := by
    change (0 : Int) = (List.replicate maxSessions none).reduceOption.length
    rw [List.reduceOption_replicate_none]
    rfl

theorem step_socket (taken : step env g e = .ok g') (there : g.socket c ≠ none)
    (stays : e ≠ .close c) : g'.socket c = g.socket c := by
  have same (connections : g'.connections = g.connections) : g'.socket c = g.socket c := by
    rw [Server.socket, connections]
    rfl
  cases step_cases taken with
  | ignored => rfl
  | connected fresh => exact opened_socket g _ fun own => there (own ▸ fresh)
  | refused => rfl
  | login _ _ _ moved =>
    obtain ⟨s', disk', _, _, landed⟩ := moved
    exact same (landed_rest landed).2.1
  | played _ _ played => exact same played.connections
  | wrote _ wrote =>
    obtain ⟨outbox, dropped, asked, _, _, rfl⟩ := wrote
    rfl
  | @left d disk' asked =>
    have other : c ≠ d := fun own => stays (own ▸ rfl)
    rw [released_socket _ other]
    obtain ⟨table, sockets, count, tables⟩ :=
      unregistered_tables { g with disk := disk', asked := asked } d
    rw [tables]
    rfl
  | hungUp => exact released_socket _ fun own => stays (own ▸ rfl)
  | ticked played => exact same played.connections

theorem reseated_login (seats : Seats g) {text : Bytes} (there : g.socket c ≠ none)
    (away : (g.blocks c).state ≠ .play)
    (moved : Moved False env (trimmed text) c g (g.blocks c) g.disk g') :
    Reseated g (.message c text) g' := by
  obtain ⟨s', disk', _, _, landed⟩ := moved
  have others : ∀ d, d ≠ c → g'.blocks d = g.blocks d := fun d other => landed_other landed other
  have state := (landed_own landed).state
  have fresh : some c ∉ g.sessionTable := fun held => away (seats.seated c held).2
  by_cases seated : s'.state = .play
  · obtain ⟨wsi, socket⟩ := Option.ne_none_iff_exists'.mp there
    rw [Landed, if_pos seated] at landed
    obtain ⟨_, ⟨s'', asked, _, rfl⟩, rfl⟩ := landed
    have known : ((g.staged c s'' disk' asked).socket c).getD 0 = wsi := by
      change (g.socket c).getD 0 = wsi
      rw [socket]
      rfl
    rw [known] at others state ⊢
    by_cases free : none ∈ g.sessionTable
    · obtain ⟨i, empty, same⟩ := registered_slot (g := g.staged c s'' disk' asked) free fresh wsi
      exact .taken socket (by simp) away (state.trans seated) others empty
        (congrArg Server.sessionTable same) (congrArg Server.sessionWsiTable same)
        (congrArg Server.sessionCount same)
    · have full : (g.staged c s'' disk' asked).slotFor c = none := by
        refine List.findIdx?_eq_none_iff.mpr fun entry member => ?_
        have some_one : entry ≠ none := fun empty => free (empty ▸ member)
        have other : entry ≠ some c := fun own => fresh (own ▸ member)
        simp [some_one, other]
      simp only [Server.registered, full]
      exact .still rfl rfl rfl (fun _ _ _ => free) (by simp)
  · rw [Landed, if_neg seated] at landed
    obtain ⟨s'', asked, _, rfl⟩ := landed
    refine .still rfl rfl rfl (fun d off on => ?_) (by simp)
    by_cases own : d = c
    · subst own
      exact absurd (state.symm.trans on) seated
    · rw [others d own] at on
      exact absurd on off

/-- A connection in play leaves its slot behind when it has one. -/
theorem reseated_left {disk : Disk} {asked : Nat} :
    Reseated g (.close c)
      ((({ g with disk := disk, asked := asked } : Server).unregistered c).released c) := by
  have states : ∀ d, (((({ g with disk := disk, asked := asked } : Server).unregistered c).released
      c).blocks d).state = (g.blocks d).state := by
    intro d
    rw [released_state]
    by_cases own : d = c
    · subst own
      rw [unregistered_own]
    · rw [unregistered_other _ own]
  by_cases listed : some c ∈ g.sessionTable
  · obtain ⟨i, held, same⟩ :=
      unregistered_slot (g := { g with disk := disk, asked := asked }) listed
    refine .freed rfl held states ?_ ?_ ?_
    · exact congrArg Server.sessionTable same
    · exact congrArg Server.sessionWsiTable same
    · exact congrArg Server.sessionCount same
  · have absent : g.sessionTable.idxOf? (some c) = none :=
      List.findIdx?_eq_none_iff.mpr fun entry member =>
        beq_false_of_ne fun own => listed (own ▸ member)
    have same : (({ g with disk := disk, asked := asked } : Server).unregistered c) =
        ({ g with disk := disk, asked := asked } : Server).setWsi c 0 := by
      simp only [Server.unregistered, absent]
    rw [same] at states ⊢
    refine .still rfl rfl rfl (fun d off on => absurd ((states d).symm.trans on) off)
      fun d own => ?_
    cases own
    exact listed

theorem reseated (seats : Seats g) (taken : step env g e = .ok g') : Reseated g e g' := by
  have unmoved (table : g'.sessionTable = g.sessionTable)
      (sockets : g'.sessionWsiTable = g.sessionWsiTable) (count : g'.sessionCount = g.sessionCount)
      (open_still : ∀ d, e ≠ .close d) (states : ∀ d, (g'.blocks d).state = (g.blocks d).state) :
      Reseated g e g' :=
    .still table sockets count (fun d off on => absurd ((states d).symm.trans on) off)
      fun d closes => absurd closes (open_still d)
  cases step_cases taken with
  | @ignored e idle =>
    refine .still rfl rfl rfl (fun d off on => absurd on off) ?_
    rintro d rfl listed
    have there := (seats.seated d listed).1
    simp [Event.valid, there] at idle
  | @connected d wsi fresh =>
    refine .still rfl rfl rfl (fun b off on => ?_) (by simp)
    by_cases own : b = d
    · subst own
      rw [(opened_own g b wsi).state] at on
      cases on
    · rw [opened_other g wsi own] at on
      exact absurd on off
  | @refused d text =>
    refine unmoved rfl rfl rfl (by simp) fun b => ?_
    by_cases own : b = d
    · subst own
      simp [Server.queued]
    · rw [queued_other g _ own]
  | login there _ away moved => exact reseated_login seats there away moved
  | played _ _ played =>
    exact unmoved played.table played.sockets played.count (by simp) fun d => (played.peers d).state
  | @wrote d _ _ wrote =>
    obtain ⟨outbox, dropped, asked, _, _, rfl⟩ := wrote
    refine unmoved rfl rfl rfl (by simp) fun b => ?_
    by_cases own : b = d
    · subst own
      simp
    · exact congrArg Session.state (g.setBlock_other _ own)
  | left => exact reseated_left
  | @hungUp d there away =>
    refine .still rfl rfl rfl (fun b off on => ?_) fun b own listed => ?_
    · rw [released_state] at on
      exact absurd on off
    · cases own
      exact away (seats.seated d listed).2
  | ticked played =>
    exact unmoved played.table played.sockets played.count (by simp) fun d => (played.peers d).state

theorem slot_kept (seats : Seats g) (taken : step env g e = .ok g') {i : Nat}
    (held : g.sessionTable[i]? = some (some c)) (stays : e ≠ .close c) :
    g'.sessionTable[i]? = some (some c) := by
  cases reseated seats taken with
  | still table =>
    rw [table]
    exact held
  | @taken d j _ _ _ _ _ _ empty table =>
    have apart : j ≠ i := by
      rintro rfl
      cases empty.symm.trans held
    rw [table, List.getElem?_set_ne apart]
    exact held
  | @freed d j closes other _ table =>
    have apart : j ≠ i := by
      rintro rfl
      cases other.symm.trans held
      exact stays closes
    rw [table, List.getElem?_set_ne apart]
    exact held

theorem seats_kept (seats : Seats g) (taken : step env g e = .ok g') : Seats g' := by
  have lasts (d : Block) (member : some d ∈ g.sessionTable) (stays : e ≠ .close d) :
      g'.socket d ≠ none ∧ (g'.blocks d).state = .play :=
    seated_step taken (seats.seated d member).1 (seats.seated d member).2 stays
  cases reseated seats taken with
  | still table sockets count _ closes =>
    refine ⟨table ▸ seats.slots, sockets ▸ seats.sockets, table ▸ seats.distinct, ?_, ?_, ?_⟩
    · intro d member
      rw [table] at member
      exact lasts d member fun closed => closes d closed member
    · intro i d held
      rw [table] at held
      have member := List.mem_of_getElem? held
      rw [sockets, step_socket taken (seats.seated d member).1 fun closed => closes d closed member]
      exact seats.paired i d held
    · rw [count, table]
      exact seats.count
  | @taken c i wsi socket stays away playing others empty table sockets count =>
    have small : i < g.sessionTable.length := (List.getElem?_eq_some_iff.mp empty).1
    have there : g.socket c ≠ none := by simp [socket]
    have fresh : c ∉ g.sessionTable.reduceOption := fun member =>
      away (seats.seated c (List.reduceOption_mem_iff.mp member)).2
    have entries := Slots.fill (a := c) empty
    refine ⟨?_, ?_, ?_, ?_, ?_, ?_⟩
    · rw [table, List.length_set]
      exact seats.slots
    · rw [sockets, List.length_set]
      exact seats.sockets
    · rw [table]
      exact entries.nodup_iff.mpr (List.nodup_cons.mpr ⟨fresh, seats.distinct⟩)
    · intro d member
      rw [table] at member
      rcases List.mem_or_eq_of_mem_set member with before | own
      · exact lasts d before (stays d)
      · cases own
        exact ⟨step_open taken there (stays _), playing⟩
    · intro j d held
      rw [table] at held
      by_cases here : i = j
      · subst here
        rw [List.getElem?_set_self small] at held
        cases held
        rw [sockets, List.getElem?_set_self (by rw [seats.sockets, ← seats.slots]; exact small),
          step_socket taken there (stays c), socket]
      · rw [List.getElem?_set_ne here] at held
        rw [sockets, List.getElem?_set_ne here,
          step_socket taken (seats.seated d (List.mem_of_getElem? held)).1 (stays d)]
        exact seats.paired j d held
    · rw [count, table, entries.length_eq, seats.count, List.length_cons]
      rfl
  | @freed c i closes held states table sockets count =>
    have entries := Slots.clear held
    have distinct := entries.nodup_iff.mp seats.distinct
    have gone : some c ∉ g.sessionTable.set i none := fun member =>
      (List.nodup_cons.mp distinct).1 (List.reduceOption_mem_iff.mpr member)
    have others (d : Block) (member : some d ∈ g'.sessionTable) :
        some d ∈ g.sessionTable ∧ e ≠ .close d := by
      rw [table] at member
      constructor
      · rcases List.mem_or_eq_of_mem_set member with before | own
        · exact before
        · cases own
      · rintro same
        cases closes.symm.trans same
        exact gone member
    refine ⟨?_, ?_, ?_, ?_, ?_, ?_⟩
    · rw [table, List.length_set]
      exact seats.slots
    · rw [sockets, List.length_set]
      exact seats.sockets
    · rw [table]
      exact (List.nodup_cons.mp distinct).2
    · intro d member
      exact lasts d (others d member).1 (others d member).2
    · intro j d later
      obtain ⟨before, stays⟩ := others d (List.mem_of_getElem? later)
      rw [table] at later
      have apart : i ≠ j := by
        rintro rfl
        rw [List.getElem?_set_self (List.getElem?_eq_some_iff.mp held).1] at later
        cases later
      rw [List.getElem?_set_ne apart] at later
      rw [sockets, List.getElem?_set_ne apart, step_socket taken (seats.seated d before).1 stays]
      exact seats.paired j d later
    · rw [count, table, seats.count, entries.length_eq, List.length_cons]
      omega

theorem seats_run {disk : Disk} {events : List Event}
    (reached : Machine.Reaches (step env) (boot env disk) events g) : Seats g :=
  Machine.invariant_every_run (step env) Seats (boot env disk) (seats_boot env disk)
    (fun _ _ _ seats taken => seats_kept seats taken) events g reached

/-- An entry into play goes without a slot only when all are taken. -/
theorem entered_full (seats : Seats g) (taken : step env g e = .ok g')
    (away : (g.blocks c).state ≠ .play) (playing : (g'.blocks c).state = .play)
    (unlisted : some c ∉ g'.sessionTable) : none ∉ g.sessionTable := by
  cases reseated seats taken with
  | still _ _ _ full => exact full c away playing
  | @taken d i _ _ _ _ _ others empty table =>
    by_cases own : c = d
    · subst own
      rw [table] at unlisted
      exact absurd (List.mem_set (List.getElem?_eq_some_iff.mp empty).1 _) unlisted
    · rw [others c own] at playing
      exact absurd playing away
  | freed _ _ states => exact absurd ((states c).symm.trans playing) away

/-- The step of the run at which c came into play, with no slot free. -/
def EnteredFull (env : Env) (disk : Disk) (events : List Event) (c : Block) : Prop :=
  ∃ front e after g₁ g₂, events = front ++ e :: after ∧
    Machine.Reaches (step env) (boot env disk) front g₁ ∧ step env g₁ e = .ok g₂ ∧
    (g₁.blocks c).state ≠ .play ∧ (g₂.blocks c).state = .play ∧ none ∉ g₁.sessionTable ∧
    .close c ∉ after

theorem unlisted_entered_full {disk : Disk} {events : List Event}
    (reached : Machine.Reaches (step env) (boot env disk) events g) :
    ∀ c, g.socket c ≠ none → (g.blocks c).state = .play → some c ∉ g.sessionTable →
      EnteredFull env disk events c := by
  refine Machine.history_run (step env)
    (fun events g => ∀ c, g.socket c ≠ none → (g.blocks c).state = .play →
      some c ∉ g.sessionTable → EnteredFull env disk events c) (boot env disk)
    (fun c there => absurd rfl there) (fun events g e g' front earlier taken c there playing
      unlisted => ?_) events g reached
  have seats := seats_run front
  by_cases away : (g.blocks c).state = .play
  · cases step_onward taken there with
    | fresh _ _ like =>
      rw [like.state] at playing
      cases playing
    | same opened stays =>
      have before : some c ∉ g.sessionTable := fun member => by
        obtain ⟨i, held⟩ := List.mem_iff_getElem?.mp member
        exact unlisted (List.mem_of_getElem? (slot_kept seats taken held stays))
      obtain ⟨start, d, after, g₁, g₂, rfl, first, entry, off, on, full, kept⟩ :=
        earlier c opened away before
      refine ⟨start, d, after ++ [e], g₁, g₂, by simp, first, entry, off, on, full, ?_⟩
      simpa [kept] using Ne.symm stays
    | login _ _ _ _ off => exact absurd away off
  · exact ⟨events, e, [], g, g', rfl, front, taken, away, playing,
      entered_full seats taken away playing unlisted, List.not_mem_nil⟩

theorem open_still {events : List Event} (stays : .close c ∉ events) :
    ∀ e ∈ events, e ≠ .close c :=
  fun _ member closes => stays (closes ▸ member)

theorem slot_lasts {later : List Event} {i : Nat} (seats : Seats g)
    (now : Machine.Reaches (step env) g later g') (held : g.sessionTable[i]? = some (some c))
    (stays : .close c ∉ later) : g'.sessionTable[i]? = some (some c) := by
  have lasting := Machine.lasts (fun g => Seats g ∧ g.sessionTable[i]? = some (some c))
    (· ≠ .close c) (fun g e next holds stays taken =>
      ⟨seats_kept holds.1 taken, slot_kept holds.1 taken holds.2 stays⟩)
    now ⟨seats, held⟩ (open_still stays)
  exact lasting.2

structure Unlisted (g : Server) (c : Block) : Prop where
  seats : Seats g
  there : g.socket c ≠ none
  playing : (g.blocks c).state = .play
  unlisted : some c ∉ g.sessionTable

theorem unlisted_step (unlisted : Unlisted g c) (stays : e ≠ .close c)
    (taken : step env g e = .ok g') : Unlisted g' c := by
  have seated := seated_step taken unlisted.there unlisted.playing stays
  refine ⟨seats_kept unlisted.seats taken, seated.1, seated.2, ?_⟩
  have absent := unlisted.unlisted
  cases reseated unlisted.seats taken with
  | still table =>
    rw [table]
    exact absent
  | taken _ _ away _ _ _ table =>
    rw [table]
    intro member
    rcases List.mem_or_eq_of_mem_set member with listed | own
    · exact absent listed
    · cases own
      exact away unlisted.playing
  | freed _ _ _ table =>
    rw [table]
    intro member
    rcases List.mem_or_eq_of_mem_set member with listed | own
    · exact absent listed
    · cases own

/-- In play without a slot, a session never comes to one. -/
theorem unlisted_lasts {later : List Event} (unlisted : Unlisted g c)
    (now : Machine.Reaches (step env) g later g') (stays : .close c ∉ later) : Unlisted g' c :=
  Machine.lasts (Unlisted · c) (· ≠ .close c)
    (fun _ _ _ unlisted stays taken => unlisted_step unlisted stays taken) now unlisted
    (open_still stays)

/-- Another player comes into play beside the first, and has a word. -/
def boVisits : List Event := returns 1 (str "bo") ++ [.message 1 (str "say hello"), .tick]

theorem ada_seated : ∃ g g', Machine.Reaches (step quietNode) (boot quietNode sharedDisk)
      (returns 0 (str "ada")) g ∧ g.sessionTable[0]? = some (some 0) ∧
    Machine.Reaches (step quietNode) g boVisits g' := by
  obtain ⟨g', reached, _⟩ := Machine.ends_reaches (step quietNode) (boot quietNode sharedDisk)
    (returns 0 (str "ada") ++ boVisits)
    (fun g => decide (g.sessionTable[1]? = some (some 1))) (by decide +kernel)
  obtain ⟨g, front, later⟩ := Machine.reaches_split reached
  obtain ⟨g₁, again, held⟩ := Machine.ends_reaches (step quietNode) (boot quietNode sharedDisk)
    (returns 0 (str "ada")) (fun g => decide (g.sessionTable[0]? = some (some 0)))
    (by decide +kernel)
  cases front.symm.trans again
  exact ⟨g, g', front, of_decide_eq_true held, later⟩

/-- With any number of connections in play, the entries of the table are distinct, each is an
open connection in play beside its own socket, and the count is theirs. -/
theorem seats_sound (env : Env) (disk : Disk) (events : List Event) (g : Server)
    (reached : Machine.Reaches (step env) (boot env disk) events g) :
    g.sessionTable.length = maxSessions ∧
    (∀ (i j : Nat) (c : Block), g.sessionTable[i]? = some (some c) →
      g.sessionTable[j]? = some (some c) → i = j) ∧
    (∀ (i : Nat) (c : Block), g.sessionTable[i]? = some (some c) →
      (g.blocks c).state = .play ∧
        ∃ wsi, g.socket c = some wsi ∧ g.sessionWsiTable[i]? = some wsi) ∧
    g.sessionCount = g.sessionTable.reduceOption.length ∧ g.sessionCount ≤ maxSessions := by
  have seats := seats_run reached
  refine ⟨seats.slots, fun i j c => Slots.once seats.distinct, fun i c held => ?_, seats.count, ?_⟩
  · obtain ⟨there, playing⟩ := seats.seated c (List.mem_of_getElem? held)
    obtain ⟨wsi, socket⟩ := Option.ne_none_iff_exists'.mp there
    exact ⟨playing, wsi, socket, (seats.paired i c held).trans socket⟩
  · rw [seats.count, ← seats.slots]
    exact Int.ofNat_le.mpr (List.reduceOption_length_le _)

theorem seats_sound_ada : ∃ g, Machine.Reaches (step quietNode) (boot quietNode sharedDisk)
    (returns 0 (str "ada")) g ∧ g.sessionTable[0]? = some (some 0) ∧
    g.sessionCount ≤ maxSessions := by
  obtain ⟨g, g', reached, held, _⟩ := ada_seated
  exact ⟨g, reached, held, (seats_sound _ _ _ g reached).2.2.2.2⟩

/-- A slot is kept until its connection closes. A session in play without one came into play
with none free, and never has one. -/
theorem seats_last (env : Env) (disk : Disk) (before later : List Event) (g g' : Server)
    (reached : Machine.Reaches (step env) (boot env disk) before g)
    (now : Machine.Reaches (step env) g later g') :
    (∀ (i : Nat) (c : Block), g.sessionTable[i]? = some (some c) → .close c ∉ later →
      g'.sessionTable[i]? = some (some c)) ∧
    (∀ c, g.socket c ≠ none → (g.blocks c).state = .play → some c ∉ g.sessionTable →
      EnteredFull env disk before c ∧ (.close c ∉ later → some c ∉ g'.sessionTable)) := by
  constructor
  · intro i c held stays
    exact slot_lasts (seats_run reached) now held stays
  · intro c there playing unlisted
    refine ⟨unlisted_entered_full reached c there playing unlisted, fun stays => ?_⟩
    exact (unlisted_lasts ⟨seats_run reached, there, playing, unlisted⟩ now stays).unlisted

theorem seats_last_ada : ∃ g, Machine.Reaches (step quietNode) (boot quietNode sharedDisk)
    (returns 0 (str "ada") ++ boVisits) g ∧ g.sessionTable[0]? = some (some 0) := by
  obtain ⟨g, g', reached, held, later⟩ := ada_seated
  refine ⟨g', ?_, (seats_last _ _ _ _ g g' reached later).1 0 0 held (by decide)⟩
  rw [Machine.Reaches, Machine.run_append _ _ _ _ _ reached]
  exact later

end HollowGrid
