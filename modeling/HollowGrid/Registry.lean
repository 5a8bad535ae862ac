import HollowGrid.Steps
import HollowGrid.Lib.Slots

/-! The session table of asm/combat.asm against the connections lws has open. -/
namespace HollowGrid

namespace Server

/-- The blocks of the open connections in play. -/
def playing (g : Server) : List Block :=
  (g.connections.map Prod.fst).filter fun c => (g.blocks c).state = .play

end Server

structure Registry (g : Server) : Prop where
  slots : g.sessionTable.length = maxSessions
  sockets : g.sessionWsiTable.length = maxSessions
  opened : (g.connections.map Prod.fst).Nodup
  entries : g.sessionTable.reduceOption.Perm g.playing
  paired : ∀ (i : Nat) (c : Block), g.sessionTable[i]? = some (some c) →
    g.sessionWsiTable[i]? = g.socket c
  count : g.sessionCount = g.playing.length

variable {g g' : Server} {c : Block}

theorem mem_playing (g : Server) (c : Block) :
    c ∈ g.playing ↔ (∃ wsi, (c, wsi) ∈ g.connections) ∧ (g.blocks c).state = .play := by
  simp [Server.playing]

theorem Registry.listed (reg : Registry g) (c : Block) : some c ∈ g.sessionTable ↔ c ∈ g.playing := by
  rw [← List.reduceOption_mem_iff]
  exact reg.entries.mem_iff

theorem Registry.playing_nodup (reg : Registry g) : g.playing.Nodup := reg.opened.filter _

theorem Registry.full (reg : Registry g) (full : none ∉ g.sessionTable) :
    g.playing.length = maxSessions := by
  rw [← reg.entries.length_eq, ← reg.slots]
  exact List.reduceOption_length_eq_iff.mpr fun entry member => by
    cases entry with
    | none => exact absurd member full
    | some d => rfl

theorem registry_boot (env : Env) (disk : Disk) : Registry (boot env disk) where
  slots := List.length_replicate
  sockets := List.length_replicate
  opened := List.nodup_nil
  entries := by
    change (List.replicate maxSessions none).reduceOption.Perm []
    rw [List.reduceOption_replicate_none]
  paired := fun i c held => by
    have member := List.mem_of_getElem? held
    cases List.eq_of_mem_replicate member
  count := rfl

theorem registry_frame (reg : Registry g) (table : g'.sessionTable = g.sessionTable)
    (sockets : g'.sessionWsiTable = g.sessionWsiTable) (count : g'.sessionCount = g.sessionCount)
    (connections : g'.connections = g.connections)
    (states : ∀ d, (g'.blocks d).state = .play ↔ (g.blocks d).state = .play) : Registry g' := by
  have playing : g'.playing = g.playing := by
    simp only [Server.playing, connections, states]
  constructor
  · rw [table]
    exact reg.slots
  · rw [sockets]
    exact reg.sockets
  · rw [connections]
    exact reg.opened
  · rw [table, playing]
    exact reg.entries
  · intro i d held
    rw [table] at held
    rw [sockets, Server.socket, connections]
    exact reg.paired i d held
  · rw [count, playing]
    exact reg.count

theorem registry_opened (reg : Registry g) (fresh : g.socket c = none) (wsi : Wsi) :
    Registry (g.opened c wsi) := by
  have apart : c ∉ g.connections.map Prod.fst := fun member =>
    (opened_iff g c).mpr member fresh
  have own : ((g.opened c wsi).blocks c).state = .name := by
    simp [Server.opened, Server.queued, newSession]
  have others (d : Block) (other : d ≠ c) : (g.opened c wsi).blocks d = g.blocks d := by
    rw [Server.opened, Server.queued, Server.setBlock_other _ _ other]
    exact g.setBlock_other _ other
  have playing : (g.opened c wsi).playing = g.playing := by
    change (c :: g.connections.map Prod.fst).filter _ = _
    rw [List.filter_cons_of_neg (by simp [own])]
    refine List.filter_congr fun d member => ?_
    rw [others d fun same => apart (same ▸ member)]
  refine ⟨reg.slots, reg.sockets, List.nodup_cons.mpr ⟨apart, reg.opened⟩, ?_, ?_, ?_⟩
  · rw [playing]
    exact reg.entries
  · intro i d held
    have seated : d ∈ g.playing := (reg.listed d).mp (List.mem_of_getElem? held)
    have other : d ≠ c := by
      rintro rfl
      exact apart (List.mem_of_mem_filter seated)
    have lookup : (g.opened c wsi).socket d = g.socket d := by
      change List.lookup d ((c, wsi) :: g.connections) = _
      rw [List.lookup_cons, beq_false_of_ne other]
      rfl
    rw [lookup]
    exact reg.paired i d held
  · rw [playing]
    exact reg.count

theorem registered_slot (free : none ∈ g.sessionTable) (fresh : some c ∉ g.sessionTable)
    (wsi : Wsi) : ∃ i : Nat, g.sessionTable[i]? = some none ∧
      g.registered c wsi = { g.setWsi c wsi with
        sessionTable := g.sessionTable.set i (some c)
        sessionWsiTable := g.sessionWsiTable.set i wsi
        sessionCount := g.sessionCount + 1 } := by
  cases slot : g.slotFor c with
  | none =>
    have all := List.findIdx?_eq_none_iff.mp slot none free
    simp at all
  | some i =>
    obtain ⟨small, stops, _⟩ := List.findIdx?_eq_some_iff_getElem.mp slot
    have held : g.sessionTable[i]? = some none := by
      rw [List.getElem?_eq_getElem small]
      simp only [Bool.or_eq_true, decide_eq_true_eq] at stops
      rcases stops with empty | own
      · rw [empty]
      · exact absurd (own ▸ List.getElem_mem small) fresh
    refine ⟨i, held, ?_⟩
    simp only [Server.registered, slot, held, if_pos]

theorem unregistered_slot (held : some c ∈ g.sessionTable) : ∃ i : Nat,
    g.sessionTable[i]? = some (some c) ∧
      g.unregistered c = { g.setWsi c 0 with
        sessionTable := g.sessionTable.set i none
        sessionWsiTable := g.sessionWsiTable.set i 0
        sessionCount := g.sessionCount - 1 } := by
  cases slot : g.sessionTable.idxOf? (some c) with
  | none =>
    have all := List.findIdx?_eq_none_iff.mp slot (some c) held
    simp at all
  | some i =>
    obtain ⟨small, stops, _⟩ := List.findIdx?_eq_some_iff_getElem.mp slot
    refine ⟨i, ?_, ?_⟩
    · rw [List.getElem?_eq_getElem small, eq_of_beq stops]
    · simp only [Server.unregistered, slot]

theorem registered_listed {wsi : Wsi} {d : Block}
    (member : some d ∈ (g.registered c wsi).sessionTable) :
    d = c ∨ some d ∈ g.sessionTable := by
  unfold Server.registered at member
  split at member
  · exact .inr member
  · rcases List.mem_or_eq_of_mem_set member with before | own
    · exact .inr before
    · exact .inl (Option.some.inj own)

theorem unregistered_listed {d : Block} (member : some d ∈ (g.unregistered c).sessionTable) :
    some d ∈ g.sessionTable := by
  unfold Server.unregistered at member
  split at member
  · exact member
  · rcases List.mem_or_eq_of_mem_set member with before | gone
    · exact before
    · cases gone

theorem landed_listed {s : Session} {disk : Disk} (landed : Landed False c g s disk g') {d : Block}
    (member : some d ∈ g'.sessionTable) : d = c ∨ some d ∈ g.sessionTable := by
  unfold Landed at landed
  split at landed
  · obtain ⟨_, ⟨s', asked, _, rfl⟩, rfl⟩ := landed
    have listed := registered_listed member
    exact listed
  · obtain ⟨s', asked, _, rfl⟩ := landed
    exact .inr member

/-- One of several distinct things is counted for the first time. -/
theorem filter_enters {l : List Block} {p q : Block → Bool} (distinct : l.Nodup) (member : c ∈ l)
    (out : p c = false) (now : q c = true) (others : ∀ d, d ≠ c → q d = p d) :
    (l.filter q).Perm (c :: l.filter p) := by
  refine (List.perm_ext_iff_of_nodup (distinct.filter q) ?_).mpr fun d => ?_
  · refine List.nodup_cons.mpr ⟨fun inside => ?_, distinct.filter p⟩
    rw [List.mem_filter, out] at inside
    cases inside.2
  · rw [List.mem_cons, List.mem_filter, List.mem_filter]
    by_cases same : d = c
    · subst same
      simp [member, now]
    · simp [same, others d same]

theorem registry_entered (reg : Registry g) (there : g.socket c ≠ none)
    (away : (g.blocks c).state ≠ .play) (free : none ∈ g.sessionTable) {s : Session}
    (state : s.state = .play) (disk : Disk) (asked : Nat) :
    Registry ((g.staged c s disk asked).registered c ((g.socket c).getD 0)) := by
  have member : c ∈ g.connections.map Prod.fst := (opened_iff g c).mp there
  have fresh : some c ∉ g.sessionTable := fun held =>
    away ((mem_playing g c).mp ((reg.listed c).mp held)).2
  obtain ⟨i, empty, same⟩ := registered_slot (g := g.staged c s disk asked) free fresh
    ((g.socket c).getD 0)
  have small : i < g.sessionTable.length := (List.getElem?_eq_some_iff.mp empty).1
  have playing : ((g.staged c s disk asked).registered c ((g.socket c).getD 0)).playing.Perm
      (c :: g.playing) := by
    rw [same]
    refine filter_enters reg.opened member (by simpa using away) ?_ fun d other => ?_
    · simp [Server.setWsi, Server.staged_own, state]
    · simp [Server.setWsi, Server.setBlock_other _ _ other, Server.staged_other _ _ _ _ _ _ other]
  rw [same] at playing ⊢
  refine ⟨?_, ?_, reg.opened, ?_, ?_, ?_⟩
  · rw [List.length_set]
    exact reg.slots
  · rw [List.length_set]
    exact reg.sockets
  · exact (Slots.fill empty).trans ((reg.entries.cons c).trans playing.symm)
  · intro j d held
    change (g.sessionTable.set i (some c))[j]? = some (some d) at held
    change (g.sessionWsiTable.set i _)[j]? = g.socket d
    by_cases here : i = j
    · subst here
      rw [List.getElem?_set_self small] at held
      cases held
      obtain ⟨wsi, socket⟩ := Option.ne_none_iff_exists'.mp there
      rw [List.getElem?_set_self (by rw [reg.sockets, ← reg.slots]; exact small), socket]
      rfl
    · rw [List.getElem?_set_ne here] at held ⊢
      exact reg.paired j d held
  · rw [playing.length_eq]
    change g.sessionCount + 1 = _
    rw [reg.count, List.length_cons]
    rfl

theorem released_playing (g : Server) (c : Block) :
    (g.released c).playing = g.playing.filter (· ≠ c) := by
  have blocks : (g.released c).connections.map Prod.fst =
      (g.connections.map Prod.fst).filter (· ≠ c) := by
    rw [List.filter_map]
    rfl
  rw [Server.playing, Server.playing, blocks, List.filter_comm]
  simp only [released_state]

theorem released_opened (reg : Registry g) (c : Block) :
    ((g.released c).connections.map Prod.fst).Nodup :=
  reg.opened.sublist (List.filter_sublist.map _)

theorem registry_hung_up (reg : Registry g) (away : (g.blocks c).state ≠ .play) :
    Registry (g.released c) := by
  have playing : (g.released c).playing = g.playing := by
    rw [released_playing]
    refine List.filter_eq_self.mpr fun d member => decide_eq_true fun same => away ?_
    exact same ▸ ((mem_playing g d).mp member).2
  refine ⟨reg.slots, reg.sockets, released_opened reg c, ?_, fun i d held => ?_, ?_⟩
  · rw [playing]
    exact reg.entries
  · have other : d ≠ c := fun same =>
      away (same ▸ ((mem_playing g d).mp ((reg.listed d).mp (List.mem_of_getElem? held))).2)
    rw [released_socket g other]
    exact reg.paired i d held
  · rw [playing]
    exact reg.count

/-- A connection in play is closed, and its slot is free again. -/
theorem registry_left (reg : Registry g) (there : g.socket c ≠ none)
    (seated : (g.blocks c).state = .play) : Registry ((g.unregistered c).released c) := by
  have member : c ∈ g.playing := by
    rw [Server.playing, List.mem_filter]
    exact ⟨(opened_iff g c).mp there, by simpa using seated⟩
  obtain ⟨i, held, same⟩ := unregistered_slot ((reg.listed c).mpr member)
  have playing : ((g.unregistered c).released c).playing = g.playing.erase c := by
    have kept : (g.unregistered c).playing = g.playing := by
      rw [same]
      refine List.filter_congr fun d _ => ?_
      by_cases own : d = c
      · subst own
        simp [Server.setWsi]
      · simp [Server.setWsi, Server.setBlock_other _ _ own]
    rw [released_playing, kept, reg.playing_nodup.erase_eq_filter]
    refine List.filter_congr fun d _ => ?_
    rw [bne, Bool.eq_iff_iff]
    simp
  refine ⟨?_, ?_, ?_, ?_, fun j d later => ?_, ?_⟩
  · rw [same]
    exact (List.length_set ..).trans reg.slots
  · rw [same]
    exact (List.length_set ..).trans reg.sockets
  · rw [same]
    exact released_opened (g := g) reg c
  · rw [playing, same]
    have entries := (Slots.clear held).symm.trans reg.entries
    exact (List.cons_perm_iff_perm_erase.mp entries).2
  · have taken : (g.sessionTable.set i none)[j]? = some (some d) := by
      rw [same] at later
      exact later
    have apart : i ≠ j := by
      rintro rfl
      rw [List.getElem?_set_self (List.getElem?_eq_some_iff.mp held).1] at taken
      cases taken
    rw [List.getElem?_set_ne apart] at taken
    have other : d ≠ c := by
      rintro rfl
      exact apart (Slots.once (reg.entries.nodup_iff.mpr reg.playing_nodup) held taken)
    rw [released_socket _ other, same]
    change (g.sessionWsiTable.set i 0)[j]? = g.socket d
    rw [List.getElem?_set_ne apart]
    exact reg.paired j d taken
  · rw [playing, same]
    change g.sessionCount - 1 = _
    rw [reg.count, List.length_erase_of_mem member]
    have some_one : 0 < g.playing.length := List.length_pos_of_mem member
    omega

theorem entered_playing {env : Env} {e : Event} (reg : Registry g)
    (entered : Entered env g e g' c) (seated : (g'.blocks c).state = .play) :
    g'.playing.length = g.playing.length + 1 := by
  have away : decide ((g.blocks c).state = .play) = false := by rw [entered.asked]; rfl
  have more := filter_enters (q := fun d => decide ((g'.blocks d).state = .play)) reg.opened
    ((opened_iff g c).mp entered.there) away (decide_eq_true seated)
    fun d other => by rw [entered.others d other]
  rw [Server.playing, entered.connections, more.length_eq]
  rfl

theorem registry_step {env : Env} {e : Event} (reg : Registry g) (taken : step env g e = .ok g')
    (room : ∀ c, (g'.blocks c).state = .play → Entered env g e g' c → none ∈ g.sessionTable) :
    Registry g' := by
  cases step_cases taken with
  | ignored => exact reg
  | connected fresh => exact registry_opened reg fresh _
  | @refused c text =>
    refine registry_frame reg rfl rfl rfl rfl fun d => ?_
    by_cases own : d = c
    · subst own
      simp [Server.queued]
    · rw [Server.queued, g.setBlock_other _ own]
  | @login c text _ there short away moved =>
    by_cases seated : (g'.blocks c).state = .play
    · have entered := entering taken away seated
      obtain ⟨s', disk', _, _, landed⟩ := moved
      have state : s'.state = .play := (landed_own landed).state.symm.trans seated
      rw [Landed, if_pos state] at landed
      obtain ⟨_, ⟨s'', asked, like, rfl⟩, rfl⟩ := landed
      exact registry_entered reg there away (room c seated entered) (like.state.trans state) disk'
        asked
    · obtain ⟨s', disk', _, _, landed⟩ := moved
      have state : s'.state ≠ .play := (landed_own landed).state ▸ seated
      rw [Landed, if_neg state] at landed
      obtain ⟨s'', asked, like, rfl⟩ := landed
      refine registry_frame reg rfl rfl rfl rfl fun d => ?_
      by_cases own : d = c
      · subst own
        exact iff_of_false seated away
      · rw [Server.staged_other _ _ _ _ _ _ own]
  | played _ _ played =>
    exact registry_frame reg played.table played.sockets played.count played.connections
      fun d => by rw [(played.peers d).state]
  | @wrote c _ there wrote =>
    obtain ⟨outbox, dropped, asked, _, _, rfl⟩ := wrote
    refine registry_frame reg rfl rfl rfl rfl fun d => ?_
    by_cases own : d = c
    · subst own
      simp
    · rw [(g.setBlock_other _ own : _ = g.blocks d)]
  | @left c disk' asked there seated =>
    exact registry_left (g := { g with disk := disk', asked := asked })
      (registry_frame reg rfl rfl rfl rfl fun _ => Iff.rfl) there seated
  | hungUp _ away => exact registry_hung_up reg away
  | ticked played =>
    exact registry_frame reg played.table played.sockets played.count played.connections
      fun d => by rw [(played.peers d).state]

theorem registry_run {env : Env} {disk : Disk} {events : List Event}
    (reached : Machine.Reaches (step env) (boot env disk) events g)
    (few : Machine.Within (step env) (fun g => g.playing.length ≤ maxSessions) (boot env disk)
      events) : Registry g := by
  refine Machine.invariant_within (step env) _ Registry (boot env disk) (registry_boot env disk)
    (fun g e g' reg few taken => ?_) events few g reached
  refine registry_step reg taken fun c seated entered => ?_
  by_contra full
  have more := entered_playing reg entered seated
  rw [reg.full full] at more
  omega

/-- The table is exact in every state of a run with at most as many in play as it has slots. -/
theorem session_table_exact (env : Env) (disk : Disk) (events : List Event) (g : Server)
    (reached : Machine.Reaches (step env) (boot env disk) events g)
    (few : Machine.Within (step env) (fun g => g.playing.length ≤ maxSessions) (boot env disk)
      events) :
    (∀ (i j : Nat) (c : Block), g.sessionTable[i]? = some (some c) →
      g.sessionTable[j]? = some (some c) → i = j) ∧
    (∀ c, some c ∈ g.sessionTable ↔
      (∃ wsi, (c, wsi) ∈ g.connections) ∧ (g.blocks c).state = .play) ∧
    (∀ (i : Nat) (c : Block), g.sessionTable[i]? = some (some c) →
      ∃ wsi, g.socket c = some wsi ∧ g.sessionWsiTable[i]? = some wsi) ∧
    g.sessionCount = g.sessionTable.reduceOption.length := by
  have reg := registry_run reached few
  refine ⟨fun i j c first second => ?_, fun c => ?_, fun i c held => ?_, ?_⟩
  · exact Slots.once (reg.entries.nodup_iff.mpr reg.playing_nodup) first second
  · rw [reg.listed c, mem_playing]
  · have seated := (reg.listed c).mp (List.mem_of_getElem? held)
    have there := (opened_iff g c).mpr (List.mem_of_mem_filter seated)
    obtain ⟨wsi, socket⟩ := Option.ne_none_iff_exists'.mp there
    exact ⟨wsi, socket, (reg.paired i c held).trans socket⟩
  · rw [reg.count, reg.entries.length_eq]

/-- Two players return, and the first one leaves. -/
theorem session_table_exact_returns : ∃ g, Machine.Reaches (step quietNode)
      (boot quietNode sharedDisk) (returns 0 (str "ada") ++ returns 1 (str "bo") ++ [.close 0]) g ∧
    g.playing = [1] ∧
    (∀ c, some c ∈ g.sessionTable ↔
      (∃ wsi, (c, wsi) ∈ g.connections) ∧ (g.blocks c).state = .play) := by
  obtain ⟨g, reached, alone⟩ := Machine.ends_reaches (step quietNode) (boot quietNode sharedDisk)
    (returns 0 (str "ada") ++ returns 1 (str "bo") ++ [.close 0]) (fun g => g.playing = [1])
    (by decide +kernel)
  have few := Machine.within_checked (step quietNode) (fun g => g.playing.length ≤ maxSessions)
    (boot quietNode sharedDisk) (returns 0 (str "ada") ++ returns 1 (str "bo") ++ [.close 0])
    (by decide +kernel)
  exact ⟨g, reached, of_decide_eq_true alone, (session_table_exact _ _ _ g reached few).2.1⟩

end HollowGrid
