import HollowGrid.Limits

/-! The glow-rat: what attacks, pulses and heartbeats make of it in any order. -/
namespace HollowGrid

/-- What a round, a pulse or a heartbeat can see of the hunt for the rat. -/
structure Scene where
  ratHp : Int
  ratAlive : Bool
  ratDiedAt : Int
  fight : Block → Fight
  xp : Block → Int
  name : Block → Bytes
  place : Block → Int
  chronicle : LocalHub
  table : List (Option Block)
  sockets : List Wsi

/-- The stores of the hub a kill is recorded in. -/
def chronicle (h : LocalHub) : LocalHub := { traces := h.traces, echo := h.echo }

def Server.scene (g : Server) : Scene where
  ratHp := g.world.ratHp
  ratAlive := g.world.ratAlive
  ratDiedAt := g.world.ratDiedAt
  fight := fun d => (g.blocks d).toFight
  xp := fun d => (g.blocks d).xp
  name := fun d => (g.blocks d).name
  place := fun d => (g.blocks d).room
  chronicle := chronicle g.grid
  table := g.sessionTable
  sockets := g.sessionWsiTable

namespace Scene

def fought (v : Scene) (c : Block) (f : Fight) : Scene :=
  { v with fight := Function.update v.fight c f }

@[simp]
theorem fought_own (v : Scene) (c : Block) (f : Fight) : (v.fought c f).fight c = f :=
  Function.update_self ..

theorem fought_other (v : Scene) {c d : Block} (f : Fight) (other : d ≠ c) :
    (v.fought c f).fight d = v.fight d :=
  Function.update_of_ne other ..

theorem fought_again (v : Scene) (c : Block) (f f' : Fight) :
    (v.fought c f).fought c f' = v.fought c f' := by
  simp only [fought, Function.update_idem]

def calmed (v : Scene) (c : Block) : Scene :=
  v.fought c { v.fight c with target := 0, inCombat := false }

def armed (v : Scene) (c : Block) (at_ms : Int) : Scene :=
  v.fought c { v.fight c with lastTick := at_ms }

theorem armed_calmed (v : Scene) (c : Block) (at_ms : Int) : (v.armed c at_ms).calmed c =
    v.fought c { v.fight c with target := 0, inCombat := false, lastTick := at_ms } := by
  simp only [calmed, armed, fought, Function.update_self, Function.update_idem]

end Scene

def killRecorded (env : Env) (node slayer : Bytes) (k₁ k₂ : Nat) (h : LocalHub) : LocalHub :=
  let text := safeCopy 256 (slayer ++ str " slew " ++ str "a glow-rat" ++ str " here.")
  (if env.remote then h
    else h.record (bootName env) node (str "slain") text (env.now k₁)).recordEcho node
      (str "slain") text (env.now k₂)

/-- The hunt is seen as it was, and the clock has not gone back. -/
def Shows (v : Scene) (n : Nat) (g : Server) : Prop := g.scene = v ∧ n ≤ g.asked

section Views

variable {env : Env} {c : Block} {g : Server} {v : Scene} {n : Nat}

theorem scene_block (g : Server) {s : Session} (fight : s.toFight = (g.blocks c).toFight)
    (xp : s.xp = (g.blocks c).xp) (name : s.name = (g.blocks c).name)
    (room : s.room = (g.blocks c).room) : (g.setBlock c s).scene = g.scene := by
  have same {α : Type} (f : Session → α) (own : f s = f (g.blocks c)) :
      (fun d => f ((g.setBlock c s).blocks d)) = fun d => f (g.blocks d) := by
    funext d
    by_cases here : d = c
    · subst here
      rw [g.setBlock_own, own]
    · rw [g.setBlock_other s here]
  have fights := same (fun s => s.toFight) fight
  have earned := same (fun s => s.xp) xp
  have names := same (fun s => s.name) name
  have places := same (fun s => s.room) room
  unfold Server.scene
  rw [fights, earned, names, places]
  rfl

theorem field_block {α : Type} (g : Server) (c : Block) (s : Session) (f : Session → α) :
    (fun d => f ((g.setBlock c s).blocks d)) =
      Function.update (fun d => f (g.blocks d)) c (f s) := by
  funext d
  by_cases here : d = c
  · subst here
    rw [Function.update_self, g.setBlock_own]
  · rw [Function.update_of_ne here, g.setBlock_other _ here]

theorem scene_fought (g : Server) (c : Block) (f : Fight) :
    (g.fought c f).scene = g.scene.fought c f := by
  have each {α : Type} (h : Session → α) := field_block g c { g.blocks c with toFight := f } h
  have fights := each fun s => s.toFight
  have earned := each fun s => s.xp
  have names := each fun s => s.name
  have places := each fun s => s.room
  unfold Server.scene Server.fought
  rw [fights, earned, names, places, Function.update_eq_self, Function.update_eq_self,
    Function.update_eq_self]
  rfl

theorem scene_earned (g : Server) (c : Block) (more : Int) :
    (g.updated c fun ch => { ch with xp := ch.xp + more }).scene =
      { g.scene with xp := Function.update g.scene.xp c (g.scene.xp c + more) } := by
  have each {α : Type} (h : Session → α) := field_block g c { g.blocks c with
    xp := (g.blocks c).xp + more } h
  have fights := each fun s => s.toFight
  have earned := each fun s => s.xp
  have names := each fun s => s.name
  have places := each fun s => s.room
  unfold Server.scene Server.updated
  rw [fights, earned, names, places, Function.update_eq_self, Function.update_eq_self,
    Function.update_eq_self]
  rfl

theorem scene_moved (g : Server) (c : Block) {f : Character → Character} {room : Int}
    (xp : ∀ ch, (f ch).xp = ch.xp) (moved : ∀ ch, (f ch).room = room) :
    (g.updated c f).scene = { g.scene with place := Function.update g.scene.place c room } := by
  have each {α : Type} (h : Session → α) := field_block g c { g.blocks c with
    toCharacter := f (g.blocks c).toCharacter } h
  have fights := each fun s => s.toFight
  have earned := each fun s => s.xp
  have names := each fun s => s.name
  have places := each fun s => s.room
  unfold Server.scene Server.updated
  rw [fights, earned, names, places, xp, moved, Function.update_eq_self, Function.update_eq_self,
    Function.update_eq_self]
  rfl

theorem shows_block (shown : Shows v n g) {s : Session}
    (fight : s.toFight = (g.blocks c).toFight) (xp : s.xp = (g.blocks c).xp)
    (name : s.name = (g.blocks c).name) (room : s.room = (g.blocks c).room) :
    Shows v n (g.setBlock c s) :=
  ⟨(scene_block g fight xp name room).trans shown.1, shown.2⟩

theorem shows_watches (env : Env) (v : Scene) (n : Nat) :
    Watches False env (fun _ => True) (Shows v n) where
  bounds := trivial
  outside := outside_lax env
  tidy := fun g _ => tidy_lax g
  asked := fun _ shown => ⟨shown.1, Nat.le_succ_of_le shown.2⟩

/-- Nothing of the hunt is in a report. -/
theorem shows_reports (env : Env) (c : Block) (v : Scene) (n : Nat) :
    Reports False env (fun _ => True) c (Shows v n) where
  toWatches := shows_watches env v n
  say := fun _ _ shown _ => by apply shows_block shown <;> rfl
  close := fun _ shown => by apply shows_block shown <;> rfl

theorem shows_save (env : Env) (c : Block) (v : Scene) (n : Nat) :
    Keeps (Shows v n) (fun _ => True) (storeSave env c) Any := by
  intro g shown
  have saved : Shows v n (g.saved env c) := by
    unfold Server.saved
    cases characterPath (g.blocks c).name with
    | none => exact shown
    | some key =>
      have asking : Shows v n { g with asked := g.asked + 1 } := ⟨shown.1, Nat.le_succ_of_le shown.2⟩
      cases env.writing g.asked <;> exact asking
  rw [store_save_run]
  exact ⟨saved, trivial⟩

theorem shows_heard (shown : Shows v n g) (c : Block) (wsi : Wsi) : Shows v n (g.setWsi c wsi) := by
  apply shows_block shown <;> rfl

/-- A write to a character that is no reward. -/
theorem shows_update (c : Block) (v : Scene) (n : Nat) {f : Character → Character}
    (plain : ∀ ch, (f ch).xp = ch.xp ∧ (f ch).room = ch.room) :
    Keeps (Shows v n) (fun _ => True) (update c f) Any := by
  apply Keeps.modify
  intro g shown
  obtain ⟨xp, room⟩ := plain (g.blocks c).toCharacter
  exact shows_block shown rfl xp rfl room

/-- The name and the room that a program reads are those it is seen with. -/
theorem shows_session (c : Block) (v : Scene) (n : Nat) :
    Leads (Shows v n) (fun _ => True) (session c) fun s g =>
      (s.name = v.name c ∧ s.room = v.place c) ∧ Shows v n g := by
  rintro g ⟨rfl, later⟩
  exact ⟨⟨rfl, rfl⟩, rfl, later⟩

theorem shows_calm (c : Block) (v : Scene) (n : Nat) :
    Leads (Shows v n) (fun _ => True) (calm c) fun _ => Shows (v.calmed c) n := by
  rintro g ⟨rfl, later⟩
  exact ⟨scene_fought g c _, later⟩

/-- A reading of the clock is one of those still to come. -/
theorem shows_time (env : Env) (v : Scene) (n : Nat) :
    Leads (Shows v n) (fun _ => True) (nowMs env) fun at_ms g =>
      ∃ m, (n ≤ m ∧ env.now m = at_ms) ∧ Shows v (m + 1) g := by
  rintro g ⟨rfl, later⟩
  exact ⟨g.asked, ⟨later, rfl⟩, rfl, Nat.le_refl _⟩

/-- A call of the hub leaves its own stores alone. -/
theorem shows_call (env : Env) (method : String) (params : List Json) (v : Scene) (n : Nat) :
    Keeps (Shows v n) (fun _ => True) (ignore (rpcCall env method params)) Any := by
  apply keeps_ignored (Q := Any)
  unfold rpcCall
  exact Keeps.branch ((shows_watches env v n).asks_any _) (Keeps.pure trivial)

/-- A death goes to a store of its own. -/
theorem shows_death (env : Env) (room name : Bytes) (v : Scene) (n : Nat) :
    Keeps (Shows v n) (fun _ => True) (gridOnDeath env room name) Any := by
  apply Keeps.bind ((shows_watches env v n).asks_any env.now)
  intro at_ms _
  apply Keeps.branch (shows_call env _ _ v n)
  exact Keeps.modify fun g shown => ⟨shown.1, shown.2⟩

theorem shows_kill (env : Env) (room name : Bytes) (v : Scene) (n : Nat) :
    Leads (Shows v n) (fun _ => True) (gridOnKill env room name (str "a glow-rat")) fun _ g =>
      ∃ k₁ k₂, (n ≤ k₁ ∧ k₁ < k₂) ∧
        Shows { v with chronicle := killRecorded env room name k₁ k₂ v.chronicle } (k₂ + 1) g := by
  rintro g ⟨rfl, later⟩
  unfold gridOnKill gridRecord rpcCall
  cases away : env.remote with
  | true =>
    refine ⟨g.asked, g.asked + 2, ⟨later, by omega⟩, ?_, Nat.le_refl _⟩
    simp only [killRecorded, away, if_true]
    rfl
  | false =>
    refine ⟨g.asked, g.asked + 1, ⟨later, by omega⟩, ?_, Nat.le_refl _⟩
    simp only [killRecorded, away, Bool.false_eq_true, if_false]
    rfl

end Views

inductive RoundEnd
  | killed | died | gone
  deriving DecidableEq, Repr

def RoundEnd.result : RoundEnd → String
  | killed => "killed"
  | died => "died"
  | gone => "gone"

/-- What a fighter hears of the end of a fight. -/
def endLine (e : RoundEnd) : Text :=
  lit r#"@event combat.end {"mob":"rat","result":""# ++ lit e.result ++ lit r#""}"# ++ crlf

/-- From one state to the other the outbox of d is given a text, perhaps among others, and takes
what there is room for. -/
def Hears (d : Block) (t : Text) (g g' : Server) : Prop :=
  ∃ front back, (g'.blocks d).outbox = (g.blocks d).outbox ++
    (front ++ t ++ back).take (outCap - (g.blocks d).outbox.length)

def roundEnd (s : Session) (w : World) : Option RoundEnd :=
  if s.target = 0 then none
  else if w.ratAlive then
    if w.ratHp - playerDamage s ≤ 0 then some .killed
    else if s.hp - 4 ≤ 0 then some .died
    else none
  else some .gone

inductive Round (env : Env) (c : Block) (v : Scene) (n last : Nat) : Option RoundEnd → Scene → Prop
  | idle : (v.fight c).target = 0 → Round env c v n last none v
  | hit (left : Int) : v.ratAlive = true → 0 < left → left ≤ v.ratHp →
      Round env c v n last none { v with ratHp := left }
  | died (left : Int) : v.ratAlive = true → 0 < left → left ≤ v.ratHp →
      Round env c v n last (some .died) (Scene.calmed { v with
        ratHp := left, place := Function.update v.place c roomNexus } c)
  | gone : v.ratAlive = false → Round env c v n last (some .gone) (v.calmed c)
  | killed (m k₁ k₂ : Nat) : v.ratAlive = true → n ≤ m → m < k₁ → k₁ < k₂ → k₂ < last →
      Round env c v n last (some .killed)
        { v.calmed c with
          ratHp := 0, ratAlive := false, ratDiedAt := env.now m,
          xp := Function.update v.xp c (v.xp c + 8),
          chronicle := killRecorded env (roomIdBytes (v.place c)) (v.name c) k₁ k₂ v.chronicle }

section Telling

variable {g g₁ g₂ : Server} {c d : Block} {t : Text}

theorem hears_nothing (d : Block) (g : Server) : Hears d [] g g :=
  ⟨[], [], by rw [List.append_nil, List.append_nil, List.take_nil, List.append_nil]⟩

theorem hears_same (same : (g₂.blocks d).outbox = (g₁.blocks d).outbox) (heard : Hears d t g g₁) :
    Hears d t g g₂ := by
  obtain ⟨front, back, told⟩ := heard
  exact ⟨front, back, same.trans told⟩

/-- A text that comes behind others takes what room they left. -/
theorem taken_twice (room : Nat) (xs ys : Text) :
    xs.take room ++ ys.take (room - (xs.take room).length) = (xs ++ ys).take room := by
  rw [List.take_append, List.length_take]
  congr 2
  omega

theorem hears_after (heard : Hears d t g g₁) (later : Hears d [] g₁ g₂) : Hears d t g g₂ := by
  obtain ⟨front, back, told⟩ := heard
  obtain ⟨front₂, back₂, told₂⟩ := later
  refine ⟨front, back ++ (front₂ ++ [] ++ back₂), ?_⟩
  rw [told₂, told, List.append_assoc, List.length_append, Nat.sub_add_eq, taken_twice,
    List.append_assoc (front ++ t)]

theorem hears_before (before : Hears d [] g g₁) (heard : Hears d t g₁ g₂) : Hears d t g g₂ := by
  obtain ⟨front, back, told⟩ := before
  obtain ⟨front₂, back₂, told₂⟩ := heard
  refine ⟨front ++ [] ++ back ++ front₂, back₂, ?_⟩
  rw [told₂, told, List.append_assoc, List.length_append, Nat.sub_add_eq, taken_twice]
  simp only [List.append_assoc]

theorem hears_queued (g : Server) (d : Block) (t : Text) : Hears d t g (g.queued d t) := by
  refine ⟨[], [], ?_⟩
  rw [Server.queued, Server.setBlock_own, List.nil_append, List.append_nil]

/-- What is heard stays heard, whatever comes behind it. -/
theorem hears_permits (env : Env) (d : Block) (t : Text) (g : Server) :
    Permits False env (fun _ => True) (fun _ => True) (fun _ _ => True) (fun _ => True)
      (Hears d t g) := by
  have block {g₁ : Server} {c : Block} {s : Session} (heard : Hears d t g g₁)
      (same : s.outbox = (g₁.blocks c).outbox) : Hears d t g (g₁.setBlock c s) := by
    refine hears_same ?_ heard
    by_cases own : d = c
    · subst own
      rw [g₁.setBlock_own, same]
    · rw [g₁.setBlock_other s own]
  exact {
    bounds := trivial
    outside := outside_lax env
    tidy := fun g _ => tidy_lax g
    asked := fun _ heard => heard
    peers := fun _ _ _ _ => trivial
    say := fun g₁ c u heard _ _ => by
      by_cases own : c = d
      · subst own
        obtain ⟨front, back, told⟩ := hears_queued g₁ c u
        exact hears_after heard ⟨front ++ u, back, by rw [told, List.append_nil]⟩
      · exact hears_same (congrArg Session.outbox (g₁.setBlock_other _ (Ne.symm own))) heard
    close := fun _ _ heard _ => block heard rfl
    change := fun _ _ _ heard _ _ _ => block heard rfl
    fight := fun _ _ _ heard _ _ => block heard rfl
    socket := fun _ _ _ heard _ => block heard rfl
    save := fun g₁ c heard _ => by
      obtain ⟨disk, asked, _, same⟩ := saved_disk env c g₁
      rw [same]
      exact heard
    world := fun _ _ heard _ => heard
    ledger := fun _ _ heard _ => heard
    grid := fun _ _ heard _ => heard }

theorem hears_queue (d : Block) (t : Text) (g : Server) :
    Leads (Hears d [] g) (fun _ => True) (queue d t) fun _ => Hears d t g := by
  apply Leads.modify
  intro g₁ heard
  exact hears_before heard (hears_queued g₁ d t)

theorem end_line (e : RoundEnd) : fmtCombatEnd "rat" e.result = endLine e := by
  cases e <;> decide +kernel

theorem end_whole (e : RoundEnd) : snprintf 500 (fmtCombatEnd "rat" e.result) = endLine e := by
  rw [end_line]
  cases e <;> decide +kernel

end Telling

section Rounds

variable {env : Env} {c : Block} {v : Scene} {n : Nat}

theorem rat_killed_leads : Leads (Shows v n) (fun _ => True) (ratKilled env c) fun _ g =>
    ∃ m k₁ k₂, n ≤ m ∧ m < k₁ ∧ k₁ < k₂ ∧ k₂ < g.asked ∧ g.scene =
      { v.calmed c with
        ratAlive := false, ratDiedAt := env.now m,
        xp := Function.update v.xp c (v.xp c + 8),
        chronicle := killRecorded env (roomIdBytes (v.place c)) (v.name c) k₁ k₂ v.chronicle } := by
  apply Leads.bind (shows_session c v n)
  intro s
  apply Leads.given
  rintro ⟨name, room⟩
  apply Leads.seq (M := Shows { v with ratAlive := false } n)
  · apply Leads.modify
    rintro g ⟨rfl, later⟩
    exact ⟨rfl, later⟩
  apply Leads.bind (shows_time env _ n)
  intro died
  apply Leads.some_one
  intro m
  apply Leads.given
  rintro ⟨first, rfl⟩
  have r := shows_reports env c
  apply Leads.seq (M := Shows { v with ratAlive := false, ratDiedAt := env.now m } (m + 1))
  · apply Leads.modify
    rintro g ⟨shown, later⟩
    refine ⟨?_, later⟩
    change { g.scene with ratDiedAt := env.now m } = _
    rw [shown]
  apply Leads.seq (shows_calm c _ _)
  apply Leads.seq (M := Shows { v.calmed c with
    ratAlive := false, ratDiedAt := env.now m, xp := Function.update v.xp c (v.xp c + 8) } (m + 1))
  · apply Leads.modify
    rintro g ⟨shown, later⟩
    refine ⟨?_, later⟩
    rw [scene_earned, shown]
    rfl
  apply Leads.seq (Leads.stays ((r _ _).said nofun))
  apply Leads.seq (Leads.stays ((r _ _).said nofun))
  apply Leads.seq (shows_kill env _ _ _ _)
  apply Leads.some_one
  intro k₁
  apply Leads.some_one
  intro k₂
  apply Leads.given
  rintro ⟨after, apart⟩
  apply Leads.weaken (Leads.stays (Keeps.seq (r _ _).vitals (shows_save env c _ _)))
  rintro _ g ⟨shown, later⟩
  rw [name, room] at shown
  exact ⟨m, k₁, k₂, first, after, apart, later, shown⟩

theorem player_died_leads : Leads (Shows v n) (fun _ => True) (playerDied env c) fun _ =>
    Shows (Scene.calmed { v with place := Function.update v.place c roomNexus } c) n := by
  have r := shows_reports env c
  apply Leads.after (keeps_session c)
  intro s _
  apply Leads.seq (Leads.stays (shows_death env _ _ v n))
  apply Leads.seq (M := Shows { v with place := Function.update v.place c roomNexus } n)
  · apply Leads.modify
    rintro g ⟨rfl, later⟩
    exact ⟨scene_moved g c (fun _ => rfl) (fun _ => rfl), later⟩
  apply Leads.seq (shows_calm c _ n)
  apply Leads.stays (q := Any)
  apply Keeps.seq ((r _ _).said nofun)
  apply Keeps.seq ((r _ _).said nofun)
  apply Keeps.seq ((r _ _).said nofun)
  exact Keeps.seq (r _ _).vitals (r _ _).scene_now

theorem damage_positive (s : Session) : 0 < playerDamage s := by
  unfold playerDamage
  split <;> decide

theorem round_leads (g : Server) : Leads (· = g) (fun _ => True) (combatRound env c) fun _ g' =>
    g.asked ≤ g'.asked ∧
      Round env c g.scene g.asked g'.asked (roundEnd (g.blocks c) g.world) g'.scene := by
  have r := shows_reports env c
  have still : Shows g.scene g.asked g := ⟨rfl, Nat.le_refl _⟩
  apply Leads.reads (rfl : session c g = .ok (g.blocks c, g))
  apply Leads.reads (rfl : getWorld g = .ok (g.world, g))
  unfold roundEnd
  by_cases aimless : (g.blocks c).target = 0
  · simp only [if_pos aimless]
    apply Leads.pure
    rintro _ rfl
    exact ⟨Nat.le_refl _, .idle aimless⟩
  simp only [if_neg aimless]
  cases lives : g.world.ratAlive with
  | false =>
    simp only [Bool.false_eq_true, if_false]
    apply Leads.start still
    apply Leads.seq (shows_calm c _ _)
    apply Leads.weaken (Leads.stays (Keeps.seq ((r _ _).said nofun) (r _ _).vitals))
    rintro _ g' ⟨shown, later⟩
    rw [shown]
    exact ⟨later, .gone lives⟩
  | true =>
    simp only [if_true]
    apply Leads.reads (rfl : session c g = .ok (g.blocks c, g))
    apply Leads.reads (rfl : getWorld g = .ok (g.world, g))
    have strong := damage_positive (g.blocks c)
    generalize playerDamage (g.blocks c) = dealt at strong ⊢
    apply Leads.start still
    apply Leads.seq (M := Shows { g.scene with ratHp := max 0 (g.world.ratHp - dealt) } g.asked)
    · apply Leads.modify
      rintro g₁ ⟨shown, later⟩
      refine ⟨?_, later⟩
      rw [← shown]
      rfl
    apply Leads.seq (Leads.stays (shows_update c _ _ (by intro ch; exact ⟨rfl, rfl⟩)))
    apply Leads.seq (Leads.stays ((r _ _).said nofun))
    by_cases slain : g.world.ratHp - dealt ≤ 0
    · have none_left : max 0 (g.world.ratHp - dealt) = 0 := by omega
      rw [none_left, if_pos slain, if_pos (by omega)]
      apply Leads.weaken rat_killed_leads
      rintro _ g' ⟨m, k₁, k₂, first, after, apart, before, shown⟩
      rw [shown]
      exact ⟨by omega, .killed m k₁ k₂ lives first after apart before⟩
    · have some_left : max 0 (g.world.ratHp - dealt) = g.world.ratHp - dealt := by omega
      have hurt : 0 < g.world.ratHp - dealt := by omega
      simp only [some_left, if_neg slain, if_pos hurt]
      by_cases falls : (g.blocks c).hp - 4 ≤ 0
      · simp only [if_pos falls]
        apply Leads.weaken player_died_leads
        rintro _ g' ⟨shown, later⟩
        rw [shown]
        refine ⟨later, .died _ lives (by omega) ?_⟩
        change g.world.ratHp - dealt ≤ g.world.ratHp
        omega
      · simp only [if_neg falls]
        apply Leads.weaken (Leads.stays (r _ _).vitals)
        rintro _ g' ⟨shown, later⟩
        rw [shown]
        refine ⟨later, .hit _ lives (by omega) ?_⟩
        change g.world.ratHp - dealt ≤ g.world.ratHp
        omega

theorem rat_killed_tells (g : Server) : Leads (Hears c [] g) (fun _ => True) (ratKilled env c)
    fun _ => Hears c (endLine .killed) g := by
  have quiet := hears_permits env c [] g
  have told := hears_permits env c (endLine .killed) g
  apply Leads.after (keeps_session c)
  intro s _
  apply Leads.seq (Leads.stays (quiet.on_world _ fun _ shut => absurd trivial shut))
  apply Leads.after quiet.times
  intro died _
  apply Leads.seq (Leads.stays (quiet.on_world _ fun _ shut => absurd trivial shut))
  apply Leads.seq (Leads.stays (quiet.calm_kept trivial trivial))
  apply Leads.seq (Leads.stays (quiet.updates trivial (fun ch _ => character_lax _)
    fun _ shut => absurd trivial shut))
  rw [show "killed" = RoundEnd.killed.result from rfl, end_whole]
  apply Leads.seq (hears_queue c _ g)
  apply Leads.stays (q := Any)
  apply Keeps.seq ((told.reports trivial).said nofun)
  apply Keeps.seq (told.kills (clean_lax _) (clean_lax _) (clean_lax _))
  exact Keeps.seq (told.reports trivial).vitals (told.saves trivial)

theorem player_died_tells (g : Server) : Leads (Hears c [] g) (fun _ => True) (playerDied env c)
    fun _ => Hears c (endLine .died) g := by
  have quiet := hears_permits env c [] g
  have told := hears_permits env c (endLine .died) g
  apply Leads.after (keeps_session c)
  intro s _
  apply Leads.seq (Leads.stays (quiet.deaths (clean_lax _) (clean_lax _)))
  apply Leads.seq (Leads.stays (quiet.updates trivial (fun ch _ => character_lax _)
    fun _ shut => absurd trivial shut))
  apply Leads.seq (Leads.stays (quiet.calm_kept trivial trivial))
  apply Leads.seq (Leads.stays ((quiet.reports trivial).said nofun))
  apply Leads.seq (Leads.stays ((quiet.reports trivial).said nofun))
  rw [show "died" = RoundEnd.died.result from rfl, end_line]
  apply Leads.seq (hears_queue c _ g)
  exact Leads.stays (Keeps.seq (told.reports trivial).vitals (told.reports trivial).scene_now)

theorem round_tells (g : Server) : Leads (· = g) (fun _ => True) (combatRound env c) fun _ g' =>
    ∀ e, roundEnd (g.blocks c) g.world = some e → Hears c (endLine e) g g' := by
  have quiet := hears_permits env c [] g
  have r := quiet.reports (d := c) trivial
  apply Leads.reads (rfl : session c g = .ok (g.blocks c, g))
  apply Leads.reads (rfl : getWorld g = .ok (g.world, g))
  unfold roundEnd
  by_cases aimless : (g.blocks c).target = 0
  · simp only [if_pos aimless]
    apply Leads.pure
    exact fun _ _ => nofun
  simp only [if_neg aimless]
  cases g.world.ratAlive with
  | false =>
    simp only [Bool.false_eq_true, if_false, Option.some.injEq, forall_eq']
    apply Leads.start (hears_nothing c g)
    have told := hears_permits env c (endLine .gone) g
    rw [show "gone" = RoundEnd.gone.result from rfl, end_whole]
    apply Leads.seq (Leads.stays (quiet.calm_kept trivial trivial))
    apply Leads.seq (hears_queue c _ g)
    exact Leads.stays (told.reports trivial).vitals
  | true =>
    simp only [if_true]
    apply Leads.reads (rfl : session c g = .ok (g.blocks c, g))
    apply Leads.reads (rfl : getWorld g = .ok (g.world, g))
    generalize playerDamage (g.blocks c) = dealt
    apply Leads.start (hears_nothing c g)
    apply Leads.seq (Leads.stays (quiet.on_world _ fun _ shut => absurd trivial shut))
    apply Leads.seq (Leads.stays (quiet.updates trivial (fun ch _ => character_lax _)
      fun _ shut => absurd trivial shut))
    apply Leads.seq (Leads.stays (r.said nofun))
    by_cases slain : g.world.ratHp - dealt ≤ 0
    · rw [if_pos slain, if_pos (by omega)]
      simp only [Option.some.injEq, forall_eq']
      exact rat_killed_tells g
    · have hurt : 0 < max 0 (g.world.ratHp - dealt) := by omega
      rw [if_neg slain, if_neg (by omega), if_pos hurt]
      by_cases falls : (g.blocks c).hp - 4 ≤ 0
      · simp only [if_pos falls, Option.some.injEq, forall_eq']
        exact player_died_tells g
      · simp only [if_neg falls]
        exact Leads.weaken (Leads.stays r.vitals) fun _ _ _ _ => nofun

end Rounds

/-- The end of the round a pulse of c makes now, if it makes one that ends the fight. -/
def pulseEnd (g : Server) (c : Block) (now : Int) : Option RoundEnd :=
  let s := g.blocks c
  if s.inCombat = false ∨ g.socketOf c = none ∨ s.lastTick = 0 ∨ u64 now < u64 s.lastTick then none
  else roundEnd s g.world

inductive Pulse (env : Env) (c : Block) (now : Int) (g g' : Server) : Prop
  | rests : (g.blocks c).inCombat = false ∨ g.socketOf c = none ∨
      u64 now < u64 (g.blocks c).lastTick → pulseEnd g c now = none → g'.scene = g.scene →
      Pulse env c now g g'
  | arms : (g.blocks c).inCombat = true → (g.blocks c).lastTick = 0 → pulseEnd g c now = none →
      g'.scene = g.scene.armed c (now + combatMs) → Pulse env c now g g'
  | swings : (g.blocks c).inCombat = true →
      Round env c (g.scene.armed c (now + combatMs)) g.asked g'.asked (pulseEnd g c now) g'.scene →
      Pulse env c now g g'

theorem pulse_leads (env : Env) (c : Block) (now : Int) (g : Server) :
    Leads (· = g) (fun _ => True) (sessionPulse env c now) fun _ g' =>
      g.asked ≤ g'.asked ∧ Pulse env c now g g' := by
  have still : Shows g.scene g.asked g := ⟨rfl, Nat.le_refl _⟩
  apply Leads.reads (rfl : (get : Act Server) g = .ok (g, g))
  apply Leads.ite
  · intro calm
    apply Leads.pure
    rintro _ rfl
    exact ⟨Nat.le_refl _, .rests (.inl calm) (if_pos (.inl calm)) rfl⟩
  intro fights
  cases found : g.socketOf c with
  | none =>
    apply Leads.pure
    rintro _ rfl
    exact ⟨Nat.le_refl _, .rests (.inr (.inl found)) (if_pos (.inr (.inl found))) rfl⟩
  | some wsi =>
    have heard := shows_heard still c wsi
    have fighting : (g.blocks c).inCombat = true := by simpa using fights
    have own : (g.setWsi c wsi).blocks c = { g.blocks c with wsi := wsi } := g.setBlock_own ..
    apply Leads.seq (M := (· = g.setWsi c wsi))
    · apply Leads.modify
      rintro _ rfl
      rfl
    apply Leads.reads (rfl : session c (g.setWsi c wsi) = .ok ((g.setWsi c wsi).blocks c, _))
    rw [own]
    have arms : (armAt c (now + combatMs)) (g.setWsi c wsi) = .ok ((), (g.setWsi c wsi).fought c
        { (g.blocks c).toFight with lastTick := now + combatMs }) := by
      unfold armAt
      rw [bind_ok (rfl : session c (g.setWsi c wsi) = .ok ((g.setWsi c wsi).blocks c, _)), own]
      rfl
    have armed : ((g.setWsi c wsi).fought c
        { (g.blocks c).toFight with lastTick := now + combatMs }).scene =
        g.scene.armed c (now + combatMs) := by
      rw [scene_fought, heard.1]
      rfl
    apply Leads.ite
    · intro unarmed
      rintro _ rfl
      rw [arms]
      exact ⟨Nat.le_refl _, .arms fighting unarmed (if_pos (.inr (.inr (.inl unarmed)))) armed⟩
    intro armed_before
    apply Leads.ite
    · intro early
      apply Leads.pure
      rintro _ rfl
      exact ⟨Nat.le_refl _, .rests (.inr (.inr early)) (if_pos (.inr (.inr (.inr early)))) heard.1⟩
    intro due
    rintro _ rfl
    rw [bind_ok arms]
    have ends : pulseEnd g c now = roundEnd (((g.setWsi c wsi).fought c
        { (g.blocks c).toFight with lastTick := now + combatMs }).blocks c)
        ((g.setWsi c wsi).fought c
          { (g.blocks c).toFight with lastTick := now + combatMs }).world := by
      have swings : ¬((g.blocks c).inCombat = false ∨ g.socketOf c = none ∨
          (g.blocks c).lastTick = 0 ∨ u64 now < u64 (g.blocks c).lastTick) := by
        rintro (calm | lost | unarmed | early)
        · exact fights calm
        · cases found.symm.trans lost
        · exact armed_before unarmed
        · exact due early
      rw [Server.fought, Server.setBlock_own, own]
      exact if_neg swings
    cases ended : combatRound env c ((g.setWsi c wsi).fought c
      { (g.blocks c).toFight with lastTick := now + combatMs }) with
    | error fault => trivial
    | ok r =>
      have led (h : Server) : Leads (· = h) (fun _ => True) (combatRound env c) fun _ g' =>
          h.asked ≤ g'.asked ∧
            Round env c h.scene h.asked g'.asked (roundEnd (h.blocks c) h.world) g'.scene :=
        round_leads h
      have happened := (led _).result rfl ended
      rw [← ends, armed] at happened
      exact ⟨happened.1, .swings fighting happened.2⟩

/-- A monotone clock that counts up from the epoch, and not for ever. -/
structure Ticks (env : Env) : Prop where
  positive : ∀ n, 0 < env.now n
  bounded : ∀ n, env.now n < 2 ^ 63
  forward : ∀ m n, m ≤ n → env.now m ≤ env.now n

/-- The rat and its hunters, with the readings of the clock from n on still to come. -/
structure Sane (env : Env) (v : Scene) (n : Nat) : Prop where
  low : 0 ≤ v.ratHp
  high : v.ratHp ≤ 12
  lives : v.ratAlive = true ↔ 0 < v.ratHp
  ticks : ∀ d k, n ≤ k → (v.fight d).lastTick ≤ env.now k + 2000
  aims : ∀ d, (v.fight d).inCombat = true → 0 < (v.fight d).lastTick ∧ (v.fight d).target ≠ 0
  waits : v.ratAlive = false → ∀ d, (v.fight d).inCombat = true →
    (v.fight d).lastTick ≤ v.ratDiedAt + 2000
  died : v.ratAlive = false → 0 < v.ratDiedAt ∧ v.ratDiedAt < 2 ^ 63
  stands : ∀ d, (v.fight d).inCombat = true → v.place d = roomTunnels
  sockets : ∀ d, some d ∈ v.table → ∃ i wsi, v.table.idxOf? (some d) = some i ∧
    v.sockets[i]? = some wsi ∧ wsi ≠ 0

section Sanity

variable {env : Env} {v : Scene} {n m : Nat} {c : Block}

theorem sane_later (sane : Sane env v n) (later : n ≤ m) : Sane env v m :=
  { sane with ticks := fun d k after => sane.ticks d k (later.trans after) }

theorem sane_fight (sane : Sane env v n) (f : Fight)
    (ticks : ∀ k, n ≤ k → f.lastTick ≤ env.now k + 2000)
    (aims : f.inCombat = true → 0 < f.lastTick ∧ f.target ≠ 0)
    (waits : v.ratAlive = false → f.inCombat = true → f.lastTick ≤ v.ratDiedAt + 2000)
    (stands : f.inCombat = true → v.place c = roomTunnels) :
    Sane env (v.fought c f) n where
  low := sane.low
  high := sane.high
  lives := sane.lives
  ticks := fun d k after => by
    by_cases own : d = c
    · subst own
      rw [Scene.fought_own]
      exact ticks k after
    · rw [Scene.fought_other _ _ own]
      exact sane.ticks d k after
  aims := fun d => by
    by_cases own : d = c
    · subst own
      rw [Scene.fought_own]
      exact aims
    · rw [Scene.fought_other _ _ own]
      exact sane.aims d
  waits := fun dead d => by
    by_cases own : d = c
    · subst own
      rw [Scene.fought_own]
      exact waits dead
    · rw [Scene.fought_other _ _ own]
      exact sane.waits dead d
  died := sane.died
  stands := fun d fights => by
    by_cases own : d = c
    · subst own
      rw [Scene.fought_own] at fights
      exact stands fights
    · rw [Scene.fought_other _ _ own] at fights
      exact sane.stands d fights
  sockets := sane.sockets

theorem sane_moved (sane : Sane env v n) (calm : (v.fight c).inCombat = false) (room : Int) :
    Sane env { v with place := Function.update v.place c room } n :=
  { sane with
    stands := fun d fights => by
      have other : d ≠ c := by
        rintro rfl
        exact absurd (calm.symm.trans fights) nofun
      change Function.update v.place c room d = roomTunnels
      rw [Function.update_of_ne other]
      exact sane.stands d fights }

theorem sane_round (clock : Ticks env) (sane : Sane env v n) {now : Int}
    (later : ∀ k, n ≤ k → now ≤ env.now k) (positive : 0 < now) {last : Nat}
    (fighting : (v.fight c).inCombat = true) {e : Option RoundEnd} {v' : Scene}
    (round : Round env c (v.armed c (now + combatMs)) n last e v') : Sane env v' n := by
  have ticks (k : Nat) (after : n ≤ k) : now + combatMs ≤ env.now k + 2000 := by
    have := later k after
    change now + 2000 ≤ _
    omega
  have aims : 0 < now + combatMs ∧ (v.fight c).target ≠ 0 := by
    refine ⟨?_, (sane.aims c fighting).2⟩
    change 0 < now + 2000
    omega
  have armed (alive : v.ratAlive = true) : Sane env (v.armed c (now + combatMs)) n :=
    sane_fight sane _ ticks (fun _ => aims) (fun dead => by
      rw [alive] at dead
      cases dead) fun _ => sane.stands c fighting
  have calmed : Sane env ((v.armed c (now + combatMs)).calmed c) n := by
    rw [Scene.armed_calmed]
    exact sane_fight sane _ ticks nofun (fun _ => nofun) nofun
  cases round with
  | idle aimless =>
    rw [Scene.armed, Scene.fought_own] at aimless
    exact absurd aimless aims.2
  | hit left alive some_left less =>
    have bound := sane.high
    have less' : left ≤ v.ratHp := less
    exact { armed alive with
      low := by change 0 ≤ left; omega
      high := by change left ≤ 12; omega
      lives := ⟨fun _ => some_left, fun _ => alive⟩ }
  | died left alive some_left less =>
    have bound := sane.high
    have less' : left ≤ v.ratHp := less
    have away := sane_moved (c := c) calmed (by rw [Scene.calmed, Scene.fought_own]) roomNexus
    exact { away with
      low := by change 0 ≤ left; omega
      high := by change left ≤ 12; omega
      lives := ⟨fun _ => some_left, fun _ => alive⟩ }
  | gone => exact calmed
  | killed m k₁ k₂ alive first =>
    exact { calmed with
      low := Int.le_refl 0
      high := by change (0 : Int) ≤ 12; omega
      lives := ⟨nofun, fun absurd_left => by change (0 : Int) < 0 at absurd_left; omega⟩
      waits := fun _ d _ => calmed.ticks d m first
      died := fun _ => ⟨clock.positive m, clock.bounded m⟩ }

end Sanity

/-- The hunt over some pulses: the rat lives on, or it was dead before, or one of them
killed it. -/
inductive Spell (env : Env) (v v' : Scene) (n last : Nat) (ends : List (Block × RoundEnd)) : Prop
  | lives : v.ratAlive = true → v'.ratAlive = true → v'.xp = v.xp → v'.chronicle = v.chronicle →
      (∀ e ∈ ends, e.2 = .died) → Spell env v v' n last ends
  | lies : v.ratAlive = false → v'.ratAlive = false → v'.ratDiedAt = v.ratDiedAt → v'.xp = v.xp →
      v'.chronicle = v.chronicle → (∀ e ∈ ends, e.2 = .gone) → Spell env v v' n last ends
  | dies (c : Block) (m k₁ k₂ : Nat) (before after : List (Block × RoundEnd)) :
      v.ratAlive = true → v'.ratAlive = false →
      n ≤ m → m < k₁ → k₁ < k₂ → k₂ < last → v'.ratDiedAt = env.now m →
      v'.xp = Function.update v.xp c (v.xp c + 8) →
      v'.chronicle = killRecorded env (roomIdBytes roomTunnels) (v.name c) k₁ k₂ v.chronicle →
      ends = before ++ (c, .killed) :: after → (∀ e ∈ before, e.2 = .died) →
      (∀ e ∈ after, e.2 = .gone) → Spell env v v' n last ends

/-- Nobody is listed or starts a fight, and who leaves one has come to an end of it. -/
structure Aftermath (v v' : Scene) (ends : List (Block × RoundEnd)) : Prop where
  names : v'.name = v.name
  table : v'.table = v.table
  sockets : v'.sockets = v.sockets
  joins : ∀ d, (v'.fight d).inCombat = true → (v.fight d).inCombat = true
  leaves : ∀ d, (v.fight d).inCombat = true → (v'.fight d).inCombat = false → ∃ e, (d, e) ∈ ends

section Spells

variable {env : Env} {v v₁ v₂ : Scene} {n m last : Nat} {c : Block}
  {ends first second : List (Block × RoundEnd)}

theorem spell_still (same : v₁.ratAlive = v.ratAlive) (died : v₁.ratDiedAt = v.ratDiedAt)
    (xp : v₁.xp = v.xp) (chronicle : v₁.chronicle = v.chronicle) : Spell env v v₁ n last [] := by
  cases alive : v.ratAlive with
  | true => exact .lives alive (same.trans alive) xp chronicle nofun
  | false => exact .lies alive (same.trans alive) died xp chronicle nofun

theorem spell_trans (before : Spell env v v₁ n m first) (after : Spell env v₁ v₂ m last second)
    (names : v₁.name = v.name) (later : n ≤ m) (still : m ≤ last) : Spell env v v₂ n last (first ++ second) := by
  have both {p : RoundEnd} (one : ∀ e ∈ first, e.2 = p) (two : ∀ e ∈ second, e.2 = p) :
      ∀ e ∈ first ++ second, e.2 = p := by
    intro e member
    rcases List.mem_append.mp member with left | right
    · exact one e left
    · exact two e right
  cases before with
  | lives alive alive₁ xp chronicle died =>
    cases after with
    | lives _ alive₂ xp₂ chronicle₂ died₂ =>
      exact .lives alive alive₂ (xp₂.trans xp) (chronicle₂.trans chronicle) (both died died₂)
    | lies dead => exact absurd (alive₁.symm.trans dead) nofun
    | dies d k k₁ k₂ front back _ dead from_m after_k apart before_last diedAt xp₂ chronicle₂ split
        fell gone =>
      refine .dies d k k₁ k₂ (first ++ front) back alive dead (later.trans from_m) after_k apart
        before_last diedAt ?_ ?_ ?_ ?_ gone
      · rw [xp₂, xp]
      · rw [chronicle₂, chronicle, names]
      · rw [split, List.append_assoc]
      · intro e member
        rcases List.mem_append.mp member with left | right
        · exact died e left
        · exact fell e right
  | lies dead dead₁ diedAt xp chronicle gone =>
    cases after with
    | lives alive => exact absurd (alive.symm.trans dead₁) nofun
    | lies _ dead₂ diedAt₂ xp₂ chronicle₂ gone₂ =>
      exact .lies dead dead₂ (diedAt₂.trans diedAt) (xp₂.trans xp) (chronicle₂.trans chronicle)
        (both gone gone₂)
    | dies _ _ _ _ _ _ alive => exact absurd (alive.symm.trans dead₁) nofun
  | dies d k k₁ k₂ front back alive dead₁ from_n after_k apart before_m diedAt xp chronicle split
      fell gone =>
    cases after with
    | lives alive₁ => exact absurd (alive₁.symm.trans dead₁) nofun
    | lies _ dead₂ diedAt₂ xp₂ chronicle₂ gone₂ =>
      refine .dies d k k₁ k₂ front (back ++ second) alive dead₂ from_n after_k apart
        (before_m.trans_le still) (diedAt₂.trans diedAt) (xp₂.trans xp)
        (chronicle₂.trans chronicle) ?_ fell ?_
      · rw [split, List.append_assoc, List.cons_append]
      · intro e member
        rcases List.mem_append.mp member with left | right
        · exact gone e left
        · exact gone₂ e right
    | dies _ _ _ _ _ _ alive₁ => exact absurd (alive₁.symm.trans dead₁) nofun

theorem spell_later (spell : Spell env v v₁ n m first) (later : m ≤ last) :
    Spell env v v₁ n last first := by
  cases spell with
  | lives alive alive₁ xp chronicle died => exact .lives alive alive₁ xp chronicle died
  | lies dead dead₁ diedAt xp chronicle gone => exact .lies dead dead₁ diedAt xp chronicle gone
  | dies d k k₁ k₂ front back alive dead from_n after_k apart before_m diedAt xp chronicle split
      fell gone =>
    exact .dies d k k₁ k₂ front back alive dead from_n after_k apart (before_m.trans_le later)
      diedAt xp chronicle split fell gone

theorem aftermath_trans (before : Aftermath v v₁ first) (after : Aftermath v₁ v₂ second) :
    Aftermath v v₂ (first ++ second) where
  names := after.names.trans before.names
  table := after.table.trans before.table
  sockets := after.sockets.trans before.sockets
  joins := fun d fights => before.joins d (after.joins d fights)
  leaves := fun d fights calm => by
    cases between : (v₁.fight d).inCombat with
    | false =>
      obtain ⟨e, member⟩ := before.leaves d fights between
      exact ⟨e, List.mem_append_left _ member⟩
    | true =>
      obtain ⟨e, member⟩ := after.leaves d between calm
      exact ⟨e, List.mem_append_right _ member⟩

theorem aftermath_own (f : Fight) (names : v₁.name = v.name) (table : v₁.table = v.table)
    (sockets : v₁.sockets = v.sockets)
    (fight : v₁.fight = (v.fought c f).fight)
    (joins : f.inCombat = true → (v.fight c).inCombat = true)
    (leaves : f.inCombat = false → (v.fight c).inCombat = true → ∃ e, (c, e) ∈ ends) :
    Aftermath v v₁ ends where
  names := names
  table := table
  sockets := sockets
  joins := fun d fights => by
    rw [fight] at fights
    by_cases own : d = c
    · subst own
      rw [Scene.fought_own] at fights
      exact joins fights
    · rw [Scene.fought_other _ _ own] at fights
      exact fights
  leaves := fun d fights calm => by
    rw [fight] at calm
    by_cases own : d = c
    · subst own
      rw [Scene.fought_own] at calm
      exact leaves calm fights
    · rw [Scene.fought_other _ _ own, fights] at calm
      cases calm

def endsOf (c : Block) (e : Option RoundEnd) : List (Block × RoundEnd) :=
  e.toList.map fun r => (c, r)

theorem round_spell {at_ms : Int} {e : Option RoundEnd} {v' : Scene}
    (round : Round env c (v.armed c at_ms) n last e v') (fights : (v.fight c).inCombat = true)
    (stands : v.place c = roomTunnels) :
    Spell env v v' n last (endsOf c e) ∧ Aftermath v v' (endsOf c e) := by
  have arms : ∀ {v' : Scene}, v'.name = v.name → v'.table = v.table → v'.sockets = v.sockets →
      v'.fight = (v.armed c at_ms).fight → Aftermath v v' (endsOf c none) :=
    fun names table sockets fight =>
      aftermath_own _ names table sockets fight (fun _ => fights) fun calm => by
        change (v.fight c).inCombat = false at calm
        rw [fights] at calm
        cases calm
  have calms (r : RoundEnd) : ∀ {v' : Scene}, v'.name = v.name → v'.table = v.table →
      v'.sockets = v.sockets → v'.fight = ((v.armed c at_ms).calmed c).fight →
      Aftermath v v' (endsOf c (some r)) :=
    fun names table sockets fight => by
      rw [Scene.armed_calmed] at fight
      exact aftermath_own _ names table sockets fight nofun
        fun _ _ => ⟨r, List.mem_singleton.mpr rfl⟩
  cases round with
  | idle => exact ⟨spell_still rfl rfl rfl rfl, arms rfl rfl rfl rfl⟩
  | hit left => exact ⟨spell_still rfl rfl rfl rfl, arms rfl rfl rfl rfl⟩
  | died left alive =>
    exact ⟨.lives alive alive rfl rfl (by simp [endsOf]), calms _ rfl rfl rfl rfl⟩
  | gone dead =>
    exact ⟨.lies dead dead rfl rfl rfl (by simp [endsOf]), calms _ rfl rfl rfl rfl⟩
  | killed m k₁ k₂ alive first after apart before =>
    refine ⟨.dies c m k₁ k₂ [] [] alive rfl first after apart before rfl rfl ?_ rfl nofun nofun,
      calms _ rfl rfl rfl rfl⟩
    rw [← stands]
    rfl

end Spells

section Pulses

variable {env : Env} {g g' : Server} {c : Block} {now : Int}

theorem pulse_rounds {e : RoundEnd} (ends : pulseEnd g c now = some e) : ∃ h : Server,
    sessionPulse env c now g = combatRound env c h ∧ roundEnd (h.blocks c) h.world = some e ∧
      (h.blocks c).outbox = (g.blocks c).outbox := by
  rw [pulseEnd] at ends
  split at ends
  · cases ends
  · rename_i swings
    simp only [not_or] at swings
    obtain ⟨fights, found, armed, due⟩ := swings
    obtain ⟨wsi, found⟩ := Option.ne_none_iff_exists'.mp found
    have own : (g.setWsi c wsi).blocks c = { g.blocks c with wsi := wsi } := g.setBlock_own ..
    have arms : (armAt c (now + combatMs)) (g.setWsi c wsi) = .ok ((), (g.setWsi c wsi).fought c
        { (g.blocks c).toFight with lastTick := now + combatMs }) := by
      unfold armAt
      rw [bind_ok (rfl : session c (g.setWsi c wsi) = .ok ((g.setWsi c wsi).blocks c, _)), own]
      rfl
    refine ⟨(g.setWsi c wsi).fought c { (g.blocks c).toFight with lastTick := now + combatMs },
      ?_, ?_, ?_⟩
    · rw [sessionPulse, bind_ok (rfl : (get : Act Server) g = .ok (g, g)), if_neg fights, found]
      change pulseWith env c wsi now g = _
      rw [pulseWith, bind_ok (rfl : (modify fun g => g.setWsi c wsi : Act Unit) g =
          .ok ((), g.setWsi c wsi)),
        bind_ok (rfl : session c (g.setWsi c wsi) = .ok ((g.setWsi c wsi).blocks c, _)), own,
        if_neg armed, if_neg due, bind_ok arms]
    · rw [Server.fought, Server.setBlock_own, own]
      exact ends
    · rw [Server.fought, Server.setBlock_own, own]

theorem pulse_tells {e : RoundEnd} (ends : pulseEnd g c now = some e) :
    Leads (· = g) (fun _ => True) (sessionPulse env c now) fun _ => Hears c (endLine e) g := by
  obtain ⟨h, run, ended, same⟩ := @pulse_rounds env g c now e ends
  rintro _ rfl
  rw [run]
  have told := @round_tells env c h h rfl
  cases ran : combatRound env c h with
  | error fault => trivial
  | ok r =>
    rw [ran] at told
    exact hears_before (hears_same same (hears_nothing c _)) (told e ended)

theorem listed_socket (sane : Sane env g.scene g.asked) (listed : some c ∈ g.sessionTable) :
    g.socketOf c ≠ none := by
  obtain ⟨i, wsi, slot, socket, live⟩ := sane.sockets c listed
  change g.sessionTable.idxOf? (some c) = some i at slot
  change g.sessionWsiTable[i]? = some wsi at socket
  unfold Server.socketOf
  split
  · exact nofun
  · rw [slot]
    simp only [socket]
    split
    · rename_i none_there
      exact absurd (Option.some.inj none_there) live
    · exact nofun

structure Pulsed (env : Env) (g g' : Server) (ends : List (Block × RoundEnd)) : Prop where
  later : g.asked ≤ g'.asked
  sane : Sane env g'.scene g'.asked
  spell : Spell env g.scene g'.scene g.asked g'.asked ends
  aftermath : Aftermath g.scene g'.scene ends

theorem pulsed (clock : Ticks env) (sane : Sane env g.scene g.asked)
    (coming : ∀ k, g.asked ≤ k → now ≤ env.now k) (positive : 0 < now) (later : g.asked ≤ g'.asked)
    (pulse : Pulse env c now g g') : Pulsed env g g' (endsOf c (pulseEnd g c now)) := by
  cases pulse with
  | rests _ ends same =>
    rw [ends]
    refine ⟨later, ?_, ?_, ?_⟩
    · rw [same]
      exact sane_later sane later
    · rw [same]
      exact spell_still rfl rfl rfl rfl
    · rw [same]
      exact ⟨rfl, rfl, rfl, fun _ => id, fun d fights calm => absurd (fights.symm.trans calm) nofun⟩
  | arms fights unarmed =>
    have armed := (sane.aims c fights).1
    change 0 < (g.blocks c).lastTick at armed
    omega
  | swings fights round =>
    obtain ⟨spell, aftermath⟩ := round_spell round fights (sane.stands c fights)
    exact ⟨later, sane_later (sane_round clock sane coming positive fights round) later, spell,
      aftermath⟩

theorem pulse_settles (sane : Sane env g.scene g.asked) (listed : some c ∈ g.sessionTable)
    (pulse : Pulse env c now g g') (fits : now < 2 ^ 63) (dead : g.world.ratAlive = false)
    (long : g.world.ratDiedAt + respawnMs ≤ now) : (g'.blocks c).inCombat = false := by
  have died := sane.died dead
  change g.world.ratDiedAt + 20000 ≤ now at long
  change 0 < g.world.ratDiedAt ∧ _ at died
  by_contra fights_on
  have fights_still : (g'.blocks c).inCombat = true := by simpa using fights_on
  have due (fights : (g.blocks c).inCombat = true) :
      0 < (g.blocks c).lastTick ∧ (g.blocks c).lastTick ≤ g.world.ratDiedAt + 2000 :=
    ⟨(sane.aims c fights).1, sane.waits dead c fights⟩
  cases pulse with
  | rests why _ same =>
    have fight : (g'.blocks c).toFight = (g.blocks c).toFight :=
      congrArg (fun v : Scene => v.fight c) same
    have fights : (g.blocks c).inCombat = true :=
      (congrArg Fight.inCombat fight).symm.trans fights_still
    obtain ⟨armed, early⟩ := due fights
    rcases why with calm | lost | waits
    · exact absurd (fights.symm.trans calm) nofun
    · exact listed_socket sane listed lost
    · rw [u64_small (by omega) (by omega), u64_small (by omega) (by omega)] at waits
      omega
  | arms fights unarmed =>
    have armed := (due fights).1
    omega
  | swings fights round =>
    have calmed {v : Scene} (same : g'.scene = v.calmed c) : False := by
      have fight : (g'.blocks c).toFight = (v.calmed c).fight c :=
        congrArg (fun v : Scene => v.fight c) same
      rw [Scene.calmed, Scene.fought_own] at fight
      have calm : (g'.blocks c).inCombat = false := congrArg Fight.inCombat fight
      exact absurd (fights_still.symm.trans calm) nofun
    generalize told : g'.scene = v' at round
    generalize pulseEnd g c now = e at round
    cases round with
    | idle aimless =>
      rw [Scene.armed, Scene.fought_own] at aimless
      exact (sane.aims c fights).2 aimless
    | hit left alive => exact absurd (alive.symm.trans dead) nofun
    | died left alive => exact absurd (alive.symm.trans dead) nofun
    | gone => exact calmed told
    | killed _ _ _ alive => exact absurd (alive.symm.trans dead) nofun

def beatEnds (env : Env) (now : Int) : List Block → Server → List (Block × RoundEnd)
  | [], _ => []
  | c :: rest, g =>
    endsOf c (pulseEnd g c now) ++
      match sessionPulse env c now g with
      | .ok (_, g') => beatEnds env now rest g'
      | .error _ => []

theorem spell_died {ends : List (Block × RoundEnd)}
    (spell : Spell env g.scene g'.scene g.asked g'.asked ends)
    (coming : ∀ k, g.asked ≤ k → now ≤ env.now k) (dead : g'.world.ratAlive = false) :
    g.world.ratAlive = false ∧ g'.world.ratDiedAt = g.world.ratDiedAt ∨
      now ≤ g'.world.ratDiedAt := by
  cases spell with
  | lives _ alive => exact absurd (alive.symm.trans dead) nofun
  | lies before _ same => exact .inl ⟨before, same⟩
  | dies c m k₁ k₂ front back _ _ from_n _ _ _ diedAt =>
    right
    have same : g'.world.ratDiedAt = env.now m := diedAt
    rw [same]
    exact coming m from_n

theorem pulses_leads (clock : Ticks env) (positive : 0 < now) (fits : now < 2 ^ 63)
    (blocks : List Block) (g : Server) (sane : Sane env g.scene g.asked)
    (coming : ∀ k, g.asked ≤ k → now ≤ env.now k) :
    Leads (· = g) (fun _ => True) (blocks.forM fun c => sessionPulse env c now) fun _ g' =>
      Pulsed env g g' (beatEnds env now blocks g) ∧
      ∀ d ∈ blocks, some d ∈ g.sessionTable → g'.world.ratAlive = false →
        g'.world.ratDiedAt + respawnMs ≤ now → (g'.blocks d).inCombat = false := by
  induction blocks generalizing g with
  | nil =>
    rintro _ rfl
    exact ⟨⟨Nat.le_refl _, sane, spell_still rfl rfl rfl rfl,
      ⟨rfl, rfl, rfl, fun _ => id, fun d fights calm => absurd (fights.symm.trans calm) nofun⟩⟩, nofun⟩
  | cons c rest ih =>
    apply Leads.bind (Leads.runs (sessionPulse env c now) g)
    intro _ g₁ ended
    obtain ⟨later, pulse⟩ := (pulse_leads env c now g).result rfl ended
    have one := pulsed clock sane coming positive later pulse
    have coming₁ : ∀ k, g₁.asked ≤ k → now ≤ env.now k := fun k after => coming k (later.trans after)
    have table : g₁.sessionTable = g.sessionTable := one.aftermath.table
    have split : beatEnds env now (c :: rest) g =
        endsOf c (pulseEnd g c now) ++ beatEnds env now rest g₁ := by
      rw [beatEnds, ended]
    cases ran : rest.forM (fun c => sessionPulse env c now) g₁ with
    | error fault => trivial
    | ok r =>
      obtain ⟨others, settled⟩ := (ih g₁ one.sane coming₁).result rfl ran
      rw [split]
      refine ⟨⟨later.trans others.later, others.sane,
        spell_trans one.spell others.spell one.aftermath.names later others.later,
        aftermath_trans one.aftermath others.aftermath⟩, ?_⟩
      intro d member listed dead long
      rcases List.mem_cons.mp member with rfl | among
      · by_contra fights_on
        have fights : (r.2.blocks d).inCombat = true := by simpa using fights_on
        have fought := others.aftermath.joins d fights
        change (g₁.blocks d).inCombat = true at fought
        have recent : ¬now ≤ r.2.world.ratDiedAt := by
          change r.2.world.ratDiedAt + 20000 ≤ now at long
          omega
        obtain ⟨dead₁, same₁⟩ := (spell_died others.spell coming₁ dead).resolve_right recent
        have recent₁ : ¬now ≤ g₁.world.ratDiedAt := by
          rw [← same₁]
          exact recent
        obtain ⟨dead₀, same₀⟩ := (spell_died one.spell coming dead₁).resolve_right recent₁
        have calm := pulse_settles sane listed pulse fits dead₀ (by
          rw [← same₀, ← same₁]
          exact long)
        exact absurd (fought.symm.trans calm) nofun
      · exact settled d among (table ▸ listed) dead long

end Pulses

theorem pulses_tell (env : Env) (now : Int) (blocks : List Block) (g : Server) :
    Leads (· = g) (fun _ => True) (blocks.forM fun c => sessionPulse env c now) fun _ g' =>
      ∀ d e, (d, e) ∈ beatEnds env now blocks g → Hears d (endLine e) g g' := by
  induction blocks generalizing g with
  | nil =>
    rintro _ rfl d e member
    cases member
  | cons c rest ih =>
    apply Leads.bind (Leads.runs (sessionPulse env c now) g)
    intro _ g₁ ended
    have keeps (d : Block) (t : Text) (blocks : List Block) : Keeps (Hears d t g) (fun _ => True)
        (blocks.forM fun c => sessionPulse env c now) Any :=
      Keeps.for_each fun k _ =>
        (hears_permits env d t g).pulse_kept trivial trivial trivial trivial trivial now
    cases ran : rest.forM (fun c => sessionPulse env c now) g₁ with
    | error fault => trivial
    | ok r =>
      intro d e member
      rw [beatEnds, ended] at member
      rcases List.mem_append.mp member with own | later
      · obtain ⟨_, ends, same⟩ := List.mem_map.mp own
        cases same
        have heard := (pulse_tells (Option.mem_toList.mp ends)).result rfl ended
        exact ((keeps _ _ rest).result heard ran).1
      · have before := (hears_permits env d [] g).pulse_kept (c := c) trivial trivial trivial trivial
          trivial now
        exact hears_before (before.result (hears_nothing d g) ended).1
          ((ih g₁).result rfl ran d e later)

/-- What the players and the timer do of the hunt. -/
inductive Hunt
  | attack (c : Block) (arg : Ptr)
  | pulse (c : Block)
  | heartbeat

namespace Hunt

/-- The session of an attack or a pulse is registered. -/
def registered (g : Server) : Hunt → Bool
  | attack c _ => g.sessionTable.contains (some c)
  | pulse c => g.sessionTable.contains (some c)
  | heartbeat => true

def run (env : Env) : Hunt → Act Unit
  | attack c arg => cmdAttack env c arg
  | pulse c => do
    let now ← nowMs env
    sessionPulse env c now
  | heartbeat => do
    let now ← nowMs env
    HollowGrid.heartbeat env now

/-- The ends of fights it brings about, in their order. -/
def ends (env : Env) (g : Server) : Hunt → List (Block × RoundEnd)
  | attack _ _ => []
  | pulse c => beatEnds env (env.now g.asked) [c] { g with asked := g.asked + 1 }
  | heartbeat =>
    beatEnds env (env.now g.asked) (g.sessionTable.filterMap id) { g with asked := g.asked + 1 }

end Hunt

/-- One event of the hunt, the clock read as it begins. -/
def hunt (env : Env) (g : Server) (e : Hunt) : Except Fault Server :=
  if e.registered g then (e.run env g).map Prod.snd else .ok g

section Hunting

variable {env : Env} {g g' : Server} {c : Block}

theorem attack_leads (clock : Ticks env) (arg : Ptr) (sane : Sane env g.scene g.asked) :
    Leads (· = g) (fun _ => True) (cmdAttack env c arg) fun _ g' => g.asked ≤ g'.asked ∧
      Sane env g'.scene g'.asked ∧ ∃ f, g'.scene = g.scene.fought c f ∧
        ((g.blocks c).inCombat = true → f.inCombat = true) := by
  have r := shows_reports env c
  have still : Shows g.scene g.asked g := ⟨rfl, Nat.le_refl _⟩
  have same : g.scene = g.scene.fought c (g.blocks c).toFight := by
    change g.scene = g.scene.fought c (g.scene.fight c)
    rw [Scene.fought, Function.update_eq_self]
  have quiet (t : Text) : Leads (· = g) (fun _ => True) (queue c t) fun _ g' =>
      g.asked ≤ g'.asked ∧ Sane env g'.scene g'.asked ∧ ∃ f, g'.scene = g.scene.fought c f ∧
        ((g.blocks c).inCombat = true → f.inCombat = true) := by
    apply Leads.start still
    apply Leads.weaken (Leads.stays ((r _ _).said nofun))
    rintro _ g' ⟨shown, later⟩
    rw [shown]
    exact ⟨later, sane_later sane later, _, same, id⟩
  apply Leads.reads (rfl : session c g = .ok (g.blocks c, g))
  apply Leads.reads (rfl : getWorld g = .ok (g.world, g))
  apply Leads.ite
  · intro _
    exact quiet _
  intro calm
  apply Leads.ite
  · intro here
    simp only [ratHere, Bool.and_eq_true, decide_eq_true_eq] at here
    have lives : g.world.ratAlive = true := here.1.2
    apply Leads.reads (rfl : session c g = .ok (g.blocks c, g))
    apply Leads.start still
    apply Leads.seq (M := Shows (g.scene.fought c
      { (g.blocks c).toFight with inCombat := true, target := 1 }) g.asked)
    · apply Leads.modify
      rintro g₁ ⟨shown, later⟩
      refine ⟨?_, later⟩
      rw [scene_fought, shown]
    apply Leads.seq (Leads.stays (shows_update c _ _ (by intro ch; exact ⟨rfl, rfl⟩)))
    apply Leads.seq (Leads.stays ((r _ _).said nofun))
    apply Leads.seq (Leads.stays ((r _ _).said nofun))
    apply Leads.seq (Leads.stays (r _ _).vitals)
    apply Leads.bind (shows_time env _ _)
    intro now
    apply Leads.some_one
    intro m
    apply Leads.given
    rintro ⟨first, rfl⟩ g₁ ⟨shown, later⟩
    have scene : (g₁.fought c { (g₁.blocks c).toFight with lastTick := env.now m + combatMs }).scene =
        g.scene.fought c
          { target := 1, inCombat := true, lastTick := env.now m + combatMs } := by
      have fight : (g₁.blocks c).toFight = { (g.blocks c).toFight with inCombat := true, target := 1 } := by
        have own := congrArg (fun v : Scene => v.fight c) shown
        simp only [Scene.fought_own] at own
        exact own
      rw [scene_fought, shown, fight, Scene.fought_again]
    have ready := clock.positive m
    refine ⟨Nat.le_trans (Nat.le_succ_of_le first) later, ?_, _, scene, fun _ => rfl⟩
    change Sane env (g₁.fought c _).scene g₁.asked
    rw [scene]
    apply sane_fight (sane_later sane (Nat.le_trans (Nat.le_succ_of_le first) later))
    · intro k after
      have forward := clock.forward m k (by omega)
      change env.now m + 2000 ≤ _
      omega
    · intro _
      refine ⟨?_, by simp⟩
      change 0 < env.now m + 2000
      omega
    · intro dead
      exact absurd (lives.symm.trans dead) nofun
    · exact fun _ => here.1.1
  · intro _
    exact quiet _

theorem shows_tick (env : Env) (c : Block) (v : Scene) (n : Nat) :
    Keeps (Shows v n) (fun _ => True) (tickSession c) Any := by
  have r := shows_reports env c v n
  apply Keeps.bind Keeps.get
  intro g _
  cases g.socketOf c with
  | none => exact Keeps.pure trivial
  | some wsi =>
    apply Keeps.seq (Keeps.modify fun g shown => shows_heard shown c wsi)
    apply Keeps.branch (Keeps.pure trivial)
    apply Keeps.seq r.world_state
    apply Keeps.bind (r.reads c)
    intro s _
    exact Keeps.branch (Keeps.seq (shows_update c v n (by intro ch; exact ⟨rfl, rfl⟩)) r.vitals) (Keeps.pure trivial)

theorem shows_gate (env : Env) (now : Int) (v : Scene) (n : Nat) :
    Keeps (Shows v n) (fun _ => True) (worldGate now) Any := by
  apply Keeps.bind keeps_world
  intro w _
  apply Keeps.branch (Keeps.pure trivial)
  apply Keeps.seq
  · apply Keeps.modify
    intro g shown
    exact ⟨shown.1, shown.2⟩
  apply Keeps.bind (R := Any)
  · exact fun g shown => ⟨shown, trivial⟩
  intro blocks _
  exact Keeps.for_each fun d _ => shows_tick env d v n

/-- A rat that has been dead for long enough is back. -/
def Scene.respawned (now : Int) (v : Scene) : Scene :=
  if v.ratAlive = false ∧ v.ratDiedAt ≠ 0 ∧ u64 (v.ratDiedAt + respawnMs) ≤ u64 now then
    { v with ratHp := 12, ratAlive := true, ratDiedAt := 0 }
  else v

theorem respawn_scene (now : Int) (g : Server) :
    ∃ g', respawn now g = .ok ((), g') ∧ g'.scene = g.scene.respawned now ∧ g'.asked = g.asked := by
  refine ⟨_, rfl, ?_, rfl⟩
  by_cases long : g.world.ratAlive = false ∧ g.world.ratDiedAt ≠ 0 ∧
      u64 (g.world.ratDiedAt + respawnMs) ≤ u64 now
  · simp only [Server.scene, Scene.respawned, if_pos long]
    exact (if_pos long).symm
  · simp only [Server.scene, Scene.respawned, if_neg long]
    exact (if_neg long).symm

theorem beat_leads (clock : Ticks env) {now : Int} (positive : 0 < now) (fits : now < 2 ^ 63)
    (sane : Sane env g.scene g.asked) (coming : ∀ k, g.asked ≤ k → now ≤ env.now k) :
    Leads (· = g) (fun _ => True) (heartbeat env now) fun _ g' => ∃ g₁,
      (Pulsed env g g₁ (beatEnds env now (g.sessionTable.filterMap id) g) ∧
        ∀ d, some d ∈ g.sessionTable → g₁.world.ratAlive = false →
          g₁.world.ratDiedAt + respawnMs ≤ now → (g₁.blocks d).inCombat = false) ∧
      g₁.asked ≤ g'.asked ∧ g'.scene = g₁.scene.respawned now := by
  apply Leads.reads (rfl : inTable g = .ok (g.sessionTable.filterMap id, g))
  apply Leads.bind (pulses_leads clock positive fits _ g sane coming)
  rintro _ g₁ ⟨pulsed, settled⟩
  apply (Leads.seq (P := Shows g₁.scene g₁.asked) (Leads.stays (shows_gate env now _ _)) _) g₁
    ⟨rfl, Nat.le_refl _⟩
  rintro g₂ ⟨shown, later⟩
  obtain ⟨g', ran, scene, asked⟩ := respawn_scene now g₂
  rw [ran]
  refine ⟨g₁, ⟨pulsed, fun d listed => settled d ?_ listed⟩, asked ▸ later, ?_⟩
  · exact List.mem_filterMap.mpr ⟨some d, listed, rfl⟩
  · rw [scene, shown]

theorem beat_tells {now : Int} :
    Leads (· = g) (fun _ => True) (heartbeat env now) fun _ g' =>
      ∀ d e, (d, e) ∈ beatEnds env now (g.sessionTable.filterMap id) g →
        Hears d (endLine e) g g' := by
  have p (d : Block) (e : RoundEnd) := hears_permits env d (endLine e) g
  apply Leads.reads (rfl : inTable g = .ok (g.sessionTable.filterMap id, g))
  apply Leads.seq (pulses_tell env now _ g)
  intro g₁ told
  have rest (d : Block) (e : RoundEnd) : Keeps (Hears d (endLine e) g) (fun _ => True)
      (worldGate now >>= fun _ => respawn now) Any :=
    Keeps.seq ((p d e).gate_kept (fun _ _ => trivial) trivial now)
      ((p d e).respawn_kept trivial now)
  cases ended : (worldGate now >>= fun _ => respawn now) g₁ with
  | error fault => trivial
  | ok r => exact fun d e member => ((rest d e).result (told d e member) ended).1

/-- What one event of the hunt does to the rat, to the experience of the hunters, to the
record of kills and to the fights, and what they hear of it. -/
structure Hunted (env : Env) (g : Server) (e : Hunt) (g' : Server) : Prop where
  dies : g.world.ratAlive = true → g'.world.ratAlive = false →
    ∃ (c : Block) (m k₁ k₂ : Nat) (before after : List (Block × RoundEnd)),
      (g'.world.ratDiedAt = env.now m ∧ g.asked ≤ m ∧ m < k₁ ∧ k₁ < k₂ ∧ k₂ < g'.asked) ∧
      ((g'.blocks c).xp = (g.blocks c).xp + 8 ∧ ∀ d, d ≠ c → (g'.blocks d).xp = (g.blocks d).xp) ∧
      chronicle g'.grid = killRecorded env (roomIdBytes roomTunnels) (g.blocks c).name k₁ k₂
        (chronicle g.grid) ∧
      e.ends env g = before ++ (c, .killed) :: after ∧ (∀ x ∈ before, x.2 = .died) ∧
      ∀ x ∈ after, x.2 = .gone
  spares : g.world.ratAlive = false ∨ g'.world.ratAlive = true →
    (∀ d, (g'.blocks d).xp = (g.blocks d).xp) ∧ chronicle g'.grid = chronicle g.grid ∧
      ∀ x ∈ e.ends env g, x.2 ≠ .killed
  lies : g.world.ratAlive = false → g'.world.ratAlive = false →
    g'.world.ratDiedAt = g.world.ratDiedAt
  gone : g.world.ratAlive = false → ∀ x ∈ e.ends env g, x.2 = .gone
  returns : g.world.ratAlive = false → g'.world.ratAlive = true →
    e = .heartbeat ∧ g.world.ratDiedAt + 20000 ≤ env.now g.asked ∧
      ∀ d, some d ∈ g'.sessionTable → (g'.blocks d).inCombat = false
  leaves : ∀ d, (g.blocks d).inCombat = true → (g'.blocks d).inCombat = false →
    ∃ x, (d, x) ∈ e.ends env g
  tells : ∀ d x, (d, x) ∈ e.ends env g → Hears d (endLine x) g g'

/-- A stretch of pulses with no respawn after it. -/
theorem hunted_spell {e : Hunt} {asked : Nat} (from_start : g.asked ≤ asked)
    (spell : Spell env g.scene g'.scene asked g'.asked (e.ends env g))
    (leaves : ∀ d, (g.blocks d).inCombat = true → (g'.blocks d).inCombat = false →
      ∃ x, (d, x) ∈ e.ends env g)
    (tells : ∀ d x, (d, x) ∈ e.ends env g → Hears d (endLine x) g g') : Hunted env g e g' := by
  have earned (same : g'.scene.xp = g.scene.xp) (d : Block) : (g'.blocks d).xp = (g.blocks d).xp :=
    congrFun same d
  cases spell with
  | lives alive alive' xp record died =>
    exact { dies := fun _ dead => absurd (dead.symm.trans alive') nofun
            spares := fun _ => ⟨earned xp, record, fun x member => by
              rw [died x member]
              exact nofun⟩
            lies := fun dead => absurd (dead.symm.trans alive) nofun
            gone := fun dead => absurd (dead.symm.trans alive) nofun
            returns := fun dead => absurd (dead.symm.trans alive) nofun
            leaves := leaves
            tells := tells }
  | lies dead dead' diedAt xp record gone =>
    exact { dies := fun alive => absurd (alive.symm.trans dead) nofun
            spares := fun _ => ⟨earned xp, record, fun x member => by
              rw [gone x member]
              exact nofun⟩
            lies := fun _ _ => diedAt
            gone := fun _ => gone
            returns := fun _ alive => absurd (alive.symm.trans dead') nofun
            leaves := leaves
            tells := tells }
  | dies c m k₁ k₂ before after alive dead first later apart last diedAt xp record split fell
      gone =>
    refine { dies := fun _ _ => ?_
             spares := fun spared => ?_
             lies := fun dead => absurd (dead.symm.trans alive) nofun
             gone := fun dead => absurd (dead.symm.trans alive) nofun
             returns := fun dead => absurd (dead.symm.trans alive) nofun
             leaves := leaves
             tells := tells }
    · refine ⟨c, m, k₁, k₂, before, after,
        ⟨diedAt, from_start.trans first, later, apart, last⟩, ⟨?_, fun d other => ?_⟩, record, split, fell, gone⟩
      · have own := congrFun xp c
        rw [Function.update_self] at own
        exact own
      · have other_xp := congrFun xp d
        rw [Function.update_of_ne other] at other_xp
        exact other_xp
    · rcases spared with dead₀ | alive'
      · exact absurd (dead₀.symm.trans alive) nofun
      · exact absurd (dead.symm.trans alive') nofun

theorem sane_read (clock : Ticks env) (sane : Sane env g.scene g.asked) :
    Sane env ({ g with asked := g.asked + 1 } : Server).scene (g.asked + 1) ∧
      (∀ k, g.asked + 1 ≤ k → env.now g.asked ≤ env.now k) :=
  ⟨sane_later sane (Nat.le_succ _), fun k after => clock.forward _ _ (by omega)⟩

theorem hunted_pulse (clock : Ticks env) (sane : Sane env g.scene g.asked)
    (taken : (Hunt.pulse c).run env g = .ok ((), g')) :
    Sane env g'.scene g'.asked ∧ Hunted env g (.pulse c) g' := by
  obtain ⟨sane₁, coming⟩ := sane_read clock sane
  have ran : sessionPulse env c (env.now g.asked) { g with asked := g.asked + 1 } = .ok ((), g') :=
    taken
  obtain ⟨later, pulse⟩ := (pulse_leads env c _ _).result rfl ran
  have left := pulsed clock sane₁ coming (clock.positive _) later pulse
  have ends : (Hunt.pulse c).ends env g =
      endsOf c (pulseEnd { g with asked := g.asked + 1 } c (env.now g.asked)) := by
    simp only [Hunt.ends, beatEnds, ran, List.append_nil]
  rw [← ends] at left
  refine ⟨left.sane, hunted_spell (Nat.le_succ _) left.spell left.aftermath.leaves ?_⟩
  intro d x member
  rw [ends] at member
  obtain ⟨_, ended, same⟩ := List.mem_map.mp member
  cases same
  exact (pulse_tells (Option.mem_toList.mp ended)).result rfl ran

theorem sane_respawned {v : Scene} {n : Nat} {now : Int} (sane : Sane env v n) :
    Sane env (v.respawned now) n := by
  unfold Scene.respawned
  split
  · exact { sane with
      low := by change (0 : Int) ≤ 12; omega
      high := Int.le_refl 12
      lives := ⟨fun _ => by change (0 : Int) < 12; omega, fun _ => rfl⟩
      waits := nofun
      died := nofun }
  · exact sane

theorem hunted_beat (clock : Ticks env) (sane : Sane env g.scene g.asked)
    (taken : Hunt.heartbeat.run env g = .ok ((), g')) :
    Sane env g'.scene g'.asked ∧ Hunted env g .heartbeat g' := by
  obtain ⟨sane₁, coming⟩ := sane_read clock sane
  have ran : heartbeat env (env.now g.asked) { g with asked := g.asked + 1 } = .ok ((), g') := taken
  obtain ⟨g₁, ⟨left, settled⟩, later, scene⟩ :=
    (beat_leads clock (clock.positive _) (clock.bounded _) sane₁ coming).result rfl ran
  have tells : ∀ d x, (d, x) ∈ Hunt.heartbeat.ends env g → Hears d (endLine x) g g' :=
    beat_tells.result rfl ran
  refine ⟨?_, ?_⟩
  · rw [scene]
    exact sane_respawned (sane_later left.sane later)
  by_cases back : g₁.scene.ratAlive = false ∧ g₁.scene.ratDiedAt ≠ 0 ∧
      u64 (g₁.scene.ratDiedAt + respawnMs) ≤ u64 (env.now g.asked)
  · have dead₁ := back.1
    have long := back.2.2
    have died := left.sane.died dead₁
    have long' : g₁.scene.ratDiedAt + 20000 ≤ env.now g.asked := by
      have now := clock.positive g.asked
      have bound := clock.bounded g.asked
      change u64 (g₁.scene.ratDiedAt + 20000) ≤ _ at long
      rwa [u64_small (by omega) (by omega), u64_small (by omega) (by omega)] at long
    have recent : ¬env.now g.asked ≤ g₁.world.ratDiedAt := by
      change g₁.world.ratDiedAt + 20000 ≤ _ at long'
      omega
    obtain ⟨dead, diedAt⟩ := (spell_died left.spell coming dead₁).resolve_right recent
    have after : g'.scene = { g₁.scene with ratHp := 12, ratAlive := true, ratDiedAt := 0 } :=
      scene.trans (if_pos back)
    have fights (d : Block) : (g'.blocks d).toFight = (g₁.blocks d).toFight :=
      congrArg (fun v : Scene => v.fight d) after
    have alive : g'.world.ratAlive = true := congrArg Scene.ratAlive after
    cases left.spell with
    | lives alive₀ => exact absurd (alive₀.symm.trans dead) nofun
    | dies _ _ _ _ _ _ alive₀ => exact absurd (alive₀.symm.trans dead) nofun
    | lies _ _ _ xp record gone =>
      exact {
        dies := fun alive₀ => absurd (alive₀.symm.trans dead) nofun
        spares := fun _ => ⟨fun d => (congrArg (fun v : Scene => v.xp d) after).trans (congrFun xp d),
          (congrArg Scene.chronicle after).trans record, fun x member => by
            rw [gone x member]
            exact nofun⟩
        lies := fun _ dead' => absurd (dead'.symm.trans alive) nofun
        gone := fun _ => gone
        returns := fun _ _ => ⟨rfl, diedAt ▸ long', fun d listed => by
          have table : g'.sessionTable = g.sessionTable :=
            (congrArg Scene.table after).trans left.aftermath.table
          rw [fights d]
          exact settled d (table ▸ listed) dead₁ long'⟩
        leaves := fun d fought calm => left.aftermath.leaves d fought
          ((congrArg Fight.inCombat (fights d)).symm.trans calm)
        tells := tells }
  · have same : g'.scene = g₁.scene := scene.trans (if_neg back)
    apply hunted_spell (Nat.le_succ _)
    · rw [same]
      exact spell_later left.spell later
    · intro d fought calm
      have fight : (g'.blocks d).toFight = (g₁.blocks d).toFight :=
        congrArg (fun v : Scene => v.fight d) same
      exact left.aftermath.leaves d fought ((congrArg Fight.inCombat fight).symm.trans calm)
    · exact tells

theorem hunted_attack (clock : Ticks env) {arg : Ptr} (sane : Sane env g.scene g.asked)
    (taken : (Hunt.attack c arg).run env g = .ok ((), g')) :
    Sane env g'.scene g'.asked ∧ Hunted env g (.attack c arg) g' := by
  obtain ⟨later, sane', f, scene, fights⟩ := (attack_leads clock arg sane).result rfl taken
  refine ⟨sane', ?_⟩
  apply hunted_spell (Nat.le_refl _)
  · rw [scene]
    exact spell_still rfl rfl rfl rfl
  · intro d fought calm
    have fight : (g'.blocks d).toFight = (g.scene.fought c f).fight d :=
      congrArg (fun v : Scene => v.fight d) scene
    have calmed : ((g.scene.fought c f).fight d).inCombat = false :=
      (congrArg Fight.inCombat fight).symm.trans calm
    by_cases own : d = c
    · subst own
      rw [Scene.fought_own, fights fought] at calmed
      cases calmed
    · rw [Scene.fought_other _ _ own] at calmed
      exact absurd (fought.symm.trans calmed) nofun
  · exact fun _ _ => nofun

end Hunting

/-- The world as hg_world_boot leaves it, with sessions registered that have not fought yet. -/
structure Fresh (g : Server) : Prop where
  ratHp : g.world.ratHp = 12
  ratAlive : g.world.ratAlive = true
  ratDiedAt : g.world.ratDiedAt = 0
  fights : ∀ d, (g.blocks d).toFight = {}
  sockets : ∀ d, some d ∈ g.sessionTable → ∃ i wsi, g.sessionTable.idxOf? (some d) = some i ∧
    g.sessionWsiTable[i]? = some wsi ∧ wsi ≠ 0

theorem fresh_sane {env : Env} (clock : Ticks env) {g : Server} (fresh : Fresh g) :
    Sane env g.scene g.asked where
  low := by
    have full : g.scene.ratHp = 12 := fresh.ratHp
    omega
  high := Int.le_of_eq fresh.ratHp
  lives := by
    have full : g.scene.ratHp = 12 := fresh.ratHp
    have alive : g.scene.ratAlive = true := fresh.ratAlive
    rw [full, alive]
    decide
  ticks := fun d k _ => by
    have still : g.scene.fight d = {} := fresh.fights d
    have ready := clock.positive k
    rw [still]
    change 0 ≤ env.now k + 2000
    omega
  aims := fun d fights => by
    have still : g.scene.fight d = {} := fresh.fights d
    rw [still] at fights
    cases fights
  waits := fun dead => absurd (dead.symm.trans fresh.ratAlive) nofun
  died := fun dead => absurd (dead.symm.trans fresh.ratAlive) nofun
  stands := fun d fights => by
    have still : g.scene.fight d = {} := fresh.fights d
    rw [still] at fights
    cases fights
  sockets := fresh.sockets

theorem hunt_step {env : Env} (clock : Ticks env) {g g' : Server} {e : Hunt}
    (sane : Sane env g.scene g.asked) (registered : e.registered g = true)
    (taken : hunt env g e = .ok g') : Sane env g'.scene g'.asked ∧ Hunted env g e g' := by
  have ran : e.run env g = .ok ((), g') := by
    rw [hunt, if_pos registered] at taken
    exact map_ok taken
  cases e with
  | attack c arg => exact hunted_attack clock sane ran
  | pulse c => exact hunted_pulse clock sane ran
  | heartbeat => exact hunted_beat clock sane ran

/-- Whatever the order of attacks, pulses and heartbeats: the rat is alive while it has hit
points left, dies once for each kill that is rewarded and recorded, and comes back at a
heartbeat that is late enough, with no listed hunter left over. -/
theorem rat_run (env : Env) (clock : Ticks env) (g₀ : Server) (fresh : Fresh g₀)
    (events : List Hunt) (g : Server) (reached : Machine.Reaches (hunt env) g₀ events g) :
    (0 ≤ g.world.ratHp ∧ g.world.ratHp ≤ 12) ∧
    (g.world.ratAlive = true ↔ 0 < g.world.ratHp) ∧
    ∀ e g', e.registered g = true → hunt env g e = .ok g' → Hunted env g e g' := by
  have sane : Sane env g.scene g.asked := by
    refine Machine.invariant_every_run (hunt env) (fun g => Sane env g.scene g.asked) g₀
      (fresh_sane clock fresh) (fun s e next sane taken => ?_) events g reached
    cases registered : e.registered s with
    | true => exact (hunt_step clock sane registered taken).1
    | false =>
      rw [hunt, if_neg (by simp [registered])] at taken
      cases taken
      exact sane
  exact ⟨⟨sane.low, sane.high⟩, sane.lives, fun e g' registered taken =>
    (hunt_step clock sane registered taken).2⟩

/-- A second for each reading. -/
def tickingNode : Env := { quietNode with now := fun n => min (1000 * (n + 1 : Int)) 1000000000000 }

theorem ticking : Ticks tickingNode where
  positive := fun n => by
    change 0 < min (1000 * (n + 1 : Int)) 1000000000000
    omega
  bounded := fun n => by
    change min (1000 * (n + 1 : Int)) 1000000000000 < 2 ^ 63
    omega
  forward := fun m n after => by
    change min (1000 * (m + 1 : Int)) 1000000000000 ≤ min (1000 * (n + 1 : Int)) 1000000000000
    omega

def hunters : Server :=
  { boot tickingNode sharedDisk with
    blocks := fun c =>
      { name := if c = 0 then str "ada" else str "bo", state := .play, room := roomTunnels
        hp := 30, maxHp := 30 }
    sessionTable := [some 0, some 1]
    sessionWsiTable := [1, 2] }

theorem hunters_fresh : Fresh hunters where
  ratHp := rfl
  ratAlive := rfl
  ratDiedAt := rfl
  fights := fun _ => rfl
  sockets := fun d listed => by
    change some d ∈ [some 0, some 1] at listed
    rcases List.mem_cons.mp listed with here | later
    · cases here
      exact ⟨0, 1, rfl, rfl, by decide⟩
    · cases List.mem_singleton.mp later
      exact ⟨1, 2, rfl, rfl, by decide⟩

/-- The third beat of two hunters kills the rat for one of them. -/
theorem rat_run_hunters : ∃ g g' : Server, ∃ c, hunt tickingNode g .heartbeat = .ok g' ∧
    g.world.ratAlive = true ∧ g'.world.ratAlive = false ∧
    ((g'.blocks c).xp = (g.blocks c).xp + 8 ∧ ∀ d, d ≠ c → (g'.blocks d).xp = (g.blocks d).xp) ∧
    Hears c (endLine .killed) g g' := by
  obtain ⟨g, reached, shown⟩ := Machine.ends_reaches (hunt tickingNode) hunters
    [.attack 0 (some (str "rat")), .attack 1 (some (str "rat")), .heartbeat, .heartbeat]
    (fun g => g.world.ratAlive && match hunt tickingNode g .heartbeat with
      | .ok g' => !g'.world.ratAlive
      | .error _ => false) (by decide +kernel)
  obtain ⟨alive, later⟩ := (Bool.and_eq_true ..).mp shown
  cases taken : hunt tickingNode g .heartbeat with
  | error fault =>
    rw [taken] at later
    cases later
  | ok g' =>
    rw [taken] at later
    have dead : g'.world.ratAlive = false := by simpa using later
    have hunted := (rat_run tickingNode ticking hunters hunters_fresh _ g reached).2.2 .heartbeat g'
      rfl taken
    obtain ⟨c, _, _, _, _, _, _, rewarded, _, ends, _⟩ := hunted.dies alive dead
    exact ⟨g, g', c, taken, alive, dead, rewarded, hunted.tells c .killed (by simp [ends])⟩

end HollowGrid
