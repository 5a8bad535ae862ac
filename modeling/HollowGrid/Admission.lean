import HollowGrid.Lib.Simulation
import HollowGrid.Seats

/-! The doors that a connection passes on its way into play. -/
namespace HollowGrid

/-- What a connection stands at, under which name, and whether it gave the token. -/
structure Door where
  state : Login
  name : Bytes
  authed : Bool
  deriving DecidableEq, Repr

def doorOf (s : Session) : Door := ⟨s.state, s.name, s.keeperAuthed⟩

def threshold : Door := ⟨.name, [], false⟩

/-- One door on. A name whose file cannot be read is asked for again, the token too. -/
inductive Advance (env : Env) : Door → Door → Prop
  | names {line name : Bytes} {authed : Bool} {state : Login} : validName line = true →
      isAdmin env line = false → state = .name ∨ state = .race ∨ state = .passphrase →
      Advance env ⟨.name, name, authed⟩ ⟨state, line, authed⟩
  | asks {line name : Bytes} {authed : Bool} : validName line = true → isAdmin env line = true →
      Advance env ⟨.name, name, authed⟩ ⟨.token, line, authed⟩
  | proves {name : Bytes} {authed : Bool} {state : Login} :
      state = .token ∨ state = .race ∨ state = .passphrase →
      Advance env ⟨.token, name, authed⟩ ⟨state, name, true⟩
  | chooses {name : Bytes} {authed : Bool} :
      Advance env ⟨.race, name, authed⟩ ⟨.passphrase, name, authed⟩
  | enters {name : Bytes} {authed : Bool} :
      Advance env ⟨.passphrase, name, authed⟩ ⟨.play, name, authed⟩

def Login.rank : Login → Nat
  | .name => 0
  | .token => 1
  | .race => 2
  | .passphrase => 3
  | .play => 4

structure Checked (env : Env) (d : Door) : Prop where
  unnamed : d.state = .name → d.authed = false
  asked : d.state = .token → isAdmin env d.name = true
  past : d.state ≠ .name → d.state ≠ .token → (d.authed = true ↔ isAdmin env d.name = true)

section Doors

variable {env : Env} {a b : Door}

theorem advance_rank (advance : Advance env a b) : a.state.rank ≤ b.state.rank := by
  cases advance with
  | names => exact Nat.zero_le _
  | asks => exact Nat.zero_le _
  | proves ways => rcases ways with rfl | rfl | rfl <;> simp [Login.rank]
  | chooses => simp [Login.rank]
  | enters => simp [Login.rank]

theorem advance_named (advance : Advance env a b) (named : a.state ≠ .name) :
    b.state ≠ .name ∧ b.name = a.name := by
  cases advance with
  | names => exact absurd rfl named
  | asks => exact absurd rfl named
  | proves ways => exact ⟨by rcases ways with rfl | rfl | rfl <;> simp, rfl⟩
  | chooses => exact ⟨by simp, rfl⟩
  | enters => exact ⟨by simp, rfl⟩

theorem advance_checked (advance : Advance env a b) (checked : Checked env a) : Checked env b := by
  cases advance with
  | @names line name authed state valid other ways =>
    have untrusted : authed = false := checked.unnamed rfl
    refine ⟨fun _ => untrusted, fun token => ?_, fun _ _ => by simp [untrusted, other]⟩
    rcases ways with rfl | rfl | rfl <;> simp at token
  | asks valid keeper => exact ⟨by simp, fun _ => keeper, fun _ away => absurd rfl away⟩
  | proves ways =>
    have keeper := checked.asked rfl
    refine ⟨fun named => ?_, fun _ => keeper, fun _ _ => iff_of_true rfl keeper⟩
    rcases ways with rfl | rfl | rfl <;> simp at named
  | chooses => exact ⟨by simp, by simp, fun _ _ => checked.past (by simp) (by simp)⟩
  | enters => exact ⟨by simp, by simp, fun _ _ => checked.past (by simp) (by simp)⟩

end Doors

section Runs

variable {env : Env} {g g' : Server} {e : Event} {c : Block}

theorem load_door {s s' : Session} {disk disk' : Disk} (load : Load env s disk s' disk') :
    (s'.state = s.state ∨ s'.state = .race ∨ s'.state = .passphrase) ∧ s'.name = s.name ∧
      s'.keeperAuthed = s.keeperAuthed := by
  cases load with
  | unreadable => exact ⟨.inl rfl, rfl, rfl⟩
  | own => exact ⟨.inr (.inr rfl), rfl, rfl⟩
  | merged => exact ⟨.inr (.inr rfl), rfl, rfl⟩
  | adopted => exact ⟨.inr (.inr rfl), rfl, rfl⟩
  | fresh => exact ⟨.inr (.inl rfl), rfl, rfl⟩

theorem move_door {line : Bytes} {s s' : Session} {disk disk' : Disk}
    (move : LoginMove env line s disk s' disk') :
    doorOf s' = doorOf s ∨ Advance env (doorOf s) (doorOf s') := by
  cases move with
  | refused => exact .inl rfl
  | keeper naming valid keeper =>
    right
    rw [doorOf, naming]
    exact .asks valid keeper
  | named naming valid other load =>
    obtain ⟨state, name, authed⟩ := load_door load
    right
    rw [doorOf, doorOf, naming, name, authed]
    exact .names valid other (naming ▸ state)
  | trusted asked _ load =>
    obtain ⟨state, name, authed⟩ := load_door load
    right
    rw [doorOf, doorOf, asked, name, authed]
    exact .proves (asked ▸ state)
  | raced choosing =>
    right
    rw [doorOf, choosing]
    exact .chooses
  | entered asked enters =>
    right
    rw [doorOf, asked]
    cases enters with
    | proven => exact .enters
    | chosen => exact .enters

theorem door_like {s s' : Session} (like : Like False s s') : doorOf s' = doorOf s := by
  rw [doorOf, like.state, like.name, like.keeperAuthed]
  rfl

theorem event_door (taken : step env g e = .ok g') (there : g.socket c ≠ none)
    (stays : e ≠ .close c) : doorOf (g'.blocks c) = doorOf (g.blocks c) ∨
      ∃ text, e = .message c text ∧ Advance env (doorOf (g.blocks c)) (doorOf (g'.blocks c)) := by
  cases step_onward taken (step_open taken there stays) with
  | fresh _ empty => exact absurd empty there
  | same _ _ peer =>
    left
    rw [doorOf, peer.state, peer.name, peer.keeperAuthed]
    rfl
  | @login text _ message _ _ _ _ move like =>
    rw [door_like like]
    rcases move_door move with same | advance
    · exact .inl same
    · exact .inr ⟨text, message, advance⟩

theorem doors_run {disk : Disk} {events : List Event}
    (reached : Machine.Reaches (step env) (boot env disk) events g) :
    ∀ c, g.socket c ≠ none → Checked env (doorOf (g.blocks c)) := by
  refine Machine.invariant_every_run (step env)
    (fun g => ∀ c, g.socket c ≠ none → Checked env (doorOf (g.blocks c)))
    (boot env disk) (fun c there => absurd rfl there) (fun g e g' passed taken c there => ?_)
    events g reached
  have onward (before : g.socket c ≠ none) (stays : e ≠ .close c) :
      Checked env (doorOf (g'.blocks c)) := by
    rcases event_door taken before stays with same | ⟨_, _, advance⟩
    · rw [same]
      exact passed c before
    · exact advance_checked advance (passed c before)
  cases step_onward taken there with
  | fresh _ _ like =>
    rw [door_like like]
    exact ⟨fun _ => rfl, nofun, fun away => absurd rfl away⟩
  | same before stays => exact onward before stays
  | login message _ before => exact onward before (by simp [message])

theorem door_lasts {P : Door → Prop} (keeps : ∀ a b, Advance env a b → P a → P b)
    {later : List Event} (there : g.socket c ≠ none) (holds : P (doorOf (g.blocks c)))
    (now : Machine.Reaches (step env) g later g') (stays : .close c ∉ later) :
    g'.socket c ≠ none ∧ P (doorOf (g'.blocks c)) :=
  Machine.lasts (fun g₁ => g₁.socket c ≠ none ∧ P (doorOf (g₁.blocks c))) (fun e => e ≠ .close c)
    (fun g₁ e g₂ held still taken => by
      refine ⟨step_open taken held.1 still, ?_⟩
      rcases event_door taken held.1 still with same | ⟨_, _, advance⟩
      · rw [same]
        exact held.2
      · exact keeps _ _ advance held.2)
    now ⟨there, holds⟩ fun e member closes => stays (closes ▸ member)

end Runs

/-- A connection opens at the threshold, and each event takes it one door on at most, by a message
of its own. It never goes back, keeps its name once it is past the first door, and is past the
token's door under a keeper's name exactly when it gave the token. -/
theorem doors_passed (env : Env) (disk : Disk) (before : List Event) (g : Server) (c : Block)
    (reached : Machine.Reaches (step env) (boot env disk) before g) :
    (∀ e g', g.socket c = none → step env g e = .ok g' → g'.socket c ≠ none →
      doorOf (g'.blocks c) = threshold) ∧
    (g.socket c ≠ none →
      (∀ e g', e ≠ .close c → step env g e = .ok g' →
        doorOf (g'.blocks c) = doorOf (g.blocks c) ∨
          ∃ text, e = .message c text ∧
            Advance env (doorOf (g.blocks c)) (doorOf (g'.blocks c))) ∧
      ((g.blocks c).state = .play →
        ((g.blocks c).keeperAuthed = true ↔ isAdmin env (g.blocks c).name = true)) ∧
      ∀ later g', Machine.Reaches (step env) g later g' → .close c ∉ later →
        (g.blocks c).state.rank ≤ (g'.blocks c).state.rank ∧
        ((g.blocks c).state ≠ .name → (g'.blocks c).name = (g.blocks c).name)) := by
  refine ⟨fun e g' empty taken opened => ?_, fun there => ⟨?_, ?_, ?_⟩⟩
  · cases step_onward taken opened with
    | fresh _ _ like => exact door_like like
    | same before => exact absurd empty before
    | login _ _ before => exact absurd empty before
  · exact fun e g' stays taken => event_door taken there stays
  · intro playing
    have checked := doors_run reached c there
    exact checked.past (by simp [doorOf, playing]) (by simp [doorOf, playing])
  · intro later g' now stays
    constructor
    · exact (door_lasts (P := fun d => (g.blocks c).state.rank ≤ d.state.rank)
        (fun _ _ advance low => low.trans (advance_rank advance)) there (Nat.le_refl _) now
        stays).2
    · intro named
      exact (door_lasts (P := fun d => d.state ≠ .name ∧ d.name = (g.blocks c).name)
        (fun _ _ advance held => by
          obtain ⟨still, same⟩ := advance_named advance held.1
          exact ⟨still, same.trans held.2⟩) there ⟨named, rfl⟩ now stays).2.2

/-- ada gives her name and her phrase. -/
theorem doors_passed_ada : ∃ g g' g'',
    Machine.Reaches (step quietNode) (boot quietNode sharedDisk) [.connect 0 1] g ∧
    step quietNode g (.message 0 (str "ada")) = .ok g' ∧
    Machine.Reaches (step quietNode) g' [.message 0 (str "password")] g'' ∧
    (g''.blocks 0).state = .play ∧
    Advance quietNode (doorOf (g.blocks 0)) (doorOf (g'.blocks 0)) ∧
    (g''.blocks 0).name = (g'.blocks 0).name := by
  obtain ⟨g'', reached, seated⟩ := Machine.ends_reaches (step quietNode) (boot quietNode sharedDisk)
    ([.connect 0 1] ++ [.message 0 (str "ada"), .message 0 (str "password")])
    (fun g => decide ((g.blocks 0).state = .play)) (by decide +kernel)
  obtain ⟨g, front, rest⟩ := Machine.reaches_split reached
  obtain ⟨g', named, later⟩ := Machine.reaches_cons rest
  have between := Machine.reaches_snoc _ _ _ _ _ _ front named
  obtain ⟨h, again, shown⟩ := Machine.ends_reaches (step quietNode) (boot quietNode sharedDisk)
    [.connect 0 1] (fun g => decide (g.socket 0 ≠ none ∧ (g.blocks 0).state = .name))
    (by decide +kernel)
  cases front.symm.trans again
  obtain ⟨h', again', asked⟩ := Machine.ends_reaches (step quietNode) (boot quietNode sharedDisk)
    ([.connect 0 1] ++ [.message 0 (str "ada")])
    (fun g => decide (g.socket 0 ≠ none ∧ (g.blocks 0).state = .passphrase)) (by decide +kernel)
  cases between.symm.trans again'
  obtain ⟨there, naming⟩ := of_decide_eq_true shown
  obtain ⟨there', asking⟩ := of_decide_eq_true asked
  have moved : doorOf (g'.blocks 0) ≠ doorOf (g.blocks 0) := by
    intro same
    have state := congrArg Door.state same
    exact absurd (asking.symm.trans (state.trans naming)) (by decide)
  have first := (doors_passed quietNode sharedDisk _ g 0 front).2 there
  have second := (doors_passed quietNode sharedDisk _ g' 0 between).2 there'
  obtain ⟨_, _, advance⟩ := (first.1 _ g' (by simp) named).resolve_left moved
  exact ⟨g, g', g'', front, named, later, of_decide_eq_true seated, advance,
    (second.2.2 _ g'' later (by simp)).2 (by simp [asking])⟩

end HollowGrid
