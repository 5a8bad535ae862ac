import HollowGrid.Marks

/-! Who is there: the rows of grid.who, and the players of room.info. -/
namespace HollowGrid

open JsonText

def stringField (key : String) (b : Bytes) : Member := slotField key (escapeSize b + 1) b

structure WhoRow where
  here : Bool
  world : Bytes
  name : Bytes
  regard : Bytes
  title : Bytes

namespace WhoRow

def text (r : WhoRow) : Text :=
  whoJson r.here (escapeText r.world) (escapeText r.name) (escapeText r.regard) (escapeText r.title)

def members (r : WhoRow) : List Member :=
  [stringField "world" r.world, stringField "name" r.name, stringField "regard" r.regard,
    boolMember "here" r.here, stringField "title" r.title]

def value (r : WhoRow) : Value :=
  .obj [(str "world", .str r.world), (str "name", .str r.name), (str "regard", .str r.regard),
    (str "here", .bool r.here), (str "title", .str r.title)]

/-- Its strings fit their slots: those of the world and the regard are shorter here. -/
def Fits (r : WhoRow) : Prop :=
  let cap := if r.here then 40 else 80
  escapeSize r.name + 1 ≤ 80 ∧ escapeSize r.title + 1 ≤ 80 ∧ escapeSize r.regard + 1 ≤ cap ∧
    escapeSize r.world + 1 ≤ cap

instance (r : WhoRow) : Decidable r.Fits := inferInstanceAs (Decidable (_ ∧ _))

end WhoRow

def nearRow (env : Env) (s : Session) : WhoRow :=
  ⟨true, gridWorldName env, s.name, regardOf s, s.title⟩

def farRow (row : PresenceRow) : WhoRow := ⟨false, row.world, row.name, row.regard, row.title⟩

def presenceRows (env : Env) (g : Server) : List PresenceRow :=
  match gridPresence env 30000 32 g with
  | .ok (answer, _) => answer.getD []
  | .error _ => []

def nearRows (env : Env) (g : Server) : List WhoRow :=
  g.present.map fun d => nearRow env (g.blocks d)

def farRows (env : Env) (g : Server) : List WhoRow :=
  ((presenceRows env g).filter fun row =>
    row.name ≠ [] ∧ row.world ≠ gridWorldName env ∧ (farRow row).Fits).map farRow

def openText (rows : List WhoRow) : Text :=
  lit "[" ++ (jsonRows (fun _ => WhoRow.text) 0 rows).flatten

def whoEvent (env : Env) (g : Server) : Text :=
  let near := whoAppend 2048 (lit "[") (g.present.filterMap fun d => whoLocal env (g.blocks d))
  let far := whoAppend 2048 near ((presenceRows env g).filterMap (whoRemote env))
  let json := if far.length + 2 < 2048 then far ++ lit "]" else lit "[]"
  snprintf 2200 (lit r#"@event grid.who {"players":"# ++ json ++ lit "\x7d" ++ crlf)

/-- The event lists every session once, in slot order and as it is, and beside them none that is
said to be here. -/
def WhoRight (env : Env) (g : Server) : Prop :=
  ∃ far : List WhoRow, (∀ r ∈ far, r.here = false) ∧ EventLine "grid.who" (whoEvent env g)
    [(str "players", .arr ((nearRows env g ++ far).map WhoRow.value))]

/-- The rows of the sessions fit their slots, and the buffer leaves two bytes behind them and
behind what follows of the other worlds. -/
structure WhoFits (env : Env) (g : Server) : Prop where
  slots : ∀ r ∈ nearRows env g, r.Fits
  room : (openText (nearRows env g)).length < 2046
  far : ∀ k, (openText (nearRows env g ++ (farRows env g).take k)).length < 2046 ∨
    2048 ≤ (openText (nearRows env g ++ (farRows env g).take k)).length

section Who

variable {env : Env} {g : Server} {c d : Block} {rows : List WhoRow}

theorem who_run (env : Env) (g : Server) (c : Block) : ∃ line next,
    next = { g with asked := next.asked } ∧ cmdWho env c g =
      (queue c (whoEvent env g) >>= fun _ => queueLine c line) next := by
  have answer : ∃ rows next, gridPresence env 30000 32 g = .ok (rows, next) ∧
      next = { g with asked := next.asked } := by
    unfold gridPresence rpcCall
    cases env.remote with
    | true => exact ⟨_, _, rfl, rfl⟩
    | false => exact ⟨_, _, rfl, rfl⟩
  obtain ⟨rows, next, asked, same⟩ := answer
  have listing : (g.present.map fun d => (d, g.blocks d)).filterMap (fun d => whoLocal env d.2) =
      g.present.filterMap fun d => whoLocal env (g.blocks d) := by
    rw [List.filterMap_map]
    rfl
  have there : presenceRows env g = rows.getD [] := by rw [presenceRows, asked]
  rw [cmdWho, emitGridWhoNow, bind_ok (rfl : listed g = .ok (_, g)), bind_ok asked]
  have first : (g.sessionTable.filterMap id).map (fun d => (d, g.blocks d)) =
    g.present.map fun d => (d, g.blocks d) := rfl
  rw [first, listing]
  simp only [whoEvent, there]
  by_cases alone : (whoAppend 2048 (whoAppend 2048 (lit "[") (g.present.filterMap fun d =>
      whoLocal env (g.blocks d))) ((rows.getD []).filterMap (whoRemote env))).length = 1
  · exact ⟨_, next, same, by rw [if_pos alone]⟩
  · exact ⟨_, next, same, by rw [if_neg alone]⟩

theorem near_text (env : Env) {s : Session} (named : s.name ≠ []) :
    whoLocal env s = if (nearRow env s).Fits then some (nearRow env s).text else none := by
  rw [whoLocal, if_neg named]
  simp only [escape_fits, WhoRow.Fits, nearRow, if_true]
  by_cases name : escapeSize s.name + 1 ≤ 80
  · by_cases title : escapeSize s.title + 1 ≤ 80
    · by_cases regard : escapeSize (regardOf s) + 1 ≤ 40
      · by_cases world : escapeSize (gridWorldName env) + 1 ≤ 40
        · simp only [name, title, regard, world, and_self, if_true]
          rfl
        · simp [name, title, regard, world]
      · simp [name, title, regard]
    · simp [name, title]
  · simp [name]

theorem far_text (env : Env) (row : PresenceRow) : whoRemote env row =
    if row.name ≠ [] ∧ row.world ≠ gridWorldName env ∧ (farRow row).Fits then
      some (farRow row).text
    else none := by
  rw [whoRemote]
  by_cases skipped : row.name = [] ∨ row.world = gridWorldName env
  · rw [if_pos skipped, if_neg]
    rintro ⟨named, other, _⟩
    exact skipped.elim named other
  obtain ⟨named, other⟩ := not_or.mp skipped
  rw [if_neg skipped]
  simp only [escape_fits, WhoRow.Fits, farRow, Bool.false_eq_true, if_false, named, other, ne_eq,
    not_false_eq_true, true_and]
  by_cases name : escapeSize row.name + 1 ≤ 80
  · by_cases title : escapeSize row.title + 1 ≤ 80
    · by_cases regard : escapeSize row.regard + 1 ≤ 80
      · by_cases world : escapeSize row.world + 1 ≤ 80
        · simp only [name, title, regard, world, and_self, if_true]
          rfl
        · simp [name, title, regard, world]
      · simp [name, title, regard]
    · simp [name, title]
  · simp [name]

theorem rows_append {α : Type} (row : Nat → α → Text) (i : Nat) (xs ys : List α) :
    jsonRows row i (xs ++ ys) = jsonRows row i xs ++ jsonRows row (i + xs.length) ys := by
  induction xs generalizing i with
  | nil => rfl
  | cons x xs ih =>
    rw [List.cons_append, jsonRows, jsonRows, ih, List.length_cons]
    simp [Nat.add_comm, Nat.add_left_comm]

theorem open_append (rows more : List WhoRow) : openText (rows ++ more) =
    openText rows ++ (jsonRows (fun _ => WhoRow.text) rows.length more).flatten := by
  rw [openText, rows_append, Nat.zero_add, List.flatten_append, openText, List.append_assoc]

theorem open_longer (rows more : List WhoRow) :
    (openText rows).length ≤ (openText (rows ++ more)).length := by
  rw [open_append, List.length_append]
  exact Nat.le_add_right ..

theorem row_filled (r : WhoRow) : 0 < r.text.length := by
  have opens : (lit r#"{"world":""#).length = 10 := length_lit _
  simp only [WhoRow.text, whoJson, List.length_append, opens]
  omega

theorem open_alone (rows : List WhoRow) : (openText rows).length = 1 ↔ rows = [] := by
  have bracket : (lit "[").length = 1 := length_lit _
  cases rows with
  | nil => simp [openText, jsonRows, bracket]
  | cons r rest =>
    have filled := row_filled r
    simp only [openText, jsonRows, List.flatten_cons, List.length_append, bracket, reduceCtorEq,
      iff_false]
    omega

theorem open_snoc (rows : List WhoRow) (r : WhoRow) : openText rows ++
    ((if (openText rows).length = 1 then [] else lit ",") ++ r.text) = openText (rows ++ [r]) := by
  rw [open_append]
  by_cases alone : rows = []
  · rw [if_pos ((open_alone rows).mpr alone), alone]
    simp [jsonRows, comma]
  · rw [if_neg fun one => alone ((open_alone rows).mp one)]
    have some_row : rows.length ≠ 0 := fun none => alone (List.length_eq_zero_iff.mp none)
    simp [jsonRows, comma, some_row]

theorem packed (done rest : List WhoRow) : ∃ k, k ≤ rest.length ∧
    whoAppend 2048 (openText done) (rest.map WhoRow.text) = openText (done ++ rest.take k) ∧
    ((openText done).length < 2048 → (openText (done ++ rest.take k)).length < 2048) ∧
    (k < rest.length → 2048 ≤ (openText (done ++ rest.take (k + 1))).length) := by
  induction rest generalizing done with
  | nil => exact ⟨0, Nat.le_refl 0, by simp [whoAppend], by simp, nofun⟩
  | cons r rest ih =>
    have snoc := open_snoc done r
    rw [List.map_cons, whoAppend]
    by_cases fits : (openText done).length +
        ((if (openText done).length = 1 then [] else lit ",") ++ r.text).length < 2048
    · obtain ⟨k, few, same, short, full⟩ := ih (done ++ [r])
      rw [← List.length_append, snoc] at fits
      refine ⟨k + 1, Nat.succ_le_succ few, ?_, fun _ => ?_, fun more => ?_⟩
      · rw [← List.length_append, snoc, if_pos fits, same, List.take_succ_cons, List.append_assoc]
        rfl
      · have whole := short fits
        rwa [List.append_assoc] at whole
      · have beyond := full (Nat.lt_of_succ_lt_succ more)
        rwa [List.append_assoc] at beyond
    · refine ⟨0, Nat.zero_le _, ?_, by simp, fun _ => ?_⟩
      · rw [if_neg fits]
        simp
      · rw [← List.length_append, snoc] at fits
        exact Nat.le_of_not_lt fits

theorem row_bytes (r : WhoRow) : bytes r.text = objectText r.members := by
  have truth : bytes (boolText r.here) = (boolMember "here" r.here).text := by
    cases r.here <;> decide
  unfold WhoRow.text whoJson
  simp only [bytes_join, bytes_lit, bytes_escape, truth]
  simp [str, objectText, WhoRow.members, Member.body, stringField, slotField,
    slot_whole (Nat.le_refl _), boolMember]

theorem row_legible (r : WhoRow) : ∀ m ∈ r.members, Legible 1 m := by
  simp only [WhoRow.members, List.forall_mem_cons, List.not_mem_nil, false_implies, implies_true,
    and_true]
  exact ⟨slot_legible (by decide) _ _ (by decide), slot_legible (by decide) _ _ (by decide),
    slot_legible (by decide) _ _ (by decide), (bool_shown (by decide) r.here).toLegible,
    slot_legible (by decide) _ _ (by decide)⟩

theorem row_value (r : WhoRow) : Value.obj (r.members.map fun m => (m.key, m.value)) = r.value := by
  simp [WhoRow.members, WhoRow.value, stringField, slotField, slot_whole (Nat.le_refl _),
    boolMember]

theorem value_injective : Function.Injective WhoRow.value := by
  intro r q same
  cases r
  cases q
  simp only [WhoRow.value, Value.obj.injEq, List.cons.injEq, Prod.mk.injEq, Value.str.injEq,
    Value.bool.injEq, true_and, and_true] at same
  obtain ⟨rfl, rfl, rfl, rfl, rfl⟩ := same
  rfl

theorem who_event (rows : List WhoRow) (fields : List (Bytes × Value))
    (short : (jsonText WhoRow.text rows).length < 2048) :
    EventLine "grid.who" (snprintf 2200 (lit r#"@event grid.who {"players":"# ++
        jsonText WhoRow.text rows ++ lit "\x7d" ++ crlf)) fields ↔
      [(str "players", Value.arr (rows.map WhoRow.value))] = fields := by
  have same : bytes (lit r#"@event grid.who {"players":"# ++ jsonText WhoRow.text rows ++
      lit "\x7d" ++ crlf) = str "@event " ++ str "grid.who" ++ [32] ++
      objectText [rowsField "players" (rows.map WhoRow.members)] ++ [13, 10] := by
    simp only [bytes_join, bytes_lit, rows_bytes fun r _ => row_bytes r, crlf]
    simp [str, objectText, Member.body, rowsField]
  have legible : ∀ m ∈ [rowsField "players" (rows.map WhoRow.members)],
      Legible (max 6 rows.length + 1) m := by
    simp only [List.forall_mem_cons, List.not_mem_nil, false_implies, implies_true, and_true]
    refine rows_legible (by decide) (fun row listed => ?_) (fun row listed => ?_)
      (by decide : 1 ≤ 5) (by simp)
    · obtain ⟨r, _, rfl⟩ := List.mem_map.mp listed
      simp [WhoRow.members]
    · obtain ⟨r, _, rfl⟩ := List.mem_map.mp listed
      exact row_legible r
  have long : max (max 6 rows.length + 1) 1 ≤
      (objectText [rowsField "players" (rows.map WhoRow.members)]).length := by
    have counted := joined_count ((rows.map WhoRow.members).map objectText)
    simp only [List.length_map] at counted
    simp [objectText, Member.body, rowsField, rowsText, List.intercalate_singleton, str]
      at counted ⊢
    omega
  refine (composed_iff 2200 fields (by decide) (by simp) legible same long).trans ?_
  have size : (lit r#"@event grid.who {"players":"# ++ jsonText WhoRow.text rows ++ lit "\x7d" ++
      crlf).length < 2200 := by
    have keys : (lit r#"@event grid.who {"players":"#).length = 27 ∧ (lit "\x7d").length = 1 ∧
      crlf.length = 2 := ⟨length_lit _, length_lit _, length_lit _⟩
    simp only [List.length_append, keys]
    omega
  rw [and_iff_right size]
  have read : rowsValue (rows.map WhoRow.members) = .arr (rows.map WhoRow.value) := by
    simp only [rowsValue, List.map_map, Function.comp_def, row_value]
  simp [rowsField, read]

/-- What is left of the rows of the sessions: those that fit their slots. -/
theorem near_texts (named : ∀ d ∈ g.present, (g.blocks d).name ≠ []) :
    g.present.filterMap (fun d => whoLocal env (g.blocks d)) =
      ((nearRows env g).filter fun r => r.Fits).map WhoRow.text := by
  rw [nearRows]
  generalize g.present = blocks at named
  induction blocks with
  | nil => rfl
  | cons d rest ih =>
    have later := ih fun b member => named b (List.mem_cons_of_mem d member)
    rw [List.filterMap_cons, near_text env (named d List.mem_cons_self), List.map_cons, later]
    by_cases fits : (nearRow env (g.blocks d)).Fits
    · rw [if_pos fits, List.filter_cons_of_pos (by simpa using fits)]
      rfl
    · rw [if_neg fits, List.filter_cons_of_neg (by simpa using fits)]

theorem far_texts (env : Env) (g : Server) : (presenceRows env g).filterMap (whoRemote env) =
    (farRows env g).map WhoRow.text := by
  rw [farRows]
  induction presenceRows env g with
  | nil => rfl
  | cons row rest ih =>
    rw [List.filterMap_cons, far_text, ih]
    by_cases shown : row.name ≠ [] ∧ row.world ≠ gridWorldName env ∧ (farRow row).Fits
    · rw [if_pos shown, List.filter_cons_of_pos (by simpa using shown)]
      rfl
    · rw [if_neg shown, List.filter_cons_of_neg (by simpa using shown)]

/-- The rows that a who shows: what fits of the sessions, what fits behind them of the other
worlds, and none at all where less than three bytes are left. -/
theorem who_shows (env : Env) (named : ∀ d ∈ g.present, (g.blocks d).name ≠ []) : ∃ k j,
    let kept := (nearRows env g).filter fun r => r.Fits
    let rows := kept.take k ++ (farRows env g).take j
    (k ≤ kept.length ∧ (k < kept.length → 2048 ≤ (openText (kept.take (k + 1))).length)) ∧
    (j ≤ (farRows env g).length ∧ (j < (farRows env g).length →
      2048 ≤ (openText (kept.take k ++ (farRows env g).take (j + 1))).length)) ∧
    (openText rows).length < 2048 ∧
    ∀ fields, EventLine "grid.who" (whoEvent env g) fields ↔ [(str "players",
      Value.arr ((if (openText rows).length < 2046 then rows else []).map WhoRow.value))] =
        fields := by
  have bracket : openText [] = lit "[" ∧ (openText []).length < 2048 := by decide
  obtain ⟨k, few, near, short, full⟩ := packed [] ((nearRows env g).filter fun r => r.Fits)
  obtain ⟨j, some_far, far, short', full'⟩ :=
    packed (((nearRows env g).filter fun r => r.Fits).take k) (farRows env g)
  rw [bracket.1] at near
  have whole := short' (short bracket.2)
  refine ⟨k, j, ⟨few, full⟩, ⟨some_far, full'⟩, whole, fun fields => ?_⟩
  simp only [whoEvent, near_texts named, far_texts, near, List.nil_append, far]
  by_cases room : (openText (((nearRows env g).filter fun r => r.Fits).take k ++
      (farRows env g).take j)).length < 2046
  · rw [if_pos (by omega), if_pos room]
    refine who_event _ fields ?_
    have bracket : (lit "]").length = 1 := length_lit _
    have size : (jsonText WhoRow.text (((nearRows env g).filter fun r => r.Fits).take k ++
        (farRows env g).take j)).length = (openText (((nearRows env g).filter fun r =>
        r.Fits).take k ++ (farRows env g).take j)).length + 1 := by
      rw [jsonText, List.length_append, bracket]
      rfl
    omega
  · rw [if_neg (by omega), if_neg room]
    exact who_event [] fields (by decide)

theorem here_split {near near' far far' : List WhoRow} (same : near ++ far = near' ++ far')
    (here : ∀ r ∈ near, r.here = true) (here' : ∀ r ∈ near', r.here = true)
    (away : ∀ r ∈ far, r.here = false) (away' : ∀ r ∈ far', r.here = false) : near = near' := by
  have kept {near far : List WhoRow} (here : ∀ r ∈ near, r.here = true)
      (away : ∀ r ∈ far, r.here = false) : (near ++ far).filter WhoRow.here = near := by
    rw [List.filter_append, List.filter_eq_self.mpr here, List.filter_eq_nil_iff.mpr,
      List.append_nil]
    intro r member
    simp [away r member]
  rw [← kept here away, same, kept here' away']

theorem near_here : ∀ r ∈ nearRows env g, r.here = true := by
  intro r member
  obtain ⟨d, _, rfl⟩ := List.mem_map.mp member
  rfl

theorem far_away : ∀ r ∈ farRows env g, r.here = false := by
  intro r member
  obtain ⟨row, _, rfl⟩ := List.mem_map.mp member
  rfl

/-- Once a row is left out the text is past the buffer, so it never ends within the last two
bytes of it exactly when no start of the rows does. -/
theorem who_right_iff (listed : some c ∈ g.sessionTable)
    (named : ∀ d ∈ g.present, (g.blocks d).name ≠ []) : WhoRight env g ↔ WhoFits env g := by
  obtain ⟨k, j, ⟨few, full⟩, ⟨some_far, full'⟩, short, event⟩ := who_shows env named
  constructor
  · rintro ⟨far, away, shown⟩
    have same := (event _).mp shown
    simp only [List.cons.injEq, Prod.mk.injEq, Value.arr.injEq, true_and, and_true] at same
    have rows := List.map_injective_iff.mpr value_injective same
    by_cases room : (openText (((nearRows env g).filter fun r => r.Fits).take k ++
        (farRows env g).take j)).length < 2046
    · rw [if_pos room] at rows
      have near := here_split rows
        (fun r member => near_here r (List.mem_of_mem_filter (List.mem_of_mem_take member)))
        near_here (fun r member => far_away r (List.mem_of_mem_take member)) away
      have sizes := congrArg List.length near
      have fewer := List.length_filter_le (fun r : WhoRow => decide r.Fits) (nearRows env g)
      rw [List.length_take] at sizes
      have all := List.length_filter_eq_length_iff.mp
        (show ((nearRows env g).filter fun r => r.Fits).length = (nearRows env g).length by omega)
      have kept : (nearRows env g).filter (fun r => r.Fits) = nearRows env g :=
        List.filter_eq_self.mpr all
      rw [near] at room full'
      refine ⟨fun r member => by simpa using all r member, ?_, fun i => ?_⟩
      · exact Nat.lt_of_le_of_lt (open_longer _ _) room
      · rcases Nat.lt_or_ge j i with later | sooner
        · by_cases more : j < (farRows env g).length
          · right
            have front : (farRows env g).take (j + 1) <+: (farRows env g).take i :=
              List.take_prefix_take_left later
            obtain ⟨rest, tail⟩ := front
            have longer := open_longer (nearRows env g ++ (farRows env g).take (j + 1)) rest
            rw [List.append_assoc, tail] at longer
            exact Nat.le_trans (full' more) longer
          · left
            rwa [List.take_of_length_le (by omega : (farRows env g).length ≤ i),
              ← List.take_of_length_le (Nat.le_of_not_lt more)]
        · left
          have front : (farRows env g).take i <+: (farRows env g).take j :=
            List.take_prefix_take_left sooner
          obtain ⟨rest, tail⟩ := front
          have longer := open_longer (nearRows env g ++ (farRows env g).take i) rest
          rw [List.append_assoc, tail] at longer
          exact Nat.lt_of_le_of_lt longer room
    · rw [if_neg room] at rows
      have nobody : nearRows env g = [] := (List.append_eq_nil_iff.mp rows.symm).1
      have there := (mem_present g c).mpr listed
      rw [List.map_eq_nil_iff.mp nobody] at there
      cases there
  · intro fits
    have kept : (nearRows env g).filter (fun r => r.Fits) = nearRows env g :=
      List.filter_eq_self.mpr fun r member => by simpa using fits.slots r member
    rw [kept] at few full full' short event
    have all : (nearRows env g).take k = nearRows env g := by
      refine List.take_of_length_le (Nat.le_of_not_lt fun more => ?_)
      have beyond := full more
      have longer := open_longer ((nearRows env g).take (k + 1)) ((nearRows env g).drop (k + 1))
      rw [List.take_append_drop] at longer
      have room := fits.room
      omega
    rw [all] at short event
    have room : (openText (nearRows env g ++ (farRows env g).take j)).length < 2046 :=
      (fits.far j).resolve_right (Nat.not_le_of_lt short)
    rw [if_pos room] at event
    exact ⟨(farRows env g).take j, fun r member => far_away r (List.mem_of_mem_take member),
      (event _).mpr rfl⟩

end Who

/-- The other sessions of the room, in slot order. -/
def othersHere (g : Server) (c : Block) : List Block :=
  g.present.filter fun d => d ≠ c && (g.blocks d).room = (g.blocks c).room

def playerText (s : Session) : Text :=
  lit r#"{"name":""# ++ escapeText s.name ++ lit r#"","standing":""# ++
  escapeText (brandStanding s) ++ lit r#""}"#

def playerMembers (s : Session) : List Member :=
  [stringField "name" s.name, stringField "standing" (brandStanding s)]

/-- What a client reads in a row of the players. -/
def playerValue (s : Session) : Value :=
  .obj [(str "name", .str s.name), (str "standing", .str (brandStanding s))]

def sceneInfo (g : Server) (c : Block) : Text :=
  let room := (g.blocks c).room
  snprintf 4096 (fmtRoomInfo room (roomLiveMobs g.world room)
    (playersJson (g.present.map g.blocks) room (g.blocks c).name 900))

/-- What room.info says of the room of the number, with the players given. -/
def infoFields (room : Int) (exits mobs : Value) (players : List Session) :
    List (Bytes × Value) :=
  [(str "id", .str (str ((roomId room).getD ""))),
    (str "name", .str (str ((roomName room).getD ""))),
    (str "exits", exits), (str "mobs", mobs), (str "items", .arr []),
    (str "players", .arr (players.map playerValue))]

/-- The event lists every other session of the room once, in slot order. -/
def SceneRight (g : Server) (c : Block) : Prop :=
  ∃ exits mobs, EventLine "room.info" (sceneInfo g c)
    (infoFields (g.blocks c).room exits mobs ((othersHere g c).map g.blocks))

/-- No other session of the room has the name of the player, and the rows fit their buffer. -/
structure SceneFits (g : Server) (c : Block) : Prop where
  alone : ∀ d ∈ othersHere g c, sameFold (g.blocks d).name (g.blocks c).name = false
  room : (jsonText playerText ((othersHere g c).map g.blocks)).length < 900

def exitLists : List (String × List String) :=
  [("down", ["east", "north", "west"]), ("east", []), ("north", ["south"]), ("south", []),
    ("up", ["west"]), ("down", ["east", "north"]), ("down", ["up"]), ("north", ["up"]),
    ("east", ["north", "south"]), ("west", []), ("down", ["south"]), ("east", ["south", "west"]),
    ("north", []), ("north", ["south", "west"]), ("south", ["up"]), ("down", []),
    ("east", ["north", "west"])]

def mobLists : List (List (String × String)) :=
  [[], [("rat", "a glow-rat")], [("leech", "a data-leech")], [("raider", "a wastes raider")],
    [("trooper", "a Cinder Front trooper")], [("ashmonger", "the Ashmonger")],
    [("custodian", "the Custodian")]]

def mobsField (rows : List (String × String)) : Member :=
  rowsField "mobs" (rows.map fun p => [stringField "id" (str p.1), stringField "name" (str p.2)])

section Scene

variable {g : Server} {c d : Block}

theorem rooms_written : ∀ r ∈ rooms,
    (∃ words ∈ exitLists, str r.exits = (wordsField "exits" words.1 words.2).text) ∧
    (∃ mobs ∈ mobLists, bytes r.mobs = (mobsField mobs).text) ∧
    (str r.id).flatMap escapeByte = str r.id ∧ (str r.name).flatMap escapeByte = str r.name ∧
    (str r.id).length + (str r.name).length ≤ 100 := by decide +kernel

theorem room_known (room : Int) : room? room = none ∨ ∃ r ∈ rooms, room? room = some r := by
  cases there : room? room with
  | none => exact .inl rfl
  | some r =>
    refine .inr ⟨r, ?_, rfl⟩
    unfold room? at there
    split at there
    · exact List.mem_of_getElem? there
    · cases there

theorem exits_member (room : Int) : ∃ m : Member, m.key = str "exits" ∧
    bytes (lit ((roomExits room).getD "[]")) = m.text ∧ Legible 6 m ∧ m.text.length ≤ 100 := by
  have lists : ∀ words ∈ exitLists, (∀ word ∈ words.1 :: words.2, Quotable (str word)) ∧
      words.2.length + 2 ≤ 6 ∧ (wordsField "exits" words.1 words.2).text.length ≤ 100 := by
    decide +kernel
  rcases room_known room with none | ⟨r, member, same⟩
  · have legible : Legible 6 (rowsField "exits" []) :=
      rows_legible (by decide) (by simp) (by simp) (by decide : 1 ≤ 1) (by decide)
    exact ⟨_, rfl, by rw [roomExits, none]; decide, legible, by decide⟩
  · obtain ⟨⟨words, listed, written⟩, _⟩ := rooms_written r member
    obtain ⟨quotable, few, short⟩ := lists words listed
    refine ⟨wordsField "exits" words.1 words.2, rfl, ?_, words_legible (by decide) quotable few,
      short⟩
    rw [roomExits, same, bytes_lit]
    exact written

theorem mobs_member (w : World) (room : Int) : ∃ m : Member, m.key = str "mobs" ∧
    bytes ((roomLiveMobs w room).getD (lit "[]")) = m.text ∧ Legible 6 m ∧
    m.text.length ≤ 100 := by
  have lists : ∀ mobs ∈ mobLists, mobs.length ≤ 1 ∧ (mobsField mobs).text.length ≤ 100 := by
    decide +kernel
  have legible (mobs : List (String × String)) (few : mobs.length ≤ 1) :
      Legible 6 (mobsField mobs) := by
    refine rows_legible (by decide) (fun row listed => ?_) (fun row listed => ?_)
      (by decide : 1 ≤ 2) (by simp; omega)
    · obtain ⟨p, _, rfl⟩ := List.mem_map.mp listed
      simp
    · obtain ⟨p, _, rfl⟩ := List.mem_map.mp listed
      simp only [List.forall_mem_cons, List.not_mem_nil, false_implies, implies_true, and_true]
      exact ⟨slot_legible (by decide) _ _ (by decide), slot_legible (by decide) _ _ (by decide)⟩
  have written : ∃ mobs ∈ mobLists,
      bytes ((roomLiveMobs w room).getD (lit "[]")) = (mobsField mobs).text := by
    unfold roomLiveMobs
    split
    · exact ⟨[("rat", "a glow-rat")], by decide, by decide +kernel⟩
    · rcases room_known room with none | ⟨r, member, same⟩
      · exact ⟨[], by decide, by rw [roomMobs, none]; decide⟩
      · obtain ⟨_, ⟨mobs, listed, written⟩, _⟩ := rooms_written r member
        exact ⟨mobs, listed, by rw [roomMobs, same]; exact written⟩
  obtain ⟨mobs, listed, same⟩ := written
  obtain ⟨few, short⟩ := lists mobs listed
  exact ⟨_, rfl, same, legible mobs few, short⟩

theorem room_titles (room : Int) : ∃ id name : Bytes, str ((roomId room).getD "") = id ∧
    str ((roomName room).getD "") = name ∧ id.flatMap escapeByte = id ∧
    name.flatMap escapeByte = name ∧ id.length + name.length ≤ 100 := by
  refine ⟨_, _, rfl, rfl, ?_⟩
  rcases room_known room with none | ⟨r, member, same⟩
  · rw [roomId, roomName, none]
    decide
  · rw [roomId, roomName, same]
    exact (rooms_written r member).2.2

theorem legible_more {n k : Nat} {m : Member} (legible : Legible n m) (more : n ≤ k) :
    Legible k m where
  good := ⟨legible.good.key, prints_more legible.good.text more⟩
  visible := legible.visible

theorem player_bytes (s : Session) : bytes (playerText s) = objectText (playerMembers s) := by
  unfold playerText
  simp only [bytes_join, bytes_lit, bytes_escape]
  simp [str, objectText, playerMembers, Member.body, stringField, slotField,
    slot_whole (Nat.le_refl _)]

theorem player_value (s : Session) :
    Value.obj ((playerMembers s).map fun m => (m.key, m.value)) = playerValue s := by
  simp [playerMembers, playerValue, stringField, slotField, slot_whole (Nat.le_refl _)]

theorem scene_event (w : World) (room : Int) : ∃ exits mobs, ∀ (players : List Session) fields,
    (jsonText playerText players).length < 900 →
    (EventLine "room.info" (snprintf 4096 (fmtRoomInfo room (roomLiveMobs w room)
        (jsonText playerText players))) fields ↔
      infoFields room exits mobs players = fields) := by
  obtain ⟨exits, exits_key, exits_bytes, exits_legible, exits_short⟩ := exits_member room
  obtain ⟨mobs, mobs_key, mobs_bytes, mobs_legible, mobs_short⟩ := mobs_member w room
  obtain ⟨id, name, id_same, name_same, id_plain, name_plain, titles⟩ := room_titles room
  refine ⟨exits.value, mobs.value, fun players fields short => ?_⟩
  let members : List Member := [stringField "id" id, stringField "name" name, exits,
    mobs, rowsField "items" [], rowsField "players" (players.map playerMembers)]
  have same : bytes (fmtRoomInfo room (roomLiveMobs w room) (jsonText playerText players)) =
      str "@event " ++ str "room.info" ++ [32] ++ objectText members ++ [13, 10] := by
    unfold fmtRoomInfo
    simp only [bytes_join, bytes_lit, id_same, name_same, exits_bytes, mobs_bytes,
      rows_bytes fun s _ => player_bytes s, crlf]
    simp [str, objectText, members, Member.body, stringField, slotField, slot_whole (Nat.le_refl _),
      rowsField, rowsText, exits_key, mobs_key, id_plain, name_plain]
  have rows : Legible (max 6 players.length + 1)
      (rowsField "players" (players.map playerMembers)) := by
    refine rows_legible (by decide) (fun row listed => ?_) (fun row listed => ?_)
      (by decide : 1 ≤ 2) (by simp; omega)
    · obtain ⟨s, _, rfl⟩ := List.mem_map.mp listed
      simp [playerMembers]
    · obtain ⟨s, _, rfl⟩ := List.mem_map.mp listed
      simp only [playerMembers, List.forall_mem_cons, List.not_mem_nil, false_implies, implies_true,
        and_true]
      exact ⟨slot_legible (by decide) _ _ (by decide), slot_legible (by decide) _ _ (by decide)⟩
  have legible : ∀ m ∈ members, Legible (max 6 players.length + 1) m := by
    simp only [members, List.forall_mem_cons, List.not_mem_nil, false_implies, implies_true,
      and_true]
    refine ⟨slot_legible (by decide) _ _ (by omega), slot_legible (by decide) _ _ (by omega),
      legible_more exits_legible (by omega), legible_more mobs_legible (by omega), ?_, rows⟩
    exact rows_legible (by decide) (by simp) (by simp) (by decide : 1 ≤ 1) (by simp)
  have long : max (max 6 players.length + 1) members.length ≤ (objectText members).length := by
    have counted := joined_count ((players.map playerMembers).map objectText)
    simp only [List.length_map] at counted
    simp [members, objectText, List.intercalate, Member.body, rowsField, rowsText, stringField,
      slotField, exits_key, mobs_key, str] at counted ⊢
    omega
  refine (composed_iff 4096 fields (by decide) (by simp [members]) legible same long).trans ?_
  have size : (fmtRoomInfo room (roomLiveMobs w room) (jsonText playerText players)).length <
      4096 := by
    have keys : (lit r#"@event room.info {"id":""#).length = 24 ∧ (lit r#"","name":""#).length = 10 ∧
      (lit r#"","exits":"#).length = 10 ∧ (lit r#","mobs":"#).length = 8 ∧
      (lit r#","items":[],"players":"#).length = 22 ∧ (lit "\x7d").length = 1 ∧
      crlf.length = 2 :=
      ⟨length_lit _, length_lit _, length_lit _, length_lit _, length_lit _, length_lit _,
        length_lit _⟩
    have a := congrArg List.length exits_bytes
    have b := congrArg List.length mobs_bytes
    have c := congrArg List.length id_same
    have d := congrArg List.length name_same
    have lengths (s : String) : (lit s).length = (str s).length := by simp [lit]
    simp only [bytes, List.length_map] at a b
    simp only [fmtRoomInfo, List.length_append, keys, lengths ((roomId room).getD ""),
      lengths ((roomName room).getD "")]
    omega
  have read : rowsValue (players.map playerMembers) = .arr (players.map playerValue) := by
    simp only [rowsValue, List.map_map, Function.comp_def, player_value]
  have nothing : rowsValue [] = .arr [] := rfl
  rw [and_iff_right size]
  simp [members, infoFields, rowsField, read, nothing, exits_key, mobs_key, id_same, name_same,
    stringField, slotField, slot_whole (Nat.le_refl _)]

theorem players_read {room : Int} {exits mobs exits' mobs' : Value} {xs ys : List Session}
    (same : infoFields room exits mobs xs = infoFields room exits' mobs' ys) :
    xs.length = ys.length := by
  simp only [infoFields, List.cons.injEq, Prod.mk.injEq, Value.arr.injEq, true_and, and_true]
    at same
  simpa using congrArg List.length same.2.2

theorem standing_fits (s : Session) : escapeSize (brandStanding s) + 1 ≤ 80 := by
  unfold brandStanding
  repeat' split
  all_goals decide

theorem player_row {s : Session} (valid : validName s.name = true) :
    playerRow s = some (playerText s) := by
  obtain ⟨size, short⟩ := escape_name valid
  rw [playerRow, escape_fits, if_pos (by omega), escape_fits, if_pos (standing_fits s)]
  rfl

theorem rows_map {α β : Type} (row : β → Text) (f : α → β) (i : Nat) (xs : List α) :
    jsonRows (fun _ => row) i (xs.map f) = jsonRows (fun _ x => row (f x)) i xs := by
  induction xs generalizing i with
  | nil => rfl
  | cons x xs ih => rw [List.map_cons, jsonRows, jsonRows, ih]

theorem players_shown (valid : ∀ d ∈ g.present, validName (g.blocks d).name = true) :
    let kept := ((othersHere g c).filter fun d =>
      !sameFold (g.blocks d).name (g.blocks c).name).map g.blocks
    playersJson (g.present.map g.blocks) (g.blocks c).room (g.blocks c).name 900 =
      jsonText playerText (if (jsonText playerText kept).length < 900 then kept else []) := by
  intro kept
  have here : ((g.present.map g.blocks).filter fun s => s.room = (g.blocks c).room &&
      s.name ≠ [] && !sameFold s.name (g.blocks c).name) = kept := by
    simp only [kept, othersHere, List.filter_map, List.filter_filter, Function.comp_def]
    congr 1
    refine List.filter_congr fun d member => ?_
    have named := valid_named (valid d member)
    by_cases own : d = c
    · subst own
      simp [sameFold]
    · simp [own, named, Bool.and_comm]
  have written : kept.filterMap playerRow = kept.map playerText := by
    rw [← List.filterMap_eq_map]
    refine List.filterMap_congr fun s member => ?_
    obtain ⟨d, there, rfl⟩ := List.mem_map.mp member
    exact player_row (valid d (List.mem_of_mem_filter (List.mem_of_mem_filter there)))
  have same : jsonText id (kept.map playerText) = jsonText playerText kept := by
    rw [jsonText, rows_map]
    rfl
  rw [playersJson, here, written, fmt_json, same]
  by_cases fits : (jsonText playerText kept).length < 900
  · rw [if_pos fits, if_pos fits]
    rfl
  · rw [if_neg fits, if_neg fits]
    rfl

/-- Nobody is left out of the room exactly when nobody else has the player's name and the rows
fit. -/
theorem scene_right_iff (valid : ∀ d ∈ g.present, validName (g.blocks d).name = true) :
    SceneRight g c ↔ SceneFits g c := by
  obtain ⟨exits, mobs, event⟩ := scene_event g.world (g.blocks c).room
  have shown := players_shown (c := c) valid
  simp only at shown
  simp only [SceneRight, sceneInfo, shown]
  constructor
  · rintro ⟨exits', mobs', told⟩
    have fewer := List.length_filter_le (fun d => !sameFold (g.blocks d).name (g.blocks c).name)
      (othersHere g c)
    have short : (jsonText playerText []).length < 900 := by decide
    by_cases room : (jsonText playerText (((othersHere g c).filter fun d =>
        !sameFold (g.blocks d).name (g.blocks c).name).map g.blocks)).length < 900
    · rw [if_pos room] at told
      have sizes := players_read ((event _ _ room).mp told)
      simp only [List.length_map] at sizes
      have all := List.length_filter_eq_length_iff.mp sizes
      refine ⟨fun d member => by simpa using all d member, ?_⟩
      rwa [List.filter_eq_self.mpr all] at room
    · rw [if_neg room] at told
      have sizes := players_read ((event _ _ short).mp told)
      simp only [List.length_map, List.length_nil] at sizes
      have nobody := List.length_eq_zero_iff.mp sizes.symm
      rw [nobody] at room
      exact absurd short room
  · intro fits
    have kept : ((othersHere g c).filter fun d =>
        !sameFold (g.blocks d).name (g.blocks c).name) = othersHere g c :=
      List.filter_eq_self.mpr fun d member => by simp [fits.alone d member]
    rw [kept, if_pos fits.room]
    exact ⟨exits, mobs, (event _ _ fits.room).mpr rfl⟩

theorem players_queued (g : Server) (c : Block) (t : Text) (room : Int) (name : Bytes) :
    playersJson (g.present.map (g.queued c t).blocks) room name 900 =
      playersJson (g.present.map g.blocks) room name 900 := by
  let row (s : Session) : Option Text :=
    if s.room = room && s.name ≠ [] && !sameFold s.name name then playerRow s else none
  have like (d : Block) : row ((g.queued c t).blocks d) = row (g.blocks d) := by
    by_cases own : d = c
    · subst own
      rw [Server.queued, g.setBlock_own]
      rfl
    · rw [queued_other g t own]
  have rows (blocks : Block → Session) : playersJson (g.present.map blocks) room name 900 =
      (fmtJson 900 id (g.present.filterMap fun d => row (blocks d))).getD (lit "[]") := by
    rw [playersJson, List.filterMap_filter, List.filterMap_map]
    rfl
  rw [rows, rows]
  simp only [like]

theorem scene_run (g : Server) (c : Block) : ∃ rest, emitSceneNow c g =
    (queue c (snprintf 1024 (sceneProse (g.blocks c).room)) >>= fun _ =>
      queue c (sceneInfo g c) >>= fun _ => rest) g := by
  let told := g.queued c (snprintf 1024 (sceneProse (g.blocks c).room))
  have listing : ((told.sessionTable.filterMap id).map fun d => (d, told.blocks d)).map Prod.snd =
      g.present.map told.blocks := by
    rw [List.map_map]
    rfl
  let rest : Act Unit := do
    emitVitalsNow c
    emitAffectsNow c
    queue c (snprintf 4096 (fmtRoomActions (menuJson (g.blocks c))))
    queue c (snprintf 4096 (fmtWorldState g.world.tick "day"))
    announceCacheNow c
  refine ⟨rest, ?_⟩
  rw [emitSceneNow, bind_ok (rfl : session c g = .ok (g.blocks c, g)),
    bind_ok (rfl : queue c _ g = .ok ((), told)), bind_ok (rfl : queue c _ g = .ok ((), told)),
    bind_ok (rfl : listed told = .ok (_, told)), bind_ok (rfl : getWorld told = .ok (g.world, told)),
    listing]
  simp only [told, players_queued]
  rfl

end Scene

/-- Whoever is listed in a run is in play, under a name of valid_name. -/
theorem present_valid {env : Env} {disk : Disk} {events : List Event} {g : Server}
    (reached : Machine.Reaches (step env) (boot env disk) events g)
    (few : Machine.Within (step env) (fun g => g.playing.length ≤ maxSessions) (boot env disk)
      events) : ∀ d ∈ g.present, validName (g.blocks d).name = true := by
  intro d there
  have seated := ((registry_run reached few).listed d).mp ((mem_present g d).mp there)
  have playing := ((mem_playing g d).mp seated).2
  have known := (introduced_run reached d).resolve_left (by simp [playing])
  exact (valid_run reached d).1.resolve_left known

/-- A who tells its event and a scene its room.info; and they list every session, and every other
session of the room, exactly when their rows fit the buffers and nobody else in the room has the
player's name. -/
theorem rosters_right_iff (env : Env) (g : Server) (c : Block) (listed : some c ∈ g.sessionTable)
    (valid : ∀ d ∈ g.present, validName (g.blocks d).name = true) :
    (∃ line next, next = { g with asked := next.asked } ∧ cmdWho env c g =
      (queue c (whoEvent env g) >>= fun _ => queueLine c line) next) ∧
    (∃ rest, emitSceneNow c g =
      (queue c (snprintf 1024 (sceneProse (g.blocks c).room)) >>= fun _ =>
        queue c (sceneInfo g c) >>= fun _ => rest) g) ∧
    (WhoRight env g ∧ SceneRight g c ↔ WhoFits env g ∧ SceneFits g c) :=
  ⟨who_run env g c, scene_run g c,
    and_congr (who_right_iff listed fun d member => valid_named (valid d member))
      (scene_right_iff valid)⟩

theorem rosters_right_company : WhoRight quietNode (company true) ∧ SceneRight (company true) 0 ↔
    WhoFits quietNode (company true) ∧ SceneFits (company true) 0 :=
  (rosters_right_iff quietNode (company true) 0 (by decide) (by decide +kernel)).2.2

def longNode : Env := { quietNode with worldName := List.replicate 40 97 }

/-- Nobody is listed where the name of the world does not fit its slot. -/
theorem long_world_hides : ¬ ∀ env g, some 0 ∈ g.sessionTable →
    (∀ d ∈ g.present, validName (g.blocks d).name = true) → WhoRight env g := by
  intro always
  have valid : ∀ d ∈ (company true).present, validName ((company true).blocks d).name = true := by
    decide +kernel
  have fits := (who_right_iff (c := 0) (by decide) fun d member => valid_named (valid d member)).mp
    (always longNode (company true) (by decide) valid)
  have slot := fits.slots (nearRow longNode ((company true).blocks 0))
    (List.mem_map_of_mem ((mem_present _ 0).mpr (by decide)))
  revert slot
  decide +kernel

end HollowGrid
