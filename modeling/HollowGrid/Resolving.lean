import HollowGrid.Counts
import HollowGrid.Gifts
import HollowGrid.Null

/-! Which player a name stands for: find_player_prefix, which look, mend, give and forgive use,
and the two searches of tell. -/
namespace HollowGrid

/-- The blocks of the table, in slot order. -/
def Server.present (g : Server) : List Block := g.sessionTable.filterMap id

def toldBy (g : Server) (target : Bytes) : Option Block :=
  match findTold target g with
  | .ok (found, _) => found
  | .error _ => none

/-- The commands that mean a player of the room. -/
inductive Pointing
  | look
  | mend
  | give
  | forgive

/-- A give once its words are told apart: the item is looked for, then handed to d. -/
def giveItem (env : Env) (c : Block) (phrase : Bytes) (d : Block) : Act Unit := do
  let s ← session c
  let slot ← invFindSlot env phrase 0 s.inventory
  match slot with
  | none =>
    queueLine c (snprintf 160 (lit "You aren't carrying \"" ++ raw phrase ++ lit "\"."))
  | some i => do
    let t ← session d
    let item := s.inventory.getD i []
    update c (invRemove i)
    update d (invAdd item)
    storeSave env c
    storeSave env d
    queueLine c (snprintf 160 (lit "You give " ++ raw item ++ lit " to " ++ raw t.name ++ lit "."))
    queue d (snprintf 160 (raw s.name ++ lit " gives you " ++ raw item ++ lit "." ++ crlf))

def lookPlayer (c d : Block) : Act Bool := do
  let t ← session d
  queueLine c (snprintf 240 (lookLine t))
  queue c (snprintf 168 (lookEvt t))
  pure true

def mendPlayer (c d : Block) : Act Unit := do
  let s ← session c
  let t ← session d
  if t.maxHp ≤ t.hp then
    queueLine c (snprintf 160 (raw t.name ++ lit " is already whole."))
  else if s.hp ≤ 5 then queueLine c (lit "You don't have enough life left to spare.")
  else do
    update c fun ch => { ch with hp := ch.hp - 5 }
    update d fun ch => { ch with hp := min (ch.hp + 10) ch.maxHp }
    queueLine c
      (snprintf 160 (lit "You spend a little of yourself to mend " ++ raw t.name ++ lit "."))
    queue d (snprintf 160 (raw s.name ++ lit " tends your wounds." ++ crlf))
    emitVitalsNow c

def forgivePlayer (env : Env) (c d : Block) : Act Unit := do
  let s ← session c
  let t ← session d
  let l ← getLedger
  if forgivenHas l s.name t.name then
    queueLine c (snprintf 160 (lit "You have already forgiven " ++ raw t.name ++
      lit ". It was true the first time; it does not need saying twice."))
  else if marked t then forgive env c d
  else
    queueLine c (snprintf 160 (raw t.name ++ lit " carries nothing that needs your " ++
      lit "forgiveness. Keep the words for someone who does."))

namespace Pointing

/-- The word of the argument that names the player. -/
def word (q : Pointing) (arg : Ptr) : Bytes :=
  match q with
  | look | mend => argument arg
  | give => ((giveTokens (argument arg)).map Prod.snd).getD []
  | forgive => firstWord arg

def except (q : Pointing) (s : Session) : Ptr :=
  match q with
  | look | mend | give => some s.name
  | forgive => none

/-- Whom the argument resolves to. A forgive turns the caller's own name away before. -/
def resolved (q : Pointing) (g : Server) (c : Block) (arg : Ptr) : Option Block :=
  let s := g.blocks c
  match q with
  | look | mend | give => foundBy g s.room (q.word arg) (q.except s)
  | forgive =>
    if sameFold (q.word arg) s.name then none else foundBy g s.room (q.word arg) (q.except s)

/-- What the command comes to when d is meant. -/
def Reaches (q : Pointing) (env : Env) (g : Server) (c : Block) (arg : Ptr) (d : Block) : Prop :=
  match q with
  | look => cmdLookPlayer c arg g = lookPlayer c d g
  | mend => cmdMend c arg g = mendPlayer c d g
  | give => ∃ phrase, (giveTokens (argument arg)).map Prod.fst = some phrase ∧
      cmdGive env c arg g = giveItem env c phrase d g
  | forgive => cmdForgive env c arg g = forgivePlayer env c d g

end Pointing

section Resolving

variable {env : Env} {g : Server} {c d : Block} {room : Int} {word : Bytes} {except arg : Ptr}

theorem mem_present (g : Server) (d : Block) : d ∈ g.present ↔ some d ∈ g.sessionTable := by
  simp [Server.present]

theorem found_from (g : Server) (room : Int) (word : Bytes) (except : Ptr) :
    foundBy g room word except =
      if word = [] then none
      else match g.present.filter fun d => mayMatch room word except (g.blocks d) with
        | [d] => some d
        | _ => none := by
  unfold foundBy findPlayerPrefix
  by_cases bare : word = []
  · rw [if_pos bare, if_pos bare]
    rfl
  rw [if_neg bare, if_neg bare, bind_ok (rfl : listed g = .ok (_, g)), List.filter_map]
  simp only [Function.comp_def]
  have there : g.sessionTable.filterMap id = g.present := rfl
  rw [there]
  generalize g.present.filter (fun d => mayMatch room word except (g.blocks d)) = sought
  rcases sought with _ | ⟨d, _ | _⟩ <;> rfl

/-- A word finds the only session that it can mean. -/
theorem found_iff (g : Server) (room : Int) (word : Bytes) (except : Ptr) (d : Block) :
    foundBy g room word except = some d ↔ word ≠ [] ∧
      (g.present.filter fun d => mayMatch room word except (g.blocks d)) = [d] := by
  rw [found_from]
  by_cases bare : word = []
  · simp [bare]
  rw [if_neg bare]
  generalize g.present.filter (fun d => mayMatch room word except (g.blocks d)) = sought
  rcases sought with _ | ⟨e, _ | _⟩ <;> simp [bare]

theorem starts_whole {name : Bytes} (same : sameFold name word = true) :
    startsFold word name = true := by
  simp only [sameFold, beq_iff_eq] at same
  have long : name.length = word.length := by
    have sizes := congrArg List.length same
    simpa [lower] using sizes
  simp [startsFold, sameFold, ← long, same]

theorem name_reads (g : Server) (name : Bytes) : findSessionName name g =
    .ok (if name = [] then none
      else g.present.find? fun d => sameFold (g.blocks d).name name, g) := by
  unfold findSessionName
  by_cases bare : name = []
  · rw [if_pos bare, if_pos bare]
    rfl
  · rw [if_neg bare, if_neg bare, bind_ok (rfl : listed g = .ok (_, g)), List.find?_map,
      Option.map_map]
    change Except.ok (((g.present.find? fun d => sameFold (g.blocks d).name name).map id), g) = _
    rw [Option.map_id, id]

/-- Whom the two searches of a tell find. -/
theorem told_run (g : Server) (target : Bytes) : findTold target g =
    .ok (match if target = [] then none
        else g.present.find? fun d => sameFold (g.blocks d).name target with
      | some d => some d
      | none =>
        match g.present.filter fun d => startsFold target (g.blocks d).name with
        | [d] => some d
        | _ => none, g) := by
  rw [findTold, bind_ok (name_reads g target)]
  generalize (if target = [] then none
    else g.present.find? fun d => sameFold (g.blocks d).name target) = named
  cases named with
  | some d => rfl
  | none =>
    simp only
    rw [bind_ok (rfl : listed g = .ok (_, g)), List.filter_map]
    simp only [Function.comp_def]
    have there : g.sessionTable.filterMap id = g.present := rfl
    rw [there]
    generalize g.present.filter (fun d => startsFold target (g.blocks d).name) = sought
    rcases sought with _ | ⟨d, _ | _⟩ <;> rfl

theorem told_reads (g : Server) (target : Bytes) :
    findTold target g = .ok (toldBy g target, g) := by
  rw [toldBy, told_run]

theorem told_whole {e : Block} (there : e ∈ g.present)
    (same : sameFold (g.blocks e).name word = true) (some_word : word ≠ []) :
    ∃ d, toldBy g word = some d ∧ d ∈ g.present ∧ sameFold (g.blocks d).name word = true := by
  have found : (g.present.find? fun d => sameFold (g.blocks d).name word).isSome = true :=
    List.find?_isSome.mpr ⟨e, there, same⟩
  obtain ⟨d, first⟩ := Option.isSome_iff_exists.mp found
  have named := List.find?_some first
  refine ⟨d, ?_, List.mem_of_find?_eq_some first, named⟩
  rw [toldBy, told_run, if_neg some_word, first]

theorem resolved_reaches (q : Pointing) (found : q.resolved g c arg = some d) :
    q.Reaches env g c arg d := by
  have start : session c g = .ok (g.blocks c, g) := rfl
  cases q with
  | look =>
    have sought : foundBy g (g.blocks c).room (argument arg) (some (g.blocks c).name) = some d :=
      found
    rw [Pointing.Reaches, cmdLookPlayer, bind_ok start, bind_ok (prefix_reads g _ _ _), sought]
    rfl
  | mend =>
    have sought : foundBy g (g.blocks c).room (argument arg) (some (g.blocks c).name) = some d :=
      found
    rw [Pointing.Reaches, cmdMend, bind_ok start, bind_ok (prefix_reads g _ _ _), sought]
    rfl
  | forgive =>
    simp only [Pointing.resolved] at found
    split at found
    · cases found
    rename_i differs
    have other : ¬sameFold (firstWord arg) (g.blocks c).name = true := differs
    have some_word : firstWord arg ≠ [] := ((found_iff g _ _ _ d).mp found).1
    have sought : foundBy g (g.blocks c).room (firstWord arg) none = some d := found
    rw [Pointing.Reaches, cmdForgive, bind_ok start]
    rw [if_neg some_word, if_neg other, bind_ok (prefix_reads g _ _ _), sought]
    rfl
  | give =>
    have sought : foundBy g (g.blocks c).room (Pointing.give.word arg) (some (g.blocks c).name) =
        some d := found
    have some_word := ((found_iff g _ _ _ d).mp sought).1
    rw [Pointing.Reaches]
    cases tokens : giveTokens (argument arg) with
    | none => simp [Pointing.word, tokens] at some_word
    | some pair =>
      obtain ⟨phrase, target⟩ := pair
      have target_word : Pointing.give.word arg = target := by simp [Pointing.word, tokens]
      rw [target_word] at sought
      refine ⟨phrase, rfl, ?_⟩
      obtain ⟨slot, n, answer⟩ := slot_answers env phrase (g.blocks c).inventory 0 g.asked
      rw [cmdGive, bind_ok start, tokens]
      simp only
      rw [giveItem, bind_ok start, bind_ok (answer g rfl), bind_ok (answer g rfl)]
      cases slot with
      | none => rfl
      | some i =>
        simp only
        rw [bind_ok (prefix_reads { g with asked := n } _ _ _), found_asked, sought]

/-- The other sessions of the caller's room whose whole name the word is. -/
def namesakes (g : Server) (c : Block) (word : Bytes) : List Block :=
  g.present.filter fun d => d ≠ c && (g.blocks d).room = (g.blocks c).room &&
    (g.blocks d).name ≠ [] && sameFold (g.blocks d).name word

/-- The word is not the caller's name, and of the sessions the command may mean none but d has a
name that starts with it. -/
structure Pointing.Clear (q : Pointing) (g : Server) (c : Block) (arg : Ptr) (d : Block) :
    Prop where
  other : sameFold (q.word arg) (g.blocks c).name = false
  alone : ∀ e, some e ∈ g.sessionTable →
    mayMatch (g.blocks c).room (q.word arg) (q.except (g.blocks c)) (g.blocks e) = true → e = d

theorem filter_only {xs : List Block} {p q : Block → Bool} (one : xs.filter q = [d])
    (passes : p d = true) (alone : ∀ e ∈ xs, p e = true → e = d) : xs.filter p = [d] := by
  rw [← one]
  refine List.filter_congr fun e member => ?_
  have chosen : q d = true := (List.mem_filter.mp (one ▸ List.mem_singleton.mpr rfl)).2
  by_cases same : e = d
  · rw [same, passes, chosen]
  · have first : p e = false := by
      by_contra hit
      exact same (alone e member (by simpa using hit))
    have second : q e = false := by
      by_contra hit
      have listed : e ∈ xs.filter q := List.mem_filter.mpr ⟨member, by simpa using hit⟩
      rw [one] at listed
      exact same (List.mem_singleton.mp listed)
    rw [first, second]

/-- Where one other session of the room has the word for its whole name, tell finds a session of
that name, and each of the four commands resolves it to the session exactly when nobody else
can be meant. -/
theorem full_name_iff (q : Pointing) (env : Env) (one : namesakes g c (q.word arg) = [d]) :
    (∃ e, findTold (q.word arg) g = .ok (some e, g) ∧
      sameFold (g.blocks e).name (q.word arg) = true) ∧
    (q.resolved g c arg = some d ∧ q.Reaches env g c arg d ↔ q.Clear g c arg d) := by
  have member : d ∈ namesakes g c (q.word arg) := one ▸ List.mem_singleton.mpr rfl
  obtain ⟨there, passed⟩ := List.mem_filter.mp member
  simp only [Bool.and_eq_true, decide_eq_true_eq] at passed
  obtain ⟨⟨⟨apart, place⟩, named⟩, whole⟩ := passed
  have some_word : q.word arg ≠ [] := by
    intro empty
    rw [empty] at whole
    simp [sameFold, lower] at whole
    exact named whole
  have alike (name : Bytes) : sameFold (g.blocks d).name name = sameFold (q.word arg) name :=
    same_fold_congr (by simpa [sameFold] using whole) name
  refine ⟨?_, ?_⟩
  · obtain ⟨e, found, _, same⟩ := told_whole there whole some_word
    exact ⟨e, found ▸ told_reads g _, same⟩
  constructor
  · rintro ⟨found, _⟩
    have sought : sameFold (q.word arg) (g.blocks c).name = false ∧
        foundBy g (g.blocks c).room (q.word arg) (q.except (g.blocks c)) = some d := by
      cases q with
      | look | mend | give => exact ⟨alike _ ▸ (found_other found).2, found⟩
      | forgive =>
        simp only [Pointing.resolved] at found
        split at found
        · cases found
        · rename_i other
          exact ⟨by simpa using other, found⟩
    refine ⟨sought.1, fun e listed hit => ?_⟩
    obtain ⟨_, only⟩ := (found_iff g _ _ _ d).mp sought.2
    have chosen : e ∈ [d] := only ▸ List.mem_filter.mpr ⟨(mem_present g e).mpr listed, hit⟩
    exact List.mem_singleton.mp chosen
  · intro clear
    have fits : mayMatch (g.blocks c).room (q.word arg) (q.except (g.blocks c)) (g.blocks d) =
        true := by
      have other : ((q.except (g.blocks c)).any fun name => sameFold (g.blocks d).name name) =
          false := by
        cases q with
        | look | mend | give => exact (alike _).trans clear.other
        | forgive => rfl
      simp [mayMatch, place, named, other, starts_whole whole]
    have sought : foundBy g (g.blocks c).room (q.word arg) (q.except (g.blocks c)) = some d := by
      refine (found_iff g _ _ _ d).mpr ⟨some_word, filter_only one fits fun e listed => ?_⟩
      exact clear.alone e ((mem_present g e).mp listed)
    have found : q.resolved g c arg = some d := by
      cases q with
      | look | mend | give => exact sought
      | forgive =>
        rw [Pointing.resolved]
        simp only [clear.other, Bool.false_eq_true, if_false]
        exact sought
    exact ⟨found, resolved_reaches q found⟩

/-- Ada stands with Bo and, where asked for, with Bobby too. -/
def company (third : Bool) : Server where
  blocks := fun b =>
    { name := if b = 0 then str "Ada" else if b = 1 then str "Bo" else str "Bobby" }
  sessionTable := [some 0, some 1, if third then some 2 else none] ++ List.replicate 29 none
  disk := fun _ => none

theorem full_name_bo : namesakes (company false) 0 (Pointing.look.word (some (str "bo"))) = [1] ∧
    (Pointing.look.resolved (company false) 0 (some (str "bo")) = some 1 ∧
      Pointing.look.Reaches quietNode (company false) 0 (some (str "bo")) 1 ↔
      Pointing.look.Clear (company false) 0 (some (str "bo")) 1) := by
  have one : namesakes (company false) 0 (Pointing.look.word (some (str "bo"))) = [1] := by
    decide +kernel
  exact ⟨one, (full_name_iff .look quietNode one).2⟩

/-- Bo is not found by her whole name where Bobby stands beside her. -/
theorem whole_name_missed : ¬ ∀ (q : Pointing) (g : Server) (c : Block) (arg : Ptr) (d : Block),
    namesakes g c (q.word arg) = [d] → q.resolved g c arg = some d := by
  intro always
  have found := always .mend (company true) 0 (some (str "bo")) 1 (by decide +kernel)
  revert found
  decide +kernel

end Resolving

end HollowGrid
