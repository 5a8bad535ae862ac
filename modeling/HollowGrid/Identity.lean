import HollowGrid.Callback
import Mathlib.Data.List.TakeWhile

/-! The identity a session shares with the hub: what commitCharacter sends and loadCharacter
brings back, and the key both go by. -/
namespace HollowGrid

/-- A string that a field of the given size can have. -/
structure FitsField (cap : Nat) (b : Bytes) : Prop where
  short : b.length < cap
  ends : 0 ∉ b

def Exact (n : Int) : Prop := n.natAbs ≤ 9007199254740992

/-- The strings of a session fit their fields, and a double has its integers. -/
structure FitsHub (s : Session) : Prop where
  faction : FitsField 16 s.faction
  title : FitsField 48 s.title
  race : FitsField 16 s.race
  level : Exact s.level
  xp : Exact s.xp
  gold : Exact s.gold
  morality : Exact s.morality

/-- What hg_grid_commit_session sends beside the name. -/
def commitRecord (s : Session) : Json := ((commitParams s).drop 1).headD .null

/-- The parameters that hg_grid_commit_session hands to commitCharacter: whatever the hub is, its
answer to these is the outcome. -/
def Commits (env : Env) (c : Block) (g : Server) (params : List Json) : Prop :=
  ∀ rpc, gridCommitSession { env with rpc := rpc } c g =
    .ok ((rpc g.asked (str "commitCharacter") params).isSome, { g with asked := g.asked + 1 })

/-- The session at c under another name. -/
def Server.named (g : Server) (c : Block) (name : Bytes) : Server :=
  g.setBlock c { g.blocks c with name := name }

/-- No hub can tell the two names apart by what a session of either loads and commits. -/
structure SameHubKey (a b : Bytes) : Prop where
  loads : ∀ env c (g : Server), (gridLoadSession env c (g.named c a)).map Prod.fst =
    (gridLoadSession env c (g.named c b)).map Prod.fst
  commits : ∀ env c (g : Server), (gridCommitSession env c (g.named c a)).map Prod.fst =
    (gridCommitSession env c (g.named c b)).map Prod.fst

section Identity

theorem safe_copy_fits {cap : Nat} {b : Bytes} (fits : FitsField cap b) : safeCopy cap b = b := by
  have short := fits.short
  rw [safeCopy, cstr_whole fits.ends, List.take_of_length_le (by omega)]

theorem to_double_exact {n : Int} (held : Exact n) : toDouble n = n := by
  simp only [Exact] at held
  rcases Nat.lt_or_eq_of_le held with small | edge
  · have unit : n.natAbs.log2 - 52 = 0 := by
      by_cases zero : n.natAbs = 0
      · rw [zero]
        rfl
      · have below := (Nat.log2_lt zero (k := 53)).mpr small
        omega
    simp only [toDouble, unit, pow_zero, Nat.div_one, Nat.mod_one]
    split <;> split <;> omega
  · rcases Int.natAbs_eq n with same | same
    · rw [same, edge]
      decide
    · rw [same, edge]
      decide

theorem truncate_exact {n : Int} (held : Exact n) : truncate n = n := by
  simp only [Exact] at held
  refine if_pos ?_
  simp only [int64Min, int64Max]
  omega

theorem number_back {n : Int} (held : Exact n) : truncate (toDouble n) = n := by
  rw [to_double_exact held, truncate_exact held]

theorem record_back {s : Session} (fits : FitsHub s) :
    characterRow (commitRecord s) =
      { present := true, level := s.level, xp := s.xp, gold := s.gold, morality := s.morality
        faction := s.faction, title := s.title, race := s.race, ashsworn := s.ashsworn } := by
  have level : jsonNum (commitRecord s) "level" 1 = truncate (toDouble s.level) := rfl
  have xp : jsonNum (commitRecord s) "xp" 0 = truncate (toDouble s.xp) := rfl
  have gold : jsonNum (commitRecord s) "gold" 20 = truncate (toDouble s.gold) := rfl
  have morality : jsonNum (commitRecord s) "morality" 0 = truncate (toDouble s.morality) := rfl
  have faction : jsonStr (commitRecord s) "faction" = s.faction := rfl
  have title : jsonStr (commitRecord s) "title" = s.title := rfl
  have race : jsonStr (commitRecord s) "race" = s.race := rfl
  have ashsworn : (((commitRecord s).item (str "ashsworn")).map Json.isTrue).getD false =
      s.ashsworn := rfl
  rw [characterRow, level, xp, gold, morality, faction, title, race, ashsworn,
    number_back fits.level, number_back fits.xp, number_back fits.gold, number_back fits.morality,
    safe_copy_fits fits.faction, safe_copy_fits fits.title, safe_copy_fits fits.race]

theorem merge_own {s : Session} (fits : FitsHub s) :
    identityApply s.toCharacter
      (identityMergeHub (identityLoadLocal s) (characterRow (commitRecord s))) = s.toCharacter := by
  have merged : identityMergeHub (identityLoadLocal s) (characterRow (commitRecord s)) =
      identityLoadLocal s := by
    rw [record_back fits]
    exact congrArg₂ (fun faction title =>
      (⟨s.level, s.xp, s.gold, faction, s.morality, title, s.race, s.ashsworn⟩ : Identity))
      (ite_self _) (ite_self _)
  rw [merged]
  rfl

theorem updated_same {g : Server} {c : Block} {f : Character → Character}
    (same : f (g.blocks c).toCharacter = (g.blocks c).toCharacter) : g.updated c f = g := by
  rw [Server.updated, same]
  exact congrArg (fun blocks => ({ g with blocks := blocks } : Server))
    (Function.update_eq_self c g.blocks)

theorem commit_asks_once (env : Env) (c : Block) (g : Server) :
    ∃ stored asked, gridCommitSession env c g = .ok (stored, { g with asked := asked }) ∧
      (env.remote = true → asked = g.asked + 1) := by
  unfold gridCommitSession
  by_cases remote : env.remote = true
  · rw [if_pos remote, bind_ok (rfl : session c g = .ok (g.blocks c, g))]
    refine ⟨(env.rpc g.asked (str "commitCharacter") (commitParams (g.blocks c))).isSome,
      g.asked + 1, ?_, fun _ => rfl⟩
    simp only [rpcCall, if_pos remote]
    rfl
  · rw [if_neg remote]
    exact ⟨true, g.asked, rfl, fun on => absurd on remote⟩

theorem commits_record {env : Env} (remote : env.remote = true) (c : Block) (g : Server) :
    Commits env c g [.str (g.blocks c).name, commitRecord (g.blocks c)] := by
  intro rpc
  have on : ({ env with rpc := rpc } : Env).remote = true := remote
  rw [gridCommitSession, if_pos on, bind_ok (rfl : session c g = .ok (g.blocks c, g))]
  simp only [rpcCall, if_pos on]
  rfl

theorem commits_unique {env : Env} {c : Block} {g : Server} {params other : List Json}
    (commits : Commits env c g params) (sent : Commits env c g other) : params = other := by
  classical
  let rpc : Nat → Bytes → List Json → Option Json := fun _ _ ps =>
    if ps = params then some .null else none
  have outcome := (commits rpc).symm.trans (sent rpc)
  have known : (rpc g.asked (str "commitCharacter") params).isSome = true := by
    simp only [rpc, if_true, Option.isSome_some]
  have heard : (rpc g.asked (str "commitCharacter") other).isSome = true := by
    rw [← known]
    exact (congrArg (fun ended => (ended.toOption.map Prod.fst).getD false) outcome).symm
  by_contra apart
  simp only [rpc, if_neg (Ne.symm apart), Option.isSome_none, Bool.false_eq_true] at heard

/-- A commit hands the name and a record to the hub, and a load after it leaves every session as
it was, when the hub brings back the record that was handed over. -/
theorem commit_load_same (env : Env) (c : Block) (g : Server) (fits : FitsHub (g.blocks c))
    (returned : ∀ record, Commits env c g [.str (g.blocks c).name, record] →
      env.rpc (g.asked + 1) (str "loadCharacter") [.str (g.blocks c).name] = some record) :
    (env.remote = true → ∃ record, Commits env c g [.str (g.blocks c).name, record]) ∧
    ∃ loaded asked, (do ignore (gridCommitSession env c); gridLoadSession env c) g =
      .ok (loaded, { g with asked := asked }) := by
  refine ⟨fun remote => ⟨_, commits_record remote c g⟩, ?_⟩
  obtain ⟨stored, asked, committed, one⟩ := commit_asks_once env c g
  have first : ignore (gridCommitSession env c) g = .ok ((), { g with asked := asked }) := by
    rw [ignore, bind_ok committed]
    rfl
  rw [bind_ok first, gridLoadSession,
    bind_ok (rfl : session c { g with asked := asked } = .ok
      (g.blocks c, { g with asked := asked }))]
  by_cases away : env.remote = false ∨ (g.blocks c).name = []
  · exact ⟨.nothing, asked, by rw [if_pos away]; rfl⟩
  · have remote : env.remote = true := by
      cases on : env.remote with
      | false => exact absurd (.inl on) away
      | true => rfl
    rw [if_neg away]
    have answered : gridFetchCharacter env (g.blocks c).name { g with asked := asked } =
        .ok (some (characterRow (commitRecord (g.blocks c))), { g with asked := asked + 1 }) := by
      have asks : rpcCall env "loadCharacter" [.str (g.blocks c).name] { g with asked := asked } =
          .ok (some (commitRecord (g.blocks c)), { g with asked := asked + 1 }) := by
        rw [rpcCall, if_pos remote, ← returned _ (commits_record remote c g), ← one remote]
        rfl
      rw [gridFetchCharacter, if_pos remote, bind_ok asks]
      rfl
    rw [bind_ok answered]
    have race : (characterRow (commitRecord (g.blocks c))).race = (g.blocks c).race := by
      rw [record_back fits]
    by_cases bare : (g.blocks c).race = []
    · refine ⟨.nothing, asked + 1, ?_⟩
      simp only [race, if_pos bare]
      rfl
    · refine ⟨.applied, asked + 1, ?_⟩
      simp only [race, if_neg bare]
      have same : ({ g with asked := asked + 1 } : Server).updated c (fun ch => identityApply ch
          (identityMergeHub (identityLoadLocal (g.blocks c))
            (characterRow (commitRecord (g.blocks c))))) = { g with asked := asked + 1 } :=
        updated_same (merge_own fits)
      exact congrArg (fun g' => Except.ok (Loaded.applied, g')) same

def ada : Session :=
  { name := str "Ada", race := str "elf", level := 3, gold := 41, faction := str "ally"
    title := str "the Keeper", inventory := [str "shiv", str "mirror"] }

theorem ada_fits : FitsHub ada where
  faction := ⟨by decide, by decide⟩
  title := ⟨by decide, by decide⟩
  race := ⟨by decide, by decide⟩
  level := by unfold Exact; decide
  xp := by unfold Exact; decide
  gold := by unfold Exact; decide
  morality := by unfold Exact; decide

/-- A hub that has the record of ada. -/
def adaHub : Env := { quietNode with remote := true, rpc := fun _ _ _ => some (commitRecord ada) }

theorem commit_load_same_ada :
    (adaHub.remote = true → ∃ record, Commits adaHub 0
      { blocks := fun _ => ada, disk := fun _ => none } [.str ada.name, record]) ∧
    ∃ loaded asked, (do ignore (gridCommitSession adaHub 0); gridLoadSession adaHub 0)
        ({ blocks := fun _ => ada, disk := fun _ => none } : Server) =
      .ok (loaded, { blocks := fun _ => ada, disk := fun _ => none, asked := asked }) :=
  commit_load_same adaHub 0 { blocks := fun _ => ada, disk := fun _ => none } ada_fits
    fun record sent => by
      have same := commits_unique (commits_record rfl 0 _) sent
      simp only [List.cons.injEq, true_and, and_true] at same
      exact congrArg some same

def hubOf (name : Bytes) : Env :=
  { quietNode with
    remote := true
    rpc := fun _ _ params =>
      match params with
      | .str key :: _ => if key = name then some (.obj [(str "race", .str (str "elf"))]) else none
      | _ => none }

theorem hub_of_answers (a name : Bytes) (g : Server) :
    (gridCommitSession (hubOf a) 0 (g.named 0 name)).map Prod.fst = .ok (decide (name = a)) := by
  have own : (g.named 0 name).blocks 0 = { g.blocks 0 with name := name } := g.setBlock_own 0 _
  have asked : gridCommitSession (hubOf a) 0 (g.named 0 name) =
      .ok (((hubOf a).rpc g.asked (str "commitCharacter")
        (commitParams ((g.named 0 name).blocks 0))).isSome,
        { g.named 0 name with asked := g.asked + 1 }) := rfl
  rw [asked, own]
  by_cases same : name = a
  · simp [hubOf, commitParams, same, Except.map]
  · simp [hubOf, commitParams, same, Except.map]

theorem key_tells {a b : Bytes} (apart : a ≠ b) : ¬SameHubKey a b := by
  intro same
  have commits := same.commits (hubOf a) 0 { disk := fun _ => none }
  rw [hub_of_answers, hub_of_answers, decide_eq_true rfl,
    decide_eq_false (Ne.symm apart)] at commits
  cases commits

/-- Of two names of one file, both go by one key at the hub exactly when they are spelt alike. -/
theorem same_key_iff (a b : Bytes) (accepted : validName a = true ∧ validName b = true)
    (one_file : characterPath a = characterPath b) : SameHubKey a b ↔ a = b := by
  constructor
  · intro same
    by_contra apart
    exact key_tells apart same
  · rintro rfl
    exact ⟨fun _ _ _ => rfl, fun _ _ _ => rfl⟩

theorem same_key_iff_ada : SameHubKey (str "Ada") (str "ada") ↔ str "Ada" = str "ada" :=
  same_key_iff _ _ ⟨by decide, by decide⟩ (by decide)

/-- Login accepts both, the disk has one file for them, and the hub two records. -/
theorem two_hub_records : validName (str "Ada") = true ∧ validName (str "ada") = true ∧
    characterPath (str "Ada") = characterPath (str "ada") ∧ ¬SameHubKey (str "Ada") (str "ada") :=
  ⟨by decide, by decide, by decide, key_tells (by decide)⟩

end Identity

/-- What the hub has on a name, as hg_grid_fetch_character reads it. -/
def hubRow (env : Env) (name : Bytes) (g : Server) : Option CharacterRow :=
  match gridFetchCharacter env name g with
  | .ok (row, _) => row
  | .error _ => none

/-- The fields that hg_cmd_whoami hands to hg_whoami_reply. -/
def whoamiFields (s : Session) : Option CharacterRow → Identity
  | none => identityLoadLocal s
  | some row =>
    if hubCharCanonical row then identityMergeHub (identityLoadLocal s) row else identityLoadLocal s

/-- The identity that hg_grid_load_session leaves in the session. -/
def loadedIdentity (env : Env) (c : Block) (g : Server) : Identity :=
  match gridLoadSession env c g with
  | .ok (_, g') => identityLoadLocal (g'.blocks c)
  | .error _ => identityLoadLocal (g.blocks c)

/-- The record counts at login, or for whoami no more than there, or says nothing new. -/
def CountsAlike (s : Session) (row : CharacterRow) : Prop :=
  (s.name ≠ [] ∧ row.race ≠ []) ∨ hubCharCanonical row = false ∨
    identityMergeHub (identityLoadLocal s) row = identityLoadLocal s

section Whoami

variable {env : Env} {c : Block} {g : Server}

theorem fetch_answers (env : Env) (name : Bytes) (g : Server) :
    ∃ asked, gridFetchCharacter env name g = .ok (hubRow env name g, { g with asked := asked }) := by
  have ran : ∃ row asked, gridFetchCharacter env name g = .ok (row, { g with asked := asked }) := by
    unfold gridFetchCharacter
    split
    · rename_i remote
      have asks : rpcCall env "loadCharacter" [.str name] g =
          .ok (env.rpc g.asked (str "loadCharacter") [.str name],
            { g with asked := g.asked + 1 }) := by
        rw [rpcCall, if_pos remote]
        rfl
      rw [bind_ok asks]
      exact ⟨_, g.asked + 1, rfl⟩
    · exact ⟨some {}, g.asked, rfl⟩
  obtain ⟨row, asked, ended⟩ := ran
  refine ⟨asked, ?_⟩
  rw [hubRow, ended]

theorem hub_row_local (off : env.remote = false) (name : Bytes) : hubRow env name g = some {} := by
  simp only [hubRow, gridFetchCharacter, off]
  rfl

theorem hub_row_present (remote : env.remote = true) {name : Bytes} {row : CharacterRow}
    (fetched : hubRow env name g = some row) : row.present = true := by
  have asks : rpcCall env "loadCharacter" [.str name] g =
      .ok (env.rpc g.asked (str "loadCharacter") [.str name],
        { g with asked := g.asked + 1 }) := by
    rw [rpcCall, if_pos remote]
    rfl
  rw [hubRow, gridFetchCharacter, if_pos remote, bind_ok asks] at fetched
  cases answer : env.rpc g.asked (str "loadCharacter") [.str name] with
  | none =>
    rw [answer] at fetched
    cases fetched
  | some result =>
    rw [answer] at fetched
    change (if result.isObject then some (characterRow result) else none) = some row at fetched
    split at fetched
    · cases fetched
      rfl
    · cases fetched

theorem whoami_replies (env : Env) (c : Block) (g : Server) :
    ∃ first : Server, cmdWhoami env c g = .ok ((), first.queued c (snprintf 4096
      (fmtCharIdentity (g.blocks c).name
        (whoamiFields (g.blocks c) (hubRow env (g.blocks c).name g))))) := by
  rw [cmdWhoami, bind_ok (rfl : session c g = .ok (g.blocks c, g))]
  by_cases off : env.remote = false
  · simp only [if_pos off, hub_row_local off, whoamiFields]
    exact ⟨g, rfl⟩
  · simp only [if_neg off]
    obtain ⟨asked, fetched⟩ := fetch_answers env (g.blocks c).name g
    rw [bind_ok fetched]
    cases hubRow env (g.blocks c).name g with
    | none => exact ⟨({ g with asked := asked } : Server).queued c _, rfl⟩
    | some row => exact ⟨{ g with asked := asked }, rfl⟩

theorem loaded_same (away : env.remote = false ∨ (g.blocks c).name = []) :
    loadedIdentity env c g = identityLoadLocal (g.blocks c) := by
  have ran : gridLoadSession env c g = .ok (.nothing, g) := by
    rw [gridLoadSession, bind_ok (rfl : session c g = .ok (g.blocks c, g)), if_pos away]
    rfl
  rw [loadedIdentity, ran]

theorem loaded_row (home : ¬(env.remote = false ∨ (g.blocks c).name = [])) :
    loadedIdentity env c g = match hubRow env (g.blocks c).name g with
      | none => identityLoadLocal (g.blocks c)
      | some row => if row.race = [] then identityLoadLocal (g.blocks c)
        else identityMergeHub (identityLoadLocal (g.blocks c)) row := by
  obtain ⟨asked, fetched⟩ := fetch_answers env (g.blocks c).name g
  rw [loadedIdentity, gridLoadSession, bind_ok (rfl : session c g = .ok (g.blocks c, g)),
    if_neg home, bind_ok fetched]
  cases hubRow env (g.blocks c).name g with
  | none => rfl
  | some row =>
    by_cases bare : row.race = []
    · simp only [if_pos bare]
      rfl
    · simp only [if_neg bare]
      have own (ch : Character) := ({ g with asked := asked } : Server).setBlock_own c
        { g.blocks c with toCharacter := ch }
      exact congrArg identityLoadLocal (own (identityApply _ (identityMergeHub _ row)))

/-- What whoami shows, and when it is what the login would have loaded. -/
theorem whoami_agrees_iff (env : Env) (c : Block) (g : Server) :
    (∃ first : Server, cmdWhoami env c g = .ok ((), first.queued c (snprintf 4096
      (fmtCharIdentity (g.blocks c).name
        (whoamiFields (g.blocks c) (hubRow env (g.blocks c).name g)))))) ∧
    (whoamiFields (g.blocks c) (hubRow env (g.blocks c).name g) = loadedIdentity env c g ↔
      ∀ row, hubRow env (g.blocks c).name g = some row → CountsAlike (g.blocks c) row) := by
  refine ⟨whoami_replies env c g, ?_⟩
  cases fetched : hubRow env (g.blocks c).name g with
  | none =>
    refine iff_of_true ?_ nofun
    by_cases away : env.remote = false ∨ (g.blocks c).name = []
    · exact (loaded_same away).symm
    · rw [loaded_row away, fetched]
      rfl
  | some row =>
    simp only [Option.some.injEq, forall_eq', CountsAlike, whoamiFields]
    by_cases away : env.remote = false ∨ (g.blocks c).name = []
    · rw [loaded_same away]
      by_cases counts : hubCharCanonical row = true
      · have named : ¬((g.blocks c).name ≠ [] ∧ row.race ≠ []) := by
          rintro ⟨named, raced⟩
          rcases away with off | unnamed
          · rw [hub_row_local off] at fetched
            cases fetched
            exact raced rfl
          · exact named unnamed
        simp [counts, named]
      · simp [counts]
    · have remote : env.remote = true := by
        cases on : env.remote with
        | false => exact absurd (.inl on) away
        | true => rfl
      have named : (g.blocks c).name ≠ [] := fun unnamed => away (.inr unnamed)
      rw [loaded_row away, fetched]
      by_cases bare : row.race = []
      · by_cases counts : hubCharCanonical row = true
        · simp [bare, counts]
        · simp [bare, counts]
      · have counts : hubCharCanonical row = true := by
          simp [hubCharCanonical, hub_row_present remote fetched, bare]
        simp [bare, counts, named]

def levelHub : Env :=
  { quietNode with
    remote := true, rpc := fun _ _ _ => some (.obj [(str "level", .num 9)]) }

/-- The record that login ignores blanks the race that whoami shows. -/
theorem partial_record_shown : ¬ ∀ (env : Env) (c : Block) (g : Server), env.remote = true →
    whoamiFields (g.blocks c) (hubRow env (g.blocks c).name g) = loadedIdentity env c g := by
  intro always
  have same := always levelHub 0 { blocks := fun _ => ada, disk := fun _ => none } rfl
  have races : (whoamiFields ada (hubRow levelHub (str "Ada")
      { blocks := fun _ => ada, disk := fun _ => none })).race = [] ∧
      (loadedIdentity levelHub 0 { blocks := fun _ => ada, disk := fun _ => none }).race =
        str "elf" := by
    constructor
    · rfl
    · rfl
  have shown := congrArg Identity.race same
  exact absurd (races.1.symm.trans (shown.trans races.2)) (by decide)

end Whoami

end HollowGrid
