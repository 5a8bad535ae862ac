import HollowGrid.Deeds
import HollowGrid.Keeper
import HollowGrid.Lib.Argv
import HollowGrid.Lib.JsonText
import HollowGrid.Paths

/-! asm/main.asm: from the environment and the command line to the node that is served. -/
namespace HollowGrid.Startup

open Argv (Parsed)

/-- What main finds outside: the environment, the directories it can make, and libcurl. -/
structure Outside where
  getenv : Bytes → Option Bytes
  ensureDir : Bytes → Bool
  curlStarts : Bool

structure Options where
  addr : Bytes
  world : Bytes
  data : Bytes
  hubUrl : Option Bytes
  hubToken : Option Bytes
  worldUrl : Option Bytes
  deriving DecidableEq

def environment (x : Outside) : Options where
  addr := (x.getenv (str "LISTEN_ADDR")).getD (str "0.0.0.0:8793")
  world := (x.getenv (str "WORLD_NAME")).getD (str "Basalt Relay")
  data := (x.getenv (str "DATA_DIR")).getD (str "data")
  hubUrl := x.getenv (str "GRID_HUB_URL")
  hubToken := x.getenv (str "GRID_HUB_TOKEN")
  worldUrl := x.getenv (str "WORLD_URL")

inductive Flag
  | addr
  | world
  | data
  | hubUrl
  | worldUrl
  deriving DecidableEq

namespace Flag

def word : Flag → Bytes
  | addr => str "--addr"
  | world => str "--world-name"
  | data => str "--data"
  | hubUrl => str "--grid-hub-url"
  | worldUrl => str "--world-url"

/-- .take_addr and its siblings. -/
def set (f : Flag) (value : Bytes) (o : Options) : Options :=
  match f with
  | addr => { o with addr := value }
  | world => { o with world := value }
  | data => { o with data := value }
  | hubUrl => { o with hubUrl := some value }
  | worldUrl => { o with worldUrl := some value }

def value (f : Flag) (o : Options) : Option Bytes :=
  match f with
  | addr => some o.addr
  | world => some o.world
  | data => some o.data
  | hubUrl => o.hubUrl
  | worldUrl => o.worldUrl

theorem value_set (f : Flag) (w : Bytes) (o : Options) : f.value (f.set w o) = some w := by
  cases f <;> rfl

theorem value_other {f f' : Flag} (other : f' ≠ f) (w : Bytes) (o : Options) :
    f.value (f'.set w o) = f.value o := by
  cases f <;> cases f' <;> first | rfl | exact absurd rfl other

end Flag

def isHelp (w : Bytes) : Bool := w = str "--help" || w = str "-h"

/-- The strcmp calls of .args behind the two for help. -/
def flagOf (w : Bytes) : Option Flag :=
  if w = str "--addr" then some .addr
  else if w = str "--world-name" then some .world
  else if w = str "--data" then some .data
  else if w = str "--grid-hub-url" then some .hubUrl
  else if w = str "--world-url" then some .worldUrl
  else none

theorem flag_words (f : Flag) : flagOf f.word = some f ∧ isHelp f.word = false := by
  cases f <;> decide +kernel

theorem flag_of_iff (w : Bytes) (f : Flag) : flagOf w = some f ↔ f.word = w := by
  constructor
  · intro named
    unfold flagOf at named
    split_ifs at named <;> cases named <;> exact Eq.symm ‹_›
  · rintro rfl
    exact (flag_words f).1

def grammar : Argv.Grammar Bytes Flag Options where
  help := isHelp
  flagOf := flagOf
  word := Flag.word
  set := Flag.set
  spelled := flag_of_iff
  apart f := (flag_words f).2

/-- The sign of a number may stand before its digits. -/
def unsigned : Bytes → Bytes
  | [] => []
  | x :: rest => if x = 45 ∨ x = 43 then rest else x :: rest

/-- Whether a conversion by %d finds a number. -/
def startsInt (b : Bytes) : Bool := (unsigned (skipWhile isspace b)).head?.any isDigit

/-- sscanf by "%127[^:]:%d" into host_buffer and port_value. The int is that of a long. -/
def scanAddr (b : Bytes) : Option (Bytes × Int) :=
  let host := (b.takeWhile (· ≠ 58)).take 127
  if host = [] then none
  else
    match b.drop host.length with
    | [] => none
    | x :: number =>
      if x = 58 then if startsInt number then some (host, toInt32 (atoll number)) else none
      else none

def defaultWorldUrl (port : Int) : Bytes :=
  (str "ws://127.0.0.1:" ++ decimal port ++ str "/ws").take 159

def charactersDir (data : Bytes) : Bytes := (data ++ str "/characters").take 511

/-- hg_auth_require_admin_token -/
def requireAdminToken (x : Outside) : Option Bytes :=
  (x.getenv (str "ADMIN_TOKEN")).bind fun token => if cstr token = [] then none else some token

/-- g.remote after hg_grid_boot. -/
def gridRemote (x : Outside) (o : Options) : Bool :=
  match o.hubUrl with
  | none => false
  | some url => if cstr url = [] then false else x.curlStarts

/-- The node that hg_lws_run is called for. -/
structure Serving where
  host : Bytes
  port : Int
  root : Bytes
  world : Bytes
  worldUrl : Bytes
  remote : Bool
  token : Bytes
  deriving DecidableEq

inductive Exit
  | help
  | bad
  | storeFailed
  | adminTokenFailed
  | serves (s : Serving)
  deriving DecidableEq

/-- .parse -/
def start (x : Outside) (o : Options) : Exit :=
  match scanAddr o.addr with
  | none => .bad
  | some (host, port) =>
    if port < 1 then .bad
    else if 65535 < port then .bad
    else
      let store := hgStoreInit (x.ensureDir o.data) (x.ensureDir (charactersDir o.data)) [] o.data
      if store.2 = 0 then
        match requireAdminToken x with
        | none => .adminTokenFailed
        | some token => .serves
            ⟨host, port, store.1, o.world, o.worldUrl.getD (defaultWorldUrl port),
              gridRemote x o, token⟩
      else .storeFailed

def main (x : Outside) (args : List Bytes) : Exit :=
  match Argv.read grammar (environment x) args with
  | .help => .help
  | .bad => .bad
  | .done o => start x o

/-- What the node of a launch runs in. -/
def Serving.node (s : Serving) (env : Env) : Env :=
  { env with
    worldName := s.world
    worldUrl := s.worldUrl
    remote := s.remote
    adminToken := some s.token }

/-- The options of a launch: each from its last flag, else from the environment, else built in. -/
def chosen (x : Outside) (settings : List (Flag × Bytes)) : Options :=
  let given (f : Flag) := Argv.lastOf f settings
  let o := environment x
  { addr := (given .addr).getD o.addr
    world := (given .world).getD o.world
    data := (given .data).getD o.data
    hubUrl := (given .hubUrl).or o.hubUrl
    hubToken := o.hubToken
    worldUrl := (given .worldUrl).or o.worldUrl }

structure Numeral (text : Bytes) (n : Int) (blanks sign digits junk : Bytes) : Prop where
  parts : text = blanks ++ (sign ++ (digits ++ junk))
  spaces : ∀ b ∈ blanks, isspace b = true
  signs : sign = [] ∨ sign = [43] ∨ sign = [45]
  some_digit : digits ≠ []
  all_digits : ∀ b ∈ digits, isDigit b = true
  ends : ∀ b, junk.head? = some b → isDigit b = false
  value : n = if sign = [45] then max int64Min (-digitsValue digits)
    else min int64Max (digitsValue digits)

structure Addressed (addr host : Bytes) (port : Int) : Prop where
  named : host ≠ [] ∧ host.length ≤ 127 ∧ 58 ∉ host
  numbered : ∃ text n blanks sign digits junk, addr = host ++ 58 :: text ∧
    Numeral text n blanks sign digits junk ∧ port = toInt32 n

structure Serves (x : Outside) (o : Options) (s : Serving) : Prop where
  address : Addressed o.addr s.host s.port
  port : 1 ≤ s.port ∧ s.port ≤ 65535
  store : hgStoreInit (x.ensureDir o.data) (x.ensureDir (charactersDir o.data)) [] o.data =
    (s.root, 0)
  token : x.getenv (str "ADMIN_TOKEN") = some s.token ∧ cstr s.token ≠ []
  world : s.world = o.world
  worldUrl : s.worldUrl = o.worldUrl.getD (defaultWorldUrl s.port)
  remote : s.remote = true ↔ ∃ url, o.hubUrl = some url ∧ cstr url ≠ [] ∧ x.curlStarts = true

section Numbers

theorem skip_blanks {blanks : Bytes} (spaces : ∀ b ∈ blanks, isspace b = true) (rest : Bytes) :
    skipWhile isspace (blanks ++ rest) = skipWhile isspace rest :=
  List.dropWhile_append_of_pos spaces

theorem skip_none {x : UInt8} (visible : isspace x = false) (rest : Bytes) :
    skipWhile isspace (x :: rest) = x :: rest := by
  rw [skipWhile, List.dropWhile_cons_of_neg (by rw [visible]; exact Bool.false_ne_true)]

theorem digit_visible {x : UInt8} (digit : isDigit x = true) :
    isspace x = false ∧ x ≠ 45 ∧ x ≠ 43 ∧ x ≠ 58 := by
  simp only [isDigit, Bool.and_eq_true, decide_eq_true_eq, UInt8.le_iff_toNat_le] at digit
  have range : 48 ≤ x.toNat ∧ x.toNat ≤ 57 := digit
  have other (y : UInt8) (off : y.toNat < 48 ∨ 57 < y.toNat) : x ≠ y := by
    rintro rfl
    omega
  refine ⟨?_, other 45 (by decide), other 43 (by decide), other 58 (by decide)⟩
  have no_space : x ≠ space := other space (by decide)
  simp only [isspace, Bool.or_eq_false_iff, beq_eq_false_iff_ne, Bool.and_eq_false_iff,
    decide_eq_false_iff_not, UInt8.le_iff_toNat_le]
  refine ⟨no_space, .inr ?_⟩
  change ¬x.toNat ≤ 13
  omega

theorem digits_value {digits junk : Bytes} (all : ∀ b ∈ digits, isDigit b = true)
    (ends : ∀ b, junk.head? = some b → isDigit b = false) :
    digitsValue (digits ++ junk) = digitsValue digits := by
  have rest : junk.takeWhile isDigit = [] := by
    cases junk with
    | nil => rfl
    | cons b junk => exact List.takeWhile_cons_of_neg (by simp [ends b rfl])
  have own : digits.takeWhile isDigit = digits := List.takeWhile_eq_self_iff.mpr all
  rw [digitsValue, digitsValue, List.takeWhile_append_of_pos all, rest, own, List.append_nil]

theorem atoll_minus {b rest : Bytes} (body : skipWhile isspace b = 45 :: rest) :
    atoll b = max int64Min (-digitsValue rest) := by
  unfold atoll
  simp only [body]

theorem atoll_plus {b rest : Bytes} (body : skipWhile isspace b = 43 :: rest) :
    atoll b = min int64Max (digitsValue rest) := by
  unfold atoll
  simp only [body]

theorem atoll_plain {b rest : Bytes} {x : UInt8} (digit : isDigit x = true)
    (body : skipWhile isspace b = x :: rest) :
    atoll b = min int64Max (digitsValue (x :: rest)) := by
  obtain ⟨_, minus, plus, _⟩ := digit_visible digit
  unfold atoll
  rw [body]
  split
  · rename_i same
    exact absurd (List.cons.inj same).1 minus
  · rename_i same
    exact absurd (List.cons.inj same).1 plus
  · rfl

theorem numeral_scans {text : Bytes} {n : Int} {blanks sign digits junk : Bytes}
    (numeral : Numeral text n blanks sign digits junk) :
    startsInt text = true ∧ atoll text = n := by
  obtain ⟨rfl, spaces, signs, some_digit, all, ends, rfl⟩ := numeral
  cases digits with
  | nil => exact absurd rfl some_digit
  | cons d digits =>
    have digit := all d List.mem_cons_self
    have value := digits_value all ends
    rcases signs with rfl | rfl | rfl
    · have body : skipWhile isspace (blanks ++ ([] ++ (d :: digits ++ junk))) =
          d :: (digits ++ junk) :=
        (skip_blanks spaces _).trans (skip_none (digit_visible digit).1 _)
      obtain ⟨_, minus, plus, _⟩ := digit_visible digit
      refine ⟨by rw [startsInt, body, unsigned]; simp [minus, plus, digit], ?_⟩
      rw [atoll_plain digit body, if_neg (by simp), ← value]
      rfl
    · have body : skipWhile isspace (blanks ++ ([43] ++ (d :: digits ++ junk))) =
          43 :: (d :: digits ++ junk) :=
        (skip_blanks spaces _).trans (skip_none (by decide) _)
      refine ⟨by rw [startsInt, body, unsigned]; simp [digit], ?_⟩
      rw [atoll_plus body, if_neg (by simp), value]
    · have body : skipWhile isspace (blanks ++ ([45] ++ (d :: digits ++ junk))) =
          45 :: (d :: digits ++ junk) :=
        (skip_blanks spaces _).trans (skip_none (by decide) _)
      refine ⟨by rw [startsInt, body, unsigned]; simp [digit], ?_⟩
      rw [atoll_minus body, if_pos rfl, value]

/-- A text that %d takes a number from has the parts of one. -/
theorem scans_numeral {text : Bytes} (starts : startsInt text = true) :
    ∃ blanks sign digits junk, Numeral text (atoll text) blanks sign digits junk := by
  obtain ⟨sign, rest, body, signs, digit⟩ : ∃ sign rest,
      skipWhile isspace text = sign ++ rest ∧ (sign = [] ∨ sign = [43] ∨ sign = [45]) ∧
        rest.head?.any isDigit = true := by
    rw [startsInt] at starts
    cases body : skipWhile isspace text with
    | nil => rw [body] at starts; cases starts
    | cons x rest =>
      rw [body, unsigned] at starts
      split_ifs at starts with signed
      · rcases signed with rfl | rfl
        · exact ⟨[45], rest, rfl, .inr (.inr rfl), starts⟩
        · exact ⟨[43], rest, rfl, .inr (.inl rfl), starts⟩
      · exact ⟨[], x :: rest, rfl, .inl rfl, starts⟩
  have text_parts : text = text.takeWhile isspace ++ (sign ++ rest) := by
    rw [← body]
    exact List.takeWhile_append_dropWhile.symm
  have parts : rest = rest.takeWhile isDigit ++ rest.dropWhile isDigit :=
    List.takeWhile_append_dropWhile.symm
  have some_digit : rest.takeWhile isDigit ≠ [] := by
    cases rest with
    | nil => cases digit
    | cons d rest =>
      have first : isDigit d = true := digit
      rw [List.takeWhile_cons_of_pos first]
      exact List.cons_ne_nil _ _
  have all : ∀ b ∈ rest.takeWhile isDigit, isDigit b = true := fun b member =>
    List.mem_takeWhile_imp member
  have ends : ∀ b, (rest.dropWhile isDigit).head? = some b → isDigit b = false := by
    intro b first
    have stopped := List.head?_dropWhile_not isDigit rest
    rw [first] at stopped
    simpa using stopped
  have numeral : Numeral text _ (text.takeWhile isspace) sign (rest.takeWhile isDigit)
      (rest.dropWhile isDigit) :=
    ⟨by rw [← parts]; exact text_parts, fun b member => List.mem_takeWhile_imp member, signs,
      some_digit, all, ends, rfl⟩
  rw [(numeral_scans numeral).2]
  exact ⟨_, _, _, _, numeral⟩

end Numbers

/-- The digits of a text read from the front. -/
theorem digits_folded (digits : Bytes) (n : Nat) :
    digits.foldl (fun (n : Int) d => 10 * n + (d.toNat - 48 : Nat)) n =
      (Nat.ofDigitChars 10 (digits.map fun b => Char.ofNat b.toNat) n : Int) := by
  induction digits generalizing n with
  | nil => rfl
  | cons d digits ih =>
    have valid : d.toNat.isValidChar := .inl (d.toNat_lt.trans (by decide))
    have code : (Char.ofNat d.toNat).toNat = d.toNat := by
      rw [Char.ofNat, dif_pos valid]
      rfl
    rw [List.foldl_cons, List.map_cons, Nat.ofDigitChars_cons, code, ← ih]
    push_cast
    rfl

theorem natural_read (n : Nat) : digitsValue (JsonText.natural n) = n := by
  have own : (JsonText.natural n).takeWhile isDigit = JsonText.natural n :=
    List.takeWhile_eq_self_iff.mpr (JsonText.natural_digits n)
  rw [digitsValue, own]
  exact (digits_folded _ 0).trans (congrArg Int.ofNat (JsonText.natural_value n))

section Addresses

variable {addr host : Bytes} {port : Int}

/-- What stands before a colon is scanned as the host. -/
theorem host_taken (named : host ≠ [] ∧ host.length ≤ 127 ∧ 58 ∉ host) (text : Bytes) :
    ((host ++ 58 :: text).takeWhile (· ≠ 58)).take 127 = host := by
  have off : ∀ b ∈ host, decide (b ≠ 58) = true := by
    intro b member
    refine decide_eq_true ?_
    rintro rfl
    exact named.2.2 member
  rw [List.takeWhile_append_of_pos off, List.takeWhile_cons_of_neg (by simp), List.append_nil,
    List.take_of_length_le named.2.1]

theorem scan_host (named : host ≠ [] ∧ host.length ≤ 127 ∧ 58 ∉ host) (text : Bytes) :
    scanAddr (host ++ 58 :: text) =
      if startsInt text then some (host, toInt32 (atoll text)) else none := by
  have behind : (host ++ 58 :: text).drop host.length = 58 :: text := List.drop_left
  simp only [scanAddr, host_taken named, if_neg named.1, behind, if_true]

theorem scan_addr_iff : scanAddr addr = some (host, port) ↔ Addressed addr host port := by
  constructor
  · intro scanned
    have named : ((addr.takeWhile (· ≠ 58)).take 127).length ≤ 127 ∧
        58 ∉ (addr.takeWhile (· ≠ 58)).take 127 := by
      refine ⟨List.length_take_le 127 _, fun member => ?_⟩
      have passed := List.mem_takeWhile_imp (List.mem_of_mem_take member)
      simp at passed
    have front : (addr.takeWhile (· ≠ 58)).take 127 <+: addr :=
      (List.take_prefix 127 _).trans (List.takeWhile_prefix _)
    unfold scanAddr at scanned
    dsimp only at scanned
    generalize (addr.takeWhile (· ≠ 58)).take 127 = found at named front scanned
    by_cases empty : found = []
    · rw [if_pos empty] at scanned
      cases scanned
    · rw [if_neg empty] at scanned
      obtain ⟨behind, rfl⟩ := front
      rw [List.drop_left] at scanned
      cases behind with
      | nil => cases scanned
      | cons x text =>
        dsimp only at scanned
        split_ifs at scanned with colon starts
        cases scanned
        subst colon
        obtain ⟨blanks, sign, digits, junk, numeral⟩ := scans_numeral starts
        exact ⟨⟨empty, named⟩, text, _, blanks, sign, digits, junk, rfl, numeral, rfl⟩
  · rintro ⟨named, text, n, blanks, sign, digits, junk, rfl, numeral, rfl⟩
    obtain ⟨starts, value⟩ := numeral_scans numeral
    rw [scan_host named, if_pos starts, value]

theorem printed_addressed (named : host ≠ [] ∧ host.length ≤ 127 ∧ 58 ∉ host)
    (range : 1 ≤ port ∧ port ≤ 65535) {junk : Bytes}
    (ends : ∀ b, junk.head? = some b → isDigit b = false) :
    Addressed (host ++ 58 :: (decimal port ++ junk)) host port := by
  obtain ⟨n, rfl⟩ := Int.eq_ofNat_of_zero_le (by omega : 0 ≤ port)
  have digits : decimal (n : Int) = JsonText.natural n := rfl
  have small : (n : Int) = min int64Max (digitsValue (JsonText.natural n)) := by
    rw [natural_read, int64Max]
    omega
  refine ⟨named, decimal n ++ junk, n, [], [], decimal n, junk, rfl, ?_, ?_⟩
  · refine ⟨rfl, fun b member => absurd member List.not_mem_nil, .inl rfl, ?_, ?_, ends, ?_⟩
    · rw [digits]
      simp [JsonText.natural, str, Nat.toDigits_ne_nil]
    · rw [digits]
      exact JsonText.natural_digits n
    · rw [if_neg (by simp), digits]
      exact small
  · rw [toInt32]
    omega

end Addresses

section Launches

variable {x : Outside} {o : Options} {args : List Bytes} {s : Serving}

theorem settle_token (settings : List (Flag × Bytes)) (o : Options) :
    (Argv.settle grammar o settings).hubToken = o.hubToken := by
  induction settings generalizing o with
  | nil => rfl
  | cons setting settings ih =>
    refine (ih _).trans ?_
    change (setting.1.set setting.2 o).hubToken = o.hubToken
    cases setting.1 <;> rfl

theorem chosen_settled (x : Outside) (settings : List (Flag × Bytes)) :
    Argv.settle grammar (environment x) settings = chosen x settings := by
  have last (f : Flag) : f.value (Argv.settle grammar (environment x) settings) =
      ((Argv.lastOf f settings).map some).getD (f.value (environment x)) :=
    Argv.settle_last Flag.value some Flag.value_set
      (fun f f' w o other => Flag.value_other other w o) settings f
  have token := settle_token settings (environment x)
  generalize Argv.settle grammar (environment x) settings = o at last token
  have mapped {w : Option Bytes} (a : Bytes) : (w.map some).getD (some a) = some (w.getD a) := by
    cases w <;> rfl
  have either {w : Option Bytes} (a : Option Bytes) : (w.map some).getD a = w.or a := by
    cases w <;> rfl
  have addr := (last .addr).trans (mapped _)
  have world := (last .world).trans (mapped _)
  have data := (last .data).trans (mapped _)
  have hubUrl := (last .hubUrl).trans (either _)
  have worldUrl := (last .worldUrl).trans (either _)
  cases o
  simp only [Flag.value, Option.some.injEq] at addr world data hubUrl worldUrl
  subst addr world data hubUrl worldUrl token
  rfl

theorem remote_iff : gridRemote x o = true ↔
    ∃ url, o.hubUrl = some url ∧ cstr url ≠ [] ∧ x.curlStarts = true := by
  unfold gridRemote
  cases o.hubUrl with
  | none => simp
  | some url => by_cases empty : cstr url = [] <;> simp [empty]

theorem token_iff {token : Bytes} : requireAdminToken x = some token ↔
    x.getenv (str "ADMIN_TOKEN") = some token ∧ cstr token ≠ [] := by
  unfold requireAdminToken
  cases x.getenv (str "ADMIN_TOKEN") with
  | none => simp
  | some given =>
    by_cases empty : cstr given = [] <;> simp [empty] <;> grind

theorem start_serves_iff : start x o = .serves s ↔ Serves x o s := by
  constructor
  · intro served
    unfold start at served
    split at served
    · cases served
    · rename_i host port scanned
      split_ifs at served with low high
      dsimp only at served
      by_cases made : (hgStoreInit (x.ensureDir o.data) (x.ensureDir (charactersDir o.data)) []
          o.data).2 = 0
      · rw [if_pos made] at served
        cases given : requireAdminToken x with
        | none =>
          rw [given] at served
          cases served
        | some token =>
          rw [given] at served
          cases served
          exact ⟨scan_addr_iff.mp scanned, ⟨Int.not_lt.mp low, Int.not_lt.mp high⟩,
            Prod.ext rfl made, token_iff.mp given, rfl, rfl, remote_iff⟩
      · rw [if_neg made] at served
        cases served
  · rintro ⟨address, range, store, token, world, url, remote⟩
    have same : gridRemote x o = s.remote := Bool.eq_iff_iff.mpr (remote_iff.trans remote.symm)
    unfold start
    rw [scan_addr_iff.mpr address]
    simp only [if_neg (Int.not_lt.mpr range.1), if_neg (Int.not_lt.mpr range.2), store,
      token_iff.mpr token, same, ← world, ← url]
    rfl

theorem main_start (done : Argv.read grammar (environment x) args = .done o) :
    main x args = start x o := by
  unfold main
  rw [done]

theorem main_settings (x : Outside) (settings : List (Flag × Bytes)) :
    main x (Argv.render grammar settings) = start x (chosen x settings) :=
  main_start ((Argv.read_done_iff _ _).mpr ⟨settings, rfl, chosen_settled x settings⟩)

theorem served_settings (served : main x args = .serves s) :
    ∃ settings, args = Argv.render grammar settings ∧ Serves x (chosen x settings) s := by
  cases line : Argv.read grammar (environment x) args with
  | help =>
    unfold main at served
    rw [line] at served
    cases served
  | bad =>
    unfold main at served
    rw [line] at served
    cases served
  | done o =>
    obtain ⟨settings, same, settled⟩ := (Argv.read_done_iff args o).mp line
    rw [chosen_settled] at settled
    subst settled
    exact ⟨settings, same, start_serves_iff.mp ((main_start line).symm.trans served)⟩

theorem start_helpless : start x o ≠ .help := by
  intro helped
  unfold start at helped
  dsimp only at helped
  repeat' split at helped
  all_goals cases helped

theorem start_bad_iff : start x o = .bad ↔
    ¬∃ host port, Addressed o.addr host port ∧ 1 ≤ port ∧ port ≤ 65535 := by
  constructor
  · rintro refused ⟨host, port, address, low, high⟩
    unfold start at refused
    rw [scan_addr_iff.mpr address] at refused
    simp only [if_neg (Int.not_lt.mpr low), if_neg (Int.not_lt.mpr high)] at refused
    repeat' split at refused
    all_goals cases refused
  · intro unaddressed
    unfold start
    cases scanned : scanAddr o.addr with
    | none => rfl
    | some found =>
      obtain ⟨host, port⟩ := found
      by_cases low : port < 1
      · simp only [if_pos low]
      · by_cases high : 65535 < port
        · simp only [if_neg low, if_pos high]
        · exact absurd ⟨host, port, scan_addr_iff.mp scanned, Int.not_lt.mp low,
            Int.not_lt.mp high⟩ unaddressed

/-- The node is served exactly where the line is settings alone and what they choose is good. -/
theorem main_serves_iff (x : Outside) (args : List Bytes) (s : Serving) :
    main x args = .serves s ↔ ∃ settings, args = Argv.render grammar settings ∧
      Serves x (chosen x settings) s := by
  constructor
  · exact served_settings
  · rintro ⟨settings, rfl, serves⟩
    exact (main_settings x settings).trans (start_serves_iff.mpr serves)

/-- Help is what the first word in a flag's place asks for. A line is bad by the first word that
fits nowhere, or by the address alone. -/
theorem main_refuses (x : Outside) (args : List Bytes) :
    (main x args = .help ↔ ∃ settings back, args = Argv.render grammar settings ++ back ∧
      Argv.Asks grammar back) ∧
    (main x args = .bad ↔
      (∃ settings back, args = Argv.render grammar settings ++ back ∧ Argv.Stuck grammar back) ∨
      ∃ settings, args = Argv.render grammar settings ∧
        ¬∃ host port, Addressed (chosen x settings).addr host port ∧ 1 ≤ port ∧ port ≤ 65535) := by
  have done : ∀ o, Argv.read grammar (environment x) args = .done o ↔ _ := Argv.read_done_iff args
  rw [← Argv.read_help_iff args, ← Argv.read_bad_iff args]
  cases line : Argv.read grammar (environment x) args with
  | help =>
    have ends : main x args = .help := by
      unfold main
      rw [line]
    refine ⟨iff_of_true ends rfl, ?_⟩
    rw [ends]
    refine iff_of_false ?_ ?_
    · intro bad
      cases bad
    · rintro (bad | ⟨settings, same, _⟩)
      · cases bad
      · cases line.symm.trans ((done _).mpr ⟨settings, same, rfl⟩)
  | bad =>
    have ends : main x args = .bad := by
      unfold main
      rw [line]
    rw [ends]
    refine ⟨iff_of_false ?_ ?_, iff_of_true rfl (.inl rfl)⟩
    · intro helped
      cases helped
    · intro helped
      cases helped
  | done o =>
    rw [main_start line]
    refine ⟨iff_of_false start_helpless (fun helped => by cases helped), ?_⟩
    rw [start_bad_iff]
    constructor
    · intro unaddressed
      obtain ⟨settings, same, settled⟩ := (done o).mp line
      rw [chosen_settled] at settled
      subst settled
      exact .inr ⟨settings, same, unaddressed⟩
    · rintro (bad | ⟨settings, same, unaddressed⟩)
      · cases bad
      · have chose := (done _).mpr ⟨settings, same, chosen_settled x settings⟩
        cases line.symm.trans chose
        exact unaddressed

/-- The directory of the characters is the data directory's, uncut, where it fits its buffer. -/
theorem init_done {data : Bytes} (data_made : x.ensureDir data = true)
    (made : x.ensureDir (data ++ str "/characters") = true) (short : data.length ≤ 500) :
    charactersDir data = data ++ str "/characters" ∧
      hgStoreInit (x.ensureDir data) (x.ensureDir (charactersDir data)) [] data =
        (data ++ str "/characters", 0) := by
  have size : (data ++ str "/characters").length = data.length + 11 := by
    rw [List.length_append]
    rfl
  have whole : charactersDir data = data ++ str "/characters" :=
    List.take_of_length_le (by omega)
  have some_byte : data ++ str "/characters" ≠ [] := by
    intro empty
    rw [empty] at size
    simp at size
  have printed : printedWhole 512 (data ++ str "/characters") = some (data ++ str "/characters") :=
    printed_whole some_byte (by omega) (by decide)
  refine ⟨whole, ?_⟩
  have cut : (data ++ str "/characters").take 511 = data ++ str "/characters" := whole
  rw [whole, data_made, made]
  unfold hgStoreInit
  simp only [Bool.not_true, Bool.false_eq_true, if_false, printed, cut, if_true]

/-- A node told to listen on host:port listens there, under the URL of that port if none is
chosen for it. -/
theorem launch_round_trip (x : Outside) (settings : List (Flag × Bytes)) (host token junk : Bytes)
    (port : Int) (named : host ≠ [] ∧ host.length ≤ 127 ∧ 58 ∉ host)
    (range : 1 ≤ port ∧ port ≤ 65535) (ends : ∀ b, junk.head? = some b → isDigit b = false)
    (listens : (chosen x settings).addr = host ++ 58 :: (decimal port ++ junk))
    (dirs : x.ensureDir (chosen x settings).data = true ∧
      x.ensureDir ((chosen x settings).data ++ str "/characters") = true)
    (short : (chosen x settings).data.length ≤ 500)
    (admin : x.getenv (str "ADMIN_TOKEN") = some token) (some_token : cstr token ≠ []) :
    main x (Argv.render grammar settings) = .serves
      { host := host, port := port, root := (chosen x settings).data ++ str "/characters",
        world := (chosen x settings).world,
        worldUrl := (chosen x settings).worldUrl.getD
          (str "ws://127.0.0.1:" ++ decimal port ++ str "/ws"),
        remote := gridRemote x (chosen x settings), token := token } := by
  have url : defaultWorldUrl port = str "ws://127.0.0.1:" ++ decimal port ++ str "/ws" := by
    refine List.take_of_length_le ?_
    have digits := JsonText.decimal_length (n := port) (by omega)
    have front : (str "ws://127.0.0.1:").length = 15 := rfl
    have back : (str "/ws").length = 3 := rfl
    simp only [List.length_append, front, back]
    omega
  refine (main_settings x settings).trans (start_serves_iff.mpr ?_)
  have address := printed_addressed named range ends
  rw [← listens] at address
  exact ⟨address, range, (init_done dirs.1 dirs.2 short).2, ⟨admin, some_token⟩, rfl,
    by rw [url], remote_iff⟩

/-- A shell with a token and nothing else set. -/
def bareShell : Outside where
  getenv key := if key = str "ADMIN_TOKEN" then some (str "token") else none
  ensureDir _ := true
  curlStarts := true

theorem launch_round_trip_bare :
    main bareShell (Argv.render grammar [(.data, str "grid"), (.addr, str "127.0.0.1:9000")]) =
      .serves ⟨str "127.0.0.1", 9000, str "grid" ++ str "/characters", str "Basalt Relay",
        str "ws://127.0.0.1:" ++ decimal 9000 ++ str "/ws", false, str "token"⟩ :=
  launch_round_trip bareShell [(.data, str "grid"), (.addr, str "127.0.0.1:9000")]
    (str "127.0.0.1") (str "token") [] 9000 (by decide +kernel) (by decide)
    (fun _ none => by cases none) (by decide +kernel) ⟨rfl, rfl⟩ (by decide +kernel)
    (by decide +kernel) (by decide +kernel)

/-- Who is trusted on a served node has sent the token that its launch was given. -/
theorem served_keepers (x : Outside) (args : List Bytes) (s : Serving)
    (served : main x args = .serves s) (env : Env) (disk : Disk) (events : List Event) (g : Server)
    (c : Block) (reached : Machine.Reaches (step (s.node env)) (boot (s.node env) disk) events g)
    (there : g.socket c ≠ none) (authed : (g.blocks c).keeperAuthed = true) :
    ∃ token, x.getenv (str "ADMIN_TOKEN") = some token ∧ cstr token ≠ [] ∧
      ∃ before text after, events = before ++ .message c text :: after ∧ .close c ∉ after ∧
        trimTail isspace (skipWhile isspace (cstr (trimmed text))) = cstr token := by
  obtain ⟨_, _, serves⟩ := served_settings served
  obtain ⟨before, text, after, _, same, stayed, _, _, _, _, _, proved⟩ :=
    (trust_run reached c there).earned authed
  refine ⟨s.token, serves.token.1, serves.token.2, before, text, after, same, stayed, ?_⟩
  simp only [verifyAdminToken, Serving.node, Bool.and_eq_true, decide_eq_true_eq] at proved
  exact proved.2

theorem served_keepers_bare : ∃ g,
    Machine.Reaches (step quietNode) (boot quietNode sharedDisk)
      [.connect 0 1, .message 0 (str "keeper"), .message 0 (str " token\n")] g ∧
    ∃ token, bareShell.getenv (str "ADMIN_TOKEN") = some token ∧ cstr token ≠ [] ∧
      ∃ before text after, [Event.connect 0 1, .message 0 (str "keeper"),
          .message 0 (str " token\n")] = before ++ .message 0 text :: after ∧ .close 0 ∉ after ∧
        trimTail isspace (skipWhile isspace (cstr (trimmed text))) = cstr token := by
  obtain ⟨g, reached, shown⟩ := Machine.ends_reaches (step quietNode) (boot quietNode sharedDisk)
    [.connect 0 1, .message 0 (str "keeper"), .message 0 (str " token\n")]
    (fun g => decide (g.socket 0 ≠ none) && (g.blocks 0).keeperAuthed) (by decide +kernel)
  obtain ⟨there, authed⟩ := (Bool.and_eq_true ..).mp shown
  have served : main bareShell [str "--world-url", quietNode.worldUrl] =
      .serves ⟨str "0.0.0.0", 8793, str "data/characters", quietNode.worldName,
        quietNode.worldUrl, false, str "token"⟩ := by decide +kernel
  exact ⟨g, reached, served_keepers _ _ _ served quietNode sharedDisk _ g 0 reached
    (of_decide_eq_true there) authed⟩

end Launches

end HollowGrid.Startup
