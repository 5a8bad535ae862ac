import HollowGrid.Callback

/-! Text that came from outside and the places it is kept. With strict set, none of it
holds a CR or an LF and no outbox lets any of it open a line with an @. -/
namespace HollowGrid

variable {strict : Prop}

/-- A name of the bytes valid_name lets through, none of which is an @ or a line end. -/
def Named (strict : Prop) (name : Bytes) : Prop := strict → ∀ b ∈ name, nameByte b = true

structure TidyCharacter (strict : Prop) (ch : Character) : Prop where
  race : Clean strict ch.race
  faction : Clean strict ch.faction
  position : Clean strict ch.position
  title : Clean strict ch.title
  weapon : Clean strict ch.weapon
  head : Clean strict ch.head
  body : Clean strict ch.body
  hands : Clean strict ch.hands
  feet : Clean strict ch.feet
  replyTo : Clean strict ch.replyTo
  lastFreed : Clean strict ch.lastFreed
  inventory : ∀ item ∈ ch.inventory, Clean strict item

structure TidySession (strict : Prop) (s : Session) : Prop
    extends TidyCharacter strict s.toCharacter where
  name : Named strict s.name

/-- A change of a character that brings in no untidy text. -/
def Careful (strict : Prop) (f : Character → Character) : Prop :=
  ∀ ch, TidyCharacter strict ch → TidyCharacter strict (f ch)

structure TidyTrace (strict : Prop) (t : Trace) : Prop where
  world : Clean strict t.world
  node : Clean strict t.node
  kind : Clean strict t.kind
  text : Clean strict t.text

structure TidyFallen (strict : Prop) (row : Fallen) : Prop where
  world : Clean strict row.world
  name : Clean strict row.name
  third : Clean strict row.third

structure TidyHub (strict : Prop) (h : LocalHub) : Prop where
  traces : ∀ t ∈ h.traces, TidyTrace strict t
  echo : ∀ t ∈ h.echo, TidyTrace strict t
  rescued : ∀ row ∈ h.rescued, TidyFallen strict row
  fallen : ∀ row ∈ h.fallen, TidyFallen strict row

/-- A file whose texts are tidy once they are loaded. -/
def TidyFile (strict : Prop) : File → Prop
  | .unreadable => True
  | .json root => Careful strict (loadCharacter root)

structure Tidy (strict : Prop) (g : Server) : Prop where
  session : ∀ d, TidySession strict (g.blocks d)
  outbox : ∀ d, Sound strict (g.blocks d).outbox
  hub : TidyHub strict g.grid
  disk : ∀ key file, g.disk key = some file → TidyFile strict file

inductive Json.Holds (b : Bytes) : Json → Prop
  | here : Holds b (.str b)
  | item {items : List Json} {x : Json} : x ∈ items → Holds b x → Holds b (.arr items)
  | field {fields : List (Bytes × Json)} {key : Bytes} {x : Json} :
      (key, x) ∈ fields → Holds b x → Holds b (.obj fields)

def CleanJson (strict : Prop) (j : Json) : Prop := ∀ b, j.Holds b → Clean strict b

def handoffText (row : WorldRow) : Text :=
  fmtGridTravelHandoff (raw row.id) (raw row.url) (escaped 64 row.id) (escaped 176 row.url)

inductive Offered (env : Env) : WorldRow → Prop
  | hub (n : Nat) (rows : List Json) (row : Json) :
      env.rpc n (str "listWorlds") [] = some (.arr rows) → row ∈ rows → Offered env (worldRow row)
  | own (at_ms : Int) :
      Offered env ⟨safeCopy 48 (bootName env), safeCopy 160 env.worldUrl, at_ms⟩

/-- What strict asks of the world outside: its texts have no line ends, no file is half
read or half written, no register is clobbered, and no handoff overruns its buffer. -/
structure Outside (strict : Prop) (env : Env) : Prop where
  world : Clean strict env.worldName
  url : Clean strict env.worldUrl
  hub : ∀ n method params answer, env.rpc n method params = some answer → CleanJson strict answer
  torn : ∀ n left, env.writing n = .torn left → TidyFile strict left
  short : ∀ n seen, env.reading n = .short seen → TidyFile strict seen
  steady : strict → ∀ n, env.clobbers n = false
  handoff : strict → ∀ row, Offered env row → (handoffText row).length < 512

theorem named_clean {name : Bytes} (named : Named strict name) : Clean strict name := by
  intro on b member
  refine break_below ?_
  have h := named on b member
  simp only [nameByte, Bool.or_eq_true, Bool.and_eq_true, decide_eq_true_eq, beq_iff_eq,
    UInt8.le_iff_toNat_le, UInt8.reduceToNat] at h
  rcases h with (((h | h) | h) | rfl) | rfl
  · omega
  · omega
  · omega
  · decide
  · decide

theorem name_no_at {b : UInt8} (named : nameByte b = true) : b ≠ atSign := by
  rintro rfl
  exact absurd named (by decide)

theorem sound_name {name : Bytes} (named : Named strict name) : Sound strict (raw name) := by
  intro on before cell after split _
  have member : cell ∈ raw name := by simp [split]
  obtain ⟨b, there, rfl⟩ := List.mem_map.mp member
  exact ⟨named_clean named on b there, fun _ => name_no_at (named on b there)⟩

theorem TidySession.clean_name {s : Session} (tidy : TidySession strict s) : Clean strict s.name :=
  named_clean tidy.name

theorem clean_safe_copy {b : Bytes} (cap : Nat) (clean : Clean strict b) :
    Clean strict (safeCopy cap b) :=
  clean_take _ (clean_cstr clean)

theorem careful_comp {f h : Character → Character} (first : Careful strict f)
    (second : Careful strict h) : Careful strict fun ch => h (f ch) :=
  fun ch tidy => second (f ch) (first ch tidy)

section Answers

theorem clean_member {fields : List (Bytes × Json)} {key : Bytes} {value : Json}
    (clean : CleanJson strict (.obj fields)) (found : (Json.obj fields).item key = some value) :
    CleanJson strict value := by
  simp only [Json.item, Option.map_eq_some_iff] at found
  obtain ⟨⟨name, _⟩, there, rfl⟩ := found
  exact fun b held => clean b (.field (List.mem_of_find?_eq_some there) held)

theorem clean_json_str {row : Json} (clean : CleanJson strict row) (key : String) :
    Clean strict (jsonStr row key) := by
  unfold jsonStr
  cases found : row.item (str key) with
  | none => exact clean_nil
  | some value =>
    cases row with
    | obj fields =>
      cases value with
      | str b => exact clean_member clean found b .here
      | _ => exact clean_nil
    | _ => cases found

theorem clean_rows {answer : Option Json} {rows : List Json}
    (clean : ∀ j, answer = some j → CleanJson strict j) (listed : rpcRows answer = some rows) :
    ∀ row ∈ rows, CleanJson strict row := by
  intro row member
  unfold rpcRows at listed
  split at listed
  · cases listed
    exact fun b held => clean _ rfl b (.item member held)
  · cases listed

theorem tidy_trace_row {row : Json} (clean : CleanJson strict row) :
    TidyTrace strict (traceRow row) where
  world := clean_safe_copy 48 (clean_json_str clean "world")
  node := clean_safe_copy 64 (clean_json_str clean "node")
  kind := clean_safe_copy 24 (clean_json_str clean "kind")
  text := clean_safe_copy 200 (clean_json_str clean "text")

theorem tidy_fallen_row {row : Json} (key : String) (cap : Nat) (clean : CleanJson strict row) :
    TidyFallen strict (fallenRow key cap row) where
  world := clean_safe_copy 48 (clean_json_str clean "world")
  name := clean_safe_copy 33 (clean_json_str clean "name")
  third := clean_safe_copy cap (clean_json_str clean key)

theorem tidy_copy_row {row : Fallen} (cap : Nat) (tidy : TidyFallen strict row) :
    TidyFallen strict (copyRow cap row) where
  world := tidy.world
  name := clean_safe_copy 33 tidy.name
  third := clean_safe_copy cap tidy.third

end Answers

section Hub

variable {h : LocalHub}

theorem tidy_take {α : Type} {P : α → Prop} {rows : List α} {row : α} (n : Nat) (first : P row)
    (rest : ∀ x ∈ rows, P x) : ∀ x ∈ (row :: rows).take n, P x := by
  intro x member
  rcases List.mem_cons.mp (List.mem_of_mem_take member) with rfl | later
  · exact first
  · exact rest x later

theorem tidy_record {world node kind text : Bytes} (at_ms : Int) (tidy : TidyHub strict h)
    (w : Clean strict world) (n : Clean strict node) (k : Clean strict kind)
    (t : Clean strict text) : TidyHub strict (h.record world node kind text at_ms) where
  traces := tidy_take maxTraces
    ⟨clean_safe_copy 48 w, clean_safe_copy 64 n, clean_safe_copy 24 k, clean_safe_copy 200 t⟩
    tidy.traces
  echo := tidy.echo
  rescued := tidy.rescued
  fallen := tidy.fallen

theorem tidy_echo {node kind text : Bytes} (at_ms : Int) (tidy : TidyHub strict h)
    (n : Clean strict node) (k : Clean strict kind) (t : Clean strict text) :
    TidyHub strict (h.recordEcho node kind text at_ms) where
  traces := tidy.traces
  echo := tidy_take maxEcho
    ⟨clean_nil, clean_safe_copy 64 n, clean_safe_copy 24 k, clean_safe_copy 200 t⟩ tidy.echo
  rescued := tidy.rescued
  fallen := tidy.fallen

theorem tidy_fallen {world name room : Bytes} (at_ms : Int) (tidy : TidyHub strict h)
    (w : Clean strict world) (n : Clean strict name) (r : Clean strict room) :
    TidyHub strict (h.recordFallen world name room at_ms) where
  traces := tidy.traces
  echo := tidy.echo
  rescued := tidy.rescued
  fallen := tidy_take 200 ⟨clean_safe_copy 48 w, clean_safe_copy 40 n, clean_safe_copy 32 r⟩
    tidy.fallen

theorem tidy_rescued {world name savedBy : Bytes} (at_ms : Int) (tidy : TidyHub strict h)
    (w : Clean strict world) (n : Clean strict name) (s : Clean strict savedBy) :
    TidyHub strict (h.recordRescued world name savedBy at_ms) := by
  have rows : ∀ row ∈ (⟨safeCopy 48 world, safeCopy 40 name, safeCopy 40 savedBy, at_ms⟩ ::
      h.rescued).take 200, TidyFallen strict row :=
    tidy_take 200 ⟨clean_safe_copy 48 w, clean_safe_copy 40 n, clean_safe_copy 40 s⟩ tidy.rescued
  have text : Clean strict (safeCopy 256 (name ++ str " freed by " ++ savedBy)) :=
    clean_safe_copy 256 (clean_append (clean_append n (clean_str _ rfl)) s)
  exact tidy_record at_ms ⟨tidy.traces, tidy.echo, rows, tidy.fallen⟩ w (clean_str _ rfl)
    (clean_str _ rfl) text

theorem tidy_prune (tidy : TidyHub strict h) : TidyHub strict h.prune where
  traces := fun t member => tidy.traces t (List.mem_of_mem_filter member)
  echo := tidy.echo
  rescued := tidy.rescued
  fallen := tidy.fallen

theorem tidy_recent {limit : Int} {cap : Nat} {rows : List Fallen}
    (tidy : ∀ row ∈ rows, TidyFallen strict row) :
    ∀ row ∈ LocalHub.recent limit cap rows, TidyFallen strict row :=
  fun row member => tidy row (List.mem_of_mem_take (List.mem_of_mem_take member))

theorem clean_ledger_rows {cap : Nat} {rows : List (Bytes × Int)} {traces : List Trace}
    (known : ∀ row ∈ rows, Clean strict row.1) (tidy : ∀ t ∈ traces, TidyTrace strict t) :
    ∀ row ∈ LocalHub.ledgerRows cap rows traces, Clean strict row.1 := by
  induction traces generalizing rows with
  | nil => exact known
  | cons t rest ih =>
    have later : ∀ u ∈ rest, TidyTrace strict u := fun u member => tidy u (by simp [member])
    unfold LocalHub.ledgerRows
    split
    · refine ih (fun row member => ?_) later
      obtain ⟨old, there, rfl⟩ := List.mem_map.mp member
      have clean := known old there
      split <;> exact clean
    · split
      · exact ih known later
      · refine ih (fun row member => ?_) later
        rcases List.mem_append.mp member with old | new
        · exact known row old
        · obtain rfl := List.mem_singleton.mp new
          exact clean_safe_copy 32 (tidy t List.mem_cons_self).kind

end Hub

end HollowGrid
