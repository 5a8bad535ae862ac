import HollowGrid.Replies
import HollowGrid.Parts

/-! What the commands of play and the heartbeat change: the characters and fights of the
sessions in play, the files of their names, and the tables of the world. -/
namespace HollowGrid

namespace Server

/-- What one save leaves behind. -/
def saved (g : Server) (env : Env) (c : Block) : Server :=
  match characterPath (g.blocks c).name with
  | none => g
  | some key =>
    let asking : Server := { g with asked := g.asked + 1 }
    match env.writing g.asked with
    | .whole => asking.onDisk key (.json (characterRecord (g.blocks c)))
    | .fails => asking
    | .torn left => asking.onDisk key left

end Server

theorem store_save_run (env : Env) (c : Block) (g : Server) :
    storeSave env c g = .ok ((), g.saved env c) := by
  unfold storeSave Server.saved
  rw [bind_ok (rfl : session c g = .ok (g.blocks c, g))]
  cases characterPath (g.blocks c).name with
  | none => rfl
  | some key =>
    change (ask env.writing >>= _) g = _
    rw [bind_ok (rfl : ask env.writing g = .ok (env.writing g.asked, { g with asked := g.asked + 1 }))]
    cases env.writing g.asked <;> rfl

abbrev Disk := Bytes → Option File

def Saves (env : Env) (s : Session) (disk disk' : Disk) : Prop :=
  disk' = disk ∨ ∃ key file, characterPath s.name = some key ∧
    disk' = Function.update disk key (some file) ∧
    (file = .json (characterRecord s) ∨ ∃ n, env.writing n = .torn file)

theorem saved_disk (env : Env) (c : Block) (g : Server) : ∃ disk' asked,
    Saves env (g.blocks c) g.disk disk' ∧ g.saved env c = { g with disk := disk', asked := asked } := by
  unfold Server.saved
  cases path : characterPath (g.blocks c).name with
  | none => exact ⟨g.disk, g.asked, .inl rfl, rfl⟩
  | some key =>
    cases writes : env.writing g.asked with
    | whole => exact ⟨_, _, .inr ⟨key, _, path, rfl, .inl rfl⟩, rfl⟩
    | fails => exact ⟨g.disk, _, .inl rfl, rfl⟩
    | torn left => exact ⟨_, _, .inr ⟨key, _, path, rfl, .inr ⟨g.asked, writes⟩⟩, rfl⟩

section Records

variable {strict : Prop}

theorem clean_json_string {root : Json} {key dest : Bytes} {cap : Nat} (old : Clean strict dest)
    (clean : ∀ b, (root.item key).bind Json.stringValue = some b → Clean strict b) :
    Clean strict (jsonString root key dest cap) := by
  unfold jsonString
  split
  · rename_i text found
    exact clean_take _ (clean_cstr (clean text found))
  · exact old

theorem record_inventory {s : Session} (tidy : TidySession strict s) :
    ∀ item ∈ loadInventory (characterRecord s), Clean strict item := by
  have listed : (characterRecord s).item (str "inventory") =
      some (.arr (((s.inventory.take invSlots).filter (· ≠ [])).map Json.str)) := rfl
  intro item member
  simp only [loadInventory, listed, Json.children] at member
  obtain ⟨text, kept, rfl⟩ := List.mem_map.mp member
  obtain ⟨value, there, found⟩ := List.mem_filterMap.mp (List.mem_of_mem_take kept)
  obtain ⟨old, carried, rfl⟩ := List.mem_map.mp there
  cases found
  exact clean_take _ (clean_cstr
    (tidy.inventory text (List.mem_of_mem_take (List.mem_of_mem_filter carried))))

theorem record_tidy {s : Session} (tidy : TidySession strict s) :
    TidyFile strict (.json (characterRecord s)) := by
  have field (key : String) {text : Bytes}
      (there : ((characterRecord s).item (str key)).bind Json.stringValue = some text)
      (clean : Clean strict text) : ∀ b,
      ((characterRecord s).item (str key)).bind Json.stringValue = some b → Clean strict b := by
    intro b found
    rw [there] at found
    cases found
    exact clean
  intro ch old
  refine { old with race := ?_, faction := ?_, position := ?_, title := ?_, weapon := ?_,
                    inventory := ?_ }
  · exact clean_json_string old.race (field "race" rfl tidy.race)
  · exact clean_json_string old.faction (field "faction" rfl tidy.faction)
  · exact clean_json_string old.position (field "position" rfl tidy.position)
  · exact clean_json_string old.title (field "title" rfl tidy.title)
  · exact clean_json_string old.weapon (field "weapon" rfl tidy.weapon)
  · exact record_inventory tidy

theorem saves_tidy {env : Env} (outside : Outside strict env) {s : Session} {disk disk' : Disk}
    (tidy : TidySession strict s) (before : ∀ key file, disk key = some file → TidyFile strict file)
    (saves : Saves env s disk disk') :
    ∀ key file, disk' key = some file → TidyFile strict file := by
  rcases saves with rfl | ⟨key, left, _, rfl, wrote⟩
  · exact before
  · intro other file found
    by_cases same : other = key
    · subst same
      rw [Function.update_self] at found
      cases found
      rcases wrote with rfl | ⟨n, torn⟩
      · exact record_tidy tidy
      · exact outside.torn n _ torn
    · rw [Function.update_of_ne same] at found
      exact before other file found

end Records

theorem Watches.hashes {strict : Prop} {env : Env} {E : Fault → Prop} {I : Server → Prop}
    (r : Watches strict env E I) (phrase : Bytes) :
    Keeps I E (hashPassphrase env phrase) fun hashed => ∀ hash, hashed = some hash →
      phraseOk phrase = true ∧ ∃ salt, cryptHash env phrase salt = some hash ∧ hash.length < 72 := by
  refine Keeps.ite (fun long => Keeps.bind (r.asks_any env.salt) fun salt _ => Keeps.pure ?_)
    fun _ => Keeps.pure fun hash absurd_some => by cases absurd_some
  intro hash made
  simp only [Option.bind_eq_some_iff, Option.ite_none_left_eq_some, Option.some.injEq] at made
  obtain ⟨_, ⟨setting, _, crypted⟩, short, rfl⟩ := made
  exact ⟨long, setting, crypted, Nat.lt_of_not_le short⟩

/-- What a program over the sessions of T, which writes the parts of may and the tables that
are free, needs of an invariant to keep it. -/
structure Permits (strict : Prop) (env : Env) (E : Fault → Prop) (T : Block → Prop)
    (may : Block → Part → Prop) (free : Table → Prop) (I : Server → Prop) : Prop
    extends Watches strict env E I where
  peers : ∀ g, I g → ∀ d, some d ∈ g.sessionTable → T d
  say : ∀ g d t, I g → T d → Sound strict t → I (g.queued d t)
  close : ∀ g d, I g → T d → I (g.closing d)
  change : ∀ g d f, I g → T d → Careful strict f → Spares (may d) f → I (g.updated d f)
  fight : ∀ g d f, I g → T d → may d .fight → I (g.fought d f)
  socket : ∀ g d wsi, I g → T d → I (g.setWsi d wsi)
  save : ∀ g d, I g → T d → I (g.saved env d)
  world : ∀ g f, I g → SparesWorld free f → I { g with world := f g.world }
  ledger : ∀ g f, I g → SparesLedger free f → I { g with ledger := f g.ledger }
  grid : ∀ g h, I g → TidyHub strict h → I { g with grid := h }

variable {strict : Prop} {env : Env} {E : Fault → Prop} {T : Block → Prop}
  {may : Block → Part → Prop} {free : Table → Prop} {I : Server → Prop}

namespace Permits

variable (p : Permits strict env E T may free I)
include p

theorem reports {d : Block} (peer : T d) : Reports strict env E d I where
  toWatches := p.toWatches
  say := fun g t holds sound => p.say g d t holds peer sound
  close := fun g holds => p.close g d holds peer

theorem seen {d : Block} (there : Seen I d) : T d := by
  obtain ⟨g, holds, member⟩ := there
  exact p.peers g holds d member

theorem tells {d : Block} (peer : T d) {t : Text} (sound : Sound strict t) :
    Keeps I E (queue d t) Any :=
  (p.reports peer).said sound

theorem updates {d : Block} (peer : T d) {f : Character → Character} (careful : Careful strict f)
    (spares : Spares (may d) f) :
    Keeps I E (update d f) Any :=
  Keeps.modify fun g holds => p.change g d f holds peer careful spares

theorem fights {d : Block} (peer : T d) (open_fight : may d .fight) (fight : Fight) :
    Keeps I E (setFight d fight) Any :=
  Keeps.modify fun g holds => p.fight g d fight holds peer open_fight

theorem saves {d : Block} (peer : T d) : Keeps I E (storeSave env d) Any := by
  intro g holds
  rw [store_save_run]
  exact ⟨p.save g d holds peer, trivial⟩

theorem on_world (f : World → World) (spares : SparesWorld free f) :
    Keeps I E (onWorld f) Any :=
  Keeps.modify fun g holds => p.world g f holds spares

theorem on_ledger (f : Ledger → Ledger) (spares : SparesLedger free f) :
    Keeps I E (onLedger f) Any :=
  Keeps.modify fun g holds => p.ledger g f holds spares

theorem on_grid {f : LocalHub → LocalHub} (tidy : ∀ h, TidyHub strict h → TidyHub strict (f h)) :
    Keeps I E (onGrid f) Any :=
  Keeps.modify fun g holds => p.grid g _ holds (tidy _ (p.tidy g holds).hub)

theorem delivers_room (room : Int) (except : Bytes) {t : Text} (sound : Sound strict t) :
    Keeps I E (deliverRoom room t except) Any :=
  Keeps.bind p.lists fun _ found => Keeps.for_each fun d member =>
    keeps_when (p.tells (p.seen (found d member).2) sound)

theorem delivers_all (except : Bytes) {t : Text} (sound : Sound strict t) :
    Keeps I E (deliverAll t except) Any :=
  Keeps.bind p.lists fun _ found => Keeps.for_each fun d member =>
    keeps_when (p.tells (p.seen (found d member).2) sound)

theorem records (at_ms : Int) {world node kind text : Bytes} (w : Clean strict world)
    (n : Clean strict node) (k : Clean strict kind) (t : Clean strict text) :
    Keeps I E (gridRecord env world node kind text at_ms) Any :=
  Keeps.branch (keeps_ignored (p.calls _ _))
    (p.on_grid fun _ tidy => tidy_record at_ms tidy w n k t)

theorem echoes {node kind text : Bytes} (n : Clean strict node) (k : Clean strict kind)
    (t : Clean strict text) : Keeps I E (gridRecordLocalEcho env node kind text) Any :=
  Keeps.bind p.times fun at_ms _ => p.on_grid fun _ tidy => tidy_echo at_ms tidy n k t

theorem inscribes {node name msg : Bytes} (n : Clean strict node) (named : Clean strict name)
    (clean : Clean strict msg) : Keeps I E (gridInscribe env node name msg) Any := by
  have text : Clean strict (safeCopy 240 (name ++ str ": \"" ++ msg ++ str "\"")) :=
    clean_safe_copy 240 (clean_append (clean_append (clean_append named (clean_str _ rfl)) clean)
      (clean_str _ rfl))
  refine Keeps.branch (Keeps.pure trivial) (Keeps.seq (p.echoes n (clean_str _ rfl) text) ?_)
  exact Keeps.bind p.times fun at_ms _ => p.records at_ms p.clean_boot n (clean_str _ rfl) text

theorem rescues (now : Int) {world name savedBy : Bytes} (w : Clean strict world)
    (n : Clean strict name) (s : Clean strict savedBy) :
    Keeps I E (gridRecordRescued env world name savedBy now) Any :=
  Keeps.branch (keeps_ignored (p.calls _ _))
    (p.on_grid fun _ tidy => tidy_rescued now tidy w n s)

theorem kills {room slayer mob : Bytes} (r : Clean strict room) (s : Clean strict slayer)
    (m : Clean strict mob) : Keeps I E (gridOnKill env room slayer mob) Any := by
  have text : Clean strict (safeCopy 256 (slayer ++ str " slew " ++ mob ++ str " here.")) :=
    clean_safe_copy 256 (clean_append (clean_append (clean_append s (clean_str _ rfl)) m)
      (clean_str _ rfl))
  refine Keeps.bind p.times fun at_ms _ => Keeps.seq ?_ ?_
  · exact p.records at_ms p.clean_boot r (clean_str _ rfl) text
  · exact p.echoes r (clean_str _ rfl) text

theorem deaths {room name : Bytes} (r : Clean strict room) (n : Clean strict name) :
    Keeps I E (gridOnDeath env room name) Any :=
  Keeps.bind p.times fun at_ms _ => Keeps.branch (keeps_ignored (p.calls _ _))
    (p.on_grid fun _ tidy => tidy_fallen at_ms tidy p.clean_boot n r)

theorem shifts (delta : Int) : Keeps I E (gridShiftTide env delta) Any :=
  Keeps.branch (keeps_ignored (p.calls _ _))
    (p.on_grid fun _ tidy => ⟨tidy.traces, tidy.echo, tidy.rescued, tidy.fallen⟩)

theorem casts (sender text : Bytes) : Keeps I E (gridGridcast env sender text) Any :=
  Keeps.branch (Keeps.bind (p.calls _ _) fun _ _ => Keeps.pure trivial)
    (Keeps.seq (p.on_grid fun _ tidy => ⟨tidy.traces, tidy.echo, tidy.rescued, tidy.fallen⟩)
      (Keeps.pure trivial))

theorem prunes : Keeps I E (gridPruneLedger env) Any :=
  Keeps.branch (Keeps.bind (p.calls _ _) fun _ _ => Keeps.pure trivial)
    (Keeps.bind p.hub fun _ _ => Keeps.seq (p.on_grid fun _ tidy => tidy_prune tidy)
      (Keeps.pure trivial))

end Permits

end HollowGrid
