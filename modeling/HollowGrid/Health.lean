import HollowGrid.Panels
import HollowGrid.Hub

/-! The pages that ffi/lws_shim.c serves beside the socket. -/
namespace HollowGrid

open JsonText

structure Response where
  status : Nat
  contentType : Bytes
  body : Bytes
  deriving DecidableEq

def healthText (now : Int) (world : Bytes) : Bytes :=
  str "\x7b\"ok\":true,\"ts\":" ++ decimal now ++ str ",\"world\":\"" ++ world ++ str "\"\x7d"

def deepText (now : Int) (world : Bytes) (gridOk : Bool) (gridLatency : Int) : Bytes :=
  str "\x7b\"ok\":true,\"ts\":" ++ decimal now ++ str ",\"world\":\"" ++ world ++
    str "\",\"checks\":\x7b" ++
    str "\"world\":\x7b\"ok\":true,\"latency_ms\":0,\"critical\":true\x7d," ++
    str "\"grid_hub\":\x7b\"ok\":" ++ (if gridOk then str "true" else str "false") ++
    str ",\"latency_ms\":" ++ decimal gridLatency ++ str ",\"critical\":false\x7d\x7d\x7d"

def mapSvg : Bytes :=
  str "<svg xmlns=\"http://www.w3.org/2000/svg\" width=\"640\" " ++
    str "height=\"160\"><rect width=\"100%\" height=\"100%\" " ++
    str "fill=\"#111318\"/><text x=\"24\" y=\"42\" fill=\"#c6cbd3\" " ++
    str "font-family=\"monospace\" font-size=\"20\">Basalt Relay</text>" ++
    str "<text x=\"24\" y=\"84\" fill=\"#87909c\" " ++
    str "font-family=\"monospace\">nexus - workshop - roof - relay-cut" ++
    str "</text></svg>"

/-- hg_grid_health: whether a call of the hub answers, and after how long. -/
def gridHealth (env : Env) : Act (Bool × Int) :=
  if env.remote then do
    let start ← nowMs env
    let result ← rpcCall env "tide" []
    let ended ← nowMs env
    return (result.isSome, ended - start)
  else pure (true, 0)

/-- handle_http, with active_world and the texts cut to body. -/
def handleHttp (env : Env) (activeWorld path : Bytes) : Act Response := do
  let now ← nowMs env
  if path = str "/health" then
    return ⟨200, str "application/json", (healthText now (cstr activeWorld)).take 511⟩
  else if path = str "/health/deep" then do
    let grid ← gridHealth env
    return ⟨200, str "application/json",
      (deepText now (cstr activeWorld) grid.1 grid.2).take 511⟩
  else if path = str "/map.svg" then
    return ⟨200, str "image/svg+xml", mapSvg⟩
  else
    return ⟨404, str "application/json",
      str "\x7b\"ok\":false,\"error\":\"not found\"\x7d"⟩

def healthValue (now : Int) (world : Bytes) : Value :=
  .obj [(str "ok", .bool true), (str "ts", .num now), (str "world", .str world)]

def deepValue (now : Int) (world : Bytes) (gridOk : Bool) (gridLatency : Int) : Value :=
  .obj [(str "ok", .bool true), (str "ts", .num now), (str "world", .str world),
    (str "checks", .obj [
      (str "world", .obj [(str "ok", .bool true), (str "latency_ms", .num 0),
        (str "critical", .bool true)]),
      (str "grid_hub", .obj [(str "ok", .bool gridOk), (str "latency_ms", .num gridLatency),
        (str "critical", .bool false)])])]

section Pages

variable {now latency : Int} {world : Bytes} {ok : Bool}

/-- What a string is read as takes no more bytes than were read, and as many only where each
stands for itself. -/
theorem read_string_length (text : Bytes) : ∀ b rest, readString text = some (b, rest) →
    b.length + rest.length + 1 ≤ text.length ∧
      (b.length + rest.length + 1 = text.length → ∀ x ∈ b, plainByte x = true) := by
  induction text using readString.induct with
  | case1 =>
    intro b rest read
    simp [readString] at read
  | case2 rest' =>
    intro b rest read
    simp only [readString, Option.some.injEq, Prod.mk.injEq] at read
    obtain ⟨rfl, rfl⟩ := read
    exact ⟨by simp, fun _ x member => absurd member List.not_mem_nil⟩
  | case3 high low rest' ih =>
    intro b rest read
    rw [readString, Option.bind_eq_some_iff] at read
    obtain ⟨x, _, read⟩ := read
    obtain ⟨⟨b', rest''⟩, tail, same⟩ := Option.map_eq_some_iff.mp read
    cases same
    have shorter := (ih _ _ tail).1
    simp only [List.length_cons]
    exact ⟨by omega, fun full => by omega⟩
  | case4 letter rest' unlike ih =>
    intro b rest read
    rw [readString, Option.bind_eq_some_iff] at read
    · obtain ⟨x, _, read⟩ := read
      obtain ⟨⟨b', rest''⟩, tail, same⟩ := Option.map_eq_some_iff.mp read
      cases same
      have shorter := (ih _ _ tail).1
      simp only [List.length_cons]
      exact ⟨by omega, fun full => by omega⟩
    · exact unlike
  | case5 x rest' quote code letter low =>
    intro b rest read
    rw [readString, if_pos low] at read
    · cases read
    · exact quote
    · exact code
    · exact letter
  | case6 x rest' quote code letter visible ih =>
    intro b rest read
    rw [readString, if_neg visible] at read
    · obtain ⟨⟨b', rest''⟩, tail, same⟩ := Option.map_eq_some_iff.mp read
      cases same
      obtain ⟨shorter, plain⟩ := ih _ _ tail
      simp only [List.length_cons]
      refine ⟨by omega, fun full y member => ?_⟩
      rcases List.mem_cons.mp member with rfl | inside
      · have no_slash : y ≠ 92 := by
          rintro rfl
          cases rest' with
          | nil => simp [readString] at tail
          | cons z rest' => exact letter z rest' rfl rfl
        simp only [plainByte, Bool.and_eq_true, decide_eq_true_eq, bne_iff_ne]
        exact ⟨⟨UInt8.not_lt.mp visible, quote⟩, no_slash⟩
      · exact plain (by omega) y inside
    · exact quote
    · exact code
    · exact letter

section Lists

variable {α : Type} {read : Bytes → Option (α × Bytes)} {closing : UInt8} {text rest : Bytes}

theorem list_next {a : α} (first : read text = some (a, 44 :: rest)) (fuel : Nat) :
    readList read closing (fuel + 1) text =
      (readList read closing fuel rest).map fun p => (a :: p.1, p.2) := by
  rw [readList, first]
  rfl

theorem list_filled {l : List α} (fuel : Nat)
    (read_all : readList read closing fuel text = some (l, rest)) : l ≠ [] := by
  cases fuel with
  | zero => cases read_all
  | succ fuel =>
    rw [readList, Option.bind_eq_some_iff] at read_all
    obtain ⟨first, _, ends⟩ := read_all
    split at ends
    · obtain ⟨p, _, same⟩ := Option.map_eq_some_iff.mp ends
      cases same
      exact List.cons_ne_nil _ _
    · split at ends
      · cases ends
        exact List.cons_ne_nil _ _
      · cases ends
    · cases ends

theorem list_last {a : α} (fuel : Nat)
    (read_all : readList read closing fuel text = some ([a], rest)) :
    read text = some (a, closing :: rest) := by
  cases fuel with
  | zero => cases read_all
  | succ fuel =>
    rw [readList, Option.bind_eq_some_iff] at read_all
    obtain ⟨⟨b, behind⟩, first, ends⟩ := read_all
    dsimp only at ends
    split at ends
    · obtain ⟨p, others, same⟩ := Option.map_eq_some_iff.mp ends
      have none_left : p.1 = [] := (List.cons.inj (Prod.mk.inj same).1).2
      exact absurd none_left (list_filled fuel others)
    · rename_i x more _
      split_ifs at ends with close
      cases ends
      rw [first, close]
    · cases ends

end Lists

def healthFront (now : Int) : Bytes :=
  123 :: ((boolMember "ok" true).body ++ 44 :: ((numberMember "ts" now).body ++
    44 :: (34 :: str "world" ++ [34, 58, 34])))

theorem health_front (now : Int) (world : Bytes) :
    healthText now world = healthFront now ++ (world ++ [34, 125]) := by
  simp [healthText, healthFront, str, Member.body, boolMember, numberMember]

theorem front_short (word : -2 ^ 63 ≤ now ∧ now < 2 ^ 63) : (healthFront now).length ≤ 511 := by
  have digits := decimal_length word
  simp [healthFront, str, Member.body, boolMember, numberMember]
  omega

theorem bool_good {key : String} (named : Quotable (str key)) (b : Bool) :
    (boolMember key b).Good 1 := by
  refine ⟨named.plain, ?_⟩
  cases b
  · exact prints_false
  · exact prints_true

theorem number_good {key : String} (named : Quotable (str key)) (n : Int) :
    (numberMember key n).Good 1 := ⟨named.plain, prints_number n⟩

theorem ok_good : (boolMember "ok" true).Good 1 := bool_good (by decide) true

theorem ts_good (now : Int) : (numberMember "ts" now).Good 1 := number_good (by decide) now

theorem world_good (plain : ∀ x ∈ world, plainByte x = true) :
    (stringMember "world" world).Good 1 :=
  ⟨(by decide : Quotable (str "world")).plain, prints_string (spells_plain plain)⟩

/-- A page that is read as it is meant has the world's name between its quotes. -/
theorem front_read {back : Bytes}
    (parsed : JsonText.parse (healthFront now ++ back) = some (healthValue now world)) :
    readString back = some (world, [125]) := by
  have stops (b : Bytes) : Stops (44 :: b) := stops_cons b (by decide)
  unfold JsonText.parse at parsed
  split at parsed
  · rename_i v read
    cases parsed
    obtain ⟨fuel, size⟩ : ∃ k, (healthFront now ++ back).length = k + 3 := by
      refine ⟨(healthFront now ++ back).length - 3, ?_⟩
      have long : 3 ≤ (healthFront now ++ back).length := by
        simp only [healthFront, Member.body, List.length_append, List.length_cons]
        omega
      omega
    rw [size] at read
    obtain ⟨tail, quoted⟩ : ∃ tail, healthFront now ++ back = 123 :: 34 :: tail :=
      ⟨_, by simp [healthFront, Member.body]; rfl⟩
    have last : 34 :: tail = (boolMember "ok" true).body ++ 44 :: ((numberMember "ts" now).body ++
        44 :: (34 :: str "world" ++ 34 :: 58 :: 34 :: back)) := by
      have same := quoted
      simp [healthFront] at same
      simpa using same.symm
    rw [quoted] at read
    change (readList (readMember (readValue (fuel + 3))) 125 (fuel + 3) (34 :: tail)).map _ = _
      at read
    have first := @read_member 1 (fuel + 3) _ ok_good (by omega) _ (stops
      ((numberMember "ts" now).body ++ 44 :: (34 :: str "world" ++ 34 :: 58 :: 34 :: back)))
    have second := @read_member 1 (fuel + 3) _ (ts_good now) (by omega) _ (stops
      (34 :: str "world" ++ 34 :: 58 :: 34 :: back))
    rw [last, list_next first, list_next second] at read
    obtain ⟨members, listed, same⟩ := Option.map_eq_some_iff.mp read
    obtain ⟨members', listed', rfl⟩ := Option.map_eq_some_iff.mp listed
    obtain ⟨⟨found, rest⟩, third, rfl⟩ := Option.map_eq_some_iff.mp listed'
    cases same
    have member := list_last _ third
    have key := spells_plain (by decide : Quotable (str "world")).plain (58 :: 34 :: back)
    simp only [List.cons_append, readMember, key, Option.bind_some] at member
    change ((readString back).map _).map _ = _ at member
    obtain ⟨value, valued, same⟩ := Option.map_eq_some_iff.mp member
    obtain ⟨⟨b, behind⟩, string, rfl⟩ := Option.map_eq_some_iff.mp valued
    cases same
    exact string
  · cases parsed

/-- A page is what it should be exactly where its world's name needs no escape and all of it
fits. -/
theorem health_parses (word : -2 ^ 63 ≤ now ∧ now < 2 ^ 63) :
    JsonText.parse ((healthText now world).take 511) = some (healthValue now world) ↔
      (∀ x ∈ world, plainByte x = true) ∧ (healthText now world).length ≤ 511 := by
  have front := front_short word
  have size : (healthText now world).length = (healthFront now).length + (world.length + 2) := by
    rw [health_front, List.length_append, List.length_append]
    rfl
  constructor
  · intro parsed
    rw [health_front, List.take_append, List.take_of_length_le front] at parsed
    obtain ⟨short, plain⟩ := read_string_length _ _ _ (front_read parsed)
    simp only [List.length_take, List.length_append, List.length_cons, List.length_nil]
      at short plain
    exact ⟨plain (by omega), by omega⟩
  · rintro ⟨plain, fits⟩
    have members : healthText now world =
        objectText [boolMember "ok" true, numberMember "ts" now, stringMember "world" world] := by
      simp [healthText, str, objectText, Member.body, boolMember, numberMember, stringMember]
    rw [List.take_of_length_le fits, members]
    refine parse_prints (prints_object (n := 1) (by simp) ?_) ?_
    · intro m member
      simp only [List.mem_cons, List.not_mem_nil, or_false] at member
      rcases member with rfl | rfl | rfl
      · exact ok_good
      · exact ts_good now
      · exact world_good plain
    · rw [← members, size]
      have long : 3 ≤ (healthFront now).length := by
        simp only [healthFront, Member.body, List.length_append, List.length_cons]
        omega
      simp only [List.length_cons, List.length_nil]
      omega

def objectMember (key : String) (members : List Member) : Member :=
  ⟨str key, objectText members, .obj (members.map fun m => (m.key, m.value))⟩

def checkMembers (ok : Bool) (latency : Int) (critical : Bool) : List Member :=
  [boolMember "ok" ok, numberMember "latency_ms" latency, boolMember "critical" critical]

def checksMembers (ok : Bool) (latency : Int) : List Member :=
  [objectMember "world" (checkMembers true 0 true),
    objectMember "grid_hub" (checkMembers ok latency false)]

theorem object_good {n wide : Nat} {key : String} {members : List Member}
    (named : Quotable (str key)) (some_member : members ≠ []) (good : ∀ m ∈ members, m.Good n)
    (narrow : max n members.length + 1 ≤ wide) : (objectMember key members).Good wide :=
  ⟨named.plain, prints_more (prints_object some_member good) narrow⟩

theorem check_good (ok : Bool) (latency : Int) (critical : Bool) :
    ∀ m ∈ checkMembers ok latency critical, m.Good 1 := by
  intro m member
  simp only [checkMembers, List.mem_cons, List.not_mem_nil, or_false] at member
  rcases member with rfl | rfl | rfl
  · exact bool_good (by decide) ok
  · exact number_good (by decide) latency
  · exact bool_good (by decide) critical

theorem checks_good (ok : Bool) (latency : Int) : ∀ m ∈ checksMembers ok latency, m.Good 4 := by
  intro m member
  simp only [checksMembers, List.mem_cons, List.not_mem_nil, or_false] at member
  rcases member with rfl | rfl
  · exact object_good (by decide) (List.cons_ne_nil _ _) (check_good true 0 true) (by decide)
  · exact object_good (by decide) (List.cons_ne_nil _ _) (check_good ok latency false)
      (by simp [checkMembers])

/-- The deep page too is what it should be where its world's name needs no escape and all of it
fits. -/
theorem deep_parses (plain : ∀ x ∈ world, plainByte x = true)
    (fits : (deepText now world ok latency).length ≤ 511) :
    JsonText.parse ((deepText now world ok latency).take 511) =
      some (deepValue now world ok latency) := by
  have members : deepText now world ok latency =
      objectText [boolMember "ok" true, numberMember "ts" now, stringMember "world" world,
        objectMember "checks" (checksMembers ok latency)] := by
    have nought : decimal 0 = [48] := by decide
    cases ok <;> simp [deepText, str, objectText, Member.body, boolMember, numberMember,
      stringMember, objectMember, checksMembers, checkMembers, nought]
  have within : (objectMember "checks" (checksMembers ok latency)).Good 5 :=
    object_good (by decide) (List.cons_ne_nil _ _) (checks_good ok latency)
      (by simp [checksMembers])
  rw [List.take_of_length_le fits, members]
  refine parse_prints (prints_object (n := 5) (by simp) ?_) ?_
  · intro m member
    simp only [List.mem_cons, List.not_mem_nil, or_false] at member
    rcases member with rfl | rfl | rfl | rfl
    · exact ⟨ok_good.key, prints_more ok_good.text (by decide)⟩
    · exact ⟨(ts_good now).key, prints_more (ts_good now).text (by decide)⟩
    · exact ⟨(world_good plain).key, prints_more (world_good plain).text (by decide)⟩
    · exact within
  · simp [objectText, Member.body]
    omega

/-- What the hub is found to be by a request that asks when the node has asked n times. -/
def hubFound (env : Env) (n : Nat) : Bool × Int :=
  if env.remote then ((env.rpc (n + 1) (str "tide") []).isSome, env.now (n + 2) - env.now n)
  else (true, 0)

theorem grid_health_found (env : Env) (g : Server) :
    ∃ n, gridHealth env g = .ok (hubFound env g.asked, { g with asked := n }) := by
  unfold gridHealth hubFound
  split
  · rename_i remote
    refine ⟨g.asked + 3, ?_⟩
    simp only [rpcCall, remote, if_true]
    rfl
  · exact ⟨g.asked, rfl⟩

end Pages

/-- A request changes nothing of the world. What /health tells is the node's name and time
exactly where the name needs no escape and the page fits; the deep page tells of the hub too. -/
theorem pages_told (env : Env) (activeWorld path : Bytes) (g : Server)
    (word : ∀ n, -2 ^ 63 ≤ env.now n ∧ env.now n < 2 ^ 63) :
    ∃ r n, handleHttp env activeWorld path g = .ok (r, { g with asked := n }) ∧
      (r.status = 200 ↔ path = str "/health" ∨ path = str "/health/deep" ∨ path = str "/map.svg") ∧
      (path = str "/health" →
        (JsonText.parse r.body = some (healthValue (env.now g.asked) (cstr activeWorld)) ↔
          (∀ x ∈ cstr activeWorld, plainByte x = true) ∧
            (healthText (env.now g.asked) (cstr activeWorld)).length ≤ 511)) ∧
      (path = str "/health/deep" → (∀ x ∈ cstr activeWorld, plainByte x = true) →
        (deepText (env.now g.asked) (cstr activeWorld) (hubFound env (g.asked + 1)).1
          (hubFound env (g.asked + 1)).2).length ≤ 511 →
        JsonText.parse r.body = some (deepValue (env.now g.asked) (cstr activeWorld)
          (hubFound env (g.asked + 1)).1 (hubFound env (g.asked + 1)).2)) := by
  have deep_other : str "/health/deep" ≠ str "/health" := by decide
  have map_other : str "/map.svg" ≠ str "/health" ∧ str "/map.svg" ≠ str "/health/deep" := by decide
  have clock : nowMs env g = .ok (env.now g.asked, { g with asked := g.asked + 1 }) := rfl
  unfold handleHttp
  rw [bind_ok clock]
  by_cases shallow : path = str "/health"
  · subst shallow
    refine ⟨_, _, rfl, by simp, fun _ => health_parses (word _), fun deep => ?_⟩
    exact absurd deep.symm deep_other
  · rw [if_neg shallow]
    by_cases deep : path = str "/health/deep"
    · subst deep
      obtain ⟨n, found⟩ := grid_health_found env { g with asked := g.asked + 1 }
      rw [if_pos rfl, bind_ok found]
      exact ⟨_, _, rfl, by simp, fun same => absurd same deep_other, fun _ => deep_parses⟩
    · rw [if_neg deep]
      by_cases drawn : path = str "/map.svg"
      · subst drawn
        rw [if_pos rfl]
        exact ⟨_, _, rfl, by simp, fun same => absurd same map_other.1,
          fun same => absurd same map_other.2⟩
      · rw [if_neg drawn]
        exact ⟨_, _, rfl, by simp [shallow, deep, drawn], fun same => absurd same shallow,
          fun same => absurd same deep⟩

theorem pages_told_relay : ∃ r n, handleHttp quietNode (str "Basalt Relay") (str "/health")
      (boot quietNode sharedDisk) = .ok (r, { boot quietNode sharedDisk with asked := n }) ∧
    JsonText.parse r.body = some (healthValue 0 (cstr (str "Basalt Relay"))) := by
  have word : -2 ^ 63 ≤ (0 : Int) ∧ (0 : Int) < 2 ^ 63 := by decide
  obtain ⟨r, n, served, _, shallow, _⟩ := pages_told quietNode (str "Basalt Relay")
    (str "/health") (boot quietNode sharedDisk) fun _ => word
  exact ⟨r, n, served, (shallow rfl).mpr (by decide +kernel)⟩

end HollowGrid
