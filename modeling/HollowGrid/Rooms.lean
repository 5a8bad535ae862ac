import HollowGrid.Server

/-! asm/rooms.asm: the room table and the exits. -/
namespace HollowGrid

def roomNexus : Int := 0
def roomTavern : Int := 1
def roomMarket : Int := 2
def roomHoldingPit : Int := 3
def roomWorkshop : Int := 4
def roomRoof : Int := 5
def roomTunnels : Int := 6
def roomSump : Int := 7
def roomFloodgate : Int := 8
def roomColdrow : Int := 9
def roomCooling : Int := 10
def roomFiber : Int := 11
def roomCoreLab : Int := 12
def roomArchive : Int := 13
def roomDunes : Int := 14
def roomScorchRoad : Int := 15
def roomWaystation : Int := 16
def roomTransitHub : Int := 17
def roomCheckpoint : Int := 18
def roomGate : Int := 19
def roomMuster : Int := 20
def roomCells : Int := 21
def roomWarroom : Int := 22
def roomDais : Int := 23
def roomRelayCut : Int := 24
def roomHandoffBay : Int := 25
def roomCustodyLock : Int := 26
def roomEastRepeater : Int := 27

structure Room where
  id : String
  name : String
  desc : Text
  exits : String
  mobs : Text
  actions : Text

def emptyMobs : Text := lit "[]"

def emptyActions : Text := lit "[]"

def ratMobs : Text := lit r#"[{"id":"rat","name":"a glow-rat"}]"#

def leechMobs : Text := lit r#"[{"id":"leech","name":"a data-leech"}]"#

def raiderMobs : Text := lit r#"[{"id":"raider","name":"a wastes raider"}]"#

def trooperMobs : Text := lit r#"[{"id":"trooper","name":"a Cinder Front trooper"}]"#

def ashmongerMobs : Text := lit r#"[{"id":"ashmonger","name":"the Ashmonger"}]"#

def custodianMobs : Text := lit r#"[{"id":"custodian","name":"the Custodian"}]"#

def actionsNexus : Text :=
  lit r#"[{"verb":"down","label":"descend into the service tunnels","kind":"move"},"# ++
  lit r#"{"verb":"east","label":"enter the workshop","kind":"move"},{"verb":"north","# ++
  lit r#""label":"walk to the market","kind":"move"},{"verb":"west","label":"enter the "# ++
  lit r#"tavern","kind":"move"}]"#

def actionsTunnels : Text :=
  lit r#"[{"verb":"attack rat","label":"attack the glow-rat","kind":"fight"},{"verb":"down","# ++
  lit r#""label":"descend toward the sump","kind":"move"},{"verb":"up","label":"return to "# ++
  lit r#"the nexus","kind":"move"}]"#

def actionsMarket : Text :=
  lit r#"[{"verb":"defend","label":"stand with the people the Front would erase","# ++
  lit r#""kind":"moral","valence":"virtuous"},{"verb":"join","label":"take the Front coin "# ++
  lit r#"and help sort the living","kind":"moral","valence":"grave"},{"verb":"sell","# ++
  lit r#""label":"sell salvage for gold","kind":"economy"},{"verb":"steal","label":"steal "# ++
  lit r#"from the stalls","kind":"economy","valence":"corrupt"}]"#

def actionsTavern : Text :=
  lit r#"[{"verb":"talk","label":"talk to whoever shares your room","kind":"social"},"# ++
  lit r#"{"verb":"buy dust","label":"buy dust: 10 gold a packet (using it heals, but addicts "# ++
  lit r#"and corrupts)","kind":"moral","valence":"corrupt"}]"#

def actionsLock : Text :=
  lit r#"[{"verb":"defend","label":"open the custody line and move people to safety","# ++
  lit r#""kind":"moral","valence":"virtuous"},{"verb":"join","label":"take the Front "# ++
  lit r#"manifest and work the line","kind":"moral","valence":"corrupt"}]"#

def actionsRepeater : Text :=
  lit r#"[{"verb":"witness","label":"preserve the handoff record without alteration","# ++
  lit r#""kind":"moral","valence":"virtuous"}]"#

def rooms : List Room := [
  ⟨"nexus", "Basalt Nexus",
    lit "Black columns hold transfer marks whose senders are gone. Routes lead to a market, " ++
    lit "workshop, tavern, and the service tunnels.",
    r#"["down","east","north","west"]"#, emptyMobs, actionsNexus⟩,
  ⟨"tavern", "The Unsealed Cup",
    lit "A low bar built from relay housings. People come here to forget what they were " ++
    lit "trusted to carry.",
    r#"["east"]"#, emptyMobs, actionsTavern⟩,
  ⟨"market", "The Transfer Market",
    lit "Salvage and sealed cases hang from wire loops. A Cinder Front recruiter offers coin " ++
    lit "for help sorting the living.",
    r#"["north","south"]"#, emptyMobs, actionsMarket⟩,
  ⟨"holding_pit", "The Holding Pit",
    lit "A sunken cell beneath a dead loading rail. Names remain where guards failed to " ++
    lit "paint fast enough.",
    r#"["south"]"#, emptyMobs, emptyActions⟩,
  ⟨"workshop", "The Relay Workshop",
    lit "Hand tools and opened cabinets cover every bench. A ladder climbs to the roof.",
    r#"["up","west"]"#, emptyMobs, emptyActions⟩,
  ⟨"roof", "The Basalt Roof",
    lit "Cut stone plates face a grey sky. The wastes open north and Relay Cut begins east.",
    r#"["down","east","north"]"#, emptyMobs, emptyActions⟩,
  ⟨"tunnels", "Service Tunnels",
    lit "Cable hooks line damp concrete. A luminous rodent watches beneath a broken custody " ++
    lit "seal.",
    r#"["down","up"]"#, ratMobs, actionsTunnels⟩,
  ⟨"sump", "The Black Sump",
    lit "Runoff gathers around old conduit. A shaft continues into submerged machinery.",
    r#"["down","up"]"#, emptyMobs, emptyActions⟩,
  ⟨"floodgate", "The Floodgate",
    lit "A sealed bulkhead groans under pressure. Cold storage waits beyond.",
    r#"["north","up"]"#, emptyMobs, emptyActions⟩,
  ⟨"coldrow", "Cold Storage Row",
    lit "Dead drives sweat condensation while something pale moves between cabinets.",
    r#"["east","north","south"]"#, leechMobs, emptyActions⟩,
  ⟨"cooling", "Cooling Gallery",
    lit "Fans turn without power, pushing stale air through split ducts.",
    r#"["west"]"#, emptyMobs, emptyActions⟩,
  ⟨"fiber", "Fiber Trench",
    lit "Cut bundles cross a trench where every route once had a named owner.",
    r#"["down","south"]"#, emptyMobs, emptyActions⟩,
  ⟨"corelab", "The Core Laboratory",
    lit "A custodian keeps watch over a shard that still answers the Grid.",
    r#"["up","west"]"#, custodianMobs, emptyActions⟩,
  ⟨"archive", "The Dead Archive",
    lit "Shelves of unreadable media preserve custody records without their keepers.",
    r#"["east"]"#, emptyMobs, emptyActions⟩,
  ⟨"dunes", "The Black Powder Flats",
    lit "Dark dust combs itself into ridges. Scorch Road runs east and the Front checkpoint " ++
    lit "stands north.",
    r#"["east","north","south"]"#, emptyMobs, emptyActions⟩,
  ⟨"scorch_road", "Scorch Road",
    lit "Heat lifts from broken tar. A waystation lies east and a transit hub opens south.",
    r#"["east","south","west"]"#, raiderMobs, emptyActions⟩,
  ⟨"waystation", "Refugee Waystation",
    lit "Tarps and water drums shelter people weighing which side each newcomer serves.",
    r#"["west"]"#, emptyMobs, emptyActions⟩,
  ⟨"transit_hub", "The Old Transit Hub",
    lit "Collapsed platforms hold distress banners that nobody came to collect.",
    r#"["north"]"#, emptyMobs, emptyActions⟩,
  ⟨"checkpoint", "The Ash Checkpoint",
    lit "The Cinder Front first wall divides the road and the people on it.",
    r#"["north","south"]"#, emptyMobs, emptyActions⟩,
  ⟨"gate", "The Stronghold Gate",
    lit "Welded scrap forms a narrow throat into the Front yard.",
    r#"["north","south"]"#, emptyMobs, emptyActions⟩,
  ⟨"muster", "The Muster Yard",
    lit "Troopers drill beneath ash banners. Cages stand west and the war room waits north.",
    r#"["north","south","west"]"#, trooperMobs, emptyActions⟩,
  ⟨"cells", "The Holding Cells",
    lit "Iron cages are bolted into concrete. Some are empty. Some are waiting.",
    r#"["east"]"#, emptyMobs, emptyActions⟩,
  ⟨"warroom", "The War Room",
    lit "Maps cover a steel table. The Ashmonger dais opens above.",
    r#"["south","up"]"#, emptyMobs, emptyActions⟩,
  ⟨"dais", "The Ashmonger Dais",
    lit "A platform of welded scrap and ash overlooks the stronghold.",
    r#"["down"]"#, ashmongerMobs, emptyActions⟩,
  ⟨"relay-cut", "Relay Cut",
    lit "A narrow service cut where sealed cases changed hands after supervision ended.",
    r#"["east","north","west"]"#, emptyMobs, emptyActions⟩,
  ⟨"handoff-bay", "Handoff Bay",
    lit "A dead transfer platform offers no witness except the next person who needs it.",
    r#"["south"]"#, emptyMobs, emptyActions⟩,
  ⟨"custody-lock", "Custody Lock",
    lit "The Front records people and cargo on the same manifest.",
    r#"["west"]"#, emptyMobs, actionsLock⟩,
  ⟨"east-repeater", "East Repeater",
    lit "A damaged relay preserves what was forwarded, not what a keeper later claimed.",
    r#"["west"]"#, emptyMobs, actionsRepeater⟩]

def exits : List (Int × String × Int) := [
  (roomNexus, "north", roomMarket),
  (roomNexus, "east", roomWorkshop),
  (roomNexus, "down", roomTunnels),
  (roomNexus, "west", roomTavern),
  (roomTavern, "east", roomNexus),
  (roomMarket, "south", roomNexus),
  (roomMarket, "north", roomHoldingPit),
  (roomHoldingPit, "south", roomMarket),
  (roomWorkshop, "west", roomNexus),
  (roomWorkshop, "up", roomRoof),
  (roomRoof, "down", roomWorkshop),
  (roomRoof, "north", roomDunes),
  (roomRoof, "east", roomRelayCut),
  (roomTunnels, "up", roomNexus),
  (roomTunnels, "down", roomSump),
  (roomSump, "up", roomTunnels),
  (roomSump, "down", roomFloodgate),
  (roomFloodgate, "up", roomSump),
  (roomFloodgate, "north", roomColdrow),
  (roomColdrow, "south", roomFloodgate),
  (roomColdrow, "east", roomCooling),
  (roomColdrow, "north", roomFiber),
  (roomCooling, "west", roomColdrow),
  (roomFiber, "south", roomColdrow),
  (roomFiber, "down", roomCoreLab),
  (roomCoreLab, "up", roomFiber),
  (roomCoreLab, "west", roomArchive),
  (roomArchive, "east", roomCoreLab),
  (roomDunes, "south", roomRoof),
  (roomDunes, "east", roomScorchRoad),
  (roomDunes, "north", roomCheckpoint),
  (roomScorchRoad, "west", roomDunes),
  (roomScorchRoad, "east", roomWaystation),
  (roomScorchRoad, "south", roomTransitHub),
  (roomWaystation, "west", roomScorchRoad),
  (roomTransitHub, "north", roomScorchRoad),
  (roomCheckpoint, "south", roomDunes),
  (roomCheckpoint, "north", roomGate),
  (roomGate, "south", roomCheckpoint),
  (roomGate, "north", roomMuster),
  (roomMuster, "south", roomGate),
  (roomMuster, "west", roomCells),
  (roomMuster, "north", roomWarroom),
  (roomCells, "east", roomMuster),
  (roomWarroom, "south", roomMuster),
  (roomWarroom, "up", roomDais),
  (roomDais, "down", roomWarroom),
  (roomRelayCut, "west", roomRoof),
  (roomRelayCut, "north", roomHandoffBay),
  (roomRelayCut, "east", roomCustodyLock),
  (roomHandoffBay, "south", roomRelayCut),
  (roomCustodyLock, "west", roomRelayCut),
  (roomCustodyLock, "east", roomEastRepeater),
  (roomEastRepeater, "west", roomCustodyLock)]

def directions : List String := ["north", "south", "east", "west", "up", "down"]

/-- The unsigned bound check of FIELD_FUNCTION: any other index gives NULL. -/
def room? (room : Int) : Option Room := if 0 ≤ room then rooms[room.toNat]? else none

def roomId (room : Int) : Option String := (room? room).map Room.id
def roomName (room : Int) : Option String := (room? room).map Room.name
def roomDesc (room : Int) : Option Text := (room? room).map Room.desc
def roomExits (room : Int) : Option String := (room? room).map Room.exits
def roomMobs (room : Int) : Option Text := (room? room).map Room.mobs
def roomActions (room : Int) : Option Text := (room? room).map Room.actions

inductive Move
  | there (room : Int)
  | noExit
  | unknown
  deriving DecidableEq, Repr

def roomMove (room : Int) (direction : Bytes) : Move :=
  match exits.find? fun e => e.1 = room && sameFold direction (str e.2.1) with
  | some e => .there e.2.2
  | none => if directions.any fun d => sameFold direction (str d) then .noExit else .unknown

theorem exit_in_table : ∀ e ∈ exits, (room? e.2.2).isSome := by decide

theorem move_in_table (room next : Int) (direction : Bytes)
    (moved : roomMove room direction = .there next) : (room? next).isSome := by
  unfold roomMove at moved
  split at moved
  · rename_i e found
    cases moved
    exact exit_in_table e (List.mem_of_find?_eq_some found)
  · split at moved <;> cases moved

end HollowGrid
