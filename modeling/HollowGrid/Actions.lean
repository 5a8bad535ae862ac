import HollowGrid.Rooms

/-! asm/actions.asm: room action menus, brand standing, dreams and the ambient
trace kinds. -/
namespace HollowGrid

def hunted (s : Session) : Bool :=
  sameFold s.race (str "elf") || sameFold s.race (str "dustkin")

def isFront (s : Session) : Bool := s.faction == str "front"
def isAlly (s : Session) : Bool := s.faction == str "ally"

def actionDefend : Text :=
  lit r#"{"verb":"defend","label":"stand with the people the Front would erase","# ++
  lit r#""kind":"moral","valence":"virtuous"}"#

def actionJoinGrave : Text :=
  lit r#"{"verb":"join","label":"take the Front coin and help sort the living","# ++
  lit r#""kind":"moral","valence":"grave"}"#

def actionJoinCorrupt : Text :=
  lit r#"{"verb":"join","label":"take the Front coin and help sort the living","# ++
  lit r#""kind":"moral","valence":"corrupt"}"#

def actionSell : Text :=
  lit r#"{"verb":"sell","label":"sell salvage for honest coin","kind":"trade"}"#

def actionSteal : Text :=
  lit r#"{"verb":"steal","label":"steal from the vendor (quick gold, corrupting)","# ++
  lit r#""kind":"moral","valence":"corrupt"}"#

def actionTavern : Text :=
  lit r#"[{"verb":"talk","label":"talk to whoever shares your room","kind":"social"},"# ++
  lit r#"{"verb":"buy dust","label":"buy dust: 10 gold a packet "# ++
  lit r#"(using it heals, but addicts and corrupts)","kind":"moral","valence":"corrupt"}]"#

def actionDefy : Text :=
  lit r#"{"verb":"defy","label":"defy the Ashmonger and defect to the free folk","# ++
  lit r#""kind":"moral","valence":"virtuous"}"#

def actionTalk : Text := lit r#"{"verb":"talk","label":"face the Ashmonger","kind":"social"}"#

def actionKneel : Text :=
  lit r#"{"verb":"join","label":"kneel to the Ashmonger against your own (the kapo)","# ++
  lit r#""kind":"moral","valence":"grave"}"#

def actionPledge : Text :=
  lit r#"{"verb":"join","label":"pledge yourself to the Cinder Front","# ++
  lit r#""kind":"moral","valence":"corrupt"}"#

/-- add_action: a comma unless the fragment is the first, then the fragment. -/
def addAction (cap : Nat) (buf frag : Text) : Option Text :=
  if buf.length = 1 then
    if cap ≤ buf.length + frag.length then none else some (buf ++ frag)
  else if cap ≤ buf.length + 1 then none
  else if cap ≤ buf.length + 1 + frag.length then none
  else some (buf ++ lit "," ++ frag)

def addActions (cap : Nat) : Text → List Text → Option Text
  | buf, [] => if cap ≤ buf.length then none else some (buf ++ lit "]")
  | buf, frag :: rest => (addAction cap buf frag).bind fun next => addActions cap next rest

def marketActions (s : Session) : List Text :=
  (if isFront s || isAlly s || s.mktResolved ≠ 0 then []
    else [actionDefend, if hunted s then actionJoinGrave else actionJoinCorrupt]) ++
  (if isFront s || s.ashsworn then [] else [actionSell]) ++ [actionSteal]

def daisActions (s : Session) : List Text :=
  if isFront s then [actionDefy, actionTalk]
  else if isAlly s then [actionTalk]
  else [if hunted s then actionKneel else actionPledge, actionTalk]

/-- The JSON array, or none where the source returns -1. -/
def actionsJsonFor (s : Session) (cap : Nat) : Option Text :=
  if cap < 8 then none
  else if s.room = roomMarket then addActions cap (lit "[") (marketActions s)
  else if s.room = roomTavern then
    if cap < actionTavern.length + 1 then none else some actionTavern
  else if s.room = roomDais then addActions cap (lit "[") (daisActions s)
  else some (lit "[]")

def brandStanding (s : Session) : Bytes :=
  if s.ashsworn then str "ash-sworn"
  else if isFront s then str "Cinder Front"
  else if isAlly s then str "Free Folk ally"
  else if s.morality ≥ 50 then str "a beacon of the wastes"
  else if s.morality ≤ -50 then str "reviled"
  else []

def dreamPersonal (freed : Bytes) : Text :=
  lit "You dream of " ++ raw freed ++ lit ", the way they looked when you cut them loose -- " ++
  lit "and the Grid, stubborn, keeping that face lit in the dark so you " ++
  lit "cannot pretend it did not happen."

def dreamFront : Text :=
  lit "You dream of a coin that will not stop being warm in your hand, " ++
  lit "and a line of faces that have learned not to look at you."

def dreamGood : Text :=
  lit "You dream of names you spoke once into dead static -- and the " ++
  lit "static, impossibly, speaking them back to you, one by one, " ++
  lit "refusing to forget."

def dreamBad : Text :=
  lit "You dream of a ledger writing itself in the dark, every line a " ++
  lit "thing you told yourself did not count."

def dreamNeutral : Text :=
  lit "You dream of the wastes seen from above, the dead network laid " ++
  lit "out like veins -- and somewhere down in it, a single cursor, " ++
  lit "blinking your name, waiting to see what you make of it."

/-- The text of a dream and the freed name it is about, if it is a personal one. -/
def dreamCompose (s : Session) (cap subjectCap : Nat) : Option (Text × Option Bytes) :=
  let dark := isFront s || s.ashsworn || s.morality ≤ -50
  if s.lastFreed ≠ [] ∧ dark = false then
    let text := dreamPersonal s.lastFreed
    if cap ≤ text.length then none else some (text, some (s.lastFreed.take (subjectCap - 1)))
  else
    let text :=
      if dark then dreamFront
      else if s.morality ≥ 25 then dreamGood
      else if s.morality ≤ -10 then dreamBad
      else dreamNeutral
    if cap ≤ text.length then none else some (text, none)

def pruneKinds : List Bytes := [str "ghost", str "passage", str "recall"]

def pruneKindAmbient (kind : Bytes) : Bool := pruneKinds.contains kind

end HollowGrid
