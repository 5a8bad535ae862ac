import HollowGrid.Actions

/-! asm/social_ledger.asm: regard, the keeper list, the deed counters and the
forgiven and kept pairs. -/
namespace HollowGrid

def regardOf (s : Session) : Bytes :=
  if s.ashsworn then str "branded"
  else if s.morality ≥ 50 then str "honored"
  else if s.morality ≤ -50 then str "feared"
  else if isAlly s then str "trusted"
  else if isFront s then str "front"
  else str "neutral"

def isSeparator (b : UInt8) : Bool := b == space || b == tab || b == 44

def adminWords : Nat → Bytes → List Bytes
  | 0, _ => []
  | fuel + 1, text =>
    match skipWhile isSeparator text with
    | [] => []
    | start => (start.takeWhile fun b => !isSeparator b).take 32 ::
        adminWords fuel (skipWhile (fun b => !isSeparator b) start)

/-- admins_ensure: the first 16 words of ADMINS, or of the default when it is unset
or empty. The table is filled once and the environment does not change. -/
def adminNames (env : Env) : List Bytes :=
  match env.admins with
  | some (b :: rest) => adminWords 16 (cstr (b :: rest))
  | _ => adminWords 16 (str "skyphusion")

def isAdmin (env : Env) (name : Bytes) : Bool :=
  (adminNames env).any fun admin => sameFold admin name

inductive Deed
  | mended | forgave | aided | kept | freed | sheltered | stood | inscribed | restored
  | slain | stolen | pledged | defected
  deriving DecidableEq, Repr

namespace Deed

def all : List Deed :=
  [mended, forgave, aided, kept, freed, sheltered, stood, inscribed, restored, slain, stolen,
    pledged, defected]

def index : Deed → Nat
  | mended => 0
  | forgave => 1
  | aided => 2
  | kept => 3
  | freed => 4
  | sheltered => 5
  | stood => 6
  | inscribed => 7
  | restored => 8
  | slain => 9
  | stolen => 10
  | pledged => 11
  | defected => 12

def name : Deed → String
  | mended => "mended"
  | forgave => "forgave"
  | aided => "aided"
  | kept => "kept"
  | freed => "freed"
  | sheltered => "sheltered"
  | stood => "stood"
  | inscribed => "inscribed"
  | restored => "restored"
  | slain => "slain"
  | stolen => "stolen"
  | pledged => "pledged"
  | defected => "defected"

def label : Deed → String
  | mended => "  mended the hurt of others: "
  | forgave => "  souls you chose to forgive: "
  | aided => "  aid left for strangers you'll never meet: "
  | kept => "  names of the fallen you kept: "
  | freed => "  souls you cut out of the cages: "
  | sheltered => "  distress calls you answered: "
  | stood => "  times you stood with the free folk: "
  | inscribed => "  words you left for whoever comes next: "
  | restored => "  dead nodes you brought back: "
  | slain => "  lives you took: "
  | stolen => "  thefts: "
  | pledged => "  times you swore to the Cinder Front: "
  | defected => "  times you turned on the Front: "

end Deed

def deedMaxEntries : Nat := 64

def bump (kind : Deed) (counts : List Int) : List Int := counts.modify kind.index (· + 1)

def noDeeds : List Int := List.replicate 13 0

/-- A row is found by its name in any case, and a new one opened while there is room. -/
def bumpRows (player : Bytes) (kind : Deed) (room : Nat) :
    List (Bytes × List Int) → List (Bytes × List Int)
  | [] => if room = 0 then [] else [(player.take 40, bump kind noDeeds)]
  | (name, counts) :: rest =>
    if sameFold name player then (name, bump kind counts) :: rest
    else (name, counts) :: bumpRows player kind (room - 1) rest

def addDeed (l : Ledger) (player : Bytes) (kind : Deed) : Ledger :=
  if player = [] then l else { l with deeds := bumpRows player kind deedMaxEntries l.deeds }

def deedCount (l : Ledger) (player : Bytes) (kind : Deed) : Int :=
  match l.deeds.find? fun row => sameFold row.1 player with
  | some row => row.2.getD kind.index 0
  | none => 0

def hasPair (pairs : List (Bytes × Bytes)) (a b : Bytes) : Bool :=
  pairs.any fun pair => sameFold pair.1 a && sameFold pair.2 b

def markPair (cap : Nat) (pairs : List (Bytes × Bytes)) (a b : Bytes) : List (Bytes × Bytes) :=
  if hasPair pairs a b then pairs
  else if cap ≤ pairs.length then pairs
  else pairs ++ [(a.take 40, b.take 40)]

def forgivenHas (l : Ledger) (forgiver subject : Bytes) : Bool := hasPair l.forgiven forgiver subject

def forgivenMark (l : Ledger) (forgiver subject : Bytes) : Ledger :=
  { l with forgiven := markPair 256 l.forgiven forgiver subject }

def keptHas (l : Ledger) (keeper fallen : Bytes) : Bool := hasPair l.kept keeper fallen

def keptMark (l : Ledger) (keeper fallen : Bytes) : Ledger :=
  { l with kept := markPair 128 l.kept keeper fallen }

/-- The cells of cache_gold, one for each index below 64. -/
def cacheCell (room : Int) : Option Nat :=
  if 0 ≤ room ∧ room < 64 then some room.toNat else none

def cachePeek (l : Ledger) (room : Int) : Int :=
  match cacheCell room with
  | some cell => l.cacheGold cell
  | none => 0

def cacheAdd (l : Ledger) (cell : Nat) (gold : Int) : Ledger :=
  { l with cacheGold := Function.update l.cacheGold cell (l.cacheGold cell + gold) }

def cacheTake (l : Ledger) (cell : Nat) : Ledger :=
  { l with cacheGold := Function.update l.cacheGold cell 0 }

end HollowGrid
