import HollowGrid.Lib.Bytes
import Mathlib.Algebra.Group.Nat.Defs
import Mathlib.Algebra.Ring.Int.Defs

/-! Parsed JSON and the four cJSON readers the store and the hub client use. A
number is kept as the integer its double truncates to, which is all that the
cvttsd2si after cJSON_GetNumberValue lets through. -/
namespace HollowGrid

inductive Json
  | null
  | bool (b : Bool)
  | num (n : Int)
  | str (b : Bytes)
  | arr (items : List Json)
  | obj (fields : List (Bytes × Json))

namespace Json

/-- cJSON_GetObjectItemCaseSensitive. The children of an array have no key, so
only an object has members. -/
def item (key : Bytes) : Json → Option Json
  | .obj fields => (fields.find? fun field => field.1 = key).map Prod.snd
  | _ => none

/-- cJSON_GetStringValue: NULL for anything but a string. -/
def stringValue : Json → Option Bytes
  | .str b => some b
  | _ => none

def isObject : Json → Bool
  | .obj _ => true
  | _ => false

def isTrue : Json → Bool
  | .bool b => b
  | _ => false

/-- cJSON_GetArrayItem over all indices below cJSON_GetArraySize: the children
of an array or of an object. -/
def children : Json → List Json
  | .arr items => items
  | .obj fields => fields.map Prod.snd
  | _ => []

end Json

def int64Min : Int := -9223372036854775808
def int64Max : Int := 9223372036854775807

/-- cvttsd2si: out of range and NaN give the integer indefinite value. -/
def truncate (n : Int) : Int := if int64Min ≤ n ∧ n ≤ int64Max then n else int64Min

/-- cJSON_GetNumberValue is NaN for anything but a number. -/
def numberValue : Json → Int
  | .num n => truncate n
  | _ => int64Min

/-- cvtsi2sd: the nearest double, ties to even. Exact up to 2^53. -/
def toDouble (n : Int) : Int :=
  let magnitude := n.natAbs
  let shift := magnitude.log2 - 52
  let unit := 2 ^ shift
  let quotient := magnitude / unit
  let rest := magnitude % unit
  let rounded :=
    if 2 * rest > unit ∨ (2 * rest = unit ∧ quotient % 2 = 1) then quotient + 1 else quotient
  if n < 0 then -((rounded * unit : Nat) : Int) else ((rounded * unit : Nat) : Int)

/-- void json_string(root,key,dest,cap): dest keeps its text unless the member is a string. -/
def jsonString (root : Json) (key : Bytes) (dest : Bytes) (cap : Nat) : Bytes :=
  match (root.item key).bind Json.stringValue with
  | some text => (cstr text).take (cap - 1)
  | none => dest

/-- int64 json_number(root,key,fallback) -/
def jsonNumber (root : Json) (key : Bytes) (fallback : Int) : Int :=
  match root.item key with
  | some value => numberValue value
  | none => fallback

/-- int64 json_bool(root,key,fallback) -/
def jsonBool (root : Json) (key : Bytes) (fallback : Bool) : Bool :=
  match root.item key with
  | some value => value.isTrue
  | none => fallback

end HollowGrid
