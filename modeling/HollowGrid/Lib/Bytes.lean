import Mathlib.Data.List.Basic
import Mathlib.Data.List.TakeWhile

/-! Byte strings as C sees them. A string argument is the bytes before its first
NUL, so every reader below starts by cutting there. -/
namespace HollowGrid

abbrev Bytes := List UInt8

/-- The bytes of an assembly or C string literal. -/
def str (s : String) : Bytes := s.toList.map (fun c => c.toNat.toUInt8)

def cstr (b : Bytes) : Bytes := b.takeWhile (· ≠ 0)

def space : UInt8 := 32
def tab : UInt8 := 9
def lineFeed : UInt8 := 10
def carriageReturn : UInt8 := 13
def atSign : UInt8 := 64

def lowerByte (b : UInt8) : UInt8 := if 65 ≤ b ∧ b ≤ 90 then b + 32 else b

/-- tolower over a whole string, in the C locale. -/
def lower (b : Bytes) : Bytes := b.map lowerByte

/-- strcasecmp(a, b) == 0 -/
def sameFold (a b : Bytes) : Bool := lower a == lower b

/-- strncasecmp(prefix, b, n) == 0 for the n bytes of the prefix. -/
def startsFold (start b : Bytes) : Bool := sameFold start (b.take start.length)

/-- strstr(b, part) != NULL -/
def contains (part : Bytes) : Bytes → Bool
  | [] => part.isEmpty
  | x :: rest => part.isPrefixOf (x :: rest) || contains part rest

def skipWhile (p : UInt8 → Bool) (b : Bytes) : Bytes := b.dropWhile p

def trimTail (p : UInt8 → Bool) (b : Bytes) : Bytes := (b.reverse.dropWhile p).reverse

def isDigit (b : UInt8) : Bool := 48 ≤ b && b ≤ 57

/-- "%ld" and "%lld" -/
def decimal : Int → Bytes
  | .ofNat n => str (String.ofList (Nat.toDigits 10 n))
  | .negSucc n => 45 :: str (String.ofList (Nat.toDigits 10 (n + 1)))

theorem take_while_subset {α : Type} (p : α → Bool) (l : List α) (x : α)
    (member : x ∈ l.takeWhile p) : x ∈ l :=
  (List.takeWhile_sublist p).subset member

theorem drop_while_subset {α : Type} (p : α → Bool) (l : List α) (x : α)
    (member : x ∈ l.dropWhile p) : x ∈ l :=
  (List.dropWhile_sublist p).subset member

theorem parted {α : Type} {p q a b : List α} {x : α} (left : x ∉ p) (right : x ∉ q)
    (same : p ++ x :: a = q ++ x :: b) : p = q ∧ a = b := by
  induction p generalizing q with
  | nil =>
    cases q with
    | nil => exact ⟨rfl, (List.cons.inj same).2⟩
    | cons y q => grind
  | cons y p ih =>
    cases q with
    | nil => grind
    | cons z q =>
      obtain ⟨head, tail⟩ := List.cons.inj same
      obtain ⟨same_front, same_rest⟩ := ih (by grind) (by grind) tail
      exact ⟨by rw [head, same_front], same_rest⟩

theorem cstr_whole {b : Bytes} (ends : 0 ∉ b) : cstr b = b := by
  refine List.takeWhile_eq_self_iff.mpr fun x member => ?_
  have other : x ≠ 0 := fun zero => ends (zero ▸ member)
  simpa using other

theorem same_fold_iff (a b : Bytes) : sameFold a b = true ↔ lower a = lower b := by
  simp [sameFold]

end HollowGrid
