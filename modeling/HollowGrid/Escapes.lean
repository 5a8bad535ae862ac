import HollowGrid.Composed
import HollowGrid.Lib.Memory

/-! hg_json_escape of ffi/format.c as its loop stores it, and what the texts of the model take
from it. -/
namespace HollowGrid

open JsonText

/-- rep of the switch, null for a byte that goes out as it is. -/
def escapeRep (p : UInt8) : Ptr :=
  if p = 34 then some (str "\\\"")
  else if p = 92 then some (str "\\\\")
  else if p = 8 then some (str "\\b")
  else if p = 12 then some (str "\\f")
  else if p = 10 then some (str "\\n")
  else if p = 13 then some (str "\\r")
  else if p = 9 then some (str "\\t")
  else if p < 32 then some (hexText p)
  else none

def escapeFrom (dst cap : Nat) (m : Memory) (o : Nat) : Bytes → Memory × Int
  | [] => (m.store (dst + o) [0], toInt32 o)
  | p :: rest =>
    match escapeRep p with
    | some rep =>
      if cap < o + rep.length + 1 then (m.store dst [0], -1)
      else escapeFrom dst cap (m.store (dst + o) rep) (o + rep.length) rest
    | none =>
      if cap < o + 2 then (m.store dst [0], -1)
      else escapeFrom dst cap (m.store (dst + o) [p]) (o + 1) rest

/-- hg_json_escape(dst, cap, src) -/
def hgJsonEscape (m : Memory) (dst : Option Nat) (cap : Nat) (src : Ptr) : Memory × Int :=
  match dst with
  | none => (m, -1)
  | some dst => if cap = 0 then (m, -1) else escapeFrom dst cap m 0 (src.getD [])

/-- Every backslash has the byte it escapes behind it, and every quote stands behind one. -/
def paired : Bytes → Bool
  | [] => true
  | [x] => x != 92 && x != 34
  | x :: y :: rest => if x = 92 then paired rest else x != 34 && paired (y :: rest)

/-- dst holds the string b, for a reader of JSON strings, and nothing that ends the string early
or that no JSON string may hold. -/
structure HoldsString (m : Memory) (dst cap : Nat) (b : Bytes) : Prop where
  escaped : m.textAt dst cap = b.flatMap escapeByte
  reads : Spells (m.textAt dst cap) b
  sealed : paired (m.textAt dst cap) = true
  visible : ∀ x ∈ m.textAt dst cap, 32 ≤ x

section Loop

variable {m : Memory} {dst cap o : Nat} {b : Bytes}

theorem rep_escapes (p : UInt8) : (escapeRep p).getD [p] = escapeByte p := by
  unfold escapeRep escapeByte
  repeat' split
  all_goals rfl

theorem escape_size_cons (p : UInt8) (rest : Bytes) :
    escapeSize (p :: rest) = (escapeByte p).length + escapeSize rest := by
  simp [escapeSize]

/-- Both room checks ask for the bytes of the escape and the NUL. -/
theorem escape_step (p : UInt8) (rest : Bytes) : escapeFrom dst cap m o (p :: rest) =
    if cap < o + (escapeByte p).length + 1 then (m.store dst [0], -1)
    else escapeFrom dst cap (m.store (dst + o) (escapeByte p)) (o + (escapeByte p).length)
      rest := by
  rw [escapeFrom, ← rep_escapes]
  cases escapeRep p <;> rfl

theorem escape_whole (fits : o + escapeSize b + 1 ≤ cap) : escapeFrom dst cap m o b =
    (m.store (dst + o) (b.flatMap escapeByte ++ [0]),
      toInt32 ((o + escapeSize b : Nat) : Int)) := by
  induction b generalizing m o with
  | nil => rfl
  | cons p rest ih =>
    rw [escape_size_cons] at fits
    rw [escape_step, if_neg (by omega), ih (by omega), ← Nat.add_assoc dst, Memory.store_append,
      escape_size_cons, Nat.add_assoc o]
    simp

theorem escape_cut (some_byte : o + 1 ≤ cap) (long : cap < o + escapeSize b + 1) :
    ∃ done : Bytes, o + done.length < cap ∧
      escapeFrom dst cap m o b = ((m.store (dst + o) done).store dst [0], -1) := by
  induction b generalizing m o with
  | nil =>
    simp only [escapeSize, List.flatMap_nil, List.length_nil] at long
    omega
  | cons p rest ih =>
    rw [escape_size_cons] at long
    rw [escape_step]
    by_cases full : cap < o + (escapeByte p).length + 1
    · exact ⟨[], some_byte, by rw [if_pos full, Memory.store_nil]⟩
    · obtain ⟨done, short, same⟩ := ih (m := m.store (dst + o) (escapeByte p))
        (o := o + (escapeByte p).length) (by omega) (by omega)
      refine ⟨escapeByte p ++ done, by rw [List.length_append]; omega, ?_⟩
      rw [if_neg full, same, ← Nat.add_assoc dst, Memory.store_append]

end Loop

theorem paired_append {x y : Bytes} (front : paired x = true) (back : paired y = true) :
    paired (x ++ y) = true := by
  induction x using paired.induct with
  | case1 => exact back
  | case2 x =>
    simp only [paired, Bool.and_eq_true, bne_iff_ne] at front
    cases y with
    | nil => simp [paired, front]
    | cons z rest => simpa [paired, front] using back
  | case3 y rest ih =>
    simp only [paired, if_pos] at front
    simpa [paired] using ih front
  | case4 x y rest off ih =>
    simp only [paired, if_neg off, Bool.and_eq_true] at front
    simpa [paired, off, front.1] using ih front.2

theorem escaped_paired (b : Bytes) : paired (b.flatMap escapeByte) = true := by
  have table : ∀ n : Fin 256, paired (escapeByte (UInt8.ofNat n)) = true := by decide +kernel
  induction b with
  | nil => rfl
  | cons x rest ih =>
    have own := table ⟨x.toNat, x.toNat_lt⟩
    rw [UInt8.ofNat_toNat] at own
    exact paired_append own ih

section Escape

variable (m : Memory) (dst : Nat) {cap : Nat} {b : Bytes}

theorem escape_stored (some_byte : 1 ≤ cap) (fits : escapeSize b + 1 ≤ cap) :
    hgJsonEscape m (some dst) cap (some b) =
      (m.store dst (b.flatMap escapeByte ++ [0]), toInt32 (escapeSize b)) := by
  rw [hgJsonEscape, if_neg (by omega), Option.getD_some, escape_whole (by omega), Nat.zero_add]
  rfl

theorem escape_fails (some_byte : 1 ≤ cap) (long : ¬escapeSize b + 1 ≤ cap) :
    ∃ done : Bytes, done.length < cap ∧ hgJsonEscape m (some dst) cap (some b) =
      ((m.store dst done).store dst [0], -1) := by
  rw [hgJsonEscape, if_neg (by omega), Option.getD_some]
  obtain ⟨done, short, same⟩ := escape_cut (m := m) (o := 0) (b := b) some_byte (by omega)
  exact ⟨done, by omega, same⟩

theorem escape_holds (some_byte : 1 ≤ cap) (fits : escapeSize b + 1 ≤ cap) :
    HoldsString (hgJsonEscape m (some dst) cap (some b)).1 dst cap b := by
  have text : (hgJsonEscape m (some dst) cap (some b)).1.textAt dst cap = b.flatMap escapeByte := by
    rw [escape_stored m dst some_byte fits]
    refine Memory.text_store (fun there => ?_) fits
    exact absurd (escaped_visible b 0 there) (by decide)
  exact {
    escaped := text
    reads := text ▸ escaped_spells b
    sealed := text ▸ escaped_paired b
    visible := text ▸ escaped_visible b }

theorem escape_empties (some_byte : 1 ≤ cap) (long : ¬escapeSize b + 1 ≤ cap) :
    (hgJsonEscape m (some dst) cap (some b)).1.textAt dst cap = [] := by
  obtain ⟨done, -, same⟩ := escape_fails m dst some_byte long
  rw [same]
  exact Memory.text_nil (Memory.store_inside (i := 0) (b := [0]) Nat.one_pos)

theorem escape_outside (some_byte : 1 ≤ cap) {i : Nat} (out : i < dst ∨ dst + cap ≤ i) :
    (hgJsonEscape m (some dst) cap (some b)).1 i = m i := by
  by_cases fits : escapeSize b + 1 ≤ cap
  · have size : (b.flatMap escapeByte ++ [0]).length = escapeSize b + 1 := by simp [escapeSize]
    rw [escape_stored m dst some_byte fits]
    exact Memory.store_outside (by omega)
  · obtain ⟨done, short, same⟩ := escape_fails m dst some_byte fits
    rw [same]
    exact (Memory.store_outside (by simp; omega)).trans (Memory.store_outside (by omega))

end Escape

/-- The texts of the model hold what the loop leaves in dst, and none is its -1. -/
theorem escape_refines (m : Memory) (dst : Nat) {cap : Nat} (some_byte : 1 ≤ cap) (b : Bytes) :
    (hgJsonEscape m (some dst) cap (some b)).1.textAt dst cap = bytes (escaped cap b) ∧
      (jsonEscape cap b = none ↔ (hgJsonEscape m (some dst) cap (some b)).2 = -1 ∧
        ¬escapeSize b + 1 ≤ cap) := by
  have size : (escapeText b).length = escapeSize b := by simp [escapeText, raw, escapeSize]
  rw [escaped_bytes, slotString, jsonEscape, size]
  by_cases fits : escapeSize b + 1 ≤ cap
  · have text := (escape_holds m dst some_byte fits).escaped
    simp [fits, text]
  · obtain ⟨done, -, same⟩ := escape_fails m dst some_byte fits
    have text := escape_empties m dst some_byte fits
    simp only [same] at text ⊢
    simp [fits, text]

theorem escape_refines_quoted :
    (hgJsonEscape (fun _ => 0) (some 0) 16 (some (str "ada \"o\""))).1.textAt 0 16 =
      bytes (escaped 16 (str "ada \"o\"")) :=
  (escape_refines (fun _ => 0) 0 (show 1 ≤ 16 by decide) (str "ada \"o\"")).1

theorem escape_size_plain (x : UInt8) (plain : escapeByte x = [x]) (n : Nat) :
    escapeSize (List.replicate n x) = n := by
  induction n with
  | zero => rfl
  | succ n ih =>
    rw [List.replicate_succ, escape_size_cons, ih, plain, List.length_singleton, Nat.add_comm]

/-- The escape of b stands in dst exactly when it fits with its NUL, else dst is empty and the
result is -1; nothing else is written. The result of a fit is the length as an int, so the call is
seen to succeed exactly when also the length is one. -/
theorem json_escape_exact (m : Memory) (dst cap : Nat) (some_byte : 1 ≤ cap) (b : Bytes) :
    (HoldsString (hgJsonEscape m (some dst) cap (some b)).1 dst cap b ↔ escapeSize b + 1 ≤ cap) ∧
    (¬escapeSize b + 1 ≤ cap →
      (hgJsonEscape m (some dst) cap (some b)).1.textAt dst cap = []) ∧
    (0 ≤ (hgJsonEscape m (some dst) cap (some b)).2 ↔
      escapeSize b + 1 ≤ cap ∧ escapeSize b % 4294967296 < 2147483648) ∧
    ∀ i, i < dst ∨ dst + cap ≤ i → (hgJsonEscape m (some dst) cap (some b)).1 i = m i := by
  refine ⟨⟨fun holds => ?_, escape_holds m dst some_byte⟩, escape_empties m dst some_byte, ?_,
    fun i out => escape_outside m dst some_byte out⟩
  · by_contra long
    have none_read := holds.reads []
    rw [escape_empties m dst some_byte long] at none_read
    obtain rfl : b = [] := by simpa [readString] using none_read.symm
    exact long some_byte
  · by_cases fits : escapeSize b + 1 ≤ cap
    · rw [escape_stored m dst some_byte fits, toInt32]
      simp only [fits, true_and]
      omega
    · obtain ⟨done, -, same⟩ := escape_fails m dst some_byte fits
      simp [same, fits]

theorem json_escape_quote :
    HoldsString (hgJsonEscape (fun _ => 0) (some 0) 3 (some [34])).1 0 3 [34] ↔
      escapeSize [34] + 1 ≤ 3 :=
  (json_escape_exact (fun _ => 0) 0 3 (by decide) [34]).1

/-- A length past the range of an int is seen as a failure. -/
theorem long_escape_fails : ¬ ∀ (m : Memory) (dst cap : Nat) (b : Bytes), 1 ≤ cap → 0 ∉ b →
    (0 ≤ (hgJsonEscape m (some dst) cap (some b)).2 ↔ escapeSize b + 1 ≤ cap) := by
  intro always
  have size : escapeSize (List.replicate 2147483648 97) = 2147483648 :=
    escape_size_plain 97 (by decide) _
  have same := always (fun _ => 0) 0 2147483649 (List.replicate 2147483648 97) (by decide)
    (fun there => absurd (List.eq_of_mem_replicate there) (by decide))
  have whole := escape_stored (fun _ => 0) 0 (b := List.replicate 2147483648 97) (by decide)
    (Nat.le_of_eq (congrArg (· + 1) size))
  rw [whole, size] at same
  exact absurd (same.mpr (by decide)) (by decide)

end HollowGrid
