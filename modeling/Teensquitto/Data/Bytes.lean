import Mathlib.Data.List.Basic
import Mathlib.Data.UInt
import Mathlib.Tactic.Common

/-!
# Bytes

Numbers as bytes, high byte first, and the exclusive or of a block of bytes.

## Main definitions

* `Bytes.join`: the number two bytes spell
* `Bytes.word`: the bytes of a 32-bit number
* `Bytes.toNat`: the number a block of bytes spells
* `Bytes.xorSum`: the exclusive or of a block

## Main results

* `Bytes.join_split`: a number is spelled by its high and low byte
* `Bytes.xorSum_set`: what replacing one byte does to the exclusive or
* `Bytes.high_join`, `Bytes.low_join`: two bytes are the high and low byte of the number they spell
-/

namespace Bytes

/-- The number that the bytes `hi`, `lo` spell. -/
def join (hi lo : UInt8) : UInt16 := (hi.toUInt16 <<< 8) ||| lo.toUInt16

/-- The high byte of a number. -/
def high (x : UInt16) : UInt8 := (x >>> 8).toUInt8

/-- The low byte of a number. -/
def low (x : UInt16) : UInt8 := x.toUInt8

theorem toNat_join (hi lo : UInt8) : (join hi lo).toNat = 256 * hi.toNat + lo.toNat := by
  have hhi := hi.toNat_lt
  have hor := Nat.two_pow_add_eq_or_of_lt lo.toNat_lt hi.toNat
  rw [join, UInt16.toNat_or, UInt16.toNat_shiftLeft, UInt8.toNat_toUInt16, UInt8.toNat_toUInt16,
    Nat.shiftLeft_eq]
  simp only [UInt16.reduceToNat, Nat.reduceMod, Nat.reducePow] at hor ⊢
  rw [Nat.mod_eq_of_lt (by omega), Nat.mul_comm, ← hor]

theorem toNat_high (x : UInt16) : (high x).toNat = x.toNat / 256 := by
  have hx := x.toNat_lt
  rw [high, UInt16.toNat_toUInt8, UInt16.toNat_shiftRight, Nat.shiftRight_eq_div_pow]
  simp only [UInt16.reduceToNat, Nat.reduceMod, Nat.reducePow]
  omega

theorem toNat_low (x : UInt16) : (low x).toNat = x.toNat % 256 := by
  rw [low, UInt16.toNat_toUInt8]

/-- A number is spelled by its high and its low byte. -/
@[simp] theorem join_split (x : UInt16) : join (high x) (low x) = x := by
  apply UInt16.toNat_inj.mp
  rw [toNat_join, toNat_high, toNat_low]
  omega

@[simp] theorem high_join (hi lo : UInt8) : high (join hi lo) = hi := by
  apply UInt8.toNat_inj.mp
  have := lo.toNat_lt
  rw [toNat_high, toNat_join]
  omega

@[simp] theorem low_join (hi lo : UInt8) : low (join hi lo) = lo := by
  apply UInt8.toNat_inj.mp
  have := lo.toNat_lt
  rw [toNat_low, toNat_join]
  omega

/-- The four bytes of a 32-bit number, high byte first. -/
def word (x : UInt32) : List UInt8 :=
  [(x >>> 24).toUInt8, (x >>> 16).toUInt8, (x >>> 8).toUInt8, x.toUInt8]

@[simp] theorem length_word (x : UInt32) : (word x).length = 4 := rfl

theorem length_flatMap_word (l : List UInt32) : (l.flatMap word).length = 4 * l.length := by
  induction l with
  | nil => rfl
  | cons x l ih =>
    rw [List.flatMap_cons, List.length_append, ih, length_word, List.length_cons]
    omega

/-- The number that a block of bytes spells, high byte first. -/
def toNat (l : List UInt8) : ℕ := l.foldl (fun n b => 256 * n + b.toNat) 0

/-- A 32-bit number is spelled by its bytes. -/
theorem toNat_word (x : UInt32) : toNat (word x) = x.toNat := by
  have hx := x.toNat_lt
  simp only [toNat, word, List.foldl_cons, List.foldl_nil, UInt32.toNat_toUInt8,
    UInt32.toNat_shiftRight, UInt32.reduceToNat, Nat.reduceMod, Nat.shiftRight_eq_div_pow,
    Nat.reducePow]
  omega

/-- The exclusive or of a block of bytes. -/
def xorSum (l : List UInt8) : UInt8 := l.foldl (· ^^^ ·) 0

@[simp] theorem xorSum_nil : xorSum [] = 0 := rfl

theorem foldl_xor (l : List UInt8) (s : UInt8) : l.foldl (· ^^^ ·) s = s ^^^ xorSum l := by
  induction l generalizing s with
  | nil => simp [xorSum]
  | cons x l ih =>
    simp only [xorSum, List.foldl_cons]
    rw [ih, ih (0 ^^^ x), UInt8.zero_xor, UInt8.xor_assoc]

theorem xorSum_append (l l' : List UInt8) : xorSum (l ++ l') = xorSum l ^^^ xorSum l' := by
  rw [xorSum, List.foldl_append, foldl_xor]
  rfl

theorem xorSum_singleton (x : UInt8) : xorSum [x] = x := by
  simp [xorSum]

theorem xorSum_cons (x : UInt8) (l : List UInt8) : xorSum (x :: l) = x ^^^ xorSum l := by
  rw [← List.singleton_append, xorSum_append, xorSum_singleton]

/-- Replacing a byte changes the sum by the old and the new byte. -/
theorem xorSum_set {l : List UInt8} {i : ℕ} (h : i < l.length) (x : UInt8) :
    xorSum (l.set i x) = xorSum l ^^^ l[i] ^^^ x := by
  induction l generalizing i with
  | nil => cases h
  | cons y l ih =>
    cases i with
    | zero =>
      rw [List.set_cons_zero, xorSum_cons, xorSum_cons, List.getElem_cons_zero,
        UInt8.xor_comm y (xorSum l), UInt8.xor_assoc (xorSum l), UInt8.xor_self, UInt8.xor_zero,
        UInt8.xor_comm]
    | succ i =>
      rw [List.set_cons_succ, xorSum_cons, xorSum_cons, List.getElem_cons_succ,
        ih (Nat.lt_of_succ_lt_succ h), UInt8.xor_assoc, UInt8.xor_assoc, UInt8.xor_assoc]

end Bytes
