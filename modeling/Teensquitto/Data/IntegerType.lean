import Mathlib.Algebra.Ring.Int.Defs
import Mathlib.Tactic.Common

/-!
# Integer types

The integer types of the source language, as far as sums of two values need them: narrow types are
promoted to `int`, which has 32 bits, before they are added.

## Main definitions

* `IntegerType`: an integer type, with the values of the type its sums are computed in
* `IntegerType.sum`, `IntegerType.half`: `a + b`, and `(a + b) / 2` converted back

## Main results

* `IntegerType.half_of_fits`: half of a sum that does not overflow
-/

/-- The type that a sum is computed in. -/
structure Arithmetic where
  least : ℤ
  greatest : ℤ
  /-- A sum beyond these values is reduced; otherwise it is undefined. -/
  wraps : Bool

namespace Arithmetic

/-- A signed type of `w + 1` bits. -/
def signed (w : ℕ) : Arithmetic := ⟨-2 ^ w, 2 ^ w - 1, false⟩

/-- An unsigned type of `w` bits. -/
def unsigned (w : ℕ) : Arithmetic := ⟨0, 2 ^ w - 1, true⟩

end Arithmetic

/-- An integer type. -/
class IntegerType (α : Type) where
  toInt : α → ℤ
  toInt_injective : Function.Injective toInt
  /-- The conversion of an integer to the type. -/
  ofInt : ℤ → α
  toInt_ofInt : ∀ (a b : α) (x : ℤ), toInt a ≤ x → x ≤ toInt b → toInt (ofInt x) = x
  /-- The type of a sum of two values. -/
  promoted : Arithmetic

namespace IntegerType

instance : IntegerType UInt8 where
  toInt a := a.toNat
  toInt_injective a b h := UInt8.toNat_inj.mp (Int.ofNat.inj h)
  ofInt := UInt8.ofInt
  toInt_ofInt a b x ha hb := by
    have hlt := b.toNat_lt
    simp only [UInt8.ofInt, UInt8.toNat_ofNat']
    omega
  promoted := .signed 31

instance : IntegerType UInt16 where
  toInt a := a.toNat
  toInt_injective a b h := UInt16.toNat_inj.mp (Int.ofNat.inj h)
  ofInt := UInt16.ofInt
  toInt_ofInt a b x ha hb := by
    have hlt := b.toNat_lt
    simp only [UInt16.ofInt, UInt16.toNat_ofNat']
    omega
  promoted := .signed 31

instance : IntegerType UInt32 where
  toInt a := a.toNat
  toInt_injective a b h := UInt32.toNat_inj.mp (Int.ofNat.inj h)
  ofInt := UInt32.ofInt
  toInt_ofInt a b x ha hb := by
    have hlt := b.toNat_lt
    simp only [UInt32.ofInt, UInt32.toNat_ofNat']
    omega
  promoted := .unsigned 32

instance : IntegerType UInt64 where
  toInt a := a.toNat
  toInt_injective a b h := UInt64.toNat_inj.mp (Int.ofNat.inj h)
  ofInt := UInt64.ofInt
  toInt_ofInt a b x ha hb := by
    have hlt := b.toNat_lt
    simp only [UInt64.ofInt, UInt64.toNat_ofNat']
    omega
  promoted := .unsigned 64

instance : IntegerType Int8 where
  toInt := Int8.toInt
  toInt_injective _ _ h := Int8.toInt_inj.mp h
  ofInt := Int8.ofInt
  toInt_ofInt a b _ ha hb :=
    Int8.toInt_ofInt_of_le (Int.le_trans a.le_toInt ha) (Int.lt_of_le_of_lt hb b.toInt_lt)
  promoted := .signed 31

instance : IntegerType Int16 where
  toInt := Int16.toInt
  toInt_injective _ _ h := Int16.toInt_inj.mp h
  ofInt := Int16.ofInt
  toInt_ofInt a b _ ha hb :=
    Int16.toInt_ofInt_of_le (Int.le_trans a.le_toInt ha) (Int.lt_of_le_of_lt hb b.toInt_lt)
  promoted := .signed 31

instance : IntegerType Int32 where
  toInt := Int32.toInt
  toInt_injective _ _ h := Int32.toInt_inj.mp h
  ofInt := Int32.ofInt
  toInt_ofInt a b _ ha hb :=
    Int32.toInt_ofInt_of_le (Int.le_trans a.le_toInt ha) (Int.lt_of_le_of_lt hb b.toInt_lt)
  promoted := .signed 31

instance : IntegerType Int64 where
  toInt := Int64.toInt
  toInt_injective _ _ h := Int64.toInt_inj.mp h
  ofInt := Int64.ofInt
  toInt_ofInt a b _ ha hb :=
    Int64.toInt_ofInt_of_le (Int.le_trans a.le_toInt ha) (Int.lt_of_le_of_lt hb b.toInt_lt)
  promoted := .signed 63

variable {α : Type} [IntegerType α]

/-- The sum does not overflow. -/
def Fits (a b : α) : Prop :=
  (promoted α).least ≤ toInt a + toInt b ∧ toInt a + toInt b ≤ (promoted α).greatest

instance (a b : α) : Decidable (Fits a b) := inferInstanceAs (Decidable (_ ∧ _))

/-- `a + b`. -/
def sum (a b : α) : Option ℤ :=
  if Fits a b then some (toInt a + toInt b)
  else if (promoted α).wraps then some ((toInt a + toInt b) % ((promoted α).greatest + 1))
  else none

/-- `(a + b) / 2`, converted back to the type. -/
def half (a b : α) : Option α := (sum a b).map fun s => ofInt (s.tdiv 2)

/-- **Half of a sum that does not overflow** lies between the two values. -/
theorem half_of_fits {a b : α} (hfits : Fits a b) (hle : toInt a ≤ toInt b) :
    ∃ v : α, half a b = some v ∧ toInt v = (toInt a + toInt b).tdiv 2 := by
  refine ⟨ofInt ((toInt a + toInt b).tdiv 2), ?_, toInt_ofInt a b _ (by grind) (by grind)⟩
  rw [half, sum, if_pos hfits]
  rfl

end IntegerType
