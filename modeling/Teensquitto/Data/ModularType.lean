import Mathlib.Data.Int.ModEq
import Mathlib.Algebra.BigOperators.Group.List.Basic
import Teensquitto.Data.IntegerType

/-!
# Accumulating in integer types

The values of an integer type are an interval around zero, and a conversion to the type keeps the
residue modulo the length of that interval.  So does every operation that is defined; what is
accumulated in a variable of the type is therefore right modulo its length, and right altogether as
long as it stays in the interval.

## Main definitions

* `Arithmetic.compute`: the value of an operation whose exact result is given
* `ModularType`: an integer type with its interval
* `ModularType.total`: the values of a list, added up in a variable of the type

## Main results

* `ModularType.modEq_of_foldlM`: an accumulation is right modulo the length
* `ModularType.foldlM_of_inRange`: and right as long as it stays in the interval
-/

/-- The value of an operation whose exact result is `x`. -/
def Arithmetic.compute (a : Arithmetic) (x : ℤ) : Option ℤ :=
  if a.least ≤ x ∧ x ≤ a.greatest then some x
  else if a.wraps then some (x % (a.greatest + 1))
  else none

/-- An integer type with the interval of its values. -/
class ModularType (α : Type) extends IntegerType α where
  least : ℤ
  /-- The number of values. -/
  modulus : ℤ
  least_nonpos : least ≤ 0
  modulus_gt : -least < modulus
  least_le (a : α) : least ≤ toInt a
  toInt_lt (a : α) : toInt a < least + modulus
  toInt_ofInt_modEq (x : ℤ) : toInt (ofInt x) ≡ x [ZMOD modulus]
  /-- Sums are computed in a type that has all the values of this one. -/
  promoted_least : promoted.least ≤ least
  promoted_greatest : least + modulus ≤ promoted.greatest + 1
  promoted_modulus : promoted.wraps = true → promoted.greatest + 1 = modulus
  /-- A type whose operations can be undefined has negative values as well. -/
  promoted_neg : promoted.wraps = false → promoted.least ≤ -promoted.greatest

namespace ModularType

open IntegerType (toInt ofInt promoted sum)

instance : ModularType UInt8 where
  least := 0
  modulus := 256
  least_nonpos := by decide
  modulus_gt := by decide
  least_le a := Int.natCast_nonneg _
  toInt_lt a := by
    have hlt := a.toNat_lt
    simp only [toInt]
    omega
  toInt_ofInt_modEq x := by
    simp only [toInt, ofInt, UInt8.ofInt, UInt8.toNat_ofNat', Int.ModEq]
    omega
  promoted_least := by decide
  promoted_greatest := by decide
  promoted_modulus := by decide
  promoted_neg := by decide

instance : ModularType UInt16 where
  least := 0
  modulus := 65536
  least_nonpos := by decide
  modulus_gt := by decide
  least_le a := Int.natCast_nonneg _
  toInt_lt a := by
    have hlt := a.toNat_lt
    simp only [toInt]
    omega
  toInt_ofInt_modEq x := by
    simp only [toInt, ofInt, UInt16.ofInt, UInt16.toNat_ofNat', Int.ModEq]
    omega
  promoted_least := by decide
  promoted_greatest := by decide
  promoted_modulus := by decide
  promoted_neg := by decide

instance : ModularType UInt32 where
  least := 0
  modulus := 4294967296
  least_nonpos := by decide
  modulus_gt := by decide
  least_le a := Int.natCast_nonneg _
  toInt_lt a := by
    have hlt := a.toNat_lt
    simp only [toInt]
    omega
  toInt_ofInt_modEq x := by
    simp only [toInt, ofInt, UInt32.ofInt, UInt32.toNat_ofNat', Int.ModEq]
    omega
  promoted_least := by decide
  promoted_greatest := by decide
  promoted_modulus := by decide
  promoted_neg := by decide

instance : ModularType UInt64 where
  least := 0
  modulus := 18446744073709551616
  least_nonpos := by decide
  modulus_gt := by decide
  least_le a := Int.natCast_nonneg _
  toInt_lt a := by
    have hlt := a.toNat_lt
    simp only [toInt]
    omega
  toInt_ofInt_modEq x := by
    simp only [toInt, ofInt, UInt64.ofInt, UInt64.toNat_ofNat', Int.ModEq]
    omega
  promoted_least := by decide
  promoted_greatest := by decide
  promoted_modulus := by decide
  promoted_neg := by decide

instance : ModularType Int8 where
  least := -128
  modulus := 256
  least_nonpos := by decide
  modulus_gt := by decide
  least_le a := a.le_toInt
  toInt_lt a := a.toInt_lt
  toInt_ofInt_modEq x := (congrArg (· % 256) (Int8.toInt_ofInt ..)).trans (Int.bmod_emod ..)
  promoted_least := by decide
  promoted_greatest := by decide
  promoted_modulus := by decide
  promoted_neg := by decide

instance : ModularType Int16 where
  least := -32768
  modulus := 65536
  least_nonpos := by decide
  modulus_gt := by decide
  least_le a := a.le_toInt
  toInt_lt a := a.toInt_lt
  toInt_ofInt_modEq x := (congrArg (· % 65536) (Int16.toInt_ofInt ..)).trans (Int.bmod_emod ..)
  promoted_least := by decide
  promoted_greatest := by decide
  promoted_modulus := by decide
  promoted_neg := by decide

instance : ModularType Int32 where
  least := -2147483648
  modulus := 4294967296
  least_nonpos := by decide
  modulus_gt := by decide
  least_le a := a.le_toInt
  toInt_lt a := a.toInt_lt
  toInt_ofInt_modEq x :=
    (congrArg (· % 4294967296) (Int32.toInt_ofInt ..)).trans (Int.bmod_emod ..)
  promoted_least := by decide
  promoted_greatest := by decide
  promoted_modulus := by decide
  promoted_neg := by decide

instance : ModularType Int64 where
  least := -9223372036854775808
  modulus := 18446744073709551616
  least_nonpos := by decide
  modulus_gt := by decide
  least_le a := a.le_toInt
  toInt_lt a := a.toInt_lt
  toInt_ofInt_modEq x :=
    (congrArg (· % 18446744073709551616) (Int64.toInt_ofInt ..)).trans (Int.bmod_emod ..)
  promoted_least := by decide
  promoted_greatest := by decide
  promoted_modulus := by decide
  promoted_neg := by decide

variable {α β : Type} [ModularType α] {a v w : α} {x y : ℤ}

/-- An integer is a value of the type. -/
def InRange (α : Type) [ModularType α] (x : ℤ) : Prop := least α ≤ x ∧ x < least α + modulus α

instance (x : ℤ) : Decidable (InRange α x) := inferInstanceAs (Decidable (_ ∧ _))

theorem inRange_toInt (a : α) : InRange α (toInt a) := ⟨least_le a, toInt_lt a⟩

theorem inRange_zero : InRange α 0 := by
  have hleast := least_nonpos (α := α)
  have hmodulus := modulus_gt (α := α)
  exact ⟨hleast, by omega⟩

/-- What lies between two values is a value. -/
theorem InRange.between (hx : InRange α x) (hy : InRange α y) {z : ℤ} (hxz : x ≤ z) (hzy : z ≤ y) :
    InRange α z := ⟨hx.1.trans hxz, hzy.trans_lt hy.2⟩

/-- A value is given by its residue. -/
theorem toInt_eq_of_modEq (h : toInt a ≡ x [ZMOD modulus α]) (hx : InRange α x) :
    toInt a = x := by
  have hmodulus : 0 < modulus α := (neg_nonneg.mpr least_nonpos).trans_lt modulus_gt
  have hshift : toInt a - least α ≡ x - least α [ZMOD modulus α] := h.sub_right _
  have ha := inRange_toInt a
  have heq := hshift.eq
  rw [Int.emod_eq_of_lt (sub_nonneg.mpr ha.1) (sub_lt_iff_lt_add'.mpr ha.2),
    Int.emod_eq_of_lt (sub_nonneg.mpr hx.1) (sub_lt_iff_lt_add'.mpr hx.2)] at heq
  exact sub_left_inj.mp heq

theorem InRange.toInt_ofInt (hx : InRange α x) : toInt (ofInt x : α) = x :=
  toInt_eq_of_modEq (toInt_ofInt_modEq x) hx

theorem toInt_ofInt_zero : toInt (ofInt 0 : α) = 0 := inRange_zero.toInt_ofInt

/-! ## Single operations -/

theorem sum_eq_compute (a b : α) : sum a b = (promoted α).compute (toInt a + toInt b) := rfl

/-- An operation that is defined keeps the residue. -/
theorem modEq_of_compute (h : (promoted α).compute x = some y) : y ≡ x [ZMOD modulus α] := by
  rw [Arithmetic.compute] at h
  split at h
  · rw [Option.some.inj h]
  · split at h
    · next hwraps =>
      rw [← Option.some.inj h, promoted_modulus hwraps]
      exact Int.mod_modEq x _
    · cases h

/-- An operation whose result is a value of the type is computed exactly. -/
theorem compute_of_inRange (hx : InRange α x) : (promoted α).compute x = some x := by
  refine if_pos ⟨promoted_least.trans hx.1, ?_⟩
  have hgreatest := promoted_greatest (α := α)
  have hlt := hx.2
  omega

/-- So is one whose result has no larger magnitude, where operations can be undefined. -/
theorem compute_of_neg (hwraps : (promoted α).wraps = false) (hx : InRange α x) (hle : -x ≤ y)
    (hge : y ≤ x) : (promoted α).compute y = some y := by
  have hgreatest := promoted_greatest (α := α)
  have hneg := promoted_neg (α := α) hwraps
  have hlt := hx.2
  exact if_pos ⟨by omega, by omega⟩

/-- Where operations are never undefined, they are defined. -/
theorem exists_compute_of_wraps (hwraps : (promoted α).wraps = true) (x : ℤ) :
    ∃ y, (promoted α).compute x = some y := by
  rw [Arithmetic.compute, if_pos hwraps]
  split
  · exact ⟨_, rfl⟩
  · exact ⟨_, rfl⟩

/-! ## Accumulating -/

section Accumulating

variable {f : α → β → Option α} {g : β → ℤ}

/-- **An accumulation keeps the residue**, when every step does. -/
theorem modEq_of_foldlM
    (hf : ∀ v b w, f v b = some w → toInt w ≡ toInt v + g b [ZMOD modulus α]) {l : List β}
    (h : l.foldlM f v = some w) : toInt w ≡ toInt v + (l.map g).sum [ZMOD modulus α] := by
  induction l generalizing v with
  | nil =>
    obtain rfl := Option.some.inj h
    rw [List.map_nil, List.sum_nil, add_zero]
  | cons b l ih =>
    rw [List.foldlM_cons, Option.bind_eq_bind, Option.bind_eq_some_iff] at h
    obtain ⟨u, hu, hw⟩ := h
    rw [List.map_cons, List.sum_cons, ← add_assoc]
    exact (ih hw).trans ((hf v b u hu).add_right _)

/-- **It is right altogether** as long as it stays in the interval; the values on the way may have
to have a property for the steps to be defined. -/
theorem foldlM_of_inRange {P : ℤ → Prop}
    (hf : ∀ v b w, f v b = some w → toInt w ≡ toInt v + g b [ZMOD modulus α])
    (hdefined : ∀ v b, P (toInt v) → InRange α (toInt v + g b) → ∃ w, f v b = some w)
    (hstep : ∀ x b, P x → P (x + g b)) (hv : P (toInt v)) {l : List β}
    (h : ∀ p, p <+: l → InRange α (toInt v + (p.map g).sum)) :
    ∃ w, l.foldlM f v = some w ∧ toInt w = toInt v + (l.map g).sum := by
  induction l generalizing v with
  | nil => exact ⟨v, rfl, by rw [List.map_nil, List.sum_nil, add_zero]⟩
  | cons b l ih =>
    have hfirst : InRange α (toInt v + g b) := by
      have hprefix := h [b] ((List.prefix_cons_inj b).mpr List.nil_prefix)
      rwa [List.map_singleton, List.sum_singleton] at hprefix
    obtain ⟨u, hu⟩ := hdefined v b hv hfirst
    have hvalue : toInt u = toInt v + g b := toInt_eq_of_modEq (hf v b u hu) hfirst
    obtain ⟨w, hw, heq⟩ := ih (v := u) (hvalue ▸ hstep _ b hv) fun p hp => by
      have hprefix := h (b :: p) ((List.prefix_cons_inj b).mpr hp)
      rwa [List.map_cons, List.sum_cons, ← add_assoc, ← hvalue] at hprefix
    refine ⟨w, ?_, ?_⟩
    · rw [List.foldlM_cons, hu]
      exact hw
    · rw [heq, hvalue, List.map_cons, List.sum_cons, add_assoc]

end Accumulating

/-! ## Sums -/

/-- `value += x`. -/
def accumulate (value x : α) : Option α := (sum value x).map ofInt

/-- The values of a list, added up in a variable of the type. -/
def total (l : List α) : Option α := l.foldlM accumulate (ofInt 0)

theorem modEq_of_accumulate (h : accumulate v a = some w) :
    toInt w ≡ toInt v + toInt a [ZMOD modulus α] := by
  obtain ⟨s, hs, rfl⟩ := Option.map_eq_some_iff.mp h
  exact (toInt_ofInt_modEq s).trans (modEq_of_compute hs)

theorem exists_accumulate (h : InRange α (toInt v + toInt a)) : ∃ w, accumulate v a = some w := by
  exact ⟨ofInt _, by rw [accumulate, sum_eq_compute, compute_of_inRange h, Option.map_some]⟩

/-- A sum is right modulo the length of the interval. -/
theorem modEq_of_total {l : List α} (h : total l = some v) :
    toInt v ≡ (l.map toInt).sum [ZMOD modulus α] := by
  have hmod := modEq_of_foldlM (fun _ _ _ => modEq_of_accumulate) h
  rwa [toInt_ofInt_zero, zero_add] at hmod

/-- A sum is right when all sums before it are values of the type. -/
theorem total_of_inRange {l : List α} (h : ∀ p, p <+: l.map toInt → InRange α p.sum) :
    ∃ v, total l = some v ∧ toInt v = (l.map toInt).sum := by
  obtain ⟨v, hv, heq⟩ := foldlM_of_inRange (P := fun _ => True) (v := ofInt 0) (l := l)
    (fun _ _ _ => modEq_of_accumulate) (fun _ _ _ => exists_accumulate) (fun _ _ _ => trivial)
    trivial fun p hp => by
      rw [toInt_ofInt_zero, zero_add]
      exact h _ (hp.map toInt)
  rw [toInt_ofInt_zero, zero_add] at heq
  exact ⟨v, hv, heq⟩

end ModularType
