import Mathlib.Algebra.Order.BigOperators.Group.List
import Mathlib.Algebra.Order.Ring.Abs
import Mathlib.Order.Bounds.Defs
import Teensquitto.CircularBuffer.Median
import Teensquitto.Data.ModularType

/-!
# The statistics of a ring of values

`sum()`, `average()` and `variance()` go through the stored values and accumulate in a variable of
the type of the values, an integer type; `min()` and `max()` sort a copy of them.  An addition of
signed integers that overflows is undefined.

## Main definitions

* `ScalarBuffer.sum`, `average`, `variance`, `min`, `max`: the operations
* `ScalarBuffer.squares`: the squares of the differences from a mean
* `ScalarBuffer.Describes`: what the operations return

## Main results

* `ScalarBuffer.average_between`: the average lies between the least and the greatest value
* `ScalarBuffer.statistics_describe`: the operations describe the stored values
-/

namespace ScalarBuffer

open IntegerType (toInt ofInt promoted)
open ModularType (InRange inRange_toInt inRange_zero toInt_ofInt_zero toInt_ofInt_modEq
  modEq_of_compute compute_of_inRange compute_of_neg exists_compute_of_wraps modEq_of_foldlM
  foldlM_of_inRange total modEq_of_total total_of_inRange modulus
  toInt_eq_of_modEq)
open OrderStatistic (ascending)

variable {α : Type} {size : UInt16} [ModularType α]

/-! ## The operations -/

/-- `sum()`, nothing when an addition is undefined. -/
def sum (b : ScalarBuffer α size) : Option α :=
  if b.available = 0 then some (ofInt 0) else total b.contents

/-- A value divided by `_available` and converted back. -/
def divided (b : ScalarBuffer α size) (value : α) : α :=
  ofInt ((toInt value).tdiv b.available.toNat)

/-- `average()`, and `mean()`. -/
def average (b : ScalarBuffer α size) : Option α :=
  if b.available = 0 then some (ofInt 0) else b.sum.map b.divided

/-- `value += ((x - _mean) * (x - _mean))`. -/
def deviate (mean value x : α) : Option α := do
  let d ← (promoted α).compute (toInt x - toInt mean)
  let square ← (promoted α).compute (d * d)
  let s ← (promoted α).compute (toInt value + square)
  return ofInt s

/-- `variance()`. -/
def variance (b : ScalarBuffer α size) : Option α :=
  if b.available = 0 then some (ofInt 0) else do
    let mean ← b.average
    let value ← b.contents.foldlM (deviate mean) (ofInt 0)
    return b.divided value

/-- `min()`. -/
def min (b : ScalarBuffer α size) : α :=
  if b.available = 0 then ofInt 0 else (sort b.contents)[0]?.getD (ofInt 0)

/-- `max()`. -/
def max (b : ScalarBuffer α size) : α :=
  if b.available = 0 then ofInt 0
  else (sort b.contents)[b.available.toNat - 1]?.getD (ofInt 0)

/-! ## Least and greatest values -/

section Extremes

variable {b : ScalarBuffer α size}

omit [ModularType α] in
theorem available_pos (hne : b.available ≠ 0) : 0 < b.available.toNat :=
  Nat.pos_of_ne_zero fun h0 => hne (UInt16.toNat_inj.mp h0)

/-- The value at a position of the sorted copy. -/
theorem getElem?_ascending_of_lt {i : ℕ} (hi : i < b.available.toNat) :
    (ascending b.values)[i]? = some (toInt ((sort b.contents)[i]?.getD (ofInt 0))) := by
  have hlen : i < (sort b.contents).length := by simpa using hi
  rw [getElem?_ascending_values, List.getElem?_eq_getElem hlen]
  rfl

theorem mem_values_of_getElem? {i : ℕ} {x : ℤ} (h : (ascending b.values)[i]? = some x) :
    x ∈ b.values :=
  (OrderStatistic.perm_ascending _).mem_iff.mp (List.mem_of_getElem? h)

/-- A value of the ring is at some position of the sorted copy. -/
theorem exists_getElem?_of_mem {x : ℤ} (hx : x ∈ b.values) :
    ∃ i < b.available.toNat, (ascending b.values)[i]? = some x := by
  rw [← (OrderStatistic.perm_ascending _).mem_iff] at hx
  obtain ⟨i, hi⟩ := List.mem_iff_getElem?.mp hx
  have hlt := (List.getElem?_eq_some_iff.mp hi).1
  rw [OrderStatistic.length_ascending, length_values] at hlt
  exact ⟨i, hlt, hi⟩

/-- Positions of the sorted copy are in order. -/
theorem getElem?_ascending_le {i j : ℕ} {x y : ℤ} (hij : i ≤ j)
    (hx : (ascending b.values)[i]? = some x) (hy : (ascending b.values)[j]? = some y) : x ≤ y := by
  rcases hij.eq_or_lt with rfl | hlt
  · exact (Option.some.inj (hx.symm.trans hy)).le
  · obtain ⟨hi, rfl⟩ := List.getElem?_eq_some_iff.mp hx
    obtain ⟨hj, rfl⟩ := List.getElem?_eq_some_iff.mp hy
    exact List.pairwise_iff_getElem.mp (OrderStatistic.pairwise_ascending _) i j hi hj hlt

/-- **`min()` is the least value.** -/
theorem isLeast_min (hne : b.available ≠ 0) : IsLeast {x | x ∈ b.values} (toInt b.min) := by
  have hfirst := getElem?_ascending_of_lt (available_pos hne)
  rw [min, if_neg hne]
  refine ⟨mem_values_of_getElem? hfirst, fun x hx => ?_⟩
  obtain ⟨i, -, hi⟩ := exists_getElem?_of_mem hx
  exact getElem?_ascending_le (Nat.zero_le i) hfirst hi

/-- **`max()` is the greatest value.** -/
theorem isGreatest_max (hne : b.available ≠ 0) : IsGreatest {x | x ∈ b.values} (toInt b.max) := by
  have hlast := getElem?_ascending_of_lt (Nat.sub_one_lt (available_pos hne).ne')
  rw [max, if_neg hne]
  refine ⟨mem_values_of_getElem? hlast, fun x hx => ?_⟩
  obtain ⟨i, hi, hx'⟩ := exists_getElem?_of_mem hx
  exact getElem?_ascending_le (Nat.le_sub_one_of_lt hi) hx' hlast

end Extremes

/-! ## Sum and average -/

section Average

variable {b : ScalarBuffer α size}

/-- All sums on the way are values of the type. -/
def SumsFit (b : ScalarBuffer α size) : Prop := ∀ p, p <+: b.values → InRange α p.sum

theorem sum_of_ne (hne : b.available ≠ 0) : b.sum = total b.contents := if_neg hne

theorem average_of_ne (hne : b.available ≠ 0) : b.average = b.sum.map b.divided := if_neg hne

/-- A quotient is between the value and zero, so that the conversion keeps it. -/
theorem toInt_divided (b : ScalarBuffer α size) (value : α) :
    toInt (b.divided value) = (toInt value).tdiv b.available.toNat := by
  refine InRange.toInt_ofInt ?_
  rcases le_total 0 (toInt value) with hpos | hneg
  · refine inRange_zero.between (inRange_toInt value) ?_ ?_
    · exact Int.tdiv_nonneg hpos (Int.natCast_nonneg _)
    · rw [Int.tdiv_eq_ediv_of_nonneg hpos]
      exact Int.ediv_le_self _ hpos
  · obtain ⟨n, hn⟩ := Int.exists_eq_neg_ofNat hneg
    refine (inRange_toInt value).between inRange_zero ?_ ?_
    · rw [hn, Int.neg_tdiv, neg_le_neg_iff, Int.tdiv_eq_ediv_of_nonneg (Int.natCast_nonneg n)]
      exact Int.ediv_le_self _ (Int.natCast_nonneg n)
    · rw [hn, Int.neg_tdiv]
      exact neg_nonpos.mpr (Int.tdiv_nonneg (Int.natCast_nonneg _) (Int.natCast_nonneg _))

/-- A sum of values between two bounds, divided by their number. -/
theorem tdiv_between {l : List ℤ} {x y : ℤ} (hne : l ≠ []) (hx : ∀ z ∈ l, x ≤ z)
    (hy : ∀ z ∈ l, z ≤ y) : x ≤ l.sum.tdiv l.length ∧ l.sum.tdiv l.length ≤ y := by
  have hlen : 0 < (l.length : ℤ) := by exact_mod_cast List.length_pos_of_ne_nil hne
  have hlower : (l.length : ℤ) * x ≤ l.sum := by
    rw [← nsmul_eq_mul]
    exact List.card_nsmul_le_sum l x hx
  have hupper : l.sum ≤ (l.length : ℤ) * y := by
    rw [← nsmul_eq_mul]
    exact List.sum_le_card_nsmul l y hy
  -- the quotient is rounded towards zero: down when the sum is positive, up when it is negative
  rcases le_total 0 l.sum with hpos | hneg
  · rw [Int.tdiv_eq_ediv_of_nonneg hpos]
    exact ⟨(Int.le_ediv_iff_mul_le hlen).mpr (by rwa [mul_comm]),
      (Int.ediv_le_ediv hlen hupper).trans (by rw [Int.mul_ediv_cancel_left _ hlen.ne'])⟩
  · have hneg' : 0 ≤ -l.sum := neg_nonneg.mpr hneg
    have htdiv : l.sum.tdiv l.length = -(-l.sum / l.length) := by
      rw [← Int.tdiv_eq_ediv_of_nonneg hneg', Int.neg_tdiv, neg_neg]
    rw [htdiv]
    constructor
    · rw [le_neg]
      refine (Int.ediv_le_ediv hlen (neg_le_neg hlower)).trans ?_
      rw [← mul_neg, Int.mul_ediv_cancel_left _ hlen.ne']
    · rw [neg_le]
      refine (Int.le_ediv_iff_mul_le hlen).mpr ?_
      rw [neg_mul, neg_le_neg_iff, mul_comm]
      exact hupper

/-- A sum that is defined is right when it is a value of the type. -/
theorem toInt_sum (hne : b.available ≠ 0) (hfit : InRange α b.values.sum) {v : α}
    (hv : b.sum = some v) : toInt v = b.values.sum :=
  toInt_eq_of_modEq (modEq_of_total (sum_of_ne hne ▸ hv)) hfit

/-- **The average lies between the least and the greatest value**, when the sum is right. -/
theorem average_between (hne : b.available ≠ 0) (hfit : InRange α b.values.sum) {v : α}
    (hv : b.average = some v) : toInt v = b.values.sum.tdiv b.available.toNat ∧
      toInt b.min ≤ toInt v ∧ toInt v ≤ toInt b.max := by
  rw [average_of_ne hne] at hv
  obtain ⟨s, hs, rfl⟩ := Option.map_eq_some_iff.mp hv
  have hvalue : toInt (b.divided s) = b.values.sum.tdiv b.values.length := by
    rw [toInt_divided, toInt_sum hne hfit hs, length_values]
  have hnil : b.values ≠ [] :=
    List.ne_nil_of_length_pos (by rw [length_values]; exact available_pos hne)
  obtain ⟨hmin, hmax⟩ := tdiv_between hnil (isLeast_min hne).2 (isGreatest_max hne).2
  exact ⟨by rw [hvalue, length_values], hvalue ▸ hmin, hvalue ▸ hmax⟩

/-- When all sums on the way are values of the type, no addition overflows. -/
theorem exists_sum (hne : b.available ≠ 0) (hfit : b.SumsFit) : ∃ v, b.sum = some v := by
  obtain ⟨v, hv, -⟩ := total_of_inRange hfit
  exact ⟨v, (sum_of_ne hne).trans hv⟩

end Average

/-! ## Variance -/

section Variance

variable {b : ScalarBuffer α size} {mean : α}

/-- The square of the difference from the mean. -/
def square (mean x : α) : ℤ := (toInt x - toInt mean) * (toInt x - toInt mean)

/-- The squares of the differences from a mean. -/
def squares (b : ScalarBuffer α size) (mean : α) : List ℤ := b.contents.map (square mean)

theorem modEq_of_deviate {v x w : α} (h : deviate mean v x = some w) :
    toInt w ≡ toInt v + square mean x [ZMOD modulus α] := by
  simp only [deviate, Option.bind_eq_bind, Option.bind_eq_some_iff] at h
  obtain ⟨d, hd, q, hq, s, hs, hw⟩ := h
  obtain rfl := Option.some.inj hw
  have hd' := modEq_of_compute hd
  have hq' := (modEq_of_compute hq).trans (hd'.mul hd')
  exact (toInt_ofInt_modEq s).trans ((modEq_of_compute hs).trans (hq'.add_left _))

theorem square_nonneg (mean x : α) : 0 ≤ square mean x := mul_self_nonneg _

/-- A step is defined when its result is a value of the type. -/
theorem exists_deviate {v x : α} (hv : 0 ≤ toInt v) (h : InRange α (toInt v + square mean x)) :
    ∃ w, deviate mean v x = some w := by
  cases hwraps : (promoted α).wraps with
  | true =>
    obtain ⟨d, hd⟩ := exists_compute_of_wraps hwraps (toInt x - toInt mean)
    obtain ⟨q, hq⟩ := exists_compute_of_wraps hwraps (d * d)
    obtain ⟨s, hs⟩ := exists_compute_of_wraps hwraps (toInt v + q)
    exact ⟨ofInt s, by simp only [deviate, hd, hq, hs, Option.bind_eq_bind, Option.bind_some]; rfl⟩
  | false =>
    -- the difference is no farther from zero than its square
    have hsquare : InRange α (square mean x) :=
      inRange_zero.between h (square_nonneg mean x) (le_add_of_nonneg_left hv)
    have hle : |toInt x - toInt mean| ≤ square mean x := by
      rw [square, ← abs_mul_abs_self, ← pow_two]
      exact Int.le_self_sq _
    obtain ⟨hlower, hupper⟩ := abs_le.mp hle
    have hd := compute_of_neg hwraps hsquare hlower hupper
    have hq := compute_of_inRange hsquare
    have hs := compute_of_inRange h
    rw [square] at hq hs
    exact ⟨ofInt _, by simp only [deviate, hd, hq, hs, Option.bind_eq_bind, Option.bind_some]; rfl⟩

theorem variance_of_ne (hne : b.available ≠ 0) : b.variance = b.average.bind fun mean =>
    (b.contents.foldlM (deviate mean) (ofInt 0)).map b.divided := by
  simp only [variance, if_neg hne, Option.map_eq_bind]
  rfl

/-- A prefix of squares adds up to no more than all of them. -/
theorem inRange_sum_of_prefix {l p : List α} (hp : p <+: l)
    (h : InRange α (l.map (square mean)).sum) : InRange α (p.map (square mean)).sum := by
  have hnonneg (l : List α) : 0 ≤ (l.map (square mean)).sum := by
    refine List.sum_nonneg fun z hz => ?_
    obtain ⟨x, -, rfl⟩ := List.mem_map.mp hz
    exact square_nonneg mean x
  obtain ⟨rest, rfl⟩ := hp
  rw [List.map_append, List.sum_append] at h
  exact inRange_zero.between h (hnonneg p) (le_add_of_nonneg_right (hnonneg rest))

end Variance

/-! ## The statistics -/

/-- What the operations return for the values of a ring. -/
structure Describes (b : ScalarBuffer α size) : Prop where
  min : IsLeast {x | x ∈ b.values} (toInt b.min)
  max : IsGreatest {x | x ∈ b.values} (toInt b.max)
  /-- The sum is right modulo the number of values of the type, whatever overflows on the way. -/
  sum : ∀ v, b.sum = some v → toInt v ≡ b.values.sum [ZMOD modulus α]
  sum_exact : InRange α b.values.sum → ∀ v, b.sum = some v → toInt v = b.values.sum
  sum_defined : b.SumsFit → ∃ v, b.sum = some v
  average : InRange α b.values.sum → ∀ v, b.average = some v →
    toInt v = b.values.sum.tdiv b.available.toNat ∧ toInt b.min ≤ toInt v ∧ toInt v ≤ toInt b.max
  average_defined : b.SumsFit → ∃ v, b.average = some v
  /-- The variance is the quotient of a residue of the sum of the squares. -/
  variance : ∀ mean v, b.average = some mean → b.variance = some v →
    ∃ s : α, toInt s ≡ (b.squares mean).sum [ZMOD modulus α] ∧
      toInt v = (toInt s).tdiv b.available.toNat
  variance_exact : ∀ mean, b.average = some mean → InRange α (b.squares mean).sum →
    ∃ v, b.variance = some v ∧ toInt v = (b.squares mean).sum.tdiv b.available.toNat

/-- **The operations describe the stored values**, wherever they lie in the ring. -/
theorem statistics_describe (b : ScalarBuffer α size) (hne : b.available ≠ 0) : b.Describes where
  min := isLeast_min hne
  max := isGreatest_max hne
  sum v hv := modEq_of_total (sum_of_ne hne ▸ hv)
  sum_exact hfit _ hv := toInt_sum hne hfit hv
  sum_defined := exists_sum hne
  average hfit _ hv := average_between hne hfit hv
  average_defined hfit := by
    obtain ⟨v, hv⟩ := exists_sum hne hfit
    exact ⟨b.divided v, by rw [average_of_ne hne, hv, Option.map_some]⟩
  variance mean v hmean hv := by
    rw [variance_of_ne hne, hmean, Option.bind_some] at hv
    obtain ⟨s, hs, rfl⟩ := Option.map_eq_some_iff.mp hv
    have hmod := modEq_of_foldlM (fun _ _ _ => modEq_of_deviate) hs
    rw [toInt_ofInt_zero, zero_add] at hmod
    exact ⟨s, hmod, toInt_divided b s⟩
  variance_exact mean hmean hfit := by
    have hzero : (0 : ℤ) ≤ toInt (ofInt 0 : α) := toInt_ofInt_zero.ge
    obtain ⟨s, hs, heq⟩ := foldlM_of_inRange (P := (0 ≤ ·)) (g := square mean) (v := ofInt 0)
      (l := b.contents) (fun _ _ _ => modEq_of_deviate) (fun _ _ => exists_deviate)
      (fun x z hx => Int.add_nonneg hx (square_nonneg mean z)) hzero fun p hp => by
        rw [toInt_ofInt_zero, zero_add]
        exact inRange_sum_of_prefix hp hfit
    rw [toInt_ofInt_zero, zero_add] at heq
    refine ⟨b.divided s, ?_, ?_⟩
    · rw [variance_of_ne hne, hmean, Option.bind_some, hs, Option.map_some]
    · rw [toInt_divided, heq]
      rfl

/-- Three values whose sum is no value of their type. -/
theorem statistics_describe_three :
    (([200, 100, 3] : List UInt8).foldl write
      (create fun _ => 0 : ScalarBuffer UInt8 4)).Describes :=
  statistics_describe _ (by decide)

end ScalarBuffer
