import Mathlib.Data.Nat.ModEq
import Mathlib.Data.Nat.Bitwise
import Mathlib.Data.UInt
import Mathlib.Tactic.Linarith

/-!
# The indices of a ring

For a power of two `_size` the masks of the ring reduce its indices modulo `_size` and modulo
`2 * _size`.  The second index is the first one plus the number of items, so that an empty and a
full ring are told apart.

## Main definitions

* `Indices`: the two indices of a ring with a number of items

## Main results

* `Indices.full_iff`: the test of fullness
* `Indices.next_tail`, `next_both`, `previous_head`, `previous_both`, `next_head`, `previous_tail`:
  the steps of the indices
-/

namespace CircularBuffer

variable {size : UInt16}

/-! ## Index arithmetic -/

theorem mod_of_lt_two_mul {a m : ℕ} (h : a < 2 * m) : a % m = if a < m then a else a - m := by
  split
  · rename_i hlt
    exact Nat.mod_eq_of_lt hlt
  · rw [Nat.mod_eq_sub_mod (by omega), Nat.mod_eq_of_lt (by omega)]

/-- Numbers less than `m` apart select different rows. -/
theorem add_mod_ne_add_mod {a i j m : ℕ} (hi : i < m) (hj : j < m) (h : i ≠ j) :
    (a + i) % m ≠ (a + j) % m := by
  intro he
  exact h (Nat.ModEq.eq_of_lt_of_lt (Nat.ModEq.add_left_cancel' a he) hi hj)

theorem toNat_sub_one_mod {m : ℕ} (hm : m ∣ 65536) (x : UInt16) :
    (x - 1).toNat % m = (x.toNat + (m - 1)) % m := by
  obtain ⟨c, hc⟩ := hm
  have hmpos : 0 < m := Nat.pos_of_ne_zero fun h => by simp [h] at hc
  have hcpos : 0 < c := Nat.pos_of_ne_zero fun h => by simp [h] at hc
  have hle : m ≤ m * c := Nat.le_mul_of_pos_right m hcpos
  rw [UInt16.toNat_sub]
  simp only [UInt16.reduceToNat]
  rw [show (2 : ℕ) ^ 16 = 65536 from rfl, Nat.mod_mod_of_dvd _ ⟨c, hc⟩]
  obtain ⟨e, rfl⟩ : ∃ e, c = e + 1 := ⟨c - 1, by omega⟩
  have hsum : 65536 - 1 + x.toNat = x.toNat + (m - 1) + m * e := by
    rw [hc, Nat.mul_succ]; omega
  rw [hsum, Nat.add_mul_mod_self_left]

/-- The cells from the next index on. -/
theorem add_mod_of_next {x y m : ℕ} (h : (x + 1) % (2 * m) = y) (i : ℕ) :
    (y + i) % m = (x + (i + 1)) % m := by
  rw [← h, ← Nat.mod_add_mod, Nat.mod_mod_of_dvd _ (Nat.dvd_mul_left _ 2), Nat.mod_add_mod,
    Nat.add_assoc, Nat.add_comm 1]

/-- Two different indices can be moved to different sides of the last cell. -/
theorem exists_move {x y s : ℕ} (hx : x < 2 * s) (hy : y < 2 * s) (hne : x ≠ y) :
    ∃ n, (x + n) % (2 * s) < s ∧ ¬(y + n) % (2 * s) < s := by
  -- `x` is moved to the first cell, or so far that `y` is just behind the last
  have hmove {z n r : ℕ} (h : z + n = r + 2 * s) (hr : r < 2 * s) : (z + n) % (2 * s) = r := by
    rw [h, Nat.add_mod_right, Nat.mod_eq_of_lt hr]
  rcases Nat.lt_or_gt_of_ne hne with hlt | hgt
  · rcases Nat.lt_or_ge (y - x) s with hnear | hfar
    · refine ⟨2 * s - x + (s - (y - x)), ?_, ?_⟩
      · rw [hmove (r := s - (y - x)) (by omega) (by omega)]
        omega
      · rw [hmove (r := s) (by omega) (by omega)]
        exact Nat.lt_irrefl s
    · refine ⟨2 * s - x, ?_, ?_⟩
      · rw [hmove (r := 0) (by omega) (by omega)]
        omega
      · rw [hmove (r := y - x) (by omega) (by omega)]
        omega
  · rcases Nat.lt_or_ge s (x - y) with hfar | hnear
    · refine ⟨s - y, ?_, ?_⟩
      · rw [hmove (r := x - y - s) (by omega) (by omega)]
        omega
      · rw [Nat.add_sub_cancel' (by omega), Nat.mod_eq_of_lt (by omega)]
        exact Nat.lt_irrefl s
    · refine ⟨2 * s - x, ?_, ?_⟩
      · rw [hmove (r := 0) (by omega) (by omega)]
        omega
      · rw [Nat.mod_eq_of_lt (by omega)]
        omega

/-! ## The number of items -/

theorem toNat_available_succ (available : UInt16) :
    (if available < size then available + 1 else available).toNat =
      if available.toNat < size.toNat then available.toNat + 1 else available.toNat := by
  have hlt := size.toNat_lt
  simp only [UInt16.lt_iff_toNat_lt]
  split
  · rw [UInt16.toNat_add, UInt16.toNat_one, Nat.mod_eq_of_lt (by omega)]
  · rfl

theorem toNat_available_pred {available : UInt16} (h : 0 < available.toNat) :
    (if available ≠ 0 then available - 1 else available).toNat = available.toNat - 1 := by
  have hlt := available.toNat_lt
  have hne : available ≠ 0 := fun h0 => by simp [h0] at h
  rw [if_pos hne, UInt16.toNat_sub]
  simp only [UInt16.reduceToNat]
  omega

/-! ## Powers of two -/

section PowerOfTwo

variable {k : ℕ} (hk : size.toNat = 2 ^ k)

include hk

theorem size_pos : 0 < size.toNat := hk ▸ Nat.two_pow_pos k

theorem exponent_lt : k < 16 := by
  have h : 2 ^ k < 2 ^ 16 := hk ▸ size.toNat_lt
  exact (Nat.pow_lt_pow_iff_right (by norm_num)).mp h

theorem two_mul_size_dvd : 2 * size.toNat ∣ 65536 := by
  rw [hk, ← Nat.pow_succ', show (65536 : ℕ) = 2 ^ 16 from rfl]
  exact Nat.pow_dvd_pow 2 (exponent_lt hk)

theorem toNat_and_rowMask (x : UInt16) : (x &&& (size - 1)).toNat = x.toNat % size.toNat := by
  have hpos := size_pos hk
  have hlt := size.toNat_lt
  have hmask : (size - 1).toNat = 2 ^ k - 1 := by
    rw [UInt16.toNat_sub, ← hk]
    simp only [UInt16.reduceToNat]
    omega
  rw [UInt16.toNat_and, hmask, Nat.and_two_pow_sub_one_eq_mod, hk]

theorem toNat_and_indexMask (x : UInt16) :
    (x &&& (2 * size - 1)).toNat = x.toNat % (2 * size.toNat) := by
  have hpos := size_pos hk
  have hle : 2 * size.toNat ≤ 65536 := Nat.le_of_dvd (by norm_num) (two_mul_size_dvd hk)
  have hmask : (2 * size - 1).toNat = 2 ^ (k + 1) - 1 := by
    rw [Nat.pow_succ', ← hk, UInt16.toNat_sub, UInt16.toNat_mul]
    simp only [UInt16.reduceToNat]
    omega
  rw [UInt16.toNat_and, hmask, Nat.and_two_pow_sub_one_eq_mod, Nat.pow_succ', hk]

theorem toNat_masked_lt (i : UInt16) : (i &&& (2 * size - 1)).toNat < 2 * size.toNat := by
  have hpos := size_pos hk
  rw [toNat_and_indexMask hk]
  exact Nat.mod_lt _ (by omega)

theorem toNat_next (x : UInt16) :
    ((x + 1) &&& (2 * size - 1)).toNat = (x.toNat + 1) % (2 * size.toNat) := by
  rw [toNat_and_indexMask hk, UInt16.toNat_add]
  exact Nat.mod_mod_of_dvd _ (two_mul_size_dvd hk)

theorem toNat_previous (x : UInt16) :
    ((x - 1) &&& (2 * size - 1)).toNat = (x.toNat + (2 * size.toNat - 1)) % (2 * size.toNat) := by
  rw [toNat_and_indexMask hk, toNat_sub_one_mod (two_mul_size_dvd hk)]

theorem toNat_xor_size {x : UInt16} (hx : x.toNat < 2 * size.toNat) :
    (x ^^^ size).toNat = (x.toNat + size.toNat) % (2 * size.toNat) := by
  have hpos := size_pos hk
  have hdiv : (x ^^^ size).toNat / size.toNat = x.toNat / size.toNat ^^^ 1 := by
    rw [UInt16.toNat_xor, hk, Nat.xor_div_two_pow, Nat.div_self (Nat.two_pow_pos k)]
  have hmod : (x ^^^ size).toNat % size.toNat = x.toNat % size.toNat := by
    rw [UInt16.toNat_xor, hk, Nat.xor_mod_two_pow, Nat.mod_self, Nat.xor_zero]
  have hsplit := Nat.div_add_mod (x ^^^ size).toNat size.toNat
  rw [hdiv, hmod] at hsplit
  rw [mod_of_lt_two_mul (by omega)]
  rcases Nat.lt_or_ge x.toNat size.toNat with h | h
  · rw [Nat.div_eq_of_lt h, Nat.mod_eq_of_lt h, Nat.zero_xor, Nat.mul_one] at hsplit
    rw [if_pos (by omega)]
    omega
  · have hone : x.toNat / size.toNat = 1 := Nat.div_eq_of_lt_le (by omega) (by omega)
    rw [hone, Nat.xor_self, Nat.mul_zero, mod_of_lt_two_mul hx, if_neg (by omega)] at hsplit
    rw [if_neg (by omega)]
    omega

end PowerOfTwo

theorem sixteen_eq : (16 : UInt16).toNat = 2 ^ 4 := rfl

/-! ## Two indices -/

/-- The indices of the first of `n` items, and behind the last. -/
structure Indices (size head tail : UInt16) (n : ℕ) : Prop where
  head_lt : head.toNat < 2 * size.toNat
  le : n ≤ size.toNat
  tail_eq : tail.toNat = (head.toNat + n) % (2 * size.toNat)

namespace Indices

variable {head tail : UInt16} {n : ℕ}

/-- The cell of `tail` is the one behind the last item. -/
theorem tail_mod (h : Indices size head tail n) :
    tail.toNat % size.toNat = (head.toNat + n) % size.toNat := by
  rw [h.tail_eq, Nat.mod_mod_of_dvd _ (Nat.dvd_mul_left _ 2)]

section PowerOfTwo

variable {k : ℕ} (hk : size.toNat = 2 ^ k)

include hk

theorem zero : Indices size 0 0 0 :=
  ⟨Nat.mul_pos Nat.two_pos (size_pos hk), Nat.zero_le _, by simp⟩

/-- The test of fullness holds exactly when the ring is full. -/
theorem full_iff (h : Indices size head tail n) :
    tail = head ^^^ size ↔ n = size.toNat := by
  have hlt := h.head_lt
  have hle := h.le
  rw [← UInt16.toNat_inj, toNat_xor_size hk h.head_lt, h.tail_eq, mod_of_lt_two_mul (by omega),
    mod_of_lt_two_mul (by omega)]
  split <;> split <;> omega

theorem next_tail (h : Indices size head tail n) (hn : n < size.toNat) :
    Indices size head ((tail + 1) &&& (2 * size - 1)) (n + 1) := by
  refine ⟨h.head_lt, hn, ?_⟩
  rw [toNat_next hk, h.tail_eq, Nat.mod_add_mod, Nat.add_assoc]

theorem next_both (h : Indices size head tail n) :
    Indices size ((head + 1) &&& (2 * size - 1)) ((tail + 1) &&& (2 * size - 1)) n := by
  have hpos := size_pos hk
  constructor
  · exact toNat_masked_lt hk _
  · exact h.le
  · rw [toNat_next hk, toNat_next hk, h.tail_eq, Nat.mod_add_mod, Nat.mod_add_mod]
    congr 1
    omega

theorem next_head (h : Indices size head tail n) (hn : 0 < n) :
    Indices size ((head + 1) &&& (2 * size - 1)) tail (n - 1) := by
  have hpos := size_pos hk
  constructor
  · exact toNat_masked_lt hk _
  · exact (Nat.sub_le n 1).trans h.le
  · rw [h.tail_eq, toNat_next hk, Nat.mod_add_mod]
    congr 1
    omega

/-- The index after the one before. -/
theorem toNat_previous_add_one {x : UInt16} (hx : x.toNat < 2 * size.toNat) :
    (((x - 1) &&& (2 * size - 1)).toNat + 1) % (2 * size.toNat) = x.toNat := by
  have hpos := size_pos hk
  rw [toNat_previous hk, Nat.mod_add_mod, Nat.add_assoc, Nat.sub_add_cancel (by omega),
    Nat.add_mod_right, Nat.mod_eq_of_lt hx]

theorem previous_head (h : Indices size head tail n) (hn : n < size.toNat) :
    Indices size ((head - 1) &&& (2 * size - 1)) tail (n + 1) := by
  have hpos := size_pos hk
  constructor
  · exact toNat_masked_lt hk _
  · exact hn
  · rw [h.tail_eq, ← toNat_previous_add_one hk h.head_lt, Nat.mod_add_mod]
    congr 1
    omega

theorem previous_tail (h : Indices size head tail n) (hn : 0 < n) :
    Indices size head ((tail - 1) &&& (2 * size - 1)) (n - 1) := by
  have hpos := size_pos hk
  refine ⟨h.head_lt, (Nat.sub_le n 1).trans h.le, ?_⟩
  rw [toNat_previous hk, h.tail_eq, Nat.mod_add_mod, show head.toNat + n + (2 * size.toNat - 1) =
    head.toNat + (n - 1) + 2 * size.toNat by omega, Nat.add_mod_right]

theorem previous_both (h : Indices size head tail n) :
    Indices size ((head - 1) &&& (2 * size - 1)) ((tail - 1) &&& (2 * size - 1)) n := by
  have hpos := size_pos hk
  constructor
  · exact toNat_masked_lt hk _
  · exact h.le
  · rw [toNat_previous hk, toNat_previous hk, h.tail_eq, Nat.mod_add_mod, Nat.mod_add_mod]
    congr 1
    omega

end PowerOfTwo

end Indices

end CircularBuffer
