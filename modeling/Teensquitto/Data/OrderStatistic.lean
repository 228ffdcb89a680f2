import Mathlib.Data.List.Sort
import Mathlib.Tactic.Common

/-!
# Order statistics

The value at a position of a list in ascending order, found by sorting or by counting the values
that are smaller.

## Main definitions

* `OrderStatistic.Ranks`: a value has a rank in a list
* `OrderStatistic.IsMedian`: the middle one of a list of integers, or half the sum of the two

## Main results

* `OrderStatistic.getElem?_ascending_iff`: the value at a position is the one of this rank
* `OrderStatistic.eq_ascending_iff`: the sorted list is the only one in ascending order
-/

namespace OrderStatistic

universe u

variable {α : Type u} [LinearOrder α] {l s : List α} {i : ℕ} {v : α}

/-- The list in ascending order. -/
def ascending (l : List α) : List α := l.insertionSort (· ≤ ·)

/-- No more than `i` values are smaller than `v`, and more than `i` are not greater. -/
def Ranks (l : List α) (i : ℕ) (v : α) : Prop :=
  l.countP (· < v) ≤ i ∧ i < l.countP (· ≤ v)

instance : Decidable (Ranks l i v) := inferInstanceAs (Decidable (_ ∧ _))

/-- In a list in ascending order the values with a downward closed property come first. -/
theorem lt_countP_iff (hs : s.Pairwise (· ≤ ·)) {p : α → Bool}
    (hp : ∀ x y, x ≤ y → p y = true → p x = true) :
    i < s.countP p ↔ ∃ x, s[i]? = some x ∧ p x = true := by
  induction s generalizing i with
  | nil => simp
  | cons a s ih =>
    obtain ⟨hle, hs⟩ := List.pairwise_cons.mp hs
    by_cases ha : p a = true
    · rw [List.countP_cons_of_pos ha]
      cases i with
      | zero => simp [ha]
      | succ i => rw [Nat.add_lt_add_iff_right, ih hs, List.getElem?_cons_succ]
    · -- behind a value without the property none has it
      have hnone : ∀ x ∈ a :: s, p x ≠ true := by
        rw [List.forall_mem_cons]
        exact ⟨ha, fun x hx hpx => ha (hp a x (hle x hx) hpx)⟩
      rw [List.countP_eq_zero.mpr hnone]
      refine iff_of_false (Nat.not_lt_zero i) ?_
      rintro ⟨x, hx, hpx⟩
      exact hnone x (List.mem_of_getElem? hx) hpx

/-- The value at a position of a list in ascending order. -/
theorem getElem?_eq_some_iff (hs : s.Pairwise (· ≤ ·)) : s[i]? = some v ↔ Ranks s i v := by
  have hlt : i < s.countP (· < v) ↔ ∃ x, s[i]? = some x ∧ x < v := by
    simpa using lt_countP_iff hs (p := (· < v)) fun x y hxy hy => by
      simpa using lt_of_le_of_lt hxy (of_decide_eq_true hy)
  have hle : i < s.countP (· ≤ v) ↔ ∃ x, s[i]? = some x ∧ x ≤ v := by
    simpa using lt_countP_iff hs (p := (· ≤ v)) fun x y hxy hy => by
      simpa using le_trans hxy (of_decide_eq_true hy)
  rw [Ranks, ← Nat.not_lt, hlt, hle]
  constructor
  · intro h
    refine ⟨?_, v, h, le_refl v⟩
    rintro ⟨x, hx, hxv⟩
    exact absurd (Option.some.inj (hx.symm.trans h)) (ne_of_lt hxv)
  · rintro ⟨hnot, x, hx, hxv⟩
    rw [hx, eq_of_le_of_not_lt hxv fun h => hnot ⟨x, hx, h⟩]

theorem perm_ascending (l : List α) : (ascending l).Perm l := List.perm_insertionSort _ l

theorem pairwise_ascending (l : List α) : (ascending l).Pairwise (· ≤ ·) :=
  List.pairwise_insertionSort _ l

@[simp] theorem length_ascending (l : List α) : (ascending l).length = l.length :=
  List.length_insertionSort _ l

/-- **The value at a position is the one of this rank.** -/
theorem getElem?_ascending_iff : (ascending l)[i]? = some v ↔ Ranks l i v := by
  have hperm := perm_ascending l
  rw [getElem?_eq_some_iff (pairwise_ascending l), Ranks, Ranks, hperm.countP_eq, hperm.countP_eq]

/-- **The sorted list** is the only one in ascending order. -/
theorem eq_ascending_iff : s = ascending l ↔ s.Perm l ∧ s.Pairwise (· ≤ ·) := by
  constructor
  · rintro rfl
    exact ⟨perm_ascending l, pairwise_ascending l⟩
  · rintro ⟨hperm, hs⟩
    exact (hperm.trans (perm_ascending l).symm).eq_of_pairwise (fun _ _ _ _ => le_antisymm) hs
      (pairwise_ascending l)

/-- The middle one of the values in ascending order, or half the sum of the two middle ones. -/
def IsMedian (l : List ℤ) (v : ℤ) : Prop :=
  if l.length % 2 = 0 then
    ∃ x y, (ascending l)[l.length / 2 - 1]? = some x ∧ (ascending l)[l.length / 2]? = some y ∧
      v = (x + y).tdiv 2
  else (ascending l)[l.length / 2]? = some v

theorem IsMedian.unique {l : List ℤ} {v w : ℤ} (hv : IsMedian l v) (hw : IsMedian l w) :
    v = w := by
  unfold IsMedian at hv hw
  split at hv
  · rw [if_pos ‹_›] at hw
    obtain ⟨x, y, hx, hy, rfl⟩ := hv
    obtain ⟨x', y', hx', hy', rfl⟩ := hw
    rw [Option.some.inj (hx.symm.trans hx'), Option.some.inj (hy.symm.trans hy')]
  · rw [if_neg ‹_›] at hw
    exact Option.some.inj (hv.symm.trans hw)

end OrderStatistic
