import Teensquitto.CircularBuffer.BlockWrites
import Teensquitto.Data.IntegerType
import Teensquitto.Data.OrderStatistic

/-!
# The median of a ring of values

`median(override)` reads the middle of the ring.  With `override` the ring has been sorted by then;
without it a copy is sorted that nothing reads, and the middle is that of the values as they lie in
the ring.

## Main definitions

* `ScalarBuffer.sortAscending`, `ScalarBuffer.median`: the operations
* `ScalarBuffer.MedianFound`: both kinds of call return the median
* `ScalarBuffer.Apart`, `ScalarBuffer.Centered`: when they do

## Main results

* `ScalarBuffer.contents_sortAscending_iff`: when sorting in place sorts the values
* `ScalarBuffer.medianFound_iff`: when both kinds of call return the median
-/

namespace ScalarBuffer

open OrderStatistic
open CircularBuffer (add_mod_ne_add_mod)
open IntegerType (toInt toInt_injective half Fits half_of_fits)

variable {α : Type} {size : UInt16}

/-- `(head+i)&(_size-1)`. -/
def place (b : ScalarBuffer α size) (i : ℕ) : ℕ := b.cell (b.head + UInt16.ofNat i)

theorem getElem?_contents (b : ScalarBuffer α size) {i : ℕ} (hi : i < b.available.toNat) :
    b.contents[i]? = some (b.cbuf (b.place i)) := by
  simp [contents, place, hi]

/-- Store the values in the cells `place 0`, `place 1`, ... one after the other. -/
def assign (place : ℕ → ℕ) (cbuf : Memory α) (l : List α) : Memory α :=
  l.zipIdx.foldl (fun m p => m.set (place p.2) p.1) cbuf

theorem assign_concat (place : ℕ → ℕ) (cbuf : Memory α) (l : List α) (x : α) :
    assign place cbuf (l ++ [x]) = (assign place cbuf l).set (place l.length) x := by
  simp [assign, List.zipIdx_append]

/-- A cell holds the last value that was stored in it. -/
theorem assign_apply (place : ℕ → ℕ) (cbuf : Memory α) (l : List α) {i : ℕ} (hi : i < l.length) :
    ∃ j, i ≤ j ∧ place j = place i ∧ l[j]? = some (assign place cbuf l (place i)) := by
  -- Induction from the end: the last store decides, or the cell keeps what it held.
  induction l using List.reverseRecOn with
  | nil => exact absurd hi (Nat.not_lt_zero i)
  | append_singleton l x ih =>
    rw [assign_concat]
    by_cases hlast : place l.length = place i
    · refine ⟨l.length, ?_, hlast, ?_⟩
      · rw [List.length_append, List.length_singleton] at hi
        omega
      · rw [List.getElem?_concat_length, ← hlast, Memory.set_self]
    · have hlt : i < l.length := by
        rw [List.length_append, List.length_singleton] at hi
        have hne : i ≠ l.length := fun h => hlast (by rw [h])
        omega
      obtain ⟨j, hij, hplace, hj⟩ := ih hlt
      refine ⟨j, hij, hplace, ?_⟩
      rw [List.getElem?_append_left (List.getElem?_eq_some_iff.mp hj).1, hj,
        Memory.set_of_ne _ _ (Ne.symm hlast)]

/-! ## The operations -/

section Operations

variable [IntegerType α]

/-- `std::sort`. -/
def sort (l : List α) : List α := l.insertionSort fun x y => toInt x ≤ toInt y

/-- `sort_ascending()`. -/
def sortAscending (b : ScalarBuffer α size) : ScalarBuffer α size :=
  if b.available = 0 then b else { b with cbuf := assign b.place b.cbuf (sort b.contents) }

/-- The values in the middle: `_cbuf[...]`, or the half of the two, nothing when their sum is
undefined. -/
def middle (b : ScalarBuffer α size) : Option α :=
  let m := b.available.toNat / 2
  if b.available % 2 = 0 then half (b.cbuf (b.place (m - 1))) (b.cbuf (b.place m))
  else some (b.cbuf (b.place m))

/-- `median(override)`: the value, and the buffer behind the call. -/
def median (b : ScalarBuffer α size) (override : Bool) : Option α × ScalarBuffer α size :=
  if b.available = 0 then (some (IntegerType.ofInt 0), b)
  else if override then (b.sortAscending.middle, b.sortAscending)
  -- the copy that is sorted here is not read again
  else (b.middle, b)

/-- The values as integers. -/
def values (b : ScalarBuffer α size) : List ℤ := b.contents.map toInt

/-- The values are sorted where they lie: no two positions that share a cell get different
values. -/
def Apart (b : ScalarBuffer α size) : Prop :=
  ∀ j < b.available.toNat, ∀ i < j, b.place i = b.place j →
    (ascending b.values)[i]? = (ascending b.values)[j]?

/-- The middle of the ring has the rank of the median. -/
def Centered (b : ScalarBuffer α size) : Prop :=
  let m := b.available.toNat / 2
  if b.available % 2 = 0 then
    ∃ x y, Ranks b.values (m - 1) x ∧ Ranks b.values m y ∧
      ∃ v, half (b.cbuf (b.place (m - 1))) (b.cbuf (b.place m)) = some v ∧
        toInt v = (x + y).tdiv 2
  else Ranks b.values m (toInt (b.cbuf (b.place m)))

/-- For an even number of values, the sum of the two middle ones does not overflow. -/
def MiddleFits (b : ScalarBuffer α size) : Prop :=
  b.available % 2 = 0 → ∀ x y : α, (sort b.contents)[b.available.toNat / 2 - 1]? = some x →
    (sort b.contents)[b.available.toNat / 2]? = some y → Fits x y

/-- Both kinds of call return the median, and leave the values as they should. -/
structure MedianFound (b : ScalarBuffer α size) : Prop where
  found : ∃ v, (b.median false).1 = some v ∧ (b.median true).1 = some v ∧
    IsMedian b.values (toInt v)
  unchanged : (b.median false).2 = b
  perm : (b.median true).2.contents.Perm b.contents
  ascending : (b.median true).2.values.Pairwise (· ≤ ·)
  head_eq : (b.median true).2.head = b.head
  tail_eq : (b.median true).2.tail = b.tail
  available_eq : (b.median true).2.available = b.available

end Operations

/-! ## Sorting in place -/

section Sorting

variable [IntegerType α] {b : ScalarBuffer α size}

theorem map_sort (l : List α) : (sort l).map toInt = ascending (l.map toInt) :=
  List.map_insertionSort _ _ toInt l fun _ _ _ _ => Iff.rfl

theorem perm_sort (l : List α) : (sort l).Perm l := List.perm_insertionSort _ l

@[simp] theorem length_sort (l : List α) : (sort l).length = l.length :=
  List.length_insertionSort _ l

theorem contents_eq_sort_iff {l l' : List α} :
    l' = sort l ↔ l'.Perm l ∧ (l'.map toInt).Pairwise (· ≤ ·) := by
  constructor
  · rintro rfl
    refine ⟨perm_sort l, ?_⟩
    rw [map_sort]
    exact pairwise_ascending _
  · rintro ⟨hperm, hpairwise⟩
    apply List.map_injective_iff.mpr (toInt_injective (α := α))
    rw [map_sort]
    exact eq_ascending_iff.mpr ⟨hperm.map toInt, hpairwise⟩

theorem sortAscending_of_ne (hne : b.available ≠ 0) :
    b.sortAscending = { b with cbuf := assign b.place b.cbuf (sort b.contents) } :=
  if_neg hne

/-! Sorting stores values and changes nothing else. -/

@[simp] theorem head_sortAscending (b : ScalarBuffer α size) :
    b.sortAscending.head = b.head := by
  rw [sortAscending, apply_ite head, ite_self]

@[simp] theorem tail_sortAscending (b : ScalarBuffer α size) :
    b.sortAscending.tail = b.tail := by
  rw [sortAscending, apply_ite tail, ite_self]

@[simp] theorem available_sortAscending (b : ScalarBuffer α size) :
    b.sortAscending.available = b.available := by
  rw [sortAscending, apply_ite available, ite_self]

theorem place_sortAscending (b : ScalarBuffer α size) (i : ℕ) :
    b.sortAscending.place i = b.place i := by
  rw [place, head_sortAscending]
  rfl

theorem getElem?_contents_sortAscending {i : ℕ} (hi : i < b.available.toNat) :
    b.sortAscending.contents[i]? = some (b.sortAscending.cbuf (b.place i)) := by
  rw [getElem?_contents _ (by rwa [available_sortAscending]), place_sortAscending]

theorem getElem?_ascending_values (b : ScalarBuffer α size) (i : ℕ) :
    (ascending b.values)[i]? = (sort b.contents)[i]?.map toInt := by
  rw [values, ← map_sort, List.getElem?_map]

/-- A position is read back with the value that was last stored in its cell. -/
theorem exists_sorted (hne : b.available ≠ 0) {i : ℕ} (hi : i < b.available.toNat) :
    ∃ j, i ≤ j ∧ b.place j = b.place i ∧
      (sort b.contents)[j]? = some (b.sortAscending.cbuf (b.place i)) := by
  rw [sortAscending_of_ne hne]
  exact assign_apply b.place b.cbuf (sort b.contents) (by simpa using hi)

/-- **Sorting in place sorts the values** exactly when no two positions that share a cell get
different values. -/
theorem contents_sortAscending_iff (hne : b.available ≠ 0) :
    b.sortAscending.contents = sort b.contents ↔ b.Apart := by
  constructor
  · intro hsorted j hj i hi hcell
    rw [getElem?_ascending_values, getElem?_ascending_values, ← hsorted,
      getElem?_contents_sortAscending (hi.trans hj), getElem?_contents_sortAscending hj, hcell]
  · intro hapart
    refine List.ext_getElem? fun i => ?_
    rcases Nat.lt_or_ge i b.available.toNat with hi | hi
    · obtain ⟨j, hij, hcell, hj⟩ := exists_sorted hne hi
      rw [getElem?_contents_sortAscending hi, ← hj]
      rcases Nat.lt_or_eq_of_le hij with hlt | rfl
      · have hjlt : j < b.available.toNat := by
          simpa using (List.getElem?_eq_some_iff.mp hj).1
        have hsame := hapart j hjlt i hlt hcell.symm
        rw [getElem?_ascending_values, getElem?_ascending_values] at hsame
        exact (Option.map_injective toInt_injective hsame).symm
      · rfl
    · rw [List.getElem?_eq_none (by simpa using hi), List.getElem?_eq_none (by simpa using hi)]

/-- In a ring of a power of two cells that holds no more values than it has cells, the values lie
apart. -/
theorem apart_of_le {k : ℕ} (hk : size.toNat = 2 ^ k) (hle : b.available ≤ size) : b.Apart := by
  intro j hj i hij hcell
  have hbound := UInt16.le_iff_toNat_le.mp hle
  rw [place, place, Represents.cell_add hk, Represents.cell_add hk] at hcell
  exact absurd hcell (add_mod_ne_add_mod (by omega) (by omega) (by omega))

end Sorting

/-! ## The middle -/

section Middle

variable [IntegerType α] {b : ScalarBuffer α size}

theorem even_iff (b : ScalarBuffer α size) :
    b.available % 2 = 0 ↔ b.values.length % 2 = 0 := by
  rw [← UInt16.toNat_inj, values, List.length_map, length_contents]
  rfl

theorem length_values (b : ScalarBuffer α size) : b.values.length = b.available.toNat := by
  rw [values, List.length_map, length_contents]

/-- The middle of the ring as it lies is the median exactly when it has the median's rank. -/
theorem centered_iff : b.Centered ↔ ∃ v, b.middle = some v ∧ IsMedian b.values (toInt v) := by
  simp only [Centered, middle, IsMedian, getElem?_ascending_iff, even_iff, length_values]
  split
  · constructor
    · rintro ⟨x, y, hx, hy, v, hv, hsum⟩
      exact ⟨v, hv, x, y, hx, hy, hsum⟩
    · rintro ⟨v, hv, x, y, hx, hy, hsum⟩
      exact ⟨x, y, hx, hy, v, hv, hsum⟩
  · constructor
    · intro hrank
      exact ⟨_, rfl, hrank⟩
    · rintro ⟨v, hv, hrank⟩
      rwa [Option.some.inj hv]

/-- Once the values are sorted the middle of the ring is the median. -/
theorem middle_sortAscending (hne : b.available ≠ 0) (hfits : b.MiddleFits) (hapart : b.Apart) :
    ∃ v, b.sortAscending.middle = some v ∧ IsMedian b.values (toInt v) := by
  have hsorted := (contents_sortAscending_iff hne).mpr hapart
  have hpos : 0 < b.available.toNat := by
    rw [Nat.pos_iff_ne_zero]
    exact fun h0 => hne (UInt16.toNat_inj.mp h0)
  have hread (i : ℕ) (hi : i < b.available.toNat) :
      (sort b.contents)[i]? = some (b.sortAscending.cbuf (b.sortAscending.place i)) := by
    rw [← hsorted, getElem?_contents_sortAscending hi, place_sortAscending]
  have hascending (i : ℕ) (hi : i < b.available.toNat) :
      (ascending b.values)[i]? =
        some (toInt (b.sortAscending.cbuf (b.sortAscending.place i))) := by
    rw [getElem?_ascending_values, hread i hi, Option.map_some]
  by_cases heven : b.available % 2 = 0
  · -- the two middle ones are in order, so that half of their sum is between them
    have hfirst : b.available.toNat / 2 - 1 < b.available.toNat := by omega
    have hsecond : b.available.toNat / 2 < b.available.toNat := by omega
    have hlt : b.available.toNat / 2 - 1 < b.available.toNat / 2 := by
      have := (even_iff b).mp heven
      rw [length_values] at this
      omega
    obtain ⟨hfirst', hx⟩ := List.getElem?_eq_some_iff.mp (hascending _ hfirst)
    obtain ⟨hsecond', hy⟩ := List.getElem?_eq_some_iff.mp (hascending _ hsecond)
    have hle := List.pairwise_iff_getElem.mp (pairwise_ascending b.values) _ _ hfirst' hsecond' hlt
    rw [hx, hy] at hle
    obtain ⟨v, hv, hsum⟩ :=
      half_of_fits (hfits heven _ _ (hread _ hfirst) (hread _ hsecond)) hle
    refine ⟨v, ?_, ?_⟩
    · rw [middle, available_sortAscending, if_pos heven]
      exact hv
    · rw [IsMedian, if_pos ((even_iff b).mp heven), length_values]
      exact ⟨_, _, hascending _ hfirst, hascending _ hsecond, hsum⟩
  · refine ⟨b.sortAscending.cbuf (b.sortAscending.place (b.available.toNat / 2)), ?_, ?_⟩
    · rw [middle, available_sortAscending, if_neg heven]
    · rw [IsMedian, if_neg (mt (even_iff b).mpr heven), length_values]
      exact hascending _ (by omega)

theorem median_false (hne : b.available ≠ 0) : b.median false = (b.middle, b) := by
  rw [median, if_neg hne, if_neg Bool.false_ne_true]

theorem median_true (hne : b.available ≠ 0) :
    b.median true = (b.sortAscending.middle, b.sortAscending) := by
  rw [median, if_neg hne, if_pos rfl]

/-- **Both kinds of call return the median** of a ring that is not empty exactly when the values
are sorted where they lie and the middle of the ring has the median's rank already. -/
theorem medianFound_iff (hne : b.available ≠ 0) (hfits : b.MiddleFits) :
    b.MedianFound ↔ b.Apart ∧ b.Centered := by
  constructor
  · rintro ⟨⟨v, hfalse, -, hmedian⟩, -, hperm, hascending, -, -, -⟩
    rw [median_false hne] at hfalse
    rw [median_true hne] at hperm hascending
    exact ⟨(contents_sortAscending_iff hne).mp (contents_eq_sort_iff.mpr ⟨hperm, hascending⟩),
      centered_iff.mpr ⟨v, hfalse, hmedian⟩⟩
  · rintro ⟨hapart, hcentered⟩
    obtain ⟨v, hv, hmedian⟩ := centered_iff.mp hcentered
    obtain ⟨w, hw, hmedian'⟩ := middle_sortAscending hne hfits hapart
    obtain rfl : v = w := toInt_injective (hmedian.unique hmedian')
    obtain ⟨hperm, hpairwise⟩ :=
      contents_eq_sort_iff.mp ((contents_sortAscending_iff hne).mpr hapart)
    constructor
    · rw [median_false hne, median_true hne]
      exact ⟨v, hv, hw, hmedian⟩
    · rw [median_false hne]
    · rw [median_true hne]
      exact hperm
    · rw [median_true hne]
      exact hpairwise
    · rw [median_true hne, head_sortAscending]
    · rw [median_true hne, tail_sortAscending]
    · rw [median_true hne, available_sortAscending]

end Middle

/-- Three values that were written in order. -/
theorem median_of_pushes_in_order :
    (([1, 2, 3] : List UInt8).foldl write (create fun _ => 0 : ScalarBuffer UInt8 4)).MedianFound :=
  (medianFound_iff (by decide) fun h => absurd h (by decide)).mpr
    ⟨apart_of_le (k := 2) (by rfl) (by decide), by
      rw [Centered, if_neg (by decide)]
      decide⟩

/-- Three values that were not: the call without `override` returns the one in the middle. -/
theorem median_not_found :
    ¬∀ (l : List UInt8) (b : ScalarBuffer UInt8 4), l.foldl write (create fun _ => 0) = b →
      b.available ≠ 0 → b.MiddleFits → b.MedianFound := by
  intro hall
  obtain ⟨v, hfalse, htrue, -⟩ :=
    (hall [3, 1, 2] _ rfl (by decide) fun h => absurd h (by decide)).found
  rw [show v = 1 from Option.some.inj (hfalse.symm.trans (by decide))] at htrue
  exact absurd htrue (by decide)

end ScalarBuffer
