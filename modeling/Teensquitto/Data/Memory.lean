import Mathlib.Data.List.Basic
import Mathlib.Data.List.OfFn
import Mathlib.Tactic.Common

/-!
# Flat memory

A memory is a total map from addresses to cells.  Blocks of cells are stored and
loaded as lists, and a block store leaves every disjoint block unchanged.

## Main definitions

* `Memory`: a total map from addresses to cells
* `Memory.store`, `Memory.load`: block transfers at an address

## Main results

* `Memory.load_store`: a stored block is loaded back
* `Memory.load_store_of_disjoint`: a store does not change a disjoint block
-/

universe u

/-- A flat memory: one cell at every address. -/
def Memory (α : Type u) : Type u := ℕ → α

namespace Memory

variable {α : Type u}

/-- The memory with the same value in every cell. -/
def fill (x : α) : Memory α := fun _ => x

/-- Write the block `l` from address `a` on. -/
def store (m : Memory α) (a : ℕ) (l : List α) : Memory α :=
  fun i => if a ≤ i then (l[i - a]?).getD (m i) else m i

/-- Write one cell. -/
def set (m : Memory α) (a : ℕ) (x : α) : Memory α := m.store a [x]

/-- Read `n` cells from address `a` on. -/
def load (m : Memory α) (a n : ℕ) : List α :=
  (List.range n).map fun i => m (a + i)

@[simp] theorem length_load (m : Memory α) (a n : ℕ) : (m.load a n).length = n := by
  simp [load]

theorem getElem_load (m : Memory α) (a n i : ℕ) (h : i < (m.load a n).length) :
    (m.load a n)[i] = m (a + i) := by
  simp [load]

theorem load_zero (m : Memory α) (a : ℕ) : m.load a 0 = [] := rfl

theorem load_succ (m : Memory α) (a n : ℕ) : m.load a (n + 1) = m.load a n ++ [m (a + n)] := by
  simp [load, List.range_succ]

theorem load_succ' (m : Memory α) (a n : ℕ) : m.load a (n + 1) = m a :: m.load (a + 1) n := by
  simp only [load, List.range_succ_eq_map, List.map_cons, List.map_map, Nat.add_zero]
  congr 2
  funext i
  simp only [Function.comp_apply]
  congr 1
  omega

theorem load_add (m : Memory α) (a n k : ℕ) :
    m.load a (n + k) = m.load a n ++ m.load (a + n) k := by
  induction k with
  | zero => simp [load_zero]
  | succ k ih => rw [← Nat.add_assoc, load_succ, ih, load_succ, List.append_assoc, Nat.add_assoc]

theorem take_load (m : Memory α) (a : ℕ) {n k : ℕ} (h : k ≤ n) :
    (m.load a n).take k = m.load a k := by
  obtain ⟨e, rfl⟩ := Nat.exists_eq_add_of_le h
  rw [load_add, List.take_left' (length_load m a k)]

theorem store_of_lt (m : Memory α) {a i : ℕ} (l : List α) (h : i < a) : m.store a l i = m i := by
  simp [store, Nat.not_le.mpr h]

theorem store_of_ge (m : Memory α) {a i : ℕ} (l : List α) (h : a + l.length ≤ i) :
    m.store a l i = m i := by
  have hi : l[i - a]? = none := List.getElem?_eq_none_iff.mpr (by omega)
  simp [store, hi]

theorem store_of_mem (m : Memory α) {a i : ℕ} (l : List α) (hi : i < l.length) :
    m.store a l (a + i) = l[i] := by
  simp [store, List.getElem?_eq_getElem hi]

@[simp] theorem set_self (m : Memory α) (a : ℕ) (x : α) : m.set a x a = x :=
  m.store_of_mem (i := 0) [x] (by simp)

theorem set_of_ne (m : Memory α) {a i : ℕ} (x : α) (h : i ≠ a) : m.set a x i = m i := by
  rcases Nat.lt_or_gt_of_ne h with h | h
  · exact m.store_of_lt [x] h
  · exact m.store_of_ge [x] (by rw [List.length_singleton]; omega)

theorem set_set (m : Memory α) (a : ℕ) (x y : α) : (m.set a x).set a y = m.set a y := by
  funext i
  by_cases h : i = a
  · rw [h, set_self, set_self]
  · rw [set_of_ne _ y h, set_of_ne _ x h, set_of_ne _ y h]

/-- Writing what is there changes nothing. -/
theorem set_eq_self (m : Memory α) {a : ℕ} {x : α} (h : m a = x) : m.set a x = m := by
  funext i
  by_cases hi : i = a
  · rw [hi, set_self, h]
  · exact set_of_ne m x hi

theorem store_nil (m : Memory α) (a : ℕ) : m.store a [] = m := by
  funext i
  simp [store]

/-- The cell before a block extends the block. -/
theorem store_set (m : Memory α) (a : ℕ) (x : α) (l : List α) :
    (m.set a x).store (a + 1) l = m.store a (x :: l) := by
  funext i
  rcases Nat.lt_trichotomy i a with hlt | rfl | hgt
  · rw [store_of_lt _ l (by omega), set_of_ne m x (by omega), store_of_lt m _ hlt]
  · rw [store_of_lt _ l (by omega), set_self]
    exact (m.store_of_mem (i := 0) (x :: l) (by simp)).symm
  · obtain ⟨d, rfl⟩ := Nat.exists_eq_add_of_lt hgt
    have hset : (m.set a x) (a + d + 1) = m (a + d + 1) := set_of_ne m x (by omega)
    simp only [store, hset, show a + 1 ≤ a + d + 1 by omega, show a ≤ a + d + 1 by omega, if_true]
    rw [show a + d + 1 - (a + 1) = d by omega, show a + d + 1 - a = d + 1 by omega,
      List.getElem?_cons_succ]

/-- The cell behind a stored block extends the block. -/
theorem set_store (m : Memory α) (a : ℕ) (l : List α) (x : α) :
    (m.store a l).set (a + l.length) x = m.store a (l ++ [x]) := by
  funext i
  by_cases hi : i = a + l.length
  · subst hi
    rw [set_self, store_of_mem m (l ++ [x]) (by simp)]
    simp
  · rw [set_of_ne _ _ hi]
    by_cases ha : a ≤ i
    · simp only [store, ha, if_true]
      rcases Nat.lt_or_gt_of_ne hi with hlt | hgt
      · rw [List.getElem?_append_left (by omega)]
      · rw [List.getElem?_eq_none (by omega), List.getElem?_eq_none (by simp; omega)]
    · rw [store_of_lt m l (by omega), store_of_lt m (l ++ [x]) (by omega)]

/-- **A stored block is loaded back.** -/
theorem load_store (m : Memory α) (a : ℕ) (l : List α) : (m.store a l).load a l.length = l := by
  refine List.ext_getElem (by simp) fun i h₁ h₂ => ?_
  rw [getElem_load, store_of_mem m l h₂]

theorem load_congr {m m' : Memory α} {a n : ℕ} (h : ∀ i, a ≤ i → i < a + n → m i = m' i) :
    m.load a n = m'.load a n := by
  refine List.ext_getElem (by simp) fun i h₁ _ => ?_
  rw [length_load] at h₁
  rw [getElem_load, getElem_load, h (a + i) (by omega) (by omega)]

theorem eq_of_load_eq {m m' : Memory α} {a a' n i : ℕ} (h : m.load a n = m'.load a' n)
    (hi : i < n) : m (a + i) = m' (a' + i) := by
  rw [← getElem_load m a n i (by rwa [length_load]),
    ← getElem_load m' a' n i (by rwa [length_load])]
  simp only [h]

/-- The first cells of equal blocks. -/
theorem first_eq_of_load_eq {m m' : Memory α} {a a' n : ℕ} (h : m.load a n = m'.load a' n)
    (hn : 0 < n) : m a = m' a' :=
  eq_of_load_eq (i := 0) h hn

/-- **A store does not change a disjoint block.** -/
theorem load_store_of_disjoint (m : Memory α) {a b n : ℕ} (l : List α)
    (h : b + n ≤ a ∨ a + l.length ≤ b) : (m.store a l).load b n = m.load b n := by
  refine load_congr fun i hb hn => ?_
  rcases h with h | h
  · exact m.store_of_lt l (by omega)
  · exact m.store_of_ge l (by omega)

/-- The beginning of a stored block. -/
theorem load_store_take (m : Memory α) (a : ℕ) (l : List α) {n : ℕ} (h : n ≤ l.length) :
    (m.store a l).load a n = l.take n := by
  rw [← take_load _ _ h, load_store]

end Memory
