import Mathlib.Data.List.Basic
import Mathlib.Data.List.DropRight
import Mathlib.Tactic.Common

/-!
# Bounded deques

A bounded deque holds at most `capacity` items.  An insertion at a full end discards
the item at the opposite end.

## Main definitions

* `BoundedDeque`: a list of items together with its bound
* `BoundedDeque.pushBack`, `pushFront`, `popFront`, `popBack`, `eraseIdx`, `clear`: its operations

## Main results

* `BoundedDeque.items_pushBack_of_full`, `items_pushFront_of_full`: what a push on a
  full deque discards
-/

universe u

/-- At most `capacity` items, first item first. -/
@[ext] structure BoundedDeque (α : Type u) (capacity : ℕ) where
  /-- The items, from front to back. -/
  items : List α
  /-- The bound every operation keeps. -/
  length_le : items.length ≤ capacity

namespace BoundedDeque

variable {α : Type u} {capacity : ℕ}

/-- The deque with no items. -/
def empty : BoundedDeque α capacity := ⟨[], Nat.zero_le _⟩

/-- Append an item; when the bound is exceeded the first item is discarded. -/
def pushBack (d : BoundedDeque α capacity) (a : α) : BoundedDeque α capacity :=
  ⟨(d.items ++ [a]).drop (d.items.length + 1 - capacity), by
    rw [List.length_drop, List.length_append, List.length_singleton]; omega⟩

/-- Prepend an item; when the bound is exceeded the last item is discarded. -/
def pushFront (d : BoundedDeque α capacity) (a : α) : BoundedDeque α capacity :=
  ⟨(a :: d.items).take capacity, by rw [List.length_take]; omega⟩

/-- Remove the first item. -/
def popFront (d : BoundedDeque α capacity) : BoundedDeque α capacity :=
  ⟨d.items.tail, by rw [List.length_tail]; have := d.length_le; omega⟩

/-- Remove the last item. -/
def popBack (d : BoundedDeque α capacity) : BoundedDeque α capacity :=
  ⟨d.items.dropLast, by rw [List.length_dropLast]; have := d.length_le; omega⟩

/-- Remove the item at a position. -/
def eraseIdx (d : BoundedDeque α capacity) (i : ℕ) : BoundedDeque α capacity :=
  ⟨d.items.eraseIdx i, (List.length_eraseIdx_le d.items i).trans d.length_le⟩

/-- Remove every item. -/
def clear (_ : BoundedDeque α capacity) : BoundedDeque α capacity := empty

@[simp] theorem items_empty : (empty : BoundedDeque α capacity).items = [] := rfl

@[simp] theorem items_clear (d : BoundedDeque α capacity) : d.clear.items = [] := rfl

@[simp] theorem items_popFront (d : BoundedDeque α capacity) :
    d.popFront.items = d.items.tail := rfl

@[simp] theorem items_popBack (d : BoundedDeque α capacity) :
    d.popBack.items = d.items.dropLast := rfl

theorem items_pushBack_of_lt (d : BoundedDeque α capacity) (a : α)
    (h : d.items.length < capacity) : (d.pushBack a).items = d.items ++ [a] := by
  have h0 : d.items.length + 1 - capacity = 0 := by omega
  simp only [pushBack, h0, List.drop_zero]

/-- A push on a full deque discards exactly the first item. -/
theorem items_pushBack_of_full (d : BoundedDeque α capacity) (a : α)
    (h : d.items.length = capacity) (hc : 0 < capacity) :
    (d.pushBack a).items = d.items.tail ++ [a] := by
  have h1 : d.items.length + 1 - capacity = 1 := by omega
  simp only [pushBack, h1]
  rw [List.drop_append_of_le_length (by omega), List.drop_one]

theorem items_pushFront_of_lt (d : BoundedDeque α capacity) (a : α)
    (h : d.items.length < capacity) : (d.pushFront a).items = a :: d.items := by
  simp only [pushFront]
  exact List.take_of_length_le (by rw [List.length_cons]; omega)

/-- A push in front of a full deque discards exactly the last item. -/
theorem items_pushFront_of_full (d : BoundedDeque α capacity) (a : α)
    (h : d.items.length = capacity) (hc : 0 < capacity) :
    (d.pushFront a).items = a :: d.items.dropLast := by
  obtain ⟨c, rfl⟩ : ∃ c, capacity = c + 1 := ⟨capacity - 1, by omega⟩
  simp only [pushFront, List.take_succ_cons]
  rw [List.dropLast_eq_take, h, Nat.add_sub_cancel]

end BoundedDeque
