import Mathlib.Order.Nat
import Teensquitto.Data.Memory

/-!
# Tracked reads

A computation over the cells of a memory logs the addresses it reads.  The log is complete:
value and log depend on no cell that was not read.

## Main definitions

* `Tracked`: a computation with its reads
* `Tracked.cell`, `Tracked.cells`: the reads
* `Tracked.extent`: how far into the memory a computation reads

## Main results

* `Tracked.extent_le_iff`: the reads lie below a bound exactly when the extent does
* `Tracked.extent_bind`: the extent of a sequence
-/

/-- A computation over the cells of a memory, with the addresses it reads in order. -/
structure Tracked (β α : Type) where
  run : Memory β → α × List ℕ
  /-- No cell is read that is not logged. -/
  complete : ∀ d d', (∀ i ∈ (run d).2, d' i = d i) → run d' = run d

namespace Tracked

variable {β α γ : Type}

/-- What is computed. -/
def value (m : Tracked β α) (d : Memory β) : α := (m.run d).1

/-- The addresses that are read. -/
def reads (m : Tracked β α) (d : Memory β) : List ℕ := (m.run d).2

/-- Cells that are not read have no influence. -/
theorem value_congr (m : Tracked β α) {d d' : Memory β} (h : ∀ i ∈ m.reads d, d' i = d i) :
    m.value d' = m.value d :=
  congrArg Prod.fst (m.complete d d' h)

theorem reads_congr (m : Tracked β α) {d d' : Memory β} (h : ∀ i ∈ m.reads d, d' i = d i) :
    m.reads d' = m.reads d :=
  congrArg Prod.snd (m.complete d d' h)

/-- Read one cell. -/
def cell (i : ℕ) : Tracked β β where
  run d := (d i, [i])
  complete d d' h := by rw [h i (List.mem_singleton_self i)]

/-- Read a block of cells. -/
def cells (a n : ℕ) : Tracked β (List β) where
  run d := (d.load a n, List.range' a n)
  complete d d' h := by
    have hload : d'.load a n = d.load a n := by
      refine List.map_congr_left fun i hi => h (a + i) ?_
      have := List.mem_range.mp hi
      exact List.mem_range'_1.mpr ⟨Nat.le_add_right a i, Nat.add_lt_add_left this a⟩
    rw [hload]

instance : Monad (Tracked β) where
  pure a := ⟨fun _ => (a, []), fun _ _ _ => rfl⟩
  bind m f :=
    { run := fun d => ((f (m.value d)).value d, m.reads d ++ (f (m.value d)).reads d)
      complete := by
        intro d d' h
        have hfirst : ∀ i ∈ m.reads d, d' i = d i := fun i hi => h i (List.mem_append_left _ hi)
        have hsecond : ∀ i ∈ (f (m.value d)).reads d, d' i = d i :=
          fun i hi => h i (List.mem_append_right _ hi)
        simp only [m.value_congr hfirst, m.reads_congr hfirst, (f (m.value d)).value_congr hsecond,
          (f (m.value d)).reads_congr hsecond] }

variable (d : Memory β)

@[simp] theorem value_pure (a : α) : (pure a : Tracked β α).value d = a := rfl

@[simp] theorem reads_pure (a : α) : (pure a : Tracked β α).reads d = [] := rfl

@[simp] theorem value_bind (m : Tracked β α) (f : α → Tracked β γ) :
    (m >>= f).value d = (f (m.value d)).value d := rfl

@[simp] theorem reads_bind (m : Tracked β α) (f : α → Tracked β γ) :
    (m >>= f).reads d = m.reads d ++ (f (m.value d)).reads d := rfl

@[simp] theorem value_ite (c : Prop) [Decidable c] (m m' : Tracked β α) :
    (if c then m else m').value d = if c then m.value d else m'.value d := by
  split
  · rfl
  · rfl

@[simp] theorem value_cell (i : ℕ) : (cell i : Tracked β β).value d = d i := rfl

@[simp] theorem reads_cell (i : ℕ) : (cell i : Tracked β β).reads d = [i] := rfl

@[simp] theorem value_cells (a n : ℕ) : (cells a n : Tracked β (List β)).value d = d.load a n :=
  rfl

@[simp] theorem reads_cells (a n : ℕ) :
    (cells a n : Tracked β (List β)).reads d = List.range' a n := rfl

/-! ## How far a computation reads -/

section Extent

/-- One more than the last address that is read. -/
def extent (m : Tracked β α) (d : Memory β) : ℕ := (m.reads d).foldr (fun i n => max (i + 1) n) 0

/-- The reads lie below a bound exactly when the extent does. -/
theorem extent_le_iff (m : Tracked β α) {n : ℕ} :
    m.extent d ≤ n ↔ ∀ i ∈ m.reads d, i < n := by
  unfold extent
  induction m.reads d with
  | nil => simp
  | cons i l ih => rw [List.foldr_cons, Nat.max_le, ih, List.forall_mem_cons, Nat.succ_le_iff]

/-- An extent is known by its bounds. -/
theorem extent_eq_of_forall {m : Tracked β α} {k : ℕ}
    (h : ∀ n, (∀ i ∈ m.reads d, i < n) ↔ k ≤ n) : m.extent d = k :=
  eq_of_forall_ge_iff fun n => (extent_le_iff d m).trans (h n)

@[simp] theorem extent_pure (a : α) : (pure a : Tracked β α).extent d = 0 := rfl

@[simp] theorem extent_bind (m : Tracked β α) (f : α → Tracked β γ) :
    (m >>= f).extent d = max (m.extent d) ((f (m.value d)).extent d) := by
  refine extent_eq_of_forall d fun n => ?_
  rw [reads_bind, List.forall_mem_append, Nat.max_le, extent_le_iff, extent_le_iff]

@[simp] theorem extent_ite (c : Prop) [Decidable c] (m m' : Tracked β α) :
    (if c then m else m').extent d = if c then m.extent d else m'.extent d := by
  split
  · rfl
  · rfl

@[simp] theorem extent_cell (i : ℕ) : (cell i : Tracked β β).extent d = i + 1 := rfl

/-- A block of cells is read up to its end. -/
@[simp] theorem extent_cells (a n : ℕ) :
    (cells a n : Tracked β (List β)).extent d = if n = 0 then 0 else a + n := by
  refine extent_eq_of_forall d fun k => ?_
  rw [reads_cells]
  split
  · next h =>
    subst h
    simp
  · next h =>
    constructor
    · intro hlt
      have := hlt (a + (n - 1)) (List.mem_range'_1.mpr (by omega))
      omega
    · intro hle i hi
      have := List.mem_range'_1.mp hi
      omega

end Extent

end Tracked
