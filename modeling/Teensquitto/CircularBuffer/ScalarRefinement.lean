import Teensquitto.CircularBuffer.Indices
import Teensquitto.CircularBuffer.Scalar
import Teensquitto.Data.Deque

/-!
# The ring of values and the bounded deque

For a power of two `_size` the ring of values represents a deque of at most `_size` values, as long
as `push_front` is not called on a full ring: `push_front` does not move `tail`, so that behind such
a call `tail` is one step too far.

## Main definitions

* `ScalarBuffer.Represents`: the ring holds the values of a deque
* `ScalarBuffer.Operation`: the operations on one value, with `run`, `runDeque` and `LegalRun`

## Main results

* `ScalarBuffer.represents_run`: every legal run of the ring follows the deque
* `ScalarBuffer.run_shows_deque`: what the observers return after every legal run
-/

namespace ScalarBuffer

open CircularBuffer (Indices size_pos toNat_and_rowMask toNat_next toNat_previous
  toNat_available_succ toNat_available_pred add_mod_of_next add_mod_ne_add_mod two_mul_size_dvd)

variable {α : Type} {size : UInt16}

/-- The ring holds the values of the deque `d`. -/
structure Represents (b : ScalarBuffer α size) (d : BoundedDeque α size.toNat) : Prop where
  indices : Indices size b.head b.tail d.items.length
  available_eq : b.available.toNat = d.items.length
  values : ∀ (i : ℕ) (v : α), d.items[i]? = some v →
    b.cbuf ((b.head.toNat + i) % size.toNat) = v

section PowerOfTwo

variable {k : ℕ} (hk : size.toNat = 2 ^ k) {b : ScalarBuffer α size}
  {d : BoundedDeque α size.toNat}

include hk

theorem cell_eq (b : ScalarBuffer α size) (index : UInt16) :
    b.cell index = index.toNat % size.toNat := toNat_and_rowMask hk index

theorem represents_create (cbuf : Memory α) :
    Represents (create cbuf : ScalarBuffer α size) BoundedDeque.empty where
  indices := Indices.zero hk
  available_eq := rfl
  values := fun i v hv => by simp at hv

namespace Represents

/-- A value stored behind fewer than `size` others is the last one. -/
theorem values_append {cbuf : Memory α} {start : ℕ} {l : List α} {value : α}
    (h : ∀ (i : ℕ) (v : α), l[i]? = some v → cbuf ((start + i) % size.toNat) = v)
    (hlt : l.length < size.toNat) (i : ℕ) (v : α) (hv : (l ++ [value])[i]? = some v) :
    cbuf.set ((start + l.length) % size.toNat) value ((start + i) % size.toNat) = v := by
  -- an old value keeps its cell, and the new one is in the cell behind the last
  rw [List.getElem?_append] at hv
  split at hv
  · next hi =>
    rw [Memory.set_of_ne _ _ (add_mod_ne_add_mod (by omega) hlt (by omega))]
    exact h i v hv
  · obtain ⟨hi, rfl⟩ : i - l.length = 0 ∧ value = v := by
      simpa [List.getElem?_singleton] using hv
    obtain rfl : i = l.length := by omega
    exact Memory.set_self _ _ _

theorem write (h : b.Represents d) (value : α) :
    (b.write value).Represents (d.pushBack value) := by
  have hpos := size_pos hk
  have hcbuf : (b.write value).cbuf =
      b.cbuf.set ((b.head.toNat + d.items.length) % size.toNat) value := by
    rw [ScalarBuffer.write, cell_eq hk, h.indices.tail_mod]
  have havailable : (b.write value).available.toNat =
      if d.items.length < size.toNat then d.items.length + 1 else d.items.length := by
    rw [ScalarBuffer.write, toNat_available_succ, h.available_eq]
  rcases Nat.lt_or_eq_of_le d.length_le with hlt | hfull
  · have hitems := d.items_pushBack_of_lt value hlt
    have hhead : (b.write value).head = b.head :=
      if_neg (mt (h.indices.full_iff hk).mp (Nat.ne_of_lt hlt))
    rw [if_pos hlt] at havailable
    refine ⟨?_, ?_, ?_⟩
    · rw [hhead, hitems, List.length_append, List.length_singleton]
      exact h.indices.next_tail hk hlt
    · rw [havailable, hitems, List.length_append, List.length_singleton]
    · rw [hcbuf, hhead, hitems]
      exact values_append hk h.values hlt
  · -- the cell of the first value is overwritten, and `head` moves past it
    have hitems := d.items_pushBack_of_full value hfull hpos
    have hlen : d.items.tail.length + 1 = d.items.length := by
      rw [List.length_tail]
      omega
    have hhead : (b.write value).head = (b.head + 1) &&& (2 * size - 1) :=
      if_pos ((h.indices.full_iff hk).mpr hfull)
    rw [if_neg (by omega)] at havailable
    refine ⟨?_, ?_, ?_⟩
    · rw [hhead, hitems, List.length_append, List.length_singleton, hlen]
      exact h.indices.next_both hk
    · rw [havailable, hitems, List.length_append, List.length_singleton, hlen]
    · have hvalues : ∀ (i : ℕ) (v : α), d.items.tail[i]? = some v →
          b.cbuf ((b.head.toNat + 1 + i) % size.toNat) = v := by
        intro i v hv
        rw [List.getElem?_tail] at hv
        rw [Nat.add_assoc, Nat.add_comm 1 i]
        exact h.values (i + 1) v hv
      intro i v hv
      rw [hitems] at hv
      have happend := values_append hk hvalues (by omega) i v hv
      rw [hcbuf, hhead, add_mod_of_next (toNat_next hk b.head).symm]
      rwa [Nat.add_assoc b.head.toNat, Nat.add_comm 1, hlen, Nat.add_assoc,
        Nat.add_comm 1] at happend

/-- A push in front of a ring that is not full. -/
theorem pushFront (h : b.Represents d) (hlt : d.items.length < size.toNat) (value : α) :
    (b.pushFront value).Represents (d.pushFront value) := by
  have hpos := size_pos hk
  have hitems := d.items_pushFront_of_lt value hlt
  have hindices := h.indices.previous_head hk hlt
  have hstart := Indices.toNat_previous_add_one hk h.indices.head_lt
  refine ⟨?_, ?_, ?_⟩
  · rw [hitems, List.length_cons]
    exact hindices
  · rw [ScalarBuffer.pushFront, toNat_available_succ, h.available_eq, if_pos hlt, hitems,
      List.length_cons]
  · -- the new value is in the cell of the new `head`, the others are counted from the old one
    intro i v hv
    rw [hitems] at hv
    simp only [ScalarBuffer.pushFront, cell_eq hk]
    cases i with
    | zero =>
      obtain rfl : value = v := by simpa using hv
      exact Memory.set_self _ _ _
    | succ i =>
      rw [List.getElem?_cons_succ] at hv
      have hi := (List.getElem?_eq_some_iff.mp hv).1
      have hne : (((b.head - 1) &&& (2 * size - 1)).toNat + (i + 1)) % size.toNat ≠
          ((b.head - 1) &&& (2 * size - 1)).toNat % size.toNat :=
        add_mod_ne_add_mod (j := 0) (by omega) hpos (by omega)
      have hvalue := h.values i v hv
      rw [add_mod_of_next hstart] at hvalue
      exact (Memory.set_of_ne _ _ hne).trans hvalue

omit hk in
theorem available_ne_zero (h : b.Represents d) (hne : d.items ≠ []) : b.available ≠ 0 := by
  intro h0
  have hzero := h.available_eq
  rw [h0, UInt16.toNat_zero] at hzero
  exact hne (List.length_eq_zero_iff.mp hzero.symm)

theorem read (h : b.Represents d) (hne : d.items ≠ []) :
    b.read.2.Represents d.popFront := by
  have hlen := List.length_pos_of_ne_nil hne
  constructor
  · rw [BoundedDeque.items_popFront, List.length_tail]
    exact h.indices.next_head hk hlen
  · rw [ScalarBuffer.read, toNat_available_pred (by rw [h.available_eq]; omega), h.available_eq,
      BoundedDeque.items_popFront, List.length_tail]
  · intro i v hv
    rw [BoundedDeque.items_popFront, List.getElem?_tail] at hv
    simp only [ScalarBuffer.read]
    rw [add_mod_of_next (toNat_next hk b.head).symm]
    exact h.values (i + 1) v hv

theorem popBack [IntCast α] (h : b.Represents d) (hne : d.items ≠ []) :
    b.popBack.2.Represents d.popBack := by
  have hlen := List.length_pos_of_ne_nil hne
  have havailable := h.available_ne_zero hne
  have hcount : 0 < b.available.toNat := h.available_eq ▸ hlen
  have hpred := toNat_available_pred hcount
  rw [if_pos havailable, h.available_eq] at hpred
  simp only [ScalarBuffer.popBack, if_pos havailable]
  constructor
  · rw [BoundedDeque.items_popBack, List.length_dropLast]
    exact h.indices.previous_tail hk hlen
  · rw [hpred, BoundedDeque.items_popBack, List.length_dropLast]
  · intro i v hv
    rw [BoundedDeque.items_popBack, List.getElem?_dropLast] at hv
    split at hv
    · exact h.values i v hv
    · cases hv

theorem clear (_ : b.Represents d) : b.clear.Represents d.clear :=
  represents_create hk b.cbuf

/-! ### Observers -/

/-- The cell of the value at a position. -/
theorem cell_add (b : ScalarBuffer α size) (i : ℕ) :
    b.cell (b.head + UInt16.ofNat i) = (b.head.toNat + i) % size.toNat := by
  have hdvd : size.toNat ∣ 65536 := Dvd.dvd.trans (Nat.dvd_mul_left _ 2) (two_mul_size_dvd hk)
  rw [cell_eq hk, UInt16.toNat_add, UInt16.toNat_ofNat', Nat.mod_mod_of_dvd _ hdvd, Nat.add_mod,
    Nat.mod_mod_of_dvd _ hdvd, ← Nat.add_mod]

/-- `peek(i)` is the value at the position `i`. -/
theorem peek_eq [IntCast α] (h : b.Represents d) {i : ℕ} {v : α} (hv : d.items[i]? = some v) :
    b.peek (UInt16.ofNat i) = v := by
  have hi := (List.getElem?_eq_some_iff.mp hv).1
  have hle := d.length_le
  have hsize := size.toNat_lt
  have hpos : ¬UInt16.ofNat i > size := by
    rw [gt_iff_lt, UInt16.lt_iff_toNat_lt, UInt16.toNat_ofNat', Nat.mod_eq_of_lt (by omega)]
    omega
  rw [peek, if_neg hpos, cell_add hk]
  exact h.values i v hv

/-- `pop_front()` returns the first value. -/
theorem popFront_eq (h : b.Represents d) {v : α} (hv : d.items.head? = some v) :
    b.popFront.1 = v := by
  rw [List.head?_eq_getElem?] at hv
  rw [ScalarBuffer.popFront, ScalarBuffer.read, cell_eq hk]
  exact h.values 0 v hv

/-- `pop_back()` returns the last value. -/
theorem popBack_eq [IntCast α] (h : b.Represents d) {v : α} (hv : d.items.getLast? = some v) :
    b.popBack.1 = v := by
  have hpos := size_pos hk
  rw [List.getLast?_eq_getElem?] at hv
  have hlen := (List.getElem?_eq_some_iff.mp hv).1
  have havailable : b.available ≠ 0 := h.available_ne_zero (List.ne_nil_of_length_pos (by omega))
  -- the index before `tail` selects the cell of the last value, round the laps
  have hlast : (b.tail.toNat + (2 * size.toNat - 1)) % (2 * size.toNat) % size.toNat =
      (b.head.toNat + (d.items.length - 1)) % size.toNat := by
    rw [Nat.mod_mod_of_dvd _ (Nat.dvd_mul_left _ 2), ← Nat.mod_add_mod, h.indices.tail_mod,
      Nat.mod_add_mod, show b.head.toNat + d.items.length + (2 * size.toNat - 1) =
        b.head.toNat + (d.items.length - 1) + size.toNat * 2 by omega, Nat.add_mul_mod_self_left]
  simp only [ScalarBuffer.popBack, if_pos havailable, cell_eq hk, toNat_previous hk]
  rw [hlast]
  exact h.values _ v hv

end Represents

end PowerOfTwo

/-! ## Runs -/

/-- The operations on one value. -/
inductive Operation (α : Type)
  | pushBack (value : α)
  | pushFront (value : α)
  | clear
  | popFront
  | popBack

namespace Operation

/-- The operation on the ring. -/
def apply [IntCast α] : Operation α → ScalarBuffer α size → ScalarBuffer α size
  | pushBack value, b => b.pushBack value
  | pushFront value, b => b.pushFront value
  | clear, b => b.clear
  | popFront, b => b.popFront.2
  | popBack, b => b.popBack.2

/-- The operation on the deque. -/
def applyDeque {capacity : ℕ} :
    Operation α → BoundedDeque α capacity → BoundedDeque α capacity
  | pushBack value, d => d.pushBack value
  | pushFront value, d => d.pushFront value
  | clear, d => d.clear
  | popFront, d => d.popFront
  | popBack, d => d.popBack

/-- A pop is called only when `size() > 0`. -/
def Legal (b : ScalarBuffer α size) : Operation α → Prop
  | popFront => 0 < b.available
  | popBack => 0 < b.available
  | _ => True

/-- The operation is not a push in front of a full ring. -/
def Spares (b : ScalarBuffer α size) : Operation α → Prop
  | pushFront _ => b.available ≠ size
  | _ => True

instance (b : ScalarBuffer α size) (op : Operation α) : Decidable (op.Legal b) :=
  match op with
  | pushBack _ => inferInstanceAs (Decidable True)
  | pushFront _ => inferInstanceAs (Decidable True)
  | clear => inferInstanceAs (Decidable True)
  | popFront => inferInstanceAs (Decidable (0 < b.available))
  | popBack => inferInstanceAs (Decidable (0 < b.available))

instance (b : ScalarBuffer α size) (op : Operation α) : Decidable (op.Spares b) :=
  match op with
  | pushBack _ => inferInstanceAs (Decidable True)
  | pushFront _ => inferInstanceAs (Decidable (b.available ≠ size))
  | clear => inferInstanceAs (Decidable True)
  | popFront => inferInstanceAs (Decidable True)
  | popBack => inferInstanceAs (Decidable True)

end Operation

/-- The ring after a sequence of operations. -/
def run [IntCast α] (ops : List (Operation α)) (b : ScalarBuffer α size) : ScalarBuffer α size :=
  ops.foldl (fun b op => op.apply b) b

/-- The deque after a sequence of operations. -/
def runDeque {capacity : ℕ} (ops : List (Operation α)) (d : BoundedDeque α capacity) :
    BoundedDeque α capacity :=
  ops.foldl (fun d op => op.applyDeque d) d

/-- Every operation of the sequence is legal where it is called. -/
def LegalRun [IntCast α] (b : ScalarBuffer α size) : List (Operation α) → Prop
  | [] => True
  | op :: ops => op.Legal b ∧ LegalRun (op.apply b) ops

/-- No operation of the sequence is a push in front of a full ring. -/
def SparingRun [IntCast α] (b : ScalarBuffer α size) : List (Operation α) → Prop
  | [] => True
  | op :: ops => op.Spares b ∧ SparingRun (op.apply b) ops

instance decidableLegalRun [IntCast α] : (ops : List (Operation α)) →
    (b : ScalarBuffer α size) → Decidable (LegalRun b ops)
  | [], _ => inferInstanceAs (Decidable True)
  | op :: ops, b =>
    have := decidableLegalRun ops (op.apply b)
    inferInstanceAs (Decidable (op.Legal b ∧ LegalRun (op.apply b) ops))

instance decidableSparingRun [IntCast α] : (ops : List (Operation α)) →
    (b : ScalarBuffer α size) → Decidable (SparingRun b ops)
  | [], _ => inferInstanceAs (Decidable True)
  | op :: ops, b =>
    have := decidableSparingRun ops (op.apply b)
    inferInstanceAs (Decidable (op.Spares b ∧ SparingRun (op.apply b) ops))

/-- What the observers of a ring that holds the values of `d` return. -/
structure Shows [IntCast α] (b : ScalarBuffer α size) (d : BoundedDeque α size.toNat) : Prop where
  size_eq : b.available.toNat = d.items.length
  peek_eq : ∀ (i : ℕ) (v : α), d.items[i]? = some v → b.peek (UInt16.ofNat i) = v
  popFront_eq : ∀ v, d.items.head? = some v → b.popFront.1 = v
  popBack_eq : ∀ v, d.items.getLast? = some v → b.popBack.1 = v

section PowerOfTwo

variable {k : ℕ} (hk : size.toNat = 2 ^ k) [IntCast α] {b : ScalarBuffer α size}
  {d : BoundedDeque α size.toNat}

include hk

theorem Represents.shows (h : b.Represents d) : b.Shows d where
  size_eq := h.available_eq
  peek_eq := fun _ _ => h.peek_eq hk
  popFront_eq := fun _ => h.popFront_eq hk
  popBack_eq := fun _ => h.popBack_eq hk

/-- One operation keeps the representation. -/
theorem represents_apply (h : b.Represents d) (op : Operation α) (legal : op.Legal b)
    (spares : op.Spares b) : (op.apply b).Represents (op.applyDeque d) := by
  have hne (hpos : 0 < b.available) : d.items ≠ [] := by
    rw [UInt16.lt_iff_toNat_lt, h.available_eq] at hpos
    exact List.ne_nil_of_length_pos hpos
  cases op with
  | pushBack value => exact h.write hk value
  | pushFront value =>
    refine h.pushFront hk (Nat.lt_of_le_of_ne d.length_le fun hfull => spares ?_) value
    rw [← UInt16.toNat_inj, h.available_eq, hfull]
  | clear => exact h.clear hk
  | popFront => exact h.read hk (hne legal)
  | popBack => exact h.popBack hk (hne legal)

/-- **The ring follows the deque** through every legal run that spares the full ring. -/
theorem represents_run (h : b.Represents d) (ops : List (Operation α)) (legal : LegalRun b ops)
    (spares : SparingRun b ops) : (run ops b).Represents (runDeque ops d) := by
  -- Induction on the operations: the representation is kept by each.
  induction ops generalizing b d with
  | nil => exact h
  | cons op ops ih => exact ih (represents_apply hk h op legal.1 spares.1) legal.2 spares.2

/-- **The ring of values refines a bounded deque**, as long as `push_front` is not called on a full
ring: after every such run from a new buffer the observers return the length and the values of the
deque that made the same operations, and the pops return its ends. -/
theorem run_shows_deque (cbuf : Memory α) (ops : List (Operation α))
    (legal : LegalRun (create cbuf : ScalarBuffer α size) ops)
    (spares : SparingRun (create cbuf : ScalarBuffer α size) ops) :
    (run ops (create cbuf : ScalarBuffer α size)).Shows (runDeque ops BoundedDeque.empty) :=
  (represents_run hk (represents_create hk cbuf) ops legal spares).shows hk

end PowerOfTwo

/-- A run on two cells that goes round and drops at the front. -/
theorem run_shows_deque_two_cells :
    let ops : List (Operation ℤ) := [.pushBack 1, .pushBack 2, .pushBack 3, .popFront,
      .pushFront 4, .popBack, .pushBack 5]
    (run ops (create fun _ => 0 : ScalarBuffer ℤ 2)).Shows (runDeque ops BoundedDeque.empty) :=
  @run_shows_deque ℤ 2 1 (by rfl) _ (fun _ => 0) _ (by decide) (by decide)

/-- `push_front` on a full ring of two cells: `pop_back` then returns the first value. -/
theorem full_pushFront_not_shown :
    ¬∀ (size : UInt16) (k : ℕ), size.toNat = 2 ^ k → ∀ (cbuf : Memory ℤ) (ops : List (Operation ℤ)),
      LegalRun (create cbuf : ScalarBuffer ℤ size) ops →
        (run ops (create cbuf : ScalarBuffer ℤ size)).Shows (runDeque ops BoundedDeque.empty) := by
  intro hall
  have hshows := hall 2 1 (by rfl) (fun _ => 0) [.pushBack 1, .pushBack 2, .pushFront 3]
    (by decide)
  exact absurd (hshows.popBack_eq 1 (by rfl)) (by decide)

end ScalarBuffer
