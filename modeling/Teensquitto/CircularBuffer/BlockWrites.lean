import Mathlib.Data.List.Rotate
import Teensquitto.CircularBuffer.ScalarRefinement

/-!
# Writing a block of values

`write(buffer, length)` raises the number of values first.  When the block ends before the last cell
it is copied at once, without a look at the values it overwrites; otherwise it is written value by
value, and every value is counted once more.

## Main definitions

* `ScalarBuffer.contents`: the stored values
* `ScalarBuffer.WriteAgrees`: a block is written as its values are, one by one

## Main results

* `contents_writeBlock_of_le`, `contents_writeBlock_of_gt`: what the copy leaves
* `ScalarBuffer.writeAgrees_iff`: when the block is written as its values are
-/

namespace ScalarBuffer

open CircularBuffer (size_pos toNat_available_succ two_mul_size_dvd add_mod_ne_add_mod)

variable {α : Type} {size : UInt16}

/-- The values from `head` on, as many as are counted. -/
def contents (b : ScalarBuffer α size) : List α :=
  (List.range b.available.toNat).map fun i => b.cbuf (b.cell (b.head + UInt16.ofNat i))

@[simp] theorem length_contents (b : ScalarBuffer α size) :
    b.contents.length = b.available.toNat := by
  simp [contents]

/-- A block is written as its values are: the same `size()` and the same values. -/
structure WriteAgrees (b : ScalarBuffer α size) (buffer : List α) : Prop where
  size_eq : (b.writeBlock buffer).available = (buffer.foldl write b).available
  contents_eq : (b.writeBlock buffer).contents = (buffer.foldl write b).contents

/-- The values that stay when the block is written value by value. -/
def remaining (b : ScalarBuffer α size) (buffer : List α) : List α :=
  (b.contents ++ buffer).drop (b.available.toNat + buffer.length - size.toNat)

/-- The operations of a queue: `write(value)` and `read()`. -/
def Operation.isQueue : Operation α → Bool
  | pushBack _ => true
  | popFront => true
  | _ => false

/-- The state is reached by `write(value)`, and `read()` where there is a value. -/
def Queued [IntCast α] (b : ScalarBuffer α size) : Prop :=
  ∃ (cbuf : Memory α) (ops : List (Operation α)), (∀ op ∈ ops, op.isQueue = true) ∧
    LegalRun (create cbuf : ScalarBuffer α size) ops ∧ run ops (create cbuf) = b

theorem items_foldl_pushBack {capacity : ℕ} (l : List α) (d : BoundedDeque α capacity) :
    (l.foldl BoundedDeque.pushBack d).items =
      (d.items ++ l).drop (d.items.length + l.length - capacity) := by
  -- Induction on the block: what a push drops is dropped from the whole.
  induction l generalizing d with
  | nil =>
    have := d.length_le
    rw [List.foldl_nil, List.append_nil, List.length_nil, Nat.add_zero,
      Nat.sub_eq_zero_of_le this, List.drop_zero]
  | cons v l ih =>
    have hle := d.length_le
    have hdrop : d.items.length + 1 - capacity ≤ (d.items ++ [v]).length := by
      rw [List.length_append, List.length_singleton]
      omega
    have hlen : (d.pushBack v).items.length =
        d.items.length + 1 - (d.items.length + 1 - capacity) := by
      rw [BoundedDeque.pushBack, List.length_drop, List.length_append, List.length_singleton]
    rw [List.foldl_cons, ih, hlen, BoundedDeque.pushBack, ← List.drop_append_of_le_length hdrop,
      List.drop_drop, List.append_assoc, List.singleton_append, List.length_cons]
    congr 1
    omega

section PowerOfTwo

variable {k : ℕ} (hk : size.toNat = 2 ^ k) {b : ScalarBuffer α size}
  {d : BoundedDeque α size.toNat}

include hk

namespace Represents

theorem contents_eq (h : b.Represents d) : b.contents = d.items := by
  refine List.ext_getElem (by rw [length_contents, h.available_eq]) fun i hi hi' => ?_
  simp only [contents, List.getElem_map, List.getElem_range]
  rw [cell_add hk]
  exact h.values i _ (List.getElem?_eq_getElem hi')

theorem foldl_write (h : b.Represents d) (l : List α) :
    (l.foldl ScalarBuffer.write b).Represents (l.foldl BoundedDeque.pushBack d) := by
  induction l generalizing b d with
  | nil => exact h
  | cons v l ih => exact ih (h.write hk v)

end Represents

/-! ## The fast path -/

omit hk in
theorem writeBlock_of_lt {buffer : List α} (hlt : b.tail.toNat + buffer.length < size.toNat) :
    b.writeBlock buffer = { b with
      available := b.raised (UInt16.ofNat buffer.length)
      cbuf := b.cbuf.store b.tail.toNat buffer
      tail := (b.tail + UInt16.ofNat buffer.length) &&& (2 * size - 1) } := by
  have hsize := size.toNat_lt
  have hcontiguous : b.contiguous (UInt16.ofNat buffer.length) b.tail = true := by
    rw [contiguous, decide_eq_true_iff, UInt16.toNat_ofNat', Nat.mod_eq_of_lt (by omega)]
    omega
  exact if_pos hcontiguous

omit hk in
theorem writeBlock_of_ge {buffer : List α} (hlen : buffer.length < 65536)
    (hge : size.toNat ≤ b.tail.toNat + buffer.length) :
    b.writeBlock buffer =
      buffer.foldl write { b with available := b.raised (UInt16.ofNat buffer.length) } := by
  have hcontiguous : ¬b.contiguous (UInt16.ofNat buffer.length) b.tail = true := by
    rw [contiguous, decide_eq_true_iff, UInt16.toNat_ofNat', Nat.mod_eq_of_lt hlen]
    omega
  exact if_neg hcontiguous

omit hk in
theorem toNat_raised (b : ScalarBuffer α size) {n : ℕ} (hn : n < 65536) :
    (b.raised (UInt16.ofNat n)).toNat =
      min size.toNat ((b.available.toNat + n) % 65536) := by
  have hsum : (b.available + UInt16.ofNat n).toNat = (b.available.toNat + n) % 65536 := by
    rw [UInt16.toNat_add, UInt16.toNat_ofNat', Nat.mod_eq_of_lt hn]
  rw [raised]
  split
  · next h =>
    rw [ge_iff_le, UInt16.le_iff_toNat_le, hsum] at h
    exact (Nat.min_eq_left h).symm
  · next h =>
    rw [ge_iff_le, UInt16.le_iff_toNat_le, hsum] at h
    rw [hsum, Nat.min_eq_right (Nat.le_of_not_le h)]

namespace Represents

variable {buffer : List α}

omit hk in
/-- The copy starts behind the last value. -/
theorem store_of_ge (h : b.Represents d) (hlt : b.tail.toNat + buffer.length < size.toNat) {j : ℕ}
    (hj : d.items.length ≤ j) (hj' : j - d.items.length < buffer.length) :
    b.cbuf.store b.tail.toNat buffer ((b.head.toNat + j) % size.toNat) =
      buffer[j - d.items.length] := by
  have htail := h.indices.tail_mod
  rw [Nat.mod_eq_of_lt (by omega)] at htail
  have hcell : (b.head.toNat + j) % size.toNat = b.tail.toNat + (j - d.items.length) := by
    rw [show b.head.toNat + j = b.head.toNat + d.items.length + (j - d.items.length) by omega,
      ← Nat.mod_add_mod, ← htail, Nat.mod_eq_of_lt (by omega)]
  rw [hcell]
  exact b.cbuf.store_of_mem buffer hj'

omit hk in
/-- The copy leaves the values that it does not reach. -/
theorem store_of_lt (h : b.Represents d) (hlt : b.tail.toNat + buffer.length < size.toNat) {i : ℕ}
    (hi : i < d.items.length) (hreach : d.items.length + buffer.length ≤ i + size.toNat) :
    b.cbuf.store b.tail.toNat buffer ((b.head.toNat + i) % size.toNat) = d.items[i] := by
  have hcell := h.values i _ (List.getElem?_eq_getElem hi)
  have htail := h.indices.tail_mod
  have hle := d.length_le
  rw [Nat.mod_eq_of_lt (by omega)] at htail
  rw [← hcell]
  -- the cell lies before the copied ones, among them, or behind them
  rcases Nat.lt_or_ge ((b.head.toNat + i) % size.toNat) b.tail.toNat with hlow | hlow
  · exact b.cbuf.store_of_lt buffer hlow
  rcases Nat.lt_or_ge ((b.head.toNat + i) % size.toNat) (b.tail.toNat + buffer.length) with
    hhigh | hhigh
  · -- a cell that is copied to belongs to a position less than a round further on
    obtain ⟨e, he⟩ := Nat.exists_eq_add_of_le hlow
    have hsame : (b.head.toNat + i) % size.toNat =
        (b.head.toNat + i + (d.items.length + e - i)) % size.toNat := by
      rw [show b.head.toNat + i + (d.items.length + e - i) =
        b.head.toNat + d.items.length + e by omega,
        ← Nat.mod_add_mod (b.head.toNat + d.items.length), ← htail,
        Nat.mod_eq_of_lt (a := b.tail.toNat + e) (by omega)]
      exact he
    have hne := add_mod_ne_add_mod (a := b.head.toNat + i) (m := size.toNat) (i := 0)
      (j := d.items.length + e - i) (by omega) (by omega) (by omega)
    exact absurd hsame hne
  · exact b.cbuf.store_of_ge buffer hhigh

theorem available_writeBlock (h : b.Represents d)
    (hlt : b.tail.toNat + buffer.length < size.toNat) :
    (b.writeBlock buffer).available.toNat =
      min size.toNat (d.items.length + buffer.length) := by
  have hle := d.length_le
  have hsize : 2 * size.toNat ≤ 65536 := Nat.le_of_dvd (by norm_num) (two_mul_size_dvd hk)
  rw [writeBlock_of_lt hlt]
  change (b.raised _).toNat = _
  rw [toNat_raised b (by omega), h.available_eq, Nat.mod_eq_of_lt (by omega)]

/-- The value at a position after the copy. -/
theorem getElem_contents_writeBlock (hlt : b.tail.toNat + buffer.length < size.toNat) {i : ℕ}
    (hi : i < (b.writeBlock buffer).contents.length) :
    (b.writeBlock buffer).contents[i] =
      b.cbuf.store b.tail.toNat buffer ((b.head.toNat + i) % size.toNat) := by
  simp only [contents, List.getElem_map, List.getElem_range]
  rw [cell_add hk, writeBlock_of_lt hlt]

/-- A copy into free cells appends the block. -/
theorem contents_writeBlock_of_le (h : b.Represents d)
    (hlt : b.tail.toNat + buffer.length < size.toNat)
    (hfits : d.items.length + buffer.length ≤ size.toNat) :
    (b.writeBlock buffer).contents = d.items ++ buffer := by
  have hlength := h.available_writeBlock hk hlt
  rw [Nat.min_eq_right hfits, ← length_contents] at hlength
  refine List.ext_getElem (by rw [hlength, List.length_append]) fun i hi hi' => ?_
  rw [getElem_contents_writeBlock hk hlt]
  rcases Nat.lt_or_ge i d.items.length with hold | hnew
  · rw [h.store_of_lt hlt hold (by omega), List.getElem_append_left hold]
  · rw [h.store_of_ge hlt hnew (by omega), List.getElem_append_right hnew]

/-- A copy over the first values puts the end of the block in front. -/
theorem contents_writeBlock_of_gt (h : b.Represents d)
    (hlt : b.tail.toNat + buffer.length < size.toNat)
    (hover : size.toNat < d.items.length + buffer.length) :
    (b.writeBlock buffer).contents =
      buffer.drop (size.toNat - d.items.length) ++
        (d.items.drop (d.items.length + buffer.length - size.toNat) ++
          buffer.take (size.toNat - d.items.length)) := by
  have hle := d.length_le
  have hlength := h.available_writeBlock hk hlt
  rw [Nat.min_eq_left hover.le, ← length_contents] at hlength
  -- position by position: the end of the block, the values that are left, its beginning
  refine List.ext_getElem ?_ fun i hi hi' => ?_
  · rw [hlength, List.length_append, List.length_append, List.length_drop, List.length_drop,
      List.length_take]
    omega
  rw [getElem_contents_writeBlock hk hlt]
  rcases Nat.lt_or_ge i (d.items.length + buffer.length - size.toNat) with hfirst | hrest
  · -- the end of the block lies in the cells of the first values
    have hround : (b.head.toNat + i) % size.toNat =
        (b.head.toNat + (i + size.toNat)) % size.toNat := by
      rw [← Nat.add_assoc, Nat.add_mod_right]
    rw [hround, h.store_of_ge hlt (by omega) (by omega), List.getElem_append_left (by
      rw [List.length_drop]
      omega), List.getElem_drop]
    congr 1
    omega
  rw [List.getElem_append_right (by rw [List.length_drop]; omega)]
  rcases Nat.lt_or_ge i d.items.length with hold | hnew
  · rw [h.store_of_lt hlt hold (by omega), List.getElem_append_left (by
      rw [List.length_drop, List.length_drop]
      omega), List.getElem_drop]
    congr 1
    rw [List.length_drop]
    omega
  · rw [h.store_of_ge hlt hnew (by omega), List.getElem_append_right (by
      rw [List.length_drop, List.length_drop]
      omega), List.getElem_take]
    congr 1
    rw [List.length_drop, List.length_drop]
    omega

end Represents

/-! ## Value by value -/

omit hk in
/-- The indices and the cells do not depend on the number of values. -/
theorem foldl_write_congr (l : List α) {c : ScalarBuffer α size} (hhead : c.head = b.head)
    (htail : c.tail = b.tail) (hcbuf : c.cbuf = b.cbuf) :
    (l.foldl write c).head = (l.foldl write b).head ∧
      (l.foldl write c).cbuf = (l.foldl write b).cbuf := by
  induction l generalizing b c with
  | nil => exact ⟨hhead, hcbuf⟩
  | cons v l ih =>
    rw [List.foldl_cons, List.foldl_cons]
    refine ih ?_ ?_ ?_
    · simp only [write, hhead, htail]
    · simp only [write, htail]
    · simp only [write, cell, htail, hcbuf]

omit hk in
theorem toNat_available_foldl (l : List α) (hle : b.available.toNat ≤ size.toNat) :
    (l.foldl write b).available.toNat = min size.toNat (b.available.toNat + l.length) := by
  -- Induction on the block: the count stops at the number of cells.
  induction l generalizing b with
  | nil => exact (Nat.min_eq_right hle).symm
  | cons v l ih =>
    have hsucc : (b.write v).available.toNat =
        if b.available.toNat < size.toNat then b.available.toNat + 1 else b.available.toNat :=
      toNat_available_succ b.available
    rw [List.foldl_cons, List.length_cons]
    split at hsucc
    · rw [ih (by omega), hsucc]
      congr 1
      omega
    · rw [ih (by omega), hsucc]
      omega

/-! ## Agreement -/

theorem Queued.represents [IntCast α] (h : b.Queued) :
    ∃ d : BoundedDeque α size.toNat, b.Represents d := by
  obtain ⟨cbuf, ops, hqueue, legal, rfl⟩ := h
  -- a queue never pushes in front
  have hspares : ∀ (ops : List (Operation α)) (b : ScalarBuffer α size),
      (∀ op ∈ ops, op.isQueue = true) → SparingRun b ops := by
    intro ops
    induction ops with
    | nil => exact fun _ _ => trivial
    | cons op ops ih =>
      intro b hops
      refine ⟨?_, ih _ fun op' hmem => hops op' (List.mem_cons_of_mem op hmem)⟩
      have hop := hops op List.mem_cons_self
      cases op with
      | pushFront value => cases hop
      | _ => trivial
  exact ⟨_, represents_run hk (represents_create hk cbuf) ops legal (hspares ops _ hqueue)⟩

/-- **A block is written as its values are** exactly when it is copied into free cells, or copied
over values such that the remaining ones repeat after as many places as are lost, or written value
by value into a ring that it fills. -/
theorem writeAgrees_iff [IntCast α] (h : b.Queued) {buffer : List α}
    (hlen : buffer.length < 65536) :
    b.WriteAgrees buffer ↔
      if b.tail.toNat + buffer.length < size.toNat then
        b.available.toNat + buffer.length ≤ size.toNat ∨
          (b.remaining buffer).rotate (b.available.toNat + buffer.length - size.toNat) =
            b.remaining buffer
      else buffer.length = 0 ∨ size.toNat ≤ b.available.toNat + buffer.length := by
  obtain ⟨d, hd⟩ := h.represents hk
  have hle := d.length_le
  -- value by value the ring follows the deque, whose last items are the remaining ones
  have hspec := hd.foldl_write hk buffer
  have hremaining : (buffer.foldl write b).contents = b.remaining buffer := by
    rw [hspec.contents_eq hk, items_foldl_pushBack, remaining, hd.contents_eq hk, hd.available_eq]
  have hcount := toNat_available_foldl buffer (hd.available_eq.trans_le hle)
  rw [hd.available_eq] at hcount
  by_cases hfast : b.tail.toNat + buffer.length < size.toNat
  · rw [if_pos hfast, hd.available_eq]
    have hsize : (b.writeBlock buffer).available = (buffer.foldl write b).available := by
      rw [← UInt16.toNat_inj, hd.available_writeBlock hk hfast, hcount]
    rcases Nat.lt_or_ge size.toNat (d.items.length + buffer.length) with hover | hfits
    · -- the end of the block is put in front of the rest
      have hcontents := hd.contents_writeBlock_of_gt hk hfast hover
      have hturned : (b.writeBlock buffer).contents.rotate
          (d.items.length + buffer.length - size.toNat) = b.remaining buffer := by
        have hlast : (buffer.drop (size.toNat - d.items.length)).length =
            d.items.length + buffer.length - size.toNat := by
          rw [List.length_drop]
          omega
        rw [hcontents, ← hlast, List.rotate_append_length_eq, hlast, remaining, hd.available_eq,
          hd.contents_eq hk, List.append_assoc, List.take_append_drop,
          List.drop_append_of_le_length (by omega)]
      constructor
      · intro hagree
        right
        have heq := hagree.contents_eq
        rw [hremaining] at heq
        rw [heq] at hturned
        exact hturned
      · rintro (hfits | hperiod)
        · omega
        · refine ⟨hsize, ?_⟩
          rw [hremaining]
          exact List.rotate_injective _ (hturned.trans hperiod.symm)
    · refine ⟨fun _ => .inl hfits, fun _ => ⟨hsize, ?_⟩⟩
      rw [hd.contents_writeBlock_of_le hk hfast hfits, hspec.contents_eq hk,
        items_foldl_pushBack, Nat.sub_eq_zero_of_le hfits, List.drop_zero]
  · rw [if_neg hfast, hd.available_eq]
    -- the values are counted before they are written, and again when they are
    have hblock := writeBlock_of_ge hlen (Nat.le_of_not_lt hfast)
    have hraised := toNat_raised b hlen
    rw [hd.available_eq] at hraised
    have hcount' : (b.writeBlock buffer).available.toNat =
        min size.toNat (min size.toNat ((d.items.length + buffer.length) % 65536) +
          buffer.length) := by
      rw [hblock, toNat_available_foldl buffer, hraised]
      exact hraised.trans_le (Nat.min_le_left _ _)
    have hsize : 2 * size.toNat ≤ 65536 := Nat.le_of_dvd (by norm_num) (two_mul_size_dvd hk)
    have hsizes : (b.writeBlock buffer).available = (buffer.foldl write b).available ↔
        buffer.length = 0 ∨ size.toNat ≤ d.items.length + buffer.length := by
      rw [← UInt16.toNat_inj, hcount', hcount]
      omega
    have hcells := foldl_write_congr buffer (b := b)
      (c := { b with available := b.raised (UInt16.ofNat buffer.length) }) rfl rfl rfl
    rw [← hblock] at hcells
    constructor
    · intro hagree
      exact hsizes.mp hagree.size_eq
    · intro hfull
      refine ⟨hsizes.mpr hfull, ?_⟩
      simp only [contents, cell, hsizes.mpr hfull, hcells.1, hcells.2]

end PowerOfTwo

/-- Two values into four cells, from the second cell on. -/
theorem writeAgrees_iff_two :
    (run [.pushBack 1, .popFront] (create fun _ => 0) : ScalarBuffer ℤ 4).WriteAgrees [2, 3] :=
  (writeAgrees_iff (k := 2) (by rfl)
    ⟨fun _ => 0, [.pushBack 1, .popFront], by decide, by decide, rfl⟩ (by decide)).mpr (by
      rw [if_pos (by decide)]
      exact .inl (by decide))

/-- A block of two values at the last of four cells is counted twice. -/
theorem writeBlock_not_agree :
    ¬∀ (size : UInt16) (k : ℕ), size.toNat = 2 ^ k → ∀ b : ScalarBuffer ℤ size, b.Queued →
      ∀ buffer : List ℤ, buffer.length < 65536 → b.WriteAgrees buffer := by
  intro hall
  have hagree := hall 4 2 (by rfl)
    (run [.pushBack 1, .pushBack 2, .pushBack 3, .popFront, .popFront, .popFront]
      (create fun _ => 0)) ⟨fun _ => 0, _, by decide, by decide, rfl⟩ [4] (by decide)
  exact absurd hagree.size_eq (by decide)

end ScalarBuffer
