import Teensquitto.CircularBuffer.ScalarRefinement

/-!
# Reading a block of values

`readBytes` and `peekBytes` copy a block at once when it does not reach beyond the last cell, and
value by value otherwise.  The copy starts at the first cell instead of `head`, and `readBytes`
subtracts the length asked for from the number of values.

## Main definitions

* `ScalarBuffer.BlockOperation`: the operations on one value and on a block
* `ScalarBuffer.Reachable`: the states after any sequence of them
* `ScalarBuffer.ReadsAgree`: the block operations read what `read()` would read

## Main results

* `ScalarBuffer.reads_values`, `ScalarBuffer.reads_state`: what `read()` returns and leaves, called
  again and again
* `ScalarBuffer.readsAgree_iff`: when the block operations agree with `read()`
-/

namespace ScalarBuffer

open CircularBuffer (size_pos toNat_masked_lt toNat_and_indexMask toNat_next add_mod_of_next
  two_mul_size_dvd)

variable {α : Type} {size : UInt16}

/-! ## Reachable states -/

/-- The operations on one value and on a block. -/
inductive BlockOperation (α : Type)
  | value (op : Operation α)
  | writeBlock (buffer : List α)
  | pushFrontBlock (buffer : List α)
  | readBytes (length : UInt16)

/-- The operation on the ring. -/
def BlockOperation.apply [IntCast α] :
    BlockOperation α → ScalarBuffer α size → ScalarBuffer α size
  | value op, b => op.apply b
  | writeBlock buffer, b => b.writeBlock buffer
  | pushFrontBlock buffer, b => b.pushFrontBlock buffer
  | readBytes length, b => (b.readBytes length).2

/-- The ring after a sequence of operations. -/
def runBlocks [IntCast α] (ops : List (BlockOperation α)) (b : ScalarBuffer α size) :
    ScalarBuffer α size :=
  ops.foldl (fun b op => op.apply b) b

/-- The state is reached from a new buffer by any sequence of operations. -/
def Reachable [IntCast α] (b : ScalarBuffer α size) : Prop :=
  ∃ (cbuf : Memory α) (ops : List (BlockOperation α)), runBlocks ops (create cbuf) = b

section PowerOfTwo

variable {k : ℕ} (hk : size.toNat = 2 ^ k) {b : ScalarBuffer α size}

include hk

theorem head_lt_write (h : b.head.toNat < 2 * size.toNat) (value : α) :
    (b.write value).head.toNat < 2 * size.toNat := by
  rw [write]
  split
  · exact toNat_masked_lt hk _
  · exact h

theorem head_lt_reads (h : b.head.toNat < 2 * size.toNat) (n : ℕ) :
    (reads n b).2.head.toNat < 2 * size.toNat := by
  induction n generalizing b with
  | zero => exact h
  | succ n ih => exact ih (toNat_masked_lt hk _)

/-- Every operation keeps `head` in its range. -/
theorem head_lt_apply [IntCast α] (h : b.head.toNat < 2 * size.toNat) (op : BlockOperation α) :
    (op.apply b).head.toNat < 2 * size.toNat := by
  cases op with
  | value op =>
    cases op with
    | pushBack value => exact head_lt_write hk h value
    | pushFront value => exact toNat_masked_lt hk _
    | clear => exact Nat.mul_pos Nat.two_pos (size_pos hk)
    | popFront => exact toNat_masked_lt hk _
    | popBack =>
      change (b.popBack.2).head.toNat < _
      rw [popBack]
      split
      · exact h
      · exact h
  | writeBlock buffer =>
    have hfold : ∀ (l : List α) (b : ScalarBuffer α size), b.head.toNat < 2 * size.toNat →
        (l.foldl write b).head.toNat < 2 * size.toNat := by
      intro l
      induction l with
      | nil => exact fun _ hb => hb
      | cons v l ih => exact fun b hb => ih _ (head_lt_write hk hb v)
    change (b.writeBlock buffer).head.toNat < _
    simp only [writeBlock]
    split
    · exact h
    · exact hfold buffer _ h
  | pushFrontBlock buffer =>
    change (b.pushFrontBlock buffer).head.toNat < _
    cases buffer with
    | nil => exact h
    | cons v l => exact toNat_masked_lt hk _
  | readBytes length =>
    change (b.readBytes length).2.head.toNat < _
    simp only [readBytes]
    split
    · exact toNat_masked_lt hk _
    · exact head_lt_reads hk h _

theorem Reachable.head_lt [IntCast α] (h : b.Reachable) : b.head.toNat < 2 * size.toNat := by
  obtain ⟨cbuf, ops, rfl⟩ := h
  have hrun : ∀ (ops : List (BlockOperation α)) (b : ScalarBuffer α size),
      b.head.toNat < 2 * size.toNat → (runBlocks ops b).head.toNat < 2 * size.toNat := by
    intro ops
    induction ops with
    | nil => exact fun _ hb => hb
    | cons op ops ih => exact fun b hb => ih _ (head_lt_apply hk hb op)
  exact hrun ops _ (Nat.mul_pos Nat.two_pos (size_pos hk))

/-! ## Value by value -/

/-- `read()` reads one cell after the other. -/
theorem reads_values (h : b.head.toNat < 2 * size.toNat) (n : ℕ) :
    (reads n b).1 =
      (List.range n).map fun i => b.cbuf ((b.head.toNat + i) % size.toNat) := by
  -- Induction on the number of reads, from any ring.
  induction n generalizing b with
  | zero => rfl
  | succ n ih =>
    rw [reads, ih (toNat_masked_lt hk _), List.range_succ_eq_map, List.map_cons, List.map_map]
    refine congrArg₂ List.cons ?_ (List.map_congr_left fun i _ => ?_)
    · rw [read, cell_eq hk]
      rfl
    · simp only [Function.comp_apply, read]
      rw [add_mod_of_next (toNat_next hk b.head).symm]

/-- Steps of the index, one after the other or at once. -/
theorem mask_add (x : UInt16) (n : ℕ) :
    (((x + 1) &&& (2 * size - 1)) + UInt16.ofNat n) &&& (2 * size - 1) =
      (x + UInt16.ofNat (n + 1)) &&& (2 * size - 1) := by
  have hdvd := two_mul_size_dvd hk
  rw [← UInt16.toNat_inj, toNat_and_indexMask hk, toNat_and_indexMask hk, UInt16.toNat_add,
    UInt16.toNat_add, UInt16.toNat_ofNat', UInt16.toNat_ofNat', toNat_next hk]
  rw [show (2 : ℕ) ^ 16 = 65536 from rfl, Nat.mod_mod_of_dvd _ hdvd, Nat.mod_mod_of_dvd _ hdvd,
    Nat.mod_add_mod, Nat.add_mod, Nat.mod_mod_of_dvd _ hdvd, ← Nat.add_mod, Nat.add_mod x.toNat,
    Nat.mod_mod_of_dvd _ hdvd, ← Nat.add_mod, Nat.add_assoc, Nat.add_comm 1]

/-- `read()` moves `head` and counts down to zero. -/
theorem reads_state (h : b.head.toNat < 2 * size.toNat) {n : ℕ} (hn : n ≤ b.available.toNat) :
    (reads n b).2 =
      { b with
        head := (b.head + UInt16.ofNat n) &&& (2 * size - 1)
        available := b.available - UInt16.ofNat n } := by
  -- Induction on the number of reads: none of them finds the ring empty.
  induction n generalizing b with
  | zero =>
    have hhead : (b.head + UInt16.ofNat 0) &&& (2 * size - 1) = b.head := by
      rw [← UInt16.toNat_inj, toNat_and_indexMask hk]
      exact (congrArg (fun x : UInt16 => x.toNat % _) (UInt16.add_zero _)).trans
        (Nat.mod_eq_of_lt h)
    have hcount : b.available - UInt16.ofNat 0 = b.available := UInt16.sub_zero _
    rw [hhead, hcount]
    rfl
  | succ n ih =>
    have havailable : b.available ≠ 0 := by
      intro h0
      rw [h0] at hn
      exact absurd hn (Nat.not_succ_le_zero n)
    have hcount : b.read.2.available = b.available - 1 := if_pos havailable
    have hpred : b.read.2.available.toNat = b.available.toNat - 1 := by
      have := b.available.toNat_lt
      rw [hcount, UInt16.toNat_sub]
      simp only [UInt16.reduceToNat]
      omega
    rw [reads, ih (toNat_masked_lt hk _) (by omega), hcount]
    simp only [read, mk.injEq, mask_add hk, true_and, and_true]
    rw [sub_sub, UInt16.ofNat_add, add_comm]
    rfl

/-! ## Agreement -/

/-- The block operations read what `read()` reads, called as often as there are values, and leave
what it leaves; `peekBytes` leaves the buffer as it is. -/
structure ReadsAgree [IntCast α] (b : ScalarBuffer α size) (length : UInt16) : Prop where
  readBytes_eq : b.readBytes length = reads (min length.toNat b.available.toNat) b
  peekBytes_eq : b.peekBytes length = (reads (min length.toNat b.available.toNat) b).1

omit hk in
theorem toNat_count (b : ScalarBuffer α size) (length : UInt16) :
    (b.count length).toNat = min length.toNat b.available.toNat := by
  rw [count]
  split
  · next h =>
    rw [UInt16.lt_iff_toNat_lt] at h
    exact (Nat.min_eq_right (Nat.le_of_lt h)).symm
  · next h =>
    rw [UInt16.lt_iff_toNat_lt] at h
    exact (Nat.min_eq_left (Nat.le_of_not_lt h)).symm

omit hk in
theorem contiguous_iff (b : ScalarBuffer α size) (length index : UInt16) :
    b.contiguous length index = true ↔ index.toNat + length.toNat < size.toNat := by
  rw [contiguous, decide_eq_true_iff]
  omega

omit hk in
/-- The two block operations on their fast path. -/
theorem blocks_of_lt [IntCast α] {length : UInt16}
    (hfast : b.head.toNat + min length.toNat b.available.toNat < size.toNat) :
    b.readBytes length = (b.cbuf.load 0 (min length.toNat b.available.toNat),
        { b with
          available := b.available - length
          head := (b.head + UInt16.ofNat (min length.toNat b.available.toNat)) &&&
            (2 * size - 1) }) ∧
      b.peekBytes length = b.cbuf.load 0 (min length.toNat b.available.toNat) := by
  have hcount := b.toNat_count length
  have hcontiguous : b.contiguous (b.count length) b.head = true := by
    rw [contiguous_iff, hcount]
    exact hfast
  have hofNat : UInt16.ofNat (min length.toNat b.available.toNat) = b.count length := by
    rw [← hcount, UInt16.ofNat_toNat]
  simp only [readBytes, peekBytes, if_pos hcontiguous, hcount, hofNat, and_self]

omit hk in
/-- The two block operations value by value. -/
theorem blocks_of_ge [IntCast α] {length : UInt16}
    (hslow : ¬b.head.toNat + min length.toNat b.available.toNat < size.toNat) :
    b.readBytes length = reads (min length.toNat b.available.toNat) b ∧
      b.peekBytes length = (List.range (min length.toNat b.available.toNat)).map fun i =>
        b.peek (UInt16.ofNat i) := by
  have hcount := b.toNat_count length
  have hcontiguous : ¬b.contiguous (b.count length) b.head = true := by
    rw [contiguous_iff, hcount]
    exact hslow
  simp only [readBytes, peekBytes, if_neg hcontiguous, hcount, and_self]

/-- **The block operations agree with `read()`** exactly when the block reaches beyond the last
cell, or no more is asked for than there is and the first cells hold what the cells from `head` on
hold; beyond the last cell `peek` returns zero past `_size`. -/
theorem readsAgree_iff [IntCast α] (h : b.Reachable) (length : UInt16) :
    b.ReadsAgree length ↔
      if b.head.toNat + min length.toNat b.available.toNat < size.toNat then
        length ≤ b.available ∧
          ∀ i < min length.toNat b.available.toNat, b.cbuf i = b.cbuf (b.head.toNat + i)
      else
        ∀ i < min length.toNat b.available.toNat, size.toNat < i →
          b.cbuf ((b.head.toNat + i) % size.toNat) = (0 : ℤ) := by
  have hhead := h.head_lt hk
  have hvalues := reads_values hk hhead (min length.toNat b.available.toNat)
  have hstate := reads_state hk hhead (Nat.min_le_right length.toNat b.available.toNat)
  by_cases hfast : b.head.toNat + min length.toNat b.available.toNat < size.toNat
  · obtain ⟨hread, hpeek⟩ := blocks_of_lt hfast
    rw [if_pos hfast]
    -- the copy starts at the first cell
    have hcells : b.cbuf.load 0 (min length.toNat b.available.toNat) =
        (reads (min length.toNat b.available.toNat) b).1 ↔
        ∀ i < min length.toNat b.available.toNat, b.cbuf i = b.cbuf (b.head.toNat + i) := by
      rw [hvalues, Memory.load, List.map_inj_left]
      refine forall_congr' fun i => ?_
      rw [List.mem_range]
      refine imp_congr_right fun hi => ?_
      rw [Nat.zero_add, Nat.mod_eq_of_lt (by omega)]
    -- the length asked for is subtracted
    have hcounts : b.available - length =
        b.available - UInt16.ofNat (min length.toNat b.available.toNat) ↔
        length ≤ b.available := by
      have hlength := length.toNat_lt
      rw [UInt16.sub_right_inj, ← UInt16.toNat_inj, UInt16.le_iff_toNat_le, UInt16.toNat_ofNat',
        Nat.mod_eq_of_lt (by omega)]
      omega
    constructor
    · intro hagree
      have heq := hagree.readBytes_eq
      rw [hread] at heq
      refine ⟨hcounts.mp ?_, hcells.mp (congrArg Prod.fst heq)⟩
      have havailable := congrArg (fun p => p.2.available) heq
      rwa [hstate] at havailable
    · rintro ⟨hle, hsame⟩
      refine ⟨?_, hpeek.trans (hcells.mpr hsame)⟩
      rw [hread]
      refine Prod.ext (hcells.mpr hsame) ?_
      rw [hstate, ← hcounts.mpr hle]
  · -- `readBytes` then is `read()` repeated, so that only `peekBytes` can differ
    obtain ⟨hread, hpeek⟩ := blocks_of_ge hfast
    rw [if_neg hfast]
    have hcells : b.peekBytes length = (reads (min length.toNat b.available.toNat) b).1 ↔
        ∀ i < min length.toNat b.available.toNat, size.toNat < i →
          b.cbuf ((b.head.toNat + i) % size.toNat) = (0 : ℤ) := by
      rw [hpeek, hvalues, List.map_inj_left]
      refine forall_congr' fun i => ?_
      rw [List.mem_range]
      refine imp_congr_right fun hi => ?_
      have hlt : i < 2 ^ 16 := hi.trans_le ((Nat.min_le_left _ _).trans length.toNat_lt.le)
      have hpast : UInt16.ofNat i > size ↔ size.toNat < i := by
        rw [gt_iff_lt, UInt16.lt_iff_toNat_lt, UInt16.toNat_ofNat', Nat.mod_eq_of_lt hlt]
      rw [peek, Represents.cell_add hk]
      -- `peek` gives zero past `_size`, and the cell at the position otherwise
      by_cases hi' : size.toNat < i
      · rw [if_pos (hpast.mpr hi')]
        exact ⟨fun hz _ => hz.symm, fun hz => (hz hi').symm⟩
      · rw [if_neg (mt hpast.mp hi')]
        exact ⟨fun _ hlt => absurd hlt hi', fun _ => rfl⟩
    constructor
    · intro hagree
      exact hcells.mp hagree.peekBytes_eq
    · intro hzero
      exact ⟨hread, hcells.mpr hzero⟩

end PowerOfTwo

/-- After two pushes into four cells a block that fits. -/
theorem readsAgree_iff_new :
    (runBlocks [.value (.pushBack 1), .value (.pushBack 2)]
      (create fun _ => 0) : ScalarBuffer ℤ 4).ReadsAgree 2 :=
  (readsAgree_iff (k := 2) (by rfl) ⟨_, _, rfl⟩ 2).mpr (by
    rw [if_pos (by decide)]
    exact ⟨by decide, fun i _ => congrArg _ (Nat.zero_add i).symm⟩)

/-- After a pop the copy starts a cell too early. -/
theorem readBytes_not_agree :
    ¬∀ (size : UInt16) (k : ℕ), size.toNat = 2 ^ k → ∀ b : ScalarBuffer ℤ size, b.Reachable →
      ∀ length, b.ReadsAgree length := by
  intro hall
  have hagree := hall 4 2 (by rfl) (runBlocks [.value (.pushBack 1), .value (.pushBack 2),
    .value .popFront] (create fun _ => 0)) ⟨_, _, rfl⟩ 1
  exact absurd hagree.peekBytes_eq (by decide)

end ScalarBuffer
