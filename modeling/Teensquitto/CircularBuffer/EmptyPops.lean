import Teensquitto.CircularBuffer.BlockReads
import Teensquitto.CircularBuffer.Laps
import Teensquitto.CircularBuffer.Median

/-!
# Pops of an empty buffer

Only `pop_back()` looks at the number of items before it moves its index.  A pop of an empty buffer
is harmless when every later sequence of operations shows what it shows on the cleared buffer.

## Main definitions

* `Pop`: the pops of both modes
* `ScalarBuffer.LaterOperation`: all operations that change the buffer, with `runLater`
* `CircularBuffer.PopHarmless`, `ScalarBuffer.PopHarmless`: no later sequence of operations tells
  the popped buffer from the cleared one
* `CircularBuffer.PopAligned`, `ScalarBuffer.PopAligned`: where the pop leaves the indices

## Main results

* `CircularBuffer.popHarmless_iff_of_empty`, `ScalarBuffer.popHarmless_iff_of_empty`: when a pop
  of an empty buffer is harmless, in each mode
* `emptyPop_harmless_iff`: the two together
-/

/-- The pops. -/
inductive Pop
  | read
  | popFront
  | popFrontInto (length : UInt16)
  | popBack
  | popBackInto (length : UInt16)

/-! ## The ring of messages -/

namespace CircularBuffer

variable {size multi : UInt16}

/-- The ring after a pop. -/
def pop (b : CircularBuffer size multi) : Pop → CircularBuffer size multi
  | .read => b.read
  | .popFront => b.popFront
  | .popFrontInto length => (b.popFrontInto length).2
  | .popBack => b.popBack.2
  | .popBackInto length => (b.popBackInto length).2

/-- After the pop every sequence of operations shows what it shows on the cleared ring. -/
def PopHarmless (b : CircularBuffer size multi) (p : Pop) : Prop :=
  ∀ ops : List RingOperation, (∀ op ∈ ops, op.Fits multi) →
    Alike (runAll ops (b.pop p)) (runAll ops b.clear)

/-- The pop leaves `head` and `tail` equal, at the first row. -/
def PopAligned (b : CircularBuffer size multi) : Pop → Prop
  | .popBack => b.head = b.tail ∧ b.head &&& (size - 1) = 0
  | .popBackInto _ => (b.tail - 1) &&& (2 * size - 1) = b.head ∧ b.head &&& (size - 1) = 0
  | _ => (b.head + 1) &&& (2 * size - 1) = b.tail ∧ b.tail &&& (size - 1) = 0

/-- The first byte of the message in the row of the absolute index `n`. -/
def firstByte (b : CircularBuffer size multi) (n : ℕ) : UInt8 :=
  b.cabuf (n % size.toNat * (multi.toNat + 2) + 2)

section PowerOfTwo

variable {k : ℕ} (hk : size.toNat = 2 ^ k) (hmulti : 0 < multi.toNat)
  {b c : CircularBuffer size multi}

include hk hmulti

omit hk in
/-- What a store to the beginning of a row does to the first bytes. -/
theorem firstByte_store (cells : List UInt8) {i : ℕ} (hlength : cells.length ≤ multi.toNat + 2)
    (hc : c.cabuf = b.cabuf.store (i % size.toNat * (multi.toNat + 2)) cells) (n : ℕ) :
    c.firstByte n =
      if n % size.toNat = i % size.toNat then (cells[2]?).getD (b.firstByte n)
      else b.firstByte n := by
  rw [firstByte, hc]
  split
  · next hsame =>
    simp only [Memory.store, hsame, Nat.le_add_right, if_true, Nat.add_sub_cancel_left, firstByte]
  · next hne =>
    exact Memory.eq_of_load_eq (load_row_store b.cabuf hlength hne)
      (Nat.lt_add_of_pos_left hmulti)

/-- A message of one byte. -/
theorem firstByte_pushBack (b : CircularBuffer size multi) (y : UInt8) (n : ℕ) :
    (b.pushBack [y]).firstByte n =
      if n % size.toNat = b.tail.toNat % size.toNat then y else b.firstByte n :=
  firstByte_store hmulti (rowCells [y]) (Nat.add_le_add_right hmulti 2)
    (by rw [pushBack, write, row_eq hk]) n

/-- A message without bytes. -/
theorem firstByte_pushBack_nil (b : CircularBuffer size multi) (n : ℕ) :
    (b.pushBack []).firstByte n = b.firstByte n := by
  have h := firstByte_store hmulti (c := b.pushBack []) (rowCells []) (Nat.le_add_left 2 _)
    (by rw [pushBack, write, row_eq hk]) n
  rw [h]
  exact ite_self _

theorem Alike.firstByte_eq (h : b.Alike c) (hpos : 0 < b.available) :
    b.firstByte b.head.toNat = c.firstByte c.head.toNat := by
  have hfront := h.front_eq hpos
  rw [front, front, row_eq hk, row_eq hk] at hfront
  have hbyte : b.cabuf (_ + 0) = c.cabuf (_ + 0) := Memory.eq_of_load_eq hfront hmulti
  exact hbyte

omit hmulti in
/-- A push makes the ring nonempty. -/
theorem available_pushBack_pos (b : CircularBuffer size multi) (message : List UInt8) :
    0 < (b.pushBack message).available := by
  have hpos := size_pos hk
  rw [UInt16.lt_iff_toNat_lt, pushBack, write, toNat_available_succ, UInt16.toNat_zero]
  split
  · exact Nat.succ_pos _
  · omega

omit hmulti in
/-- Pops of an empty ring move `head` alone. -/
theorem runAll_popFronts (h : b.available = 0) (hlt : b.head.toNat < 2 * size.toNat) (n : ℕ) :
    (runAll (List.replicate n (.queue .popFront)) b).head.toNat =
        (b.head.toNat + n) % (2 * size.toNat) ∧
      (runAll (List.replicate n (.queue .popFront)) b).tail = b.tail ∧
      (runAll (List.replicate n (.queue .popFront)) b).cabuf = b.cabuf := by
  -- Induction on the number of pops: each finds the ring empty.
  induction n generalizing b with
  | zero => exact ⟨(Nat.mod_eq_of_lt hlt).symm, rfl, rfl⟩
  | succ n ih =>
    obtain ⟨hhead, htail, havailable, hcabuf⟩ := init_fields b
    have hempty : b.popFront.available = 0 := by
      rw [popFront, read, havailable, h]
      rfl
    obtain ⟨hhead', htail', hcabuf'⟩ := ih hempty (toNat_masked_lt hk _)
    refine ⟨?_, htail'.trans htail, hcabuf'.trans hcabuf⟩
    refine hhead'.trans ?_
    rw [popFront, read, toNat_next hk, hhead, Nat.mod_add_mod, Nat.add_assoc, Nat.add_comm 1]

/-- The operations that bring the row `j` to the front of a ring that holds a message without
bytes. -/
def probe (j : ℕ) : List RingOperation :=
  .queue .clear :: (List.replicate j (.queue .popFront) ++ [.queue (.pushBack [])])

/-- The row `j` comes to the front with its first byte. -/
theorem firstByte_probe (b : CircularBuffer size multi) {j : ℕ} (hj : 0 < j)
    (hlt : j < size.toNat) :
    (runAll (probe j) b).firstByte (runAll (probe j) b).head.toNat = b.firstByte j ∧
      0 < (runAll (probe j) b).available := by
  -- the probe is a push behind `j` pops of the cleared ring
  have hrun : runAll (probe j) b =
      (runAll (List.replicate j (.queue .popFront)) b.clear).pushBack [] := by
    rw [probe, runAll, List.foldl_cons, List.foldl_append]
    rfl
  have hzero : b.clear.head.toNat < 2 * size.toNat := Nat.mul_pos Nat.two_pos (size_pos hk)
  obtain ⟨hhead, htail, hcabuf⟩ := runAll_popFronts hk (b := b.clear) rfl hzero j
  have hj' : (b.clear.head.toNat + j) % (2 * size.toNat) = j :=
    (congrArg (· % _) (Nat.zero_add j)).trans (Nat.mod_eq_of_lt (by omega))
  rw [hj'] at hhead
  -- `tail` is at the first row, so that the ring is not taken for a full one
  have hnotFull : (runAll (List.replicate j (.queue .popFront)) b.clear).tail ≠
      (runAll (List.replicate j (.queue .popFront)) b.clear).head ^^^ size := by
    intro hfull
    have hindex := congrArg UInt16.toNat hfull
    rw [toNat_xor_size hk (by omega), hhead, htail, Nat.mod_eq_of_lt (by omega)] at hindex
    have hfirst : b.clear.tail.toNat = 0 := rfl
    omega
  have hkept : (runAll (probe j) b).head.toNat = j := by
    rw [hrun, pushBack, write, if_neg hnotFull, hhead]
  refine ⟨?_, hrun ▸ available_pushBack_pos hk _ _⟩
  rw [hkept, hrun, firstByte_pushBack_nil hk hmulti, firstByte, hcabuf]
  rfl

/-- What the cleared ring shows after a push. -/
theorem firstByte_clear_pushBack (b : CircularBuffer size multi) (y : UInt8) :
    (b.clear.pushBack [y]).firstByte (b.clear.pushBack [y]).head.toNat = y := by
  have hne : (0 : UInt16) ≠ 0 ^^^ size := by
    rw [UInt16.zero_xor]
    intro h
    have hpos := size_pos hk
    rw [← h] at hpos
    exact Nat.lt_irrefl 0 hpos
  have hhead : (b.clear.pushBack [y]).head = 0 := if_neg hne
  rw [firstByte_pushBack hk hmulti, hhead]
  exact if_pos rfl

/-- Later operations tell the ring from the cleared one unless its indices are equal, -/
theorem head_eq_tail_of_alike (hsize : 2 ≤ size.toNat)
    (hhead : c.head.toNat < 2 * size.toNat) (htail : c.tail.toNat < 2 * size.toNat)
    (h : ∀ ops : List RingOperation, (∀ op ∈ ops, op.Fits multi) →
      Alike (runAll ops c) (runAll ops b.clear)) : c.head = c.tail := by
  -- a byte unlike the one that comes to the front when no message does
  let first := if c.tail = c.head ^^^ size then (c.head + 1) &&& (2 * size - 1) else c.head
  let y := c.firstByte first.toNat + 1
  have halike := h [.queue (.pushBack [y])] (fun op hop => by
    rw [List.mem_singleton.mp hop]
    exact hmulti)
  have hbyte := halike.firstByte_eq hk hmulti (available_pushBack_pos hk c [y])
  -- the row that comes to the front is the row that was written, or `y` would not be seen
  have hselected : first.toNat % size.toNat = c.tail.toNat % size.toNat := by
    by_contra hne
    have hold : (c.pushBack [y]).firstByte (c.pushBack [y]).head.toNat =
        c.firstByte first.toNat := (firstByte_pushBack hk hmulti c y _).trans (if_neg hne)
    have hfresh := firstByte_clear_pushBack hk hmulti b y
    have hsame : c.firstByte first.toNat = c.firstByte first.toNat + 1 :=
      hold.symm.trans (hbyte.trans hfresh)
    exact absurd (left_eq_add.mp hsame) (by decide)
  by_cases hfull : c.tail = c.head ^^^ size
  · -- the push moves `head` to the row behind the one it writes
    have hfirst : first.toNat = (c.head.toNat + 1) % (2 * size.toNat) := by
      rw [show first = (c.head + 1) &&& (2 * size - 1) from if_pos hfull, toNat_next hk]
    rw [hfirst, hfull, toNat_xor_size hk hhead, Nat.mod_mod_of_dvd _ (Nat.dvd_mul_left _ 2),
      Nat.mod_mod_of_dvd _ (Nat.dvd_mul_left _ 2), Nat.add_mod_right] at hselected
    exact absurd hselected (add_mod_ne_add_mod (j := 0) (by omega) (by omega) Nat.one_ne_zero)
  · rw [show first = c.head from if_neg hfull, mod_of_lt_two_mul hhead,
      mod_of_lt_two_mul htail] at hselected
    rw [← UInt16.toNat_inj, toNat_xor_size hk hhead, mod_of_lt_two_mul (by omega)] at hfull
    rw [← UInt16.toNat_inj]
    split at hselected <;> split at hselected <;> split at hfull <;> omega

/-- and at the first row. -/
theorem head_mod_of_alike (heq : c.head = c.tail)
    (h : ∀ ops : List RingOperation, (∀ op ∈ ops, op.Fits multi) →
      Alike (runAll ops c) (runAll ops b.clear)) : c.head.toNat % size.toNat = 0 := by
  by_contra hne
  have hpos := Nat.pos_of_ne_zero hne
  have hlt := Nat.mod_lt c.head.toNat (size_pos hk)
  let y := b.firstByte (c.head.toNat % size.toNat) + 1
  -- a message is pushed, and its row is looked at after a clear
  have halike := h (.queue (.pushBack [y]) :: probe (c.head.toNat % size.toNat)) (by
    intro op hop
    rcases List.mem_cons.mp hop with rfl | hop
    · exact hmulti
    rcases List.mem_cons.mp hop with rfl | hop
    · trivial
    rcases List.mem_append.mp hop with hop | hop
    · rw [List.eq_of_mem_replicate hop]
      trivial
    · rw [List.mem_singleton.mp hop]
      exact Nat.zero_le _)
  -- the pushed byte is in that row of the popped ring, the old one in that of the cleared ring
  obtain ⟨hc, hcpos⟩ := firstByte_probe hk hmulti (c.pushBack [y]) hpos hlt
  obtain ⟨hb, -⟩ := firstByte_probe hk hmulti (b.clear.pushBack [y]) hpos hlt
  have hbyte := hc.symm.trans ((halike.firstByte_eq hk hmulti hcpos).trans hb)
  rw [firstByte_pushBack hk hmulti, firstByte_pushBack hk hmulti, heq, if_pos (Nat.mod_mod _ _),
    ← heq, Nat.mod_mod] at hbyte
  have htail : b.clear.tail.toNat % size.toNat = 0 := Nat.zero_mod _
  rw [htail, if_neg hne] at hbyte
  exact absurd (add_eq_left.mp hbyte) (by decide)

/-- A ring without messages over the same rows is as good as the cleared one exactly when its
indices are equal and at the first row; with one row the indices do not matter. -/
theorem alike_clear_iff (hempty : c.available = 0) (hhead : c.head.toNat < 2 * size.toNat)
    (htail : c.tail.toNat < 2 * size.toNat) (hcabuf : c.cabuf = b.cabuf) :
    (∀ ops : List RingOperation, (∀ op ∈ ops, op.Fits multi) →
      Alike (runAll ops c) (runAll ops b.clear)) ↔
      size = 1 ∨ c.head = c.tail ∧ c.head.toNat % size.toNat = 0 := by
  have hpos := size_pos hk
  constructor
  · intro h
    by_cases hone : size = 1
    · exact Or.inl hone
    · have hsize : size.toNat ≠ 1 := fun hone' => hone (UInt16.toNat_inj.mp hone')
      have heq := head_eq_tail_of_alike hk hmulti (by omega) hhead htail h
      exact Or.inr ⟨heq, head_mod_of_alike hk hmulti heq h⟩
  · intro h ops _
    -- the cleared ring has both indices at zero, the other one whole laps further on
    have hlapped : Lapped c b.clear := by
      refine ⟨hempty, hcabuf, h.imp_right fun ⟨heq, hfirst⟩ => ⟨c.head.toNat, hfirst, ?_⟩⟩
      have hzero : 0 < 2 * size.toNat := Nat.mul_pos Nat.two_pos hpos
      have hmoved : c.head.toNat = (0 + c.head.toNat) % (2 * size.toNat) := by
        rw [Nat.zero_add, Nat.mod_eq_of_lt hhead]
      exact ⟨hmoved, heq ▸ hmoved, hzero, hzero⟩
    exact (hlapped.runAll hk ops).alike hk

omit hmulti in
/-- What a pop of an empty ring changes. -/
theorem pop_fields (hempty : b.available = 0) (p : Pop) :
    (b.pop p).available = 0 ∧ (b.pop p).cabuf = b.cabuf ∧
      ((b.pop p).head = (b.pop p).tail ∧ (b.pop p).head.toNat % size.toNat = 0 ↔
        b.PopAligned p) := by
  obtain ⟨hhead, htail, havailable, hcabuf⟩ := init_fields b
  have hzero (i : UInt16) : i &&& (size - 1) = 0 ↔ i.toNat % size.toNat = 0 := by
    rw [← UInt16.toNat_inj, toNat_and_rowMask hk]
    rfl
  -- the three pops at the front move `head` alone
  have hread : (b.pop .read).available = 0 ∧ (b.pop .read).cabuf = b.cabuf ∧
      ((b.pop .read).head = (b.pop .read).tail ∧ (b.pop .read).head.toNat % size.toNat = 0 ↔
        b.PopAligned .read) := by
    simp only [pop, read, PopAligned]
    rw [hhead, htail, havailable, hcabuf, hempty, hzero]
    refine ⟨rfl, rfl, and_congr_right fun heq => ?_⟩
    rw [heq]
  cases p with
  | read => exact hread
  | popFront => exact hread
  | popFrontInto length =>
    have hinit : b.init.init = b.init := by
      unfold init
      split
      · rfl
      · rfl
    have hstate : b.pop (.popFrontInto length) = b.pop .read := by
      simp only [pop, popFrontInto, readBytes, read, hinit]
    rw [hstate]
    exact hread
  | popBack =>
    -- `pop_back()` tests `_available` and leaves the empty ring alone
    have hstate : b.pop .popBack = b := by
      simp only [pop, popBack, hempty, ne_eq, not_true, if_false]
    rw [hstate, PopAligned, hzero]
    exact ⟨hempty, rfl, Iff.rfl⟩
  | popBackInto length =>
    simp only [pop, popBackInto, PopAligned]
    rw [hhead, htail, havailable, hcabuf, hempty, hzero]
    exact ⟨rfl, rfl, and_congr_left fun _ => eq_comm⟩

/-- **A pop of an empty ring is harmless** exactly when it leaves both indices at the first row, or
there is no other row. -/
theorem popHarmless_iff_of_empty (h : b.Reachable) (hempty : b.available = 0) (p : Pop) :
    b.PopHarmless p ↔ size = 1 ∨ b.PopAligned p := by
  obtain ⟨havailable, hcabuf, haligned⟩ := pop_fields hk hempty p
  have hlt : (b.pop p).head.toNat < 2 * size.toNat ∧ (b.pop p).tail.toNat < 2 * size.toNat := by
    cases p with
    | read => exact indices_lt_apply hk (h.indices_lt hk) (.queue .popFront)
    | popFront => exact indices_lt_apply hk (h.indices_lt hk) (.queue .popFront)
    | popFrontInto length =>
      exact indices_lt_apply hk (h.indices_lt hk) (.queue (.popFrontInto length))
    | popBack => exact indices_lt_apply hk (h.indices_lt hk) .popBack
    | popBackInto length =>
      exact indices_lt_apply hk (h.indices_lt hk) (.queue (.popBackInto length))
  rw [PopHarmless, alike_clear_iff hk hmulti havailable hlt.1 hlt.2 hcabuf, haligned]

end PowerOfTwo

end CircularBuffer

/-! ## The ring of values -/

namespace ScalarBuffer

open CircularBuffer (size_pos toNat_masked_lt toNat_and_indexMask toNat_next toNat_xor_size
  exists_move add_mod_ne_add_mod)

variable {α : Type} {size : UInt16}

/-- The buffer after a pop; `pop_back(buffer, length)` runs off its end without a result. -/
def pop [IntCast α] (b : ScalarBuffer α size) : Pop → Option (ScalarBuffer α size)
  | .read => some b.read.2
  | .popFront => some b.popFront.2
  | .popFrontInto length => some (b.readBytes length).2
  | .popBack => some b.popBack.2
  | .popBackInto _ => none

/-- A block has a length, and `push_front` is given one that is not zero. -/
def BlockOperation.Fits : BlockOperation α → Prop
  | writeBlock buffer => buffer.length < 65536
  | pushFrontBlock buffer => 0 < buffer.length ∧ buffer.length < 65536
  | _ => True

/-- The values are put in another order where they lie: `sort_ascending()` sorts them, and
`sort_descending()` reverses them then. -/
def arrange (order : List α → List α) (b : ScalarBuffer α size) : ScalarBuffer α size :=
  if b.available = 0 then b else { b with cbuf := assign b.place b.cbuf (order b.contents) }

theorem sortAscending_eq_arrange [IntegerType α] (b : ScalarBuffer α size) :
    b.sortAscending = b.arrange sort := rfl

/-- `median(true)` sorts the values. -/
theorem median_true_eq_arrange [IntegerType α] (b : ScalarBuffer α size) :
    (b.median true).2 = b.arrange sort := by
  rw [median, arrange]
  split
  · rfl
  · exact if_neg ‹_›

/-- The operations that change the buffer: of values, of blocks, and those that sort. -/
inductive LaterOperation (α : Type)
  | block (op : BlockOperation α)
  | arrange (order : List α → List α)

namespace LaterOperation

/-- The operation on the buffer. -/
def apply [IntCast α] : LaterOperation α → ScalarBuffer α size → ScalarBuffer α size
  | block op, b => op.apply b
  | arrange order, b => b.arrange order

/-- Blocks that fit; the values may be put in any order. -/
def Fits : LaterOperation α → Prop
  | block op => op.Fits
  | arrange order => ∀ l, (order l).Perm l

end LaterOperation

/-- The buffer after a sequence of operations. -/
def runLater [IntCast α] (ops : List (LaterOperation α)) (b : ScalarBuffer α size) :
    ScalarBuffer α size :=
  ops.foldl (fun b op => op.apply b) b

/-- The state is reached from a new buffer by any sequence of these operations. -/
def Visited [IntCast α] (b : ScalarBuffer α size) : Prop :=
  ∃ (cbuf : Memory α) (ops : List (LaterOperation α)), runLater ops (create cbuf) = b

theorem runLater_block [IntCast α] (ops : List (BlockOperation α)) (b : ScalarBuffer α size) :
    runLater (ops.map .block) b = runBlocks ops b :=
  List.foldl_map

/-- What two buffers show: the same `size()`, and when there is a value the same values by position
and the same values returned by the pops. -/
structure Alike [IntCast α] (b c : ScalarBuffer α size) : Prop where
  size_eq : b.available = c.available
  peek_eq : ∀ pos < b.available, b.peek pos = c.peek pos
  popFront_eq : 0 < b.available → b.popFront.1 = c.popFront.1
  popBack_eq : 0 < b.available → b.popBack.1 = c.popBack.1
  readBytes_eq : 0 < b.available → ∀ length, (b.readBytes length).1 = (c.readBytes length).1

/-- After the pop every sequence of operations shows what it shows on the cleared buffer. -/
def PopHarmless [IntCast α] (b : ScalarBuffer α size) (p : Pop) : Prop :=
  ∃ c, b.pop p = some c ∧
    ∀ ops : List (LaterOperation α), (∀ op ∈ ops, op.Fits) →
      Alike (runLater ops c) (runLater ops b.clear)

/-- The pop leaves the buffer as `clear` does. -/
def PopAligned (b : ScalarBuffer α size) : Pop → Prop
  | .popFrontInto length => length = 0 ∧ b.head = 0 ∧ b.tail = 0
  | .popBack => b.head = 0 ∧ b.tail = 0
  | .popBackInto _ => False
  | _ => (b.head + 1) &&& (2 * size - 1) = 0 ∧ b.tail = 0

section PowerOfTwo

variable {k : ℕ} (hk : size.toNat = 2 ^ k) [IntCast α] {b c : ScalarBuffer α size}

include hk

theorem Visited.head_lt (h : b.Visited) : b.head.toNat < 2 * size.toNat := by
  obtain ⟨cbuf, ops, rfl⟩ := h
  induction ops using List.reverseRecOn with
  | nil => exact Nat.mul_pos Nat.two_pos (size_pos hk)
  | append_singleton ops op ih =>
    rw [runLater, List.foldl_append]
    cases op with
    | block op => exact head_lt_apply hk ih op
    | arrange order =>
      change (arrange order _).head.toNat < _
      rw [arrange]
      split
      · exact ih
      · exact ih

/-- Pops of an empty buffer move `head` alone. -/
theorem runBlocks_popFronts (h : b.available = 0) (hlt : b.head.toNat < 2 * size.toNat) (n : ℕ) :
    (runBlocks (List.replicate n (.value .popFront)) b).head.toNat =
        (b.head.toNat + n) % (2 * size.toNat) ∧
      (runBlocks (List.replicate n (.value .popFront)) b).tail = b.tail ∧
      (runBlocks (List.replicate n (.value .popFront)) b).available = 0 := by
  induction n generalizing b with
  | zero => exact ⟨(Nat.mod_eq_of_lt hlt).symm, rfl, h⟩
  | succ n ih =>
    have hempty : b.popFront.2.available = 0 := by
      rw [popFront, read, h]
      rfl
    obtain ⟨hhead, htail, havailable⟩ := ih hempty (toNat_masked_lt hk _)
    refine ⟨?_, htail, havailable⟩
    refine hhead.trans ?_
    rw [popFront, read, toNat_next hk, Nat.mod_add_mod, Nat.add_assoc, Nat.add_comm 1]

omit hk in
/-- `readBytes` of one value: on its fast path it counts the empty buffer down. -/
theorem available_readBytes_one (h : b.available = 0) :
    (b.readBytes 1).2.available = if b.head.toNat < size.toNat then 0 - 1 else 0 := by
  have hmin : min (1 : UInt16).toNat b.available.toNat = 0 := by
    rw [h]
    rfl
  split
  · next hlt =>
    have hfast : b.head.toNat + min (1 : UInt16).toNat b.available.toNat < size.toNat := by
      rwa [hmin, Nat.add_zero]
    rw [(blocks_of_lt hfast).1, h]
  · next hge =>
    have hslow : ¬b.head.toNat + min (1 : UInt16).toNat b.available.toNat < size.toNat := by
      rwa [hmin, Nat.add_zero]
    rw [(blocks_of_ge hslow).1, hmin]
    exact h

/-- Empty buffers with different heads are told apart. -/
theorem head_eq_of_alike (hb : b.available = 0) (hc : c.available = 0)
    (hblt : b.head.toNat < 2 * size.toNat) (hclt : c.head.toNat < 2 * size.toNat)
    (h : ∀ ops : List (BlockOperation α), (∀ op ∈ ops, op.Fits) →
      (runBlocks ops b).available = (runBlocks ops c).available) : b.head = c.head := by
  by_contra hne
  -- after `n` pops one head is in the first lap, where `readBytes` is fast, the other is not
  obtain ⟨n, hfast, hslow⟩ := exists_move hblt hclt (mt UInt16.toNat_inj.mp hne)
  have hsame := h (List.replicate n (.value .popFront) ++ [.readBytes 1]) (by
    intro op hop
    rcases List.mem_append.mp hop with hop | hop
    · rw [List.eq_of_mem_replicate hop]
      trivial
    · rw [List.mem_singleton.mp hop]
      trivial)
  obtain ⟨hbhead, -, hbavailable⟩ := runBlocks_popFronts hk hb hblt n
  obtain ⟨hchead, -, hcavailable⟩ := runBlocks_popFronts hk hc hclt n
  rw [runBlocks, List.foldl_append, runBlocks, List.foldl_append] at hsame
  -- the fast path subtracts the length asked for, the slow one reads no value
  have hcounts : (0 : UInt16) - 1 = 0 := by
    have hbread := available_readBytes_one hbavailable
    have hcread := available_readBytes_one hcavailable
    rw [hbhead, if_pos hfast] at hbread
    rw [hchead, if_neg hslow] at hcread
    exact hbread.symm.trans (hsame.trans hcread)
  exact absurd hcounts (by decide)

/-- Empty buffers whose heads are at the first cell are told apart when one tail is not. -/
theorem tail_eq_of_alike (hc : c.available = 0) (hhead : c.head = 0)
    (h : ∀ ops : List (BlockOperation α), (∀ op ∈ ops, op.Fits) →
      (runBlocks ops c).available = (runBlocks ops b.clear).available) : c.tail = 0 := by
  by_contra hne
  have hpos := size_pos hk
  let value : α := (0 : ℤ)
  let ops : List (BlockOperation α) := List.replicate size.toNat (.value .popFront)
  have hzero : (0 : UInt16).toNat < 2 * size.toNat := Nat.mul_pos Nat.two_pos hpos
  have hpops {d : ScalarBuffer α size} (hd : d.available = 0) (hfirst : d.head = 0) :
      (runBlocks ops d).head.toNat = (0 + size.toNat) % (2 * size.toNat) ∧
        (runBlocks ops d).tail = d.tail ∧ (runBlocks ops d).available = 0 := by
    have hmoved := runBlocks_popFronts hk hd (hfirst ▸ hzero) size.toNat
    rwa [hfirst] at hmoved
  -- as many pops as there are cells bring `head` a lap further
  obtain ⟨hchead, hctail, hcavailable⟩ := hpops hc hhead
  obtain ⟨hbhead, hbtail, hbavailable⟩ := hpops (d := b.clear) rfl rfl
  have hsize : (0 + size.toNat) % (2 * size.toNat) = size.toNat := by
    rw [Nat.zero_add, Nat.mod_eq_of_lt (by omega)]
  rw [hsize] at hchead hbhead
  -- a push takes the cleared buffer for a full one and moves its head
  have hbfull : (runBlocks ops b.clear).tail = (runBlocks ops b.clear).head ^^^ size := by
    rw [hbtail, ← UInt16.toNat_inj, toNat_xor_size hk (by omega), hbhead, ← Nat.two_mul,
      Nat.mod_self]
    rfl
  have hcfull : (runBlocks ops c).tail ≠ (runBlocks ops c).head ^^^ size := by
    rw [hctail, Ne, ← UInt16.toNat_inj, toNat_xor_size hk (by omega), hchead, ← Nat.two_mul,
      Nat.mod_self]
    exact fun h0 => hne (UInt16.toNat_inj.mp h0)
  -- a push and a pop make both empty again, with different heads
  have hpopped {d : ScalarBuffer α size} (hd : d.available = 0) :
      (d.write value).popFront.2.available = 0 := by
    have hlt : (0 : UInt16) < size := UInt16.lt_iff_toNat_lt.mpr hpos
    have hone : (d.write value).available = 1 := by
      rw [write, hd]
      exact if_pos hlt
    rw [popFront, read, hone]
    rfl
  have hheads := head_eq_of_alike hk (hpopped hbavailable) (hpopped hcavailable)
    (toNat_masked_lt hk _)
    (toNat_masked_lt hk _) (fun rest hrest => by
      have hsame := h (ops ++ (.value (.pushBack value) :: .value .popFront :: rest)) (by
        intro op hop
        rcases List.mem_append.mp hop with hop | hop
        · rw [List.eq_of_mem_replicate hop]
          trivial
        rcases List.mem_cons.mp hop with rfl | hop
        · trivial
        rcases List.mem_cons.mp hop with rfl | hop
        · trivial
        · exact hrest op hop)
      rw [runBlocks, List.foldl_append, runBlocks, List.foldl_append] at hsame
      exact hsame.symm)
  have hmoved := congrArg UInt16.toNat hheads
  rw [popFront, popFront, read, read, toNat_next hk, toNat_next hk, write, write, if_pos hbfull,
    if_neg hcfull, toNat_next hk, hbhead, hchead, Nat.mod_add_mod] at hmoved
  exact add_mod_ne_add_mod (i := 1) (j := 0) (by omega) (by omega) Nat.one_ne_zero hmoved

/-- A buffer over the same cells is as good as the cleared one exactly when it is the cleared
one. -/
theorem alike_clear_iff (hhead : c.head.toNat < 2 * size.toNat) (hcbuf : c.cbuf = b.cbuf) :
    (∀ ops : List (LaterOperation α), (∀ op ∈ ops, op.Fits) →
      Alike (runLater ops c) (runLater ops b.clear)) ↔
      c.available = 0 ∧ c.head = 0 ∧ c.tail = 0 := by
  constructor
  · intro h
    have hsizes (ops : List (BlockOperation α)) (hops : ∀ op ∈ ops, op.Fits) :
        (runBlocks ops c).available = (runBlocks ops b.clear).available := by
      rw [← runLater_block, ← runLater_block]
      exact (h (ops.map .block) (List.forall_mem_map.mpr hops)).size_eq
    have hempty : c.available = 0 := hsizes [] fun _ hop => absurd hop List.not_mem_nil
    have hzero : (0 : UInt16).toNat < 2 * size.toNat := Nat.mul_pos Nat.two_pos (size_pos hk)
    -- the sizes alone tell the buffers apart
    have hfirst : c.head = 0 := head_eq_of_alike hk hempty rfl hhead hzero hsizes
    exact ⟨hempty, hfirst, tail_eq_of_alike hk hempty hfirst hsizes⟩
  · rintro ⟨hempty, hfirst, htail⟩ ops -
    have hcleared : c = b.clear := by
      cases c
      simp only at hempty hfirst htail hcbuf
      rw [hempty, hfirst, htail, hcbuf, clear]
    rw [hcleared]
    exact ⟨rfl, fun _ _ => rfl, fun _ => rfl, fun _ => rfl, fun _ _ => rfl⟩

/-- **A pop of an empty buffer is harmless** exactly when it leaves the buffer as `clear` does. -/
theorem popHarmless_iff_of_empty (h : b.Visited) (hempty : b.available = 0) (p : Pop) :
    b.PopHarmless p ↔ b.PopAligned p := by
  have hlt := h.head_lt hk
  have hfields (c : ScalarBuffer α size) (hpop : b.pop p = some c)
      (hhead : c.head.toNat < 2 * size.toNat) (hcbuf : c.cbuf = b.cbuf) :
      b.PopHarmless p ↔ c.available = 0 ∧ c.head = 0 ∧ c.tail = 0 := by
    rw [← alike_clear_iff hk hhead hcbuf, PopHarmless, hpop]
    simp only [Option.some.injEq, exists_eq_left']
  have hread : (b.read.2.available = 0 ∧ b.read.2.head = 0 ∧ b.read.2.tail = 0) ↔
      b.PopAligned .read := by
    simp only [read, PopAligned, hempty, ne_eq, not_true, if_false, true_and]
  cases p with
  | read =>
    rw [hfields b.read.2 rfl (toNat_masked_lt hk _) rfl]
    exact hread
  | popFront =>
    rw [hfields b.read.2 rfl (toNat_masked_lt hk _) rfl]
    exact hread
  | popFrontInto length =>
    have hmin : min length.toNat b.available.toNat = 0 := by
      rw [hempty]
      exact Nat.min_zero _
    rw [PopAligned]
    by_cases hfast : b.head.toNat < size.toNat
    · -- the length is subtracted from the number of values, which is zero
      have hlength : b.head.toNat + min length.toNat b.available.toNat < size.toNat := by
        rwa [hmin]
      have hblock := (blocks_of_lt hlength).1
      have hkept : (b.head + UInt16.ofNat 0) &&& (2 * size - 1) = b.head := by
        rw [← UInt16.toNat_inj, toNat_and_indexMask hk]
        exact (congrArg (fun x : UInt16 => x.toNat % _) (UInt16.add_zero _)).trans
          (Nat.mod_eq_of_lt hlt)
      rw [hmin, hkept, hempty] at hblock
      rw [hfields _ rfl (by rw [hblock]; exact hlt) (by rw [hblock]), hblock]
      simp only [zero_sub, neg_eq_zero]
    · have hlength : ¬b.head.toNat + min length.toNat b.available.toNat < size.toNat := by
        rwa [hmin]
      have hblock := (blocks_of_ge hlength).1
      rw [hmin] at hblock
      rw [hfields _ rfl (by rw [hblock]; exact hlt) (by rw [hblock]; rfl), hblock]
      -- `head` is in the second lap
      have hne : b.head ≠ 0 := by
        intro h0
        rw [h0] at hfast
        exact hfast (size_pos hk)
      constructor
      · rintro ⟨-, h0, -⟩
        exact absurd h0 hne
      · rintro ⟨-, h0, -⟩
        exact absurd h0 hne
  | popBack =>
    have hstate : b.popBack.2 = b := by
      simp only [popBack, hempty, ne_eq, not_true, if_false]
    rw [hfields b (congrArg some hstate) hlt rfl]
    exact and_iff_right hempty
  | popBackInto length =>
    constructor
    · rintro ⟨c, hpop, -⟩
      cases hpop
    · intro hfalse
      cases hfalse

end PowerOfTwo

end ScalarBuffer

/-! ## Both modes -/

namespace CircularBuffer

/-- **A pop of an empty buffer is harmless** exactly when it leaves the indices where `clear` leaves
them; in the ring of messages a whole lap does not matter, and nothing matters with one row. -/
theorem emptyPop_harmless_iff {α : Type} [IntCast α] {size multi : UInt16} {k : ℕ}
    (hk : size.toNat = 2 ^ k) (hmulti : 0 < multi.toNat) (p : Pop) :
    (∀ b : ScalarBuffer α size, b.Visited → b.available = 0 →
      (b.PopHarmless p ↔ b.PopAligned p)) ∧
    ∀ b : CircularBuffer size multi, b.Reachable → b.available = 0 →
      (b.PopHarmless p ↔ size = 1 ∨ b.PopAligned p) :=
  ⟨fun _ h hempty => ScalarBuffer.popHarmless_iff_of_empty hk h hempty p,
    fun _ h hempty => popHarmless_iff_of_empty hk hmulti h hempty p⟩

/-- `pop_back()` on new buffers. -/
theorem emptyPop_harmless_iff_popBack :
    (ScalarBuffer.create fun _ => 0 : ScalarBuffer ℤ 16).PopHarmless .popBack ∧
      (create (fun _ => 0) fun _ => 0 : CircularBuffer 16 300).PopHarmless .popBack :=
  have h := @emptyPop_harmless_iff ℤ _ 16 300 4 (by rfl) (by decide) .popBack
  ⟨(h.1 _ ⟨_, [], rfl⟩ rfl).mpr ⟨rfl, rfl⟩, (h.2 _ ⟨_, _, [], rfl⟩ rfl).mpr (Or.inr ⟨rfl, rfl⟩)⟩

/-- `pop_front()` on the new queue, and a message of one byte. -/
theorem empty_popFront_not_harmless :
    ¬∀ (size : UInt16) (k : ℕ), size.toNat = 2 ^ k →
      (∀ b : ScalarBuffer ℤ size, b.Visited → b.available = 0 → ∀ p, b.PopHarmless p) ∧
      ∀ multi : UInt16, 0 < multi.toNat → ∀ b : CircularBuffer size multi, b.Reachable →
        b.available = 0 → ∀ p, b.PopHarmless p := by
  intro hall
  have hharmless := (hall 16 4 (by rfl)).2 300 (by decide)
    (create (fun _ => 0) fun _ => 0) ⟨_, _, [], rfl⟩ rfl .popFront
  have halike := hharmless [.queue (.pushBack [7])] (fun op hop => by
    rw [List.mem_singleton.mp hop]
    exact Nat.le_of_ble_eq_true rfl)
  exact absurd (halike.lengthFront_eq (by decide)) (by decide)

end CircularBuffer
