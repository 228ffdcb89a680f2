import Teensquitto.CircularBuffer.Removal
import Teensquitto.CircularBuffer.Replacement

/-!
# Laps

An index of the ring goes round twice before it is back: the two laps select the same rows.  Rings
with the same rows whose indices differ by laps cannot be told apart by any sequence of operations,
whether or not the pops find a message; nor can rings of one row.

## Main definitions

* `CircularBuffer.popBack`: the pop that returns a value of the scalar array
* `CircularBuffer.RingOperation`: all operations that change the ring, with `runAll`
* `CircularBuffer.Alike`: what the observers show
* `CircularBuffer.Lapped`: the same rows, indices that differ by laps

## Main results

* `CircularBuffer.Lapped.runAll`: every run keeps the relation
* `CircularBuffer.Lapped.alike`: rings in the relation show the same
-/

namespace CircularBuffer

variable {size multi : UInt16}

/-! ## Runs without a restriction -/

/-- `pop_back()`: of messages too it returns a value of the scalar array; -1 when there is none. -/
def popBack (b : CircularBuffer size multi) : UInt8 × CircularBuffer size multi :=
  if b.available ≠ 0 then
    -- the return statement names `_cbuf`, whether or not the buffer holds messages
    let tail := (b.tail - 1) &&& (2 * size - 1)
    (b.cbuf (tail &&& (size - 1)).toNat, { b with available := b.available - 1, tail := tail })
  else (-1, b)

/-- The operations that change the ring, `pop_back()`, `remove` and `replace` included. -/
inductive RingOperation
  | queue (op : Operation)
  | popBack
  | remove (pos : UInt16)
  | replace (outside : ℤ → UInt8) (buffer : List UInt8) (pos1 pos2 pos3 pos4 pos5 : ℤ)

namespace RingOperation

/-- The operation on the ring. -/
def apply : RingOperation → CircularBuffer size multi → CircularBuffer size multi
  | queue op, b => op.apply b
  | popBack, b => b.popBack.2
  | remove pos, b => (b.remove pos).2
  | replace outside buffer pos1 pos2 pos3 pos4 pos5, b =>
    (b.replace outside buffer pos1 pos2 pos3 pos4 pos5).2

/-- What is pushed or put in place fits a row; all others may be called at any time. -/
def Fits (multi : UInt16) : RingOperation → Prop
  | queue (.pushBack buffer) => buffer.length ≤ multi.toNat
  | queue (.pushFront buffer) => buffer.length ≤ multi.toNat
  | replace _ buffer _ _ _ _ _ => buffer.length ≤ multi.toNat
  | _ => True

end RingOperation

/-- The ring after a sequence of operations. -/
def runAll (ops : List RingOperation) (b : CircularBuffer size multi) :
    CircularBuffer size multi :=
  ops.foldl (fun b op => op.apply b) b

/-- The state is reached from a new ring by any sequence of operations. -/
def Reachable (b : CircularBuffer size multi) : Prop :=
  ∃ (cbuf cabuf : Memory UInt8) (ops : List RingOperation), runAll ops (create cbuf cabuf) = b

/-- What two rings show: the same `size()`, and when there is a message the same lengths, the same
bytes at `front()` and `back()`, and the same bytes copied by the pops, as far as a row goes. -/
structure Alike (b c : CircularBuffer size multi) : Prop where
  size_eq : b.available = c.available
  lengthFront_eq : 0 < b.available → b.lengthFront = c.lengthFront
  lengthBack_eq : 0 < b.available → b.lengthBack = c.lengthBack
  front_eq : 0 < b.available →
    b.cabuf.load b.front multi.toNat = c.cabuf.load c.front multi.toNat
  back_eq : 0 < b.available → b.cabuf.load b.back multi.toNat = c.cabuf.load c.back multi.toNat
  popFrontInto_eq : 0 < b.available → ∀ length ≤ multi,
    (b.popFrontInto length).1 = (c.popFrontInto length).1
  popBackInto_eq : 0 < b.available → ∀ length ≤ multi,
    (b.popBackInto length).1 = (c.popBackInto length).1

/-! ## Indices -/

/-- The indices of `b` are those of `c`, moved by `x`. -/
structure Turned (x : ℕ) (b c : CircularBuffer size multi) : Prop where
  head_eq : b.head.toNat = (c.head.toNat + x) % (2 * size.toNat)
  tail_eq : b.tail.toNat = (c.tail.toNat + x) % (2 * size.toNat)
  head_lt : c.head.toNat < 2 * size.toNat
  tail_lt : c.tail.toNat < 2 * size.toNat

/-- The same rows, and indices that differ by laps; of one row the indices do not matter. -/
structure Lapped (b c : CircularBuffer size multi) : Prop where
  available_eq : b.available = c.available
  cabuf_eq : b.cabuf = c.cabuf
  laps : size = 1 ∨ ∃ x, x % size.toNat = 0 ∧ Turned x b c

section PowerOfTwo

variable {k : ℕ} (hk : size.toNat = 2 ^ k) {b c : CircularBuffer size multi}
  {message : List UInt8} {x : ℕ}

include hk

/-- Every operation keeps both indices in their range. -/
theorem indices_lt_apply (h : b.head.toNat < 2 * size.toNat ∧ b.tail.toNat < 2 * size.toNat)
    (op : RingOperation) :
    (op.apply b).head.toNat < 2 * size.toNat ∧ (op.apply b).tail.toNat < 2 * size.toNat := by
  obtain ⟨hhead, htail, -, -⟩ := init_fields b
  have hinit : b.init.head.toNat < 2 * size.toNat ∧ b.init.tail.toNat < 2 * size.toNat := by
    rwa [hhead, htail]
  have hzero : 0 < 2 * size.toNat := Nat.mul_pos Nat.two_pos (size_pos hk)
  cases op with
  | popBack =>
    change b.popBack.2.head.toNat < _ ∧ b.popBack.2.tail.toNat < _
    rw [popBack]
    split
    · exact ⟨h.1, toNat_masked_lt hk _⟩
    · exact h
  | remove pos =>
    change (b.remove pos).2.head.toNat < _ ∧ (b.remove pos).2.tail.toNat < _
    rw [remove]
    split
    · exact h
    split
    · exact h
    · next area hfound =>
      refine ⟨toNat_masked_lt hk _, ?_⟩
      change (b.shiftRows area).tail.toNat < _
      rw [(shiftRows_fields area b).2.1]
      exact h.2
  | replace outside buffer pos1 pos2 pos3 pos4 pos5 =>
    change (b.replace outside buffer pos1 pos2 pos3 pos4 pos5).2.head.toNat < _ ∧
      (b.replace outside buffer pos1 pos2 pos3 pos4 pos5).2.tail.toNat < _
    rw [replace]
    split
    · exact h
    · exact h
  | queue op =>
    cases op with
    | pushBack message =>
      refine ⟨?_, toNat_masked_lt hk _⟩
      change (b.write message).head.toNat < _
      rw [write]
      split
      · exact toNat_masked_lt hk _
      · exact h.1
    | pushFront message =>
      refine ⟨toNat_masked_lt hk _, ?_⟩
      change (b.pushFront message).tail.toNat < _
      rw [pushFront]
      simp only
      split
      · exact toNat_masked_lt hk _
      · exact hinit.2
    | clear => exact ⟨hzero, hzero⟩
    | popFront => exact ⟨toNat_masked_lt hk _, hinit.2⟩
    | popFrontInto length =>
      refine ⟨toNat_masked_lt hk _, ?_⟩
      change b.init.init.tail.toNat < _
      rw [(init_fields b.init).2.1]
      exact hinit.2
    | popBackInto length => exact ⟨hinit.1, toNat_masked_lt hk _⟩

theorem Reachable.indices_lt (h : b.Reachable) :
    b.head.toNat < 2 * size.toNat ∧ b.tail.toNat < 2 * size.toNat := by
  obtain ⟨cbuf, cabuf, ops, rfl⟩ := h
  have hrun : ∀ (ops : List RingOperation) (b : CircularBuffer size multi),
      b.head.toNat < 2 * size.toNat ∧ b.tail.toNat < 2 * size.toNat →
      (runAll ops b).head.toNat < 2 * size.toNat ∧ (runAll ops b).tail.toNat < 2 * size.toNat := by
    intro ops
    induction ops with
    | nil => exact fun _ hb => hb
    | cons op ops ih => exact fun b hb => ih _ (indices_lt_apply hk hb op)
  have hzero : 0 < 2 * size.toNat := Nat.mul_pos Nat.two_pos (size_pos hk)
  exact hrun ops _ ⟨hzero, hzero⟩

/-! ### Turned indices -/

theorem toNat_next_turned {i j : UInt16} (h : i.toNat = (j.toNat + x) % (2 * size.toNat)) :
    ((i + 1) &&& (2 * size - 1)).toNat =
      (((j + 1) &&& (2 * size - 1)).toNat + x) % (2 * size.toNat) := by
  rw [toNat_next hk, toNat_next hk, h, Nat.mod_add_mod, Nat.mod_add_mod, Nat.add_right_comm]

theorem toNat_previous_turned {i j : UInt16} (h : i.toNat = (j.toNat + x) % (2 * size.toNat)) :
    ((i - 1) &&& (2 * size - 1)).toNat =
      (((j - 1) &&& (2 * size - 1)).toNat + x) % (2 * size.toNat) := by
  rw [toNat_previous hk, toNat_previous hk, h, Nat.mod_add_mod, Nat.mod_add_mod,
    Nat.add_right_comm]

omit hk in
/-- Indices a number of laps apart select the same row. -/
theorem mod_of_turned {i j : UInt16} (hx : x % size.toNat = 0)
    (h : i.toNat = (j.toNat + x) % (2 * size.toNat)) :
    i.toNat % size.toNat = j.toNat % size.toNat := by
  rw [h, Nat.mod_mod_of_dvd _ (Nat.dvd_mul_left _ 2), Nat.add_mod, hx, Nat.add_zero, Nat.mod_mod]

namespace Turned

/-- The test of fullness gives the same. -/
theorem full_iff (h : Turned x b c) : b.tail = b.head ^^^ size ↔ c.tail = c.head ^^^ size := by
  have hpos := size_pos hk
  have hlt : b.head.toNat < 2 * size.toNat := h.head_eq ▸ Nat.mod_lt _ (by omega)
  -- both tests compare the indices modulo two laps, where the move cancels
  rw [← UInt16.toNat_inj, ← UInt16.toNat_inj, toNat_xor_size hk hlt, toNat_xor_size hk h.head_lt,
    h.head_eq, h.tail_eq, Nat.mod_add_mod, Nat.add_right_comm c.head.toNat]
  constructor
  · intro hfull
    have hcancel : c.tail.toNat % (2 * size.toNat) =
        (c.head.toNat + size.toNat) % (2 * size.toNat) := Nat.ModEq.add_right_cancel' x hfull
    rwa [Nat.mod_eq_of_lt h.tail_lt] at hcancel
  · intro hfull
    rw [hfull, Nat.mod_add_mod]

omit hk in
theorem init (h : Turned x b c) : Turned x b.init c.init := by
  obtain ⟨hbhead, hbtail, -, -⟩ := init_fields b
  obtain ⟨hchead, hctail, -, -⟩ := init_fields c
  constructor
  · rw [hbhead, hchead]; exact h.head_eq
  · rw [hbtail, hctail]; exact h.tail_eq
  · rw [hchead]; exact h.head_lt
  · rw [hctail]; exact h.tail_lt

theorem pushBack (h : Turned x b c) (message : List UInt8) :
    Turned x (b.pushBack message) (c.pushBack message) := by
  -- `head` moves in both or in neither
  by_cases hfull : c.tail = c.head ^^^ size
  · have hbhead : (b.pushBack message).head = (b.head + 1) &&& (2 * size - 1) :=
      if_pos ((h.full_iff hk).mpr hfull)
    have hchead : (c.pushBack message).head = (c.head + 1) &&& (2 * size - 1) := if_pos hfull
    constructor
    · rw [hbhead, hchead]; exact toNat_next_turned hk h.head_eq
    · exact toNat_next_turned hk h.tail_eq
    · rw [hchead]; exact toNat_masked_lt hk _
    · exact toNat_masked_lt hk _
  · have hbhead : (b.pushBack message).head = b.head := if_neg (mt (h.full_iff hk).mp hfull)
    have hchead : (c.pushBack message).head = c.head := if_neg hfull
    constructor
    · rw [hbhead, hchead]; exact h.head_eq
    · exact toNat_next_turned hk h.tail_eq
    · rw [hchead]; exact h.head_lt
    · exact toNat_masked_lt hk _

theorem pushFront (h : Turned x b c) (message : List UInt8) :
    Turned x (b.pushFront message) (c.pushFront message) := by
  have h := h.init
  -- `tail` moves in both or in neither
  by_cases hfull : c.init.tail = c.init.head ^^^ size
  · have hbtail : (b.pushFront message).tail = (b.init.tail - 1) &&& (2 * size - 1) :=
      if_pos ((h.full_iff hk).mpr hfull)
    have hctail : (c.pushFront message).tail = (c.init.tail - 1) &&& (2 * size - 1) :=
      if_pos hfull
    constructor
    · exact toNat_previous_turned hk h.head_eq
    · rw [hbtail, hctail]; exact toNat_previous_turned hk h.tail_eq
    · exact toNat_masked_lt hk _
    · rw [hctail]; exact toNat_masked_lt hk _
  · have hbtail : (b.pushFront message).tail = b.init.tail :=
      if_neg (mt (h.full_iff hk).mp hfull)
    have hctail : (c.pushFront message).tail = c.init.tail := if_neg hfull
    constructor
    · exact toNat_previous_turned hk h.head_eq
    · rw [hbtail, hctail]; exact h.tail_eq
    · exact toNat_masked_lt hk _
    · rw [hctail]; exact h.tail_lt

theorem popFront (h : Turned x b c) : Turned x b.popFront c.popFront :=
  ⟨toNat_next_turned hk h.init.head_eq, h.init.tail_eq, toNat_masked_lt hk _, h.init.tail_lt⟩

theorem popBackInto (h : Turned x b c) (length : UInt16) :
    Turned x (b.popBackInto length).2 (c.popBackInto length).2 :=
  ⟨h.init.head_eq, toNat_previous_turned hk h.init.tail_eq, h.init.head_lt, toNat_masked_lt hk _⟩

theorem popBack (h : Turned x b c) (havailable : b.available = c.available) :
    Turned x b.popBack.2 c.popBack.2 := by
  rw [CircularBuffer.popBack, CircularBuffer.popBack, havailable]
  split
  · exact ⟨h.head_eq, toNat_previous_turned hk h.tail_eq, h.head_lt, toNat_masked_lt hk _⟩
  · exact h

theorem clear (_ : Turned x b c) : Turned 0 b.clear c.clear := by
  have hzero : 0 < 2 * size.toNat := Nat.mul_pos Nat.two_pos (size_pos hk)
  exact ⟨(Nat.zero_mod _).symm, (Nat.zero_mod _).symm, hzero, hzero⟩

end Turned

/-! ## The relation is kept -/

namespace Lapped

omit hk in
theorem head_mod (h : Lapped b c) :
    b.head.toNat % size.toNat = c.head.toNat % size.toNat := by
  rcases h.laps with rfl | ⟨x, hx, hturned⟩
  · exact (Nat.mod_one _).trans (Nat.mod_one _).symm
  · exact mod_of_turned hx hturned.head_eq

omit hk in
theorem tail_mod (h : Lapped b c) :
    b.tail.toNat % size.toNat = c.tail.toNat % size.toNat := by
  rcases h.laps with rfl | ⟨x, hx, hturned⟩
  · exact (Nat.mod_one _).trans (Nat.mod_one _).symm
  · exact mod_of_turned hx hturned.tail_eq

omit hk in
theorem init (h : Lapped b c) : Lapped b.init c.init := by
  obtain ⟨-, -, hbavailable, hbcabuf⟩ := init_fields b
  obtain ⟨-, -, hcavailable, hccabuf⟩ := init_fields c
  refine ⟨?_, ?_, h.laps.imp_right fun ⟨x, hx, hturned⟩ => ⟨x, hx, hturned.init⟩⟩
  · rw [hbavailable, hcavailable, h.available_eq]
  · rw [hbcabuf, hccabuf, h.cabuf_eq]

theorem pushBack (h : Lapped b c) (message : List UInt8) :
    Lapped (b.pushBack message) (c.pushBack message) := by
  refine ⟨?_, ?_, h.laps.imp_right fun ⟨x, hx, hturned⟩ => ⟨x, hx, hturned.pushBack hk message⟩⟩
  · rw [CircularBuffer.pushBack, CircularBuffer.pushBack, write, write, h.available_eq]
  · rw [CircularBuffer.pushBack, CircularBuffer.pushBack, write, write, row_eq hk, row_eq hk,
      h.tail_mod, h.cabuf_eq]

theorem pushFront (h : Lapped b c) (message : List UInt8) :
    Lapped (b.pushFront message) (c.pushFront message) := by
  have hlaps : size = 1 ∨
      ∃ x, x % size.toNat = 0 ∧ Turned x (b.pushFront message) (c.pushFront message) :=
    h.laps.imp_right fun ⟨x, hx, hturned⟩ => ⟨x, hx, hturned.pushFront hk message⟩
  -- the row that is written is that of the new `head`
  have hrow : (b.pushFront message).head.toNat % size.toNat =
      (c.pushFront message).head.toNat % size.toNat := by
    rcases hlaps with rfl | ⟨x, hx, hturned⟩
    · exact (Nat.mod_one _).trans (Nat.mod_one _).symm
    · exact mod_of_turned hx hturned.head_eq
  refine ⟨?_, ?_, hlaps⟩
  · rw [CircularBuffer.pushFront, CircularBuffer.pushFront, h.init.available_eq]
  · have hcabuf (b : CircularBuffer size multi) : (b.pushFront message).cabuf =
        b.init.cabuf.store ((b.pushFront message).head.toNat % size.toNat * (multi.toNat + 2))
          (rowCells message) := by
      rw [← row_eq hk b.init]
      rfl
    rw [hcabuf, hcabuf, hrow, h.init.cabuf_eq]

theorem popFront (h : Lapped b c) : Lapped b.popFront c.popFront := by
  refine ⟨?_, h.init.cabuf_eq,
    h.laps.imp_right fun ⟨x, hx, hturned⟩ => ⟨x, hx, hturned.popFront hk⟩⟩
  rw [CircularBuffer.popFront, CircularBuffer.popFront, read, read, h.init.available_eq]

theorem popBackInto (h : Lapped b c) (length : UInt16) :
    Lapped (b.popBackInto length).2 (c.popBackInto length).2 := by
  refine ⟨?_, h.init.cabuf_eq,
    h.laps.imp_right fun ⟨x, hx, hturned⟩ => ⟨x, hx, hturned.popBackInto hk length⟩⟩
  rw [CircularBuffer.popBackInto, CircularBuffer.popBackInto, h.init.available_eq]

theorem popBack (h : Lapped b c) : Lapped b.popBack.2 c.popBack.2 := by
  refine ⟨?_, ?_,
    h.laps.imp_right fun ⟨x, hx, hturned⟩ => ⟨x, hx, hturned.popBack hk h.available_eq⟩⟩
  · rw [CircularBuffer.popBack, CircularBuffer.popBack, h.available_eq]
    split
    · rfl
    · exact h.available_eq
  · rw [CircularBuffer.popBack, CircularBuffer.popBack, h.available_eq]
    split
    · exact h.cabuf_eq
    · exact h.cabuf_eq

theorem clear (h : Lapped b c) : Lapped b.clear c.clear :=
  ⟨rfl, h.cabuf_eq,
    h.laps.imp_right fun ⟨_, _, hturned⟩ => ⟨0, Nat.zero_mod _, hturned.clear hk⟩⟩

/-- Positions counted from `head` have the same rows, -/
theorem row_add (h : Lapped b c) (i : UInt16) : b.row (b.head + i) = c.row (c.head + i) := by
  have hdvd : size.toNat ∣ 65536 := Dvd.dvd.trans (Nat.dvd_mul_left _ 2) (two_mul_size_dvd hk)
  rw [row_eq hk, row_eq hk, UInt16.toNat_add, UInt16.toNat_add, Nat.mod_mod_of_dvd _ hdvd,
    Nat.mod_mod_of_dvd _ hdvd, ← Nat.mod_add_mod, h.head_mod, Nat.mod_add_mod]

/-- and the same row numbers. -/
theorem slot_eq (h : Lapped b c) (i : ℕ) : b.slot i = c.slot i := by
  have hdvd : size.toNat ∣ 65536 := Dvd.dvd.trans (Nat.dvd_mul_left _ 2) (two_mul_size_dvd hk)
  rw [← UInt16.toNat_inj, slot, slot, toNat_and_rowMask hk, toNat_and_rowMask hk, UInt16.toNat_add,
    UInt16.toNat_add, Nat.mod_mod_of_dvd _ hdvd, Nat.mod_mod_of_dvd _ hdvd, ← Nat.mod_add_mod,
    h.head_mod, Nat.mod_add_mod]

omit hk in
/-- Both get the same rows. -/
theorem with_cabuf (h : Lapped b c) (cabuf : Memory UInt8) :
    Lapped ({ b with cabuf := cabuf } : CircularBuffer size multi) { c with cabuf := cabuf } := by
  refine ⟨h.available_eq, rfl, h.laps.imp_right ?_⟩
  rintro ⟨x, hx, hturned⟩
  exact ⟨x, hx, hturned.head_eq, hturned.tail_eq, hturned.head_lt, hturned.tail_lt⟩

theorem shiftRows (h : Lapped b c) (area : ℕ) : Lapped (b.shiftRows area) (c.shiftRows area) := by
  induction area generalizing b c with
  | zero => exact h
  | succ area ih =>
    rw [CircularBuffer.shiftRows, CircularBuffer.shiftRows, h.slot_eq hk, h.slot_eq hk]
    split
    · refine ih ?_
      have hsource : b.row (b.head + UInt16.ofNat (area + 1) - 1) =
          c.row (c.head + UInt16.ofNat (area + 1) - 1) := by
        rw [add_sub_assoc, add_sub_assoc, h.row_add hk]
      rw [shiftRow, shiftRow, hsource, h.row_add hk, rowLength, rowLength, h.cabuf_eq]
      exact h.with_cabuf _
    · exact h

theorem remove (h : Lapped b c) (pos : UInt16) : Lapped (b.remove pos).2 (c.remove pos).2 := by
  have hfind : b.findArea pos = c.findArea pos := by
    unfold findArea
    exact congrArg (List.find? · _) (funext fun i => by rw [h.slot_eq hk])
  rw [CircularBuffer.remove, CircularBuffer.remove, hfind]
  split
  · exact h
  split
  · exact h
  · next area hfound =>
    have hshifted := h.shiftRows hk area
    refine ⟨congrArg (· - 1) hshifted.available_eq, hshifted.cabuf_eq,
      hshifted.laps.imp_right ?_⟩
    rintro ⟨x, hx, hturned⟩
    exact ⟨x, hx, toNat_next_turned hk hturned.head_eq, hturned.tail_eq, toNat_masked_lt hk _,
      hturned.tail_lt⟩

theorem replace (h : Lapped b c) (outside : ℤ → UInt8) (buffer : List UInt8)
    (pos1 pos2 pos3 pos4 pos5 : ℤ) : Lapped (b.replace outside buffer pos1 pos2 pos3 pos4 pos5).2
      (c.replace outside buffer pos1 pos2 pos3 pos4 pos5).2 := by
  have hcell (j : ℕ) (pos : ℤ) : b.cellAt j pos = c.cellAt j pos := by
    rw [cellAt, cellAt, h.row_add hk, h.cabuf_eq]
  have hfound : ((List.range b.available.toNat).find? fun j =>
        switch (fun pos => b.cellAt j pos == byteAt outside buffer pos) (inputCount pos4 pos5)
          pos1 pos2 pos3 pos4 pos5) =
      (List.range c.available.toNat).find? fun j =>
        switch (fun pos => c.cellAt j pos == byteAt outside buffer pos) (inputCount pos4 pos5)
          pos1 pos2 pos3 pos4 pos5 := by
    simp only [hcell, h.available_eq]
  simp only [CircularBuffer.replace, hfound]
  split
  · rw [h.row_add hk, h.cabuf_eq]
    exact h.with_cabuf _
  · exact h

/-- One operation, whether or not a pop finds a message. -/
theorem apply (h : Lapped b c) (op : RingOperation) : Lapped (op.apply b) (op.apply c) := by
  cases op with
  | popBack => exact h.popBack hk
  | remove pos => exact h.remove hk pos
  | replace outside buffer pos1 pos2 pos3 pos4 pos5 =>
    exact h.replace hk outside buffer pos1 pos2 pos3 pos4 pos5
  | queue op =>
    cases op with
    | pushBack message => exact h.pushBack hk message
    | pushFront message => exact h.pushFront hk message
    | clear => exact h.clear hk
    | popFront => exact h.popFront hk
    | popFrontInto length => exact h.init.popFront hk
    | popBackInto length => exact h.popBackInto hk length

/-- **Every run keeps the relation.** -/
theorem runAll (h : Lapped b c) (ops : List RingOperation) :
    Lapped (CircularBuffer.runAll ops b) (CircularBuffer.runAll ops c) := by
  induction ops generalizing b c with
  | nil => exact h
  | cons op ops ih => exact ih (h.apply hk op)

/-! ## What is shown -/

/-- The last message is found in the same row from `head`, -/
theorem row_last (h : Lapped b c) :
    b.row (b.head + b.available - 1) = c.row (c.head + c.available - 1) := by
  have hdvd : size.toNat ∣ 65536 := Dvd.dvd.trans (Nat.dvd_mul_left _ 2) (two_mul_size_dvd hk)
  have hsum (b : CircularBuffer size multi) : (b.head + b.available - 1).toNat % size.toNat =
      (b.head.toNat % size.toNat + b.available.toNat + (size.toNat - 1)) % size.toNat := by
    rw [toNat_sub_one_mod hdvd, UInt16.toNat_add, ← Nat.mod_add_mod, Nat.mod_mod_of_dvd _ hdvd,
      Nat.mod_add_mod, Nat.add_assoc (b.head.toNat % _), Nat.mod_add_mod, Nat.add_assoc]
  rw [row_eq hk, row_eq hk, hsum, hsum, h.head_mod, h.available_eq]

/-- and from `tail`. -/
theorem row_back (h : Lapped b c) : b.row (b.tail - 1) = c.row (c.tail - 1) := by
  have hdvd : size.toNat ∣ 65536 := Dvd.dvd.trans (Nat.dvd_mul_left _ 2) (two_mul_size_dvd hk)
  rw [row_eq hk, row_eq hk, toNat_sub_one_mod hdvd, toNat_sub_one_mod hdvd, ← Nat.mod_add_mod,
    h.tail_mod, Nat.mod_add_mod]

theorem row_front (h : Lapped b c) : b.row b.head = c.row c.head := by
  rw [row_eq hk, row_eq hk, h.head_mod]

/-- **Rings in the relation show the same.** -/
theorem alike (h : Lapped b c) : Alike b c := by
  refine ⟨h.available_eq, fun _ => ?_, fun _ => ?_, fun _ => ?_, fun _ => ?_, fun _ => ?_,
    fun _ => ?_⟩
  · -- every observer reads a row, and the rows that are read are the same
    rw [lengthFront, lengthFront, rowLength, rowLength, h.row_front hk, h.cabuf_eq]
  · rw [lengthBack, lengthBack, rowLength, rowLength, h.row_last hk, h.cabuf_eq]
  · rw [front, front, h.row_front hk, h.cabuf_eq]
  · rw [back, back, h.row_back hk, h.cabuf_eq]
  · intro length _
    rw [popFrontInto, popFrontInto, readBytes, readBytes]
    simp only
    rw [h.init.row_front hk, h.init.cabuf_eq]
  · intro length _
    rw [CircularBuffer.popBackInto, CircularBuffer.popBackInto]
    simp only
    rw [h.init.row_back hk, h.init.cabuf_eq]

end Lapped

end PowerOfTwo

end CircularBuffer
