import Teensquitto.Wire.Command

/-!
# What the encoders write

The statements of a block write one byte after the other as long as `data_pos` does not
wrap.  The exact condition is a bound on the size of the array: an array of at most
`2 ^ indexBits` bytes is written everywhere once, and in any longer array the places past
the range of `data_pos` keep what was there before.

## Main results

* `Command.encode_eq`: the block up to the write, when the index has room
* `Command.emit_eq`: the bytes that are written to the port
* `Command.load_payload`: with room for all but the checksum, the payload is in place
* `Command.data_of_ge`: a place past the range of the index is never written
-/

namespace Teensquitto

namespace Encoder

variable {bits : ℕ} {e : Encoder}

/-- A byte that does not end the range of the index. -/
theorem frame_eq (b : UInt8) (h : e.dataPos + 1 < 2 ^ bits) :
    e.frame bits b =
      { e with
        data := e.data.set e.dataPos b, dataPos := e.dataPos + 1
        written := e.written ++ [e.dataPos] } := by
  rw [frame, next, store, Nat.mod_eq_of_lt h]

/-- A run of framing bytes fills a block, when the index has room for it. -/
theorem foldl_frame (l : List UInt8) (hpos : e.dataPos < 2 ^ bits)
    (hroom : e.dataPos + l.length ≤ 2 ^ bits) :
    l.foldl (frame bits) e =
      { e with
        data := e.data.store e.dataPos l, dataPos := (e.dataPos + l.length) % 2 ^ bits
        written := e.written ++ List.range' e.dataPos l.length } := by
  induction l generalizing e with
  | nil => simp [Memory.store_nil, Nat.mod_eq_of_lt hpos]
  | cons b l ih =>
    rw [List.length_cons] at hroom
    rw [List.foldl_cons]
    cases l with
    | nil => simp [frame, store, next, Memory.set]
    | cons b' l =>
      rw [List.length_cons] at hroom
      have hnext : e.dataPos + 1 < 2 ^ bits := by omega
      rw [frame_eq b hnext, ih hnext (by rw [List.length_cons]; dsimp only; omega)]
      simp only [Memory.store_set, List.append_assoc, List.length_cons, List.range'_succ,
        List.singleton_append]
      congr 2
      omega

/-- A payload byte is a framing byte that is summed. -/
theorem put_eq (b : UInt8) :
    e.put bits b = { e.frame bits b with checksum := e.checksum ^^^ b } := by
  simp [put, frame, fold, next, store, Memory.set_self]

/-- A run of payload bytes is a run of framing bytes that is summed. -/
theorem foldl_put (l : List UInt8) :
    l.foldl (put bits) e =
      { l.foldl (frame bits) e with checksum := e.checksum ^^^ Bytes.xorSum l } := by
  have hkeep : ∀ (l : List UInt8) (e : Encoder) (c : UInt8),
      l.foldl (frame bits) { e with checksum := c } =
        { l.foldl (frame bits) e with checksum := c } := by
    intro l
    induction l with
    | nil => intro e c; rfl
    | cons b l ih => intro e c; exact ih (e.frame bits b) c
  induction l generalizing e with
  | nil => simp
  | cons b l ih =>
    have hsum : Bytes.xorSum (b :: l) = b ^^^ Bytes.xorSum l := by
      rw [← List.singleton_append, Bytes.xorSum_append, Bytes.xorSum_singleton]
    rw [List.foldl_cons, ih, put_eq, hkeep, List.foldl_cons, hsum, UInt8.xor_assoc]

/-- The index stays in its range, and so do the places that are written. -/
structure InRange (bits : ℕ) (garbage : Memory UInt8) (e : Encoder) : Prop where
  dataPos : e.dataPos < 2 ^ bits
  written : ∀ i ∈ e.written, i < 2 ^ bits
  data : ∀ i, 2 ^ bits ≤ i → e.data i = garbage i

variable {garbage : Memory UInt8}

theorem InRange.store (h : InRange bits garbage e) (b : UInt8) :
    InRange bits garbage (e.store b) where
  dataPos := h.dataPos
  written i hi := by
    rcases List.mem_append.mp hi with hi | hi
    · exact h.written i hi
    · exact List.mem_singleton.mp hi ▸ h.dataPos
  data i hi := by
    have hpos := h.dataPos
    exact (Memory.set_of_ne e.data b (by omega)).trans (h.data i hi)

theorem InRange.foldl_frame (h : InRange bits garbage e) (l : List UInt8) :
    InRange bits garbage (l.foldl (frame bits) e) := by
  induction l generalizing e with
  | nil => exact h
  | cons b l ih =>
    exact ih ⟨Nat.mod_lt _ (Nat.two_pow_pos bits), (h.store b).written, (h.store b).data⟩

theorem InRange.foldl_put (h : InRange bits garbage e) (l : List UInt8) :
    InRange bits garbage (l.foldl (put bits) e) := by
  rw [Encoder.foldl_put]
  exact ⟨(h.foldl_frame l).dataPos, (h.foldl_frame l).written, (h.foldl_frame l).data⟩

end Encoder

namespace Command

variable (c : Command) (garbage : Memory UInt8)

/-- The array holds the framing bytes, the payload and the checksum. -/
theorem length_payload : c.payload.length + 4 = c.size := by
  have hsize := c.size_eq
  have hflat : (c.text.flatMap CString.bytes).length = (c.text.map CString.strlen).sum :=
    List.length_flatMap
  simp only [payload, List.length_append, List.length_map, List.length_cons, List.length_nil,
    hflat]
  omega

theorem length_framing : c.framing.length = 3 := rfl

/-- The local variables before the checksum is stored. -/
def filled : Encoder :=
  c.payload.foldl (Encoder.put c.indexBits)
    (c.framing.foldl (Encoder.frame c.indexBits) ⟨garbage, 0, 0, []⟩)

theorem encode_eq_store :
    c.encode garbage = (c.filled garbage).store (c.filled garbage).checksum := rfl

/-- With room for all but the checksum, the bytes before it are in place. -/
theorem filled_eq (h : c.size ≤ 2 ^ c.indexBits + 1) :
    c.filled garbage =
      { data := garbage.store 0 (c.framing ++ c.payload)
        dataPos := (c.size - 1) % 2 ^ c.indexBits
        checksum := Bytes.xorSum c.payload
        written := List.range (c.size - 1) } := by
  have hlen := c.length_payload
  have hpos : 0 < c.payload.length := by
    rw [payload]
    simp
  have hall : (c.framing ++ c.payload).length = c.size - 1 := by
    rw [List.length_append, length_framing]
    omega
  rw [filled, Encoder.foldl_put, ← List.foldl_append, Encoder.foldl_frame _ (Nat.two_pow_pos _)
    (by rw [hall]; dsimp only; omega), Encoder.foldl_frame _ (Nat.two_pow_pos _)
    (by rw [length_framing]; dsimp only; omega)]
  simp only [hall, Nat.zero_add, UInt8.zero_xor, List.nil_append, List.range_eq_range']

/-- **The block up to the write**, when the index has room for the whole array. -/
theorem encode_eq (h : c.size ≤ 2 ^ c.indexBits) :
    c.encode garbage =
      { data := garbage.store 0 (c.framing ++ c.payload ++ [Bytes.xorSum c.payload])
        dataPos := c.size - 1
        checksum := Bytes.xorSum c.payload
        written := List.range c.size } := by
  have hlen := c.length_payload
  have hlast : (c.framing ++ c.payload).length = c.size - 1 := by
    rw [List.length_append, length_framing]
    omega
  rw [encode_eq_store, filled_eq c garbage (by omega), Encoder.store,
    Nat.mod_eq_of_lt (by omega)]
  have hset := garbage.set_store 0 (c.framing ++ c.payload) (Bytes.xorSum c.payload)
  rw [hlast, Nat.zero_add] at hset
  rw [hset, ← List.range_succ, show (c.size - 1).succ = c.size by omega]

/-- **The bytes that are written to the port**, when the index has room. -/
theorem emit_eq (h : c.size ≤ 2 ^ c.indexBits) :
    c.emit garbage = c.framing ++ c.payload ++ [Bytes.xorSum c.payload] := by
  have hlen : (c.framing ++ c.payload ++ [Bytes.xorSum c.payload]).length = c.size := by
    rw [List.length_append, List.length_append, length_framing, List.length_singleton]
    have := c.length_payload
    omega
  rw [emit, encode_eq c garbage h, ← hlen]
  exact Memory.load_store garbage 0 _

/-- **With room for all but the checksum, the payload is in place**: the checksum then
falls on the first framing byte. -/
theorem load_payload (h : c.size ≤ 2 ^ c.indexBits + 1) :
    (c.encode garbage).data.load 3 c.payload.length = c.payload := by
  have hlen := c.length_payload
  rw [encode_eq_store, filled_eq c garbage h]
  have hframing : (garbage.store 0 (c.framing ++ c.payload)).load 0 (3 + c.payload.length) =
      c.framing ++ c.payload := by
    have hload := garbage.load_store 0 (c.framing ++ c.payload)
    rwa [List.length_append, length_framing] at hload
  rw [Memory.load_add, Nat.zero_add] at hframing
  have hpayload := (List.append_inj hframing (by rw [Memory.length_load, length_framing])).2
  refine Eq.trans ?_ hpayload
  refine Memory.load_store_of_disjoint _ [_] ?_
  rcases Nat.lt_or_eq_of_le h with hlt | heq
  · rw [Nat.mod_eq_of_lt (by omega)]
    left
    dsimp only
    omega
  · rw [heq, Nat.add_sub_cancel, Nat.mod_self]
    exact .inr (Nat.le_add_left 1 2)

theorem inRange_encode : (c.encode garbage).InRange c.indexBits garbage := by
  refine Encoder.InRange.store (Encoder.InRange.foldl_put (Encoder.InRange.foldl_frame ?_ _) _) _
  exact ⟨Nat.two_pow_pos _, fun i hi => absurd hi List.not_mem_nil, fun _ _ => rfl⟩

/-- **A place past the range of the index is never written.** -/
theorem data_of_ge {i : ℕ} (h : 2 ^ c.indexBits ≤ i) :
    (c.encode garbage).data i = garbage i :=
  (c.inRange_encode garbage).data i h

end Command

end Teensquitto
