import Teensquitto.Wire.Encoding

/-!
# Frames that are longer than the range of the index

A block writes its bytes one after the other, and `data_pos` goes round.  Whatever the length of
the array, the bytes that remain are the last ones written, as many as the index has values; so two
blocks of the same size write the same frame exactly when they agree in these.

## Main definitions

* `Command.written`: the bytes in the order in which they are written, the checksum last

## Main results

* `Command.written_eq_of_emit_eq`: frames that are equal agree in the last bytes written
* `Command.emit_eq_of_written`: blocks that agree in the last bytes written write equal frames
* `Command.emit_ne_of_opcode_ne`: commands that differ in the opcode write different frames
-/

namespace Teensquitto

namespace Encoder

variable {bits : ℕ}

theorem dataPos_foldl_frame (l : List UInt8) {e : Encoder} (h : e.dataPos < 2 ^ bits) :
    (l.foldl (frame bits) e).dataPos = (e.dataPos + l.length) % 2 ^ bits := by
  induction l generalizing e with
  | nil => exact (Nat.mod_eq_of_lt h).symm
  | cons b l ih =>
    rw [List.foldl_cons, ih (Nat.mod_lt _ (Nat.two_pow_pos bits))]
    change ((e.dataPos + 1) % 2 ^ bits + l.length) % 2 ^ bits = _
    rw [Nat.mod_add_mod, List.length_cons, Nat.add_right_comm, Nat.add_assoc]

/-- A byte stays in its place until the index comes round to it. -/
theorem data_foldl_frame (garbage : Memory UInt8) (l : List UInt8) {i : ℕ} (hi : i < l.length)
    (hlast : l.length ≤ i + 2 ^ bits) :
    (l.foldl (frame bits) ⟨garbage, 0, 0, []⟩).data (i % 2 ^ bits) = l[i] := by
  -- induction on the bytes written, the last one first
  induction l using List.reverseRecOn with
  | nil => exact absurd hi (Nat.not_lt_zero _)
  | append_singleton l b ih =>
    rw [List.length_append, List.length_singleton] at hi hlast
    have hpos : (l.foldl (frame bits) ⟨garbage, 0, 0, []⟩).dataPos = l.length % 2 ^ bits := by
      rw [dataPos_foldl_frame l (Nat.two_pow_pos bits), Nat.zero_add]
    rw [List.foldl_append, List.foldl_cons, List.foldl_nil]
    change ((l.foldl (frame bits) ⟨garbage, 0, 0, []⟩).data.set
      (l.foldl (frame bits) ⟨garbage, 0, 0, []⟩).dataPos b) (i % 2 ^ bits) = _
    rw [hpos]
    rcases Nat.lt_succ_iff_lt_or_eq.mp hi with hlt | rfl
    · have hne : i % 2 ^ bits ≠ l.length % 2 ^ bits := by
        intro hmod
        obtain ⟨k, hk⟩ : 2 ^ bits ∣ l.length - i :=
          (Nat.modEq_iff_dvd' hlt.le).mp hmod
        rcases Nat.eq_zero_or_pos k with rfl | hk₀
        · omega
        · have := Nat.le_mul_of_pos_right (2 ^ bits) hk₀
          omega
      rw [Memory.set_of_ne _ _ hne, ih hlt (by omega), List.getElem_append_left hlt]
    · rw [Memory.set_self, List.getElem_concat_length rfl]

end Encoder

namespace Command

/-- The bytes in the order in which they are written. -/
def written (c : Command) : List UInt8 := c.framing ++ c.payload ++ [Bytes.xorSum c.payload]

variable {c c' : Command} {garbage garbage' : Memory UInt8}

@[simp] theorem length_written (c : Command) : c.written.length = c.size := by
  have := c.length_payload
  rw [written, List.length_append, List.length_append, length_framing, List.length_singleton]
  omega

/-- The array is filled by the bytes written, one after the other. -/
theorem data_encode (c : Command) (garbage : Memory UInt8) :
    (c.encode garbage).data =
      (c.written.foldl (Encoder.frame c.indexBits) ⟨garbage, 0, 0, []⟩).data := by
  have hsum (l : List UInt8) : ∀ e : Encoder,
      (l.foldl (Encoder.frame c.indexBits) e).checksum = e.checksum := by
    induction l with
    | nil => exact fun _ => rfl
    | cons b l ih => exact fun e => ih _
  have hfilled : c.filled garbage =
      { c.payload.foldl (Encoder.frame c.indexBits)
          (c.framing.foldl (Encoder.frame c.indexBits) ⟨garbage, 0, 0, []⟩) with
        checksum := Bytes.xorSum c.payload } := by
    rw [filled, Encoder.foldl_put, hsum, UInt8.zero_xor]
  rw [encode_eq_store, hfilled, written, List.foldl_append, List.foldl_append]
  rfl

/-- The last bytes written are in the frame. -/
theorem getElem_emit (c : Command) (garbage : Memory UInt8) {i : ℕ} (hi : i < c.size)
    (hlast : c.size ≤ i + 2 ^ c.indexBits) :
    (c.emit garbage)[i % 2 ^ c.indexBits]? = c.written[i]? := by
  have hplace : i % 2 ^ c.indexBits < (c.emit garbage).length := by
    rw [length_emit]
    exact (Nat.mod_le _ _).trans_lt hi
  have hi' : i < c.written.length := by rwa [length_written]
  rw [List.getElem?_eq_getElem hplace, List.getElem?_eq_getElem hi']
  refine congrArg some ?_
  simp only [emit, Memory.getElem_load, Nat.zero_add, data_encode]
  exact Encoder.data_foldl_frame garbage c.written hi' (by rwa [length_written])

/-- **Frames that are equal agree in the last bytes written**, whatever was in the arrays. -/
theorem written_eq_of_emit_eq (hsize : c'.size = c.size) (hbits : c'.indexBits = c.indexBits)
    (h : c.emit garbage = c'.emit garbage') {i : ℕ} (hi : i < c.size)
    (hlast : c.size ≤ i + 2 ^ c.indexBits) : c.written[i]? = c'.written[i]? := by
  rw [← c.getElem_emit garbage hi hlast, h, ← hbits,
    c'.getElem_emit garbage' (by rwa [hsize]) (by rwa [hsize, hbits])]

/-- **Blocks that agree in the last bytes written write equal frames**, over the same array. -/
theorem emit_eq_of_written (hsize : c'.size = c.size) (hbits : c'.indexBits = c.indexBits)
    (h : ∀ i < c.size, c.size ≤ i + 2 ^ c.indexBits → c.written[i]? = c'.written[i]?) :
    c.emit garbage = c'.emit garbage := by
  refine List.ext_getElem? fun p => ?_
  rcases Nat.lt_or_ge p c.size with hp | hp
  · rcases Nat.lt_or_ge p (2 ^ c.indexBits) with hrange | hrange
    · -- the last byte that is written to the place `p`
      have hdiv := Nat.div_add_mod (c.size - 1 - p) (2 ^ c.indexBits)
      have hmod := Nat.mod_lt (c.size - 1 - p) (Nat.two_pow_pos c.indexBits)
      have hi : p + 2 ^ c.indexBits * ((c.size - 1 - p) / 2 ^ c.indexBits) < c.size := by omega
      have hlast : c.size ≤ p + 2 ^ c.indexBits * ((c.size - 1 - p) / 2 ^ c.indexBits) +
          2 ^ c.indexBits := by omega
      have hplace : (p + 2 ^ c.indexBits * ((c.size - 1 - p) / 2 ^ c.indexBits)) %
          2 ^ c.indexBits = p := by
        rw [Nat.add_mul_mod_self_left, Nat.mod_eq_of_lt hrange]
      have hc := c.getElem_emit garbage hi hlast
      have hc' := c'.getElem_emit garbage (by rwa [hsize]) (by rwa [hsize, hbits])
        (i := p + 2 ^ c.indexBits * ((c.size - 1 - p) / 2 ^ c.indexBits))
      rw [hplace] at hc
      rw [hbits, hplace] at hc'
      rw [hc, hc', h _ hi hlast]
    · -- past the range of the index nothing is written
      have hplace : p < (c.emit garbage).length := by rwa [length_emit]
      have hplace' : p < (c'.emit garbage).length := by rwa [length_emit, hsize]
      rw [List.getElem?_eq_getElem hplace, List.getElem?_eq_getElem hplace']
      simp only [emit, Memory.getElem_load, Nat.zero_add]
      rw [c.data_of_ge garbage hrange, c'.data_of_ge garbage (by rwa [hbits])]
  · rw [List.getElem?_eq_none (by rwa [length_emit]), List.getElem?_eq_none (by
      rwa [length_emit, hsize])]

/-- Frames that are equal have the same checksum. -/
theorem xorSum_eq_of_emit_eq (hsize : c'.size = c.size) (hbits : c'.indexBits = c.indexBits)
    (h : c.emit garbage = c'.emit garbage') :
    Bytes.xorSum c.payload = Bytes.xorSum c'.payload := by
  have hlen := c.length_payload
  have hlen' := c'.length_payload
  have hpos := Nat.two_pow_pos c.indexBits
  have hlast := written_eq_of_emit_eq hsize hbits h (i := c.size - 1) (by omega) (by omega)
  have hat : ∀ d : Command, d.size = c.size →
      d.written[c.size - 1]? = some (Bytes.xorSum d.payload) := by
    intro d hd
    have hlend := d.length_payload
    rw [written, List.getElem?_append_right (by
      rw [List.length_append, length_framing]
      omega), List.length_append, length_framing]
    rw [show c.size - 1 - (3 + d.payload.length) = 0 by omega]
    rfl
  rw [hat c rfl, hat c' hsize] at hlast
  exact Option.some.inj hlast

/-- Commands that differ in the opcode alone write different frames. -/
theorem emit_ne_of_opcode_ne (hsize : c'.size = c.size) (hbits : c'.indexBits = c.indexBits)
    (hheader : c.header = c'.header) (hargs : c.args = c'.args) (htext : c.text = c'.text)
    (hbody : c.body = c'.body) (hopcode : c.opcode ≠ c'.opcode) :
    c.emit garbage ≠ c'.emit garbage' := by
  intro h
  have hsum := xorSum_eq_of_emit_eq hsize hbits h
  simp only [payload, List.append_assoc, List.cons_append, List.nil_append, Bytes.xorSum_cons,
    hheader, hargs, htext, hbody] at hsum
  have hcancel : ∀ x y z : UInt8, z ^^^ x = z ^^^ y → x = y := by
    intro x y z hxy
    have hxy := congrArg (fun b => z ^^^ b) hxy
    simpa only [← UInt8.xor_assoc, UInt8.xor_self, UInt8.zero_xor] using hxy
  have hrest := hcancel _ _ _ (hcancel _ _ _ hsum)
  rw [UInt8.xor_comm, UInt8.xor_comm c'.opcode] at hrest
  exact hopcode (hcancel _ _ _ hrest)

end Command

end Teensquitto
