import Teensquitto.Reply.Values

/-!
# Bulk reads

`read(buf, size)` and `peekBytes(buf, length)` copy as many bytes to the caller's buffer as the
reply declares.  The count is compared neither with the caller's size nor with the reply.

## Main definitions

* `copyBulk`, `bulkIndices`: the copy loop, and the indices of `storage_buffer` that are read
* `RespectsBuffer`: what a caller relies on

## Main results

* `Call.decode_bulk`: the bulk reads of all roles run this loop
* `bulk_respects_buffer_iff`: the caller's buffer is respected when the count fits it and the reply
-/

namespace Teensquitto

/-- The loop `for ( i = 0; i < _size; i++ ) buf[i] = storage_buffer[9+i]`. -/
def copyBulk (storage buf : Memory UInt8) : ℕ → Memory UInt8
  | 0 => buf
  | i + 1 => (copyBulk storage buf i).set i (storage (9 + i))

/-- The indices of `storage_buffer` that are read behind the header and the opcode. -/
def bulkIndices (count : ℕ) : List ℕ := [5, 6, 7, 8] ++ (List.range count).map (9 + ·)

/-- The loop copies a block. -/
theorem copyBulk_eq (storage buf : Memory UInt8) (n : ℕ) :
    copyBulk storage buf n = buf.store 0 (storage.load 9 n) := by
  induction n with
  | zero => rw [copyBulk, Memory.load_zero, Memory.store_nil]
  | succ n ih =>
    have h := buf.set_store 0 (storage.load 9 n) (storage (9 + n))
    rw [Nat.zero_add, Memory.length_load] at h
    rw [copyBulk, ih, h, Memory.load_succ]

theorem bulkIndices_lt_iff {count bound : ℕ} :
    (∀ i ∈ bulkIndices count, i < bound) ↔ 9 + count ≤ bound := by
  simp only [bulkIndices, List.mem_append, List.mem_cons, List.not_mem_nil, or_false, List.mem_map,
    List.mem_range]
  constructor
  · intro h
    by_cases hcount : count = 0
    · have := h 8 (by omega)
      omega
    · have := h (9 + (count - 1)) (.inr ⟨count - 1, by omega, rfl⟩)
      omega
  · rintro h i ((rfl | rfl | rfl | rfl) | ⟨j, hj, rfl⟩) <;> omega

/-- The requested size of a bulk read. -/
def Call.bulkSize? : Call → Option UInt32
  | .stream _ (.readBuffer size) => some size
  | .stream _ (.peekBytes length) => some length
  | _ => none

/-- The caller of a bulk read of `size` bytes gets `count` bytes of the reply, and the rest of his
buffer `buf` is left alone. -/
structure RespectsBuffer (size : UInt32) (payload : List UInt8) (buf buf' : Memory UInt8)
    (count : ℕ) : Prop where
  written : ∀ i, size.toNat ≤ i → buf' i = buf i
  indices : ∀ i < count, i < size.toNat
  count_le : count ≤ size.toNat
  bytes : buf'.load 0 count = (payload.drop 9).take count
  carried : ∀ i ∈ bulkIndices count, i < payload.length - 1
  inside : ∀ i ∈ bulkIndices count, i < 512

section

variable {call : Call} {size : UInt32} {active : Bool} {e : Exchange}

/-- **The bulk reads of all roles run the loop**: they return the count, and the bytes that it
copies to the front of the caller's buffer. -/
theorem Call.decode_bulk (hcall : call.bulkSize? = some size)
    (he : Stage.request active e ∈ call.method.stages) (storage buf : Memory UInt8) :
    e.decode storage =
      ⟨.number (Decode.word storage 5).toNat,
        [.bytes ((copyBulk storage buf (Decode.word storage 5).toNat).load 0
          (Decode.word storage 5).toNat)]⟩ := by
  have hbulk : e.decode = Decode.bulk := by
    unfold Call.bulkSize? at hcall
    split at hcall
    · simp only [Call.method, StreamCall.method, Method.guarded, Stage.ask, List.mem_cons,
        Stage.request.injEq, List.not_mem_nil, or_false] at he
      rcases he with ⟨-, rfl⟩ | ⟨-, rfl⟩ | ⟨-, rfl⟩ | ⟨-, rfl⟩ <;> rfl
    · simp only [Call.method, StreamCall.method, Method.guarded, Stage.ask, List.mem_cons,
        Stage.request.injEq, List.not_mem_nil, or_false] at he
      rcases he with ⟨-, rfl⟩ | ⟨-, rfl⟩ <;> rfl
    · cases hcall
  have hload := buf.load_store 0 (storage.load 9 (Decode.word storage 5).toNat)
  rw [Memory.length_load] at hload
  rw [hbulk, copyBulk_eq, hload]
  rfl

/-- The caller's buffer is respected by a reply whose count fits the caller's size and the reply. -/
theorem respectsBuffer_stored {payload : List UInt8} (hlength : payload.length ≤ 512)
    (hcount : Decoder.declared payload ≤ size.toNat)
    (hcarried : 10 + Decoder.declared payload ≤ payload.length) (before buf : Memory UInt8) :
    RespectsBuffer size payload buf
      (copyBulk (stored before payload) buf (Decoder.declared payload))
      (Decoder.declared payload) := by
  rw [copyBulk_eq]
  constructor
  · intro i hi
    exact buf.store_of_ge _ (by rw [Memory.length_load]; omega)
  · intro i hi
    omega
  · exact hcount
  · have hload := buf.load_store 0 ((stored before payload).load 9 (Decoder.declared payload))
    rw [Memory.length_load] at hload
    rw [hload]
    refine List.ext_getElem (by simp; omega) fun i hi _ => ?_
    rw [Memory.length_load] at hi
    rw [Memory.getElem_load, stored_of_lt (by omega), List.getElem_take, List.getElem_drop,
      List.getD_eq_getElem]
  · exact bulkIndices_lt_iff.mpr (by omega)
  · exact bulkIndices_lt_iff.mpr (by omega)

/-- The count and the bytes that a stored reply gives. -/
theorem respectsBuffer_iff_of_stored (hcall : call.bulkSize? = some size)
    (he : Stage.request active e ∈ call.method.stages) {payload : List UInt8}
    (hshort : payload.length ≤ 512) (before buf : Memory UInt8) :
    (∃ (count : ℕ) (buf' : Memory UInt8),
      e.decode (stored before payload) = ⟨.number count, [.bytes (buf'.load 0 count)]⟩ ∧
        buf' = copyBulk (stored before payload) buf count ∧
        RespectsBuffer size payload buf buf' count) ↔
      Decoder.declared payload ≤ size.toNat ∧
        10 + Decoder.declared payload ≤ payload.length := by
  have hdecode := Call.decode_bulk hcall he (stored before payload) buf
  constructor
  · rintro ⟨count, buf', hvalue, rfl, hrespects⟩
    obtain rfl : (Decode.word (stored before payload) 5).toNat = count := by
      rw [hdecode] at hvalue
      simpa using congrArg Value.result hvalue
    have hcarried := bulkIndices_lt_iff.mp hrespects.carried
    have hcount := hrespects.count_le
    rw [Decoder.toNat_word_stored (by omega)] at hcarried hcount
    exact ⟨hcount, by omega⟩
  · rintro ⟨hcount, hcarried⟩
    rw [Decoder.toNat_word_stored (by omega)] at hdecode
    exact ⟨_, _, hdecode, rfl, respectsBuffer_stored hshort hcount hcarried before buf⟩

/-- **Bulk reads respect the caller's buffer** exactly when the count that the accepted reply
declares is at most the requested size and at most the number of bytes behind the count. -/
theorem bulk_respects_buffer_iff (hcall : call.bulkSize? = some size)
    (he : Stage.request active e ∈ call.method.stages) {payload : List UInt8}
    (hlength : 6 ≤ payload.length) {depth : ℕ} {w w' : World} {storage : Memory UInt8}
    (h : Accepting e payload depth w w' storage) (buf : Memory UInt8) :
    (∃ (count : ℕ) (buf' : Memory UInt8),
      e.decode storage = ⟨.number count, [.bytes (buf'.load 0 count)]⟩ ∧
        buf' = copyBulk storage buf count ∧ RespectsBuffer size payload buf buf' count) ↔
      Decoder.declared payload ≤ size.toNat ∧
        10 + Decoder.declared payload ≤ payload.length := by
  obtain ⟨hshort, before, rfl⟩ := h.stored he hlength
  exact respectsBuffer_iff_of_stored hcall he hshort before buf

end

/-! ## A reply of three bytes -/

theorem fileRead_mem (size : UInt32) : Stage.request true (fileRead size) ∈
    (Call.stream anyObject (.readBuffer size)).method.stages := List.mem_cons_self

/-- Three bytes that were read from a file. -/
def threeBytes : List UInt8 :=
  [0xAA, 0x55, 0x34, 0x34, 0x11, 0x00, 0x00, 0x00, 0x03, 0x41, 0x42, 0x43, 0xAD]

/-- Their frame arrives.  Irreducible, so that runs over it are evaluated only where this is asked
for. -/
@[irreducible] def threeBytesSchedule : List Tick :=
  ⟨0, [0x24, 0x00, 0x0D] ++ threeBytes⟩ :: List.replicate 80 ⟨0, []⟩

/-- The reply is accepted, whether two or three bytes were asked for. -/
theorem fileRead_accepting (size : UInt32) (h : size = 2 ∨ size = 3) : ∃ w' storage,
    Accepting (fileRead size) threeBytes 1
      (World.powerUp threeBytesSchedule [] fun _ _ => 0) w' storage := by
  refine exists_accepting ?_
  rcases h with rfl | rfl
  · decide +kernel
  · decide +kernel

theorem bulk_respects_buffer_iff_three : ∃ (storage : Memory UInt8) (count : ℕ)
    (buf' : Memory UInt8),
    (fileRead 3).decode storage = ⟨.number count, [.bytes (buf'.load 0 count)]⟩ ∧
      buf' = copyBulk storage (fun _ => 0) count ∧
      RespectsBuffer 3 threeBytes (fun _ => 0) buf' count := by
  obtain ⟨w', storage, h⟩ := fileRead_accepting 3 (.inr rfl)
  exact ⟨storage, (bulk_respects_buffer_iff rfl (fileRead_mem 3) (by decide) h _).mpr (by decide)⟩

/-- Three bytes are written to a buffer of two. -/
theorem read_overruns_buffer : ¬∀ (call : Call) (size : UInt32) (active : Bool) (e : Exchange)
    (payload : List UInt8) (depth : ℕ) (w w' : World) (storage buf : Memory UInt8),
    call.bulkSize? = some size → Stage.request active e ∈ call.method.stages →
    6 ≤ payload.length → Closed payload → Accepting e payload depth w w' storage →
    ∃ (count : ℕ) (buf' : Memory UInt8),
      e.decode storage = ⟨.number count, [.bytes (buf'.load 0 count)]⟩ ∧
        buf' = copyBulk storage buf count ∧ RespectsBuffer size payload buf buf' count := by
  intro hall
  obtain ⟨w', storage, h⟩ := fileRead_accepting 2 (.inl rfl)
  have hrespects := hall _ 2 _ _ _ _ _ _ _ (fun _ => 0) rfl (fileRead_mem 2) (by decide)
    (by decide) h
  obtain ⟨hshort, before, rfl⟩ := h.stored (fileRead_mem 2) (by decide)
  exact absurd ((respectsBuffer_iff_of_stored rfl (fileRead_mem 2) hshort before _).mp hrespects)
    (by decide)

end Teensquitto
