import Teensquitto.Device.Request
import Teensquitto.Receiver.Packets

/-!
# Storing a reply

`processing_data` copies a reply to `storage_buffer` byte by byte, with a zero behind the last
one.  The buffer has 512 bytes; the loop is bounded by the length of the frame only.

## Main definitions

* `copyReply`, `copyIndices`: the loop, and the indices it writes
* `StoredFaithfully`: the reply lies in the buffer, and nothing else was written

## Main results

* `copyReply_succ`: the loop stores a block
* `stores_reply_iff`: replies of at most 512 bytes are stored faithfully
-/

namespace Teensquitto

/-- The loop that stores a reply: `storage_buffer[i] = data[i]; storage_buffer[i+1] = '\\0'`. -/
def copyReply (data storage : Memory UInt8) : ℕ → Memory UInt8
  | 0 => storage
  | i + 1 => ((copyReply data storage i).set i (data i)).set (i + 1) 0

/-- The indices that the loop writes. -/
def copyIndices (n : ℕ) : List ℕ := (List.range n).flatMap fun i => [i, i + 1]

/-- The loop stores the bytes and a zero. -/
theorem copyReply_succ (data storage : Memory UInt8) (n : ℕ) :
    copyReply data storage (n + 1) = storage.store 0 (data.load 0 (n + 1) ++ [0]) := by
  -- behind `l` comes the next byte, in the place of the zero, and the zero behind it
  have hround (l : List UInt8) (x : UInt8) :
      ((storage.store 0 l).set l.length x).set (l.length + 1) 0 =
        storage.store 0 (l ++ [x] ++ [0]) := by
    have hx := storage.set_store 0 l x
    have hzero := storage.set_store 0 (l ++ [x]) 0
    rw [Nat.zero_add] at hx hzero
    rw [hx, ← hzero, List.length_append, List.length_singleton]
  induction n with
  | zero =>
    have h := hround [] (data 0)
    rwa [Memory.store_nil] at h
  | succ n ih =>
    have h := hround (data.load 0 (n + 1)) (data (n + 1))
    have hzero := storage.set_store 0 (data.load 0 (n + 1)) 0
    rw [Nat.zero_add, Memory.length_load] at hzero
    rw [Memory.length_load] at h
    rw [copyReply, ih, ← hzero, Memory.set_set, h, Memory.load_succ data 0 (n + 1), Nat.zero_add]

/-- A reply of `n + 1` bytes fits the buffer. -/
theorem copyIndices_lt_iff {n : ℕ} : (∀ i ∈ copyIndices n, i < 512) ↔ n < 512 := by
  simp only [copyIndices, List.mem_flatMap, List.mem_range, List.mem_cons, List.not_mem_nil,
    or_false]
  constructor
  · intro h
    by_cases hn : n = 0
    · omega
    · exact Nat.lt_of_succ_lt_succ (Nat.succ_lt_succ (h n ⟨n - 1, by omega, .inr (by omega)⟩))
  · rintro hn i ⟨j, hj, rfl | rfl⟩
    · omega
    · omega

/-- The reply lies in `storage_buffer` without its checksum, a zero behind it, and nothing else
was written. -/
structure StoredFaithfully (payload : List UInt8) (w w' : World) : Prop where
  bytes : ∀ i (h : i < payload.length - 1), w'.storageBuffer i = payload[i]
  terminator : w'.storageBuffer (payload.length - 1) = 0
  others : ∀ i, payload.length ≤ i → w'.storageBuffer i = w.storageBuffer i
  inside : ∀ i ∈ copyIndices (payload.length - 1), i < 512
  ready : w'.dataReadyFlag = true

section

variable {payload : List UInt8} {w : World}

/-- Storing a reply does what the loop does. -/
theorem storeReply_run (hpos : 1 < payload.length) (hlength : payload.length ≤ 512) :
    (storeReply (.uart payload) payload.length).run w = .ok ()
      { w with
        trace := w.trace ++ [.reply ((w.dataAt (.uart payload)).load 0 (payload.length - 1))]
        storageBuffer :=
          copyReply (w.dataAt (.uart payload)) w.storageBuffer (payload.length - 1)
        dataReadyFlag := true } := by
  obtain ⟨n, hn⟩ : ∃ n, payload.length - 1 = n + 1 := ⟨payload.length - 2, by omega⟩
  unfold storeReply
  rw [EStateM.run_bind, EStateM.run_get]
  simp only
  rw [if_neg (by omega), EStateM.run_bind, run_log]
  simp only
  rw [EStateM.run_modify, if_neg (by omega), hn, copyReply_succ]

/-- A longer reply is written beyond the buffer. -/
theorem storeReply_run_of_lt (hlength : 512 < payload.length) :
    (storeReply (.uart payload) payload.length).run w = .error .undefined w := by
  unfold storeReply
  rw [EStateM.run_bind, EStateM.run_get]
  simp only
  rw [if_pos (.inr hlength)]
  rfl

/-- The loop stores every byte of the reply but the checksum. -/
theorem storedFaithfully_copyReply (hpos : 1 < payload.length) (hlength : payload.length ≤ 512) :
    StoredFaithfully payload w
      { w with
        trace := w.trace ++ [.reply ((w.dataAt (.uart payload)).load 0 (payload.length - 1))]
        storageBuffer :=
          copyReply (w.dataAt (.uart payload)) w.storageBuffer (payload.length - 1)
        dataReadyFlag := true } := by
  obtain ⟨n, hn⟩ : ∃ n, payload.length - 1 = n + 1 := ⟨payload.length - 2, by omega⟩
  have hstored : copyReply (w.dataAt (.uart payload)) w.storageBuffer (payload.length - 1) =
      w.storageBuffer.store 0
        ((w.dataAt (.uart payload)).load 0 (payload.length - 1) ++ [0]) := by
    rw [hn, copyReply_succ]
  rw [hstored]
  constructor
  · intro i hi
    have hmem := w.storageBuffer.store_of_mem (a := 0)
      ((w.dataAt (.uart payload)).load 0 (payload.length - 1) ++ [0]) (i := i) (by simp; omega)
    rw [Nat.zero_add] at hmem
    refine hmem.trans ?_
    rw [List.getElem_append_left (by simpa using hi), Memory.getElem_load]
    simp [World.dataAt, show i < payload.length by omega]
  · have hmem := w.storageBuffer.store_of_mem (a := 0)
      ((w.dataAt (.uart payload)).load 0 (payload.length - 1) ++ [0]) (i := payload.length - 1)
      (by simp)
    rw [Nat.zero_add] at hmem
    refine hmem.trans ?_
    rw [List.getElem_append_right (by simp)]
    simp
  · intro i hi
    exact w.storageBuffer.store_of_ge (a := 0)
      ((w.dataAt (.uart payload)).load 0 (payload.length - 1) ++ [0]) (i := i) (by simp; omega)
  · exact copyIndices_lt_iff.mpr (by omega)
  · rfl

/-- `processing_data` of a reply, behind the detection. -/
theorem processingData_reply {user : Prog Unit} {rest : List UInt8} {w₁ : World}
    (hreply : payload = 0xAA :: 0x55 :: rest)
    (h : (do
      refresh (.uart payload) payload.length
      detection user (.uart payload)).run w = .ok () w₁) :
    (processingData user (.uart payload) payload.length).run w =
      (storeReply (.uart payload) payload.length).run w₁ := by
  have hsplit : processingData user (.uart payload) payload.length = (do
      (do
        refresh (.uart payload) payload.length
        detection user (.uart payload))
      switchHeader user (.uart payload) payload.length) := by
    rw [bind_assoc]
    rfl
  have hheader : (readHeader (.uart payload)).run w₁ = .ok 0xAA55 w₁ := by
    subst hreply
    rfl
  rw [hsplit, EStateM.run_bind, h]
  simp only
  unfold switchHeader
  rw [EStateM.run_bind, hheader]
  simp only
  rw [if_pos trivial]

/-- **Replies of at most 512 bytes are stored faithfully.**  Relative to the state behind the
detection and the `onDetect` handler it may have called, `processing_data` stores the bytes of a
reply without its checksum and a zero behind them, sets `data_ready_flag` and writes nothing
else exactly when the reply has at most 512 bytes. -/
theorem stores_reply_iff (user : Prog Unit) {rest : List UInt8} {w₁ : World}
    (hreply : payload = 0xAA :: 0x55 :: rest) (hlength : 3 ≤ payload.length)
    (h : (do
      refresh (.uart payload) payload.length
      detection user (.uart payload)).run w = .ok () w₁) :
    (processingData user (.uart payload) payload.length).Returns w
        (fun _ w' => StoredFaithfully payload w₁ w') ↔
      payload.length ≤ 512 := by
  unfold EStateM.Returns EStateM.Ends
  rw [processingData_reply hreply h]
  constructor
  · intro hstored
    by_contra hlong
    rw [storeReply_run_of_lt (Nat.lt_of_not_le hlong)] at hstored
    exact hstored
  · intro hshort
    rw [storeReply_run (by omega) hshort]
    exact storedFaithfully_copyReply (by omega) hshort

end

/-- A state in which one reading of the clock is left. -/
def oneReading : World := .powerUp [⟨0, []⟩] [] fun _ _ => 0

/-- A frame that is processed online does not call the `onDetect` handler. -/
theorem detection_oneReading (rest : List UInt8) :
    ∃ w₁, (do
      refresh (.uart (0xAA :: 0x55 :: rest)) (0xAA :: 0x55 :: rest).length
      detection (pure ()) (.uart (0xAA :: 0x55 :: rest))).run oneReading = .ok () w₁ :=
  ⟨_, rfl⟩

theorem stores_reply_iff_format : ∃ w₁,
    (processingData (pure ()) (.uart [0xAA, 0x55, 0x34, 0x34, 0x03, 0x01, 0xFD]) 7).Returns
      oneReading
      (fun _ w' => StoredFaithfully [0xAA, 0x55, 0x34, 0x34, 0x03, 0x01, 0xFD] w₁ w') := by
  obtain ⟨w₁, h⟩ := detection_oneReading [0x34, 0x34, 0x03, 0x01, 0xFD]
  exact ⟨w₁, (stores_reply_iff (pure ()) rfl (by decide) h).mpr (by decide)⟩

/-- A reply of 513 bytes is written beyond the buffer. -/
theorem long_reply_not_stored : ¬∀ (user : Prog Unit) (payload rest : List UInt8) (w w₁ : World),
    payload = 0xAA :: 0x55 :: rest → Closed payload → 3 ≤ payload.length →
    payload.length ≤ 65535 →
    (do
      refresh (.uart payload) payload.length
      detection user (.uart payload)).run w = .ok () w₁ →
    (processingData user (.uart payload) payload.length).Returns w
      fun _ w' => StoredFaithfully payload w₁ w' := by
  intro h
  obtain ⟨fields, hfields⟩ : ∃ fields : List UInt8, fields.length = 510 :=
    ⟨List.replicate 510 0, List.length_replicate⟩
  obtain ⟨sum, hclosed⟩ : ∃ sum, Closed (0xAA :: 0x55 :: (fields ++ [sum])) :=
    ⟨Bytes.xorSum (0xAA :: 0x55 :: fields), closed_append (0xAA :: 0x55 :: fields)⟩
  obtain ⟨w₁, hrun⟩ := detection_oneReading (fields ++ [sum])
  have hstored := h _ _ _ _ w₁ rfl hclosed (by simp [hfields]) (by simp [hfields]) hrun
  unfold EStateM.Returns EStateM.Ends at hstored
  rw [processingData_reply rfl hrun, storeReply_run_of_lt (by simp [hfields])] at hstored
  exact hstored

end Teensquitto
