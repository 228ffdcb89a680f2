import Teensquitto.Method.Frames
import Teensquitto.Protocol.Agreement
import Teensquitto.Reply.Storing
import Teensquitto.Waiting.Replies

/-!
# The values of replies

The methods decode their results from `storage_buffer`, in which a reply overwrites its own
bytes and the one behind them.  A decoder reads fixed offsets, or as many bytes as the reply
says; where it reads on behind a short reply, it returns what earlier replies have left there.

## Main definitions

* `Decoder`: what a request reads from its reply
* `Decoder.Covered`: the reply has all bytes that are read
* `Exchange.decodeReply`: a reply is stored and decoded
* `Exchange.Determined`: its value depends on the reply only

## Main results

* `Decoder.determined_iff`: when a decoder depends on the reply only
* `Call.decodes`: the decoders of all methods
* `reply_determines_value`: the value of a request depends on the accepted reply only
-/

namespace Teensquitto

/-! ## The decoders -/

/-- What a request reads from its reply. -/
inductive Decoder
  | bool | byte | signedByte | uint16 | int16 | uint32 | int32 | int32Copied | address
  | shortText | filledText | longText | dangling | bulk | mac | resolved | fsInfo | networkInfo
  | arrived
  deriving DecidableEq

namespace Decoder

/-- The value read from `storage_buffer`. -/
def decode : Decoder → Memory UInt8 → Value
  | bool => Decode.bool
  | byte => Decode.byte
  | signedByte => Decode.signedByte
  | uint16 => Decode.uint16
  | int16 => Decode.int16
  | uint32 => Decode.uint32
  | int32 => Decode.int32
  | int32Copied => Decode.int32Copied
  | address => Decode.address
  | shortText => Decode.shortText
  | filledText => Decode.filledText
  | longText => Decode.longText
  | dangling => Decode.dangling
  | bulk => Decode.bulk
  | mac => Decode.mac
  | resolved => Decode.resolved
  | fsInfo => Decode.fsInfo
  | networkInfo => Decode.networkInfo
  | arrived => Decode.arrived

/-- The byte count that a reply declares. -/
def declared (payload : List UInt8) : ℕ :=
  (Decode.word (fun i => payload.dropLast.getD i 0) 5).toNat

/-- The length that a reply declares for a text. -/
def declaredText (payload : List UInt8) : ℕ :=
  (Decode.half (fun i => payload.dropLast.getD i 0) 5).toNat

/-- A reply has all bytes that the decoder reads; its checksum counts, since a zero is stored in
its place.  Texts end at that zero.  A text whose array only the loop terminates has a byte, a text
with a two-byte length ends in `storage_buffer`, and no reply makes up for an array that is gone. -/
def Covered (payload : List UInt8) : Decoder → Prop
  | bool | byte | signedByte | shortText | arrived => True
  | filledText => 7 ≤ payload.length ∧ payload.getD 5 0 ≠ 0
  | uint16 | int16 => 7 ≤ payload.length
  | uint32 | int32 | int32Copied | address => 9 ≤ payload.length
  | longText => (8 ≤ payload.length ∨ payload.length = 7 ∧ payload.getD 5 0 = 0) ∧
      7 + declaredText payload ≤ 512
  | dangling => False
  | bulk => 9 + declared payload ≤ payload.length
  | mac => 11 ≤ payload.length
  | resolved => 10 ≤ payload.length
  | fsInfo => 30 ≤ payload.length
  | networkInfo => 24 ≤ payload.length ∧ payload.getD 6 0 ≠ 0

instance (payload : List UInt8) (d : Decoder) : Decidable (d.Covered payload) := by
  cases d <;> unfold Covered <;> infer_instance

end Decoder

/-- `storage_buffer` behind a reply. -/
def stored (storage : Memory UInt8) (payload : List UInt8) : Memory UInt8 :=
  storage.store 0 (payload.dropLast ++ [0])

section Stored

variable {payload : List UInt8} {storage storage' : Memory UInt8} {i : ℕ}

/-- The bytes of a reply and the zero behind them. -/
theorem stored_eq (h : i < payload.length) :
    stored storage payload i = payload.dropLast.getD i 0 := by
  have hmem := storage.store_of_mem (a := 0) (payload.dropLast ++ [0]) (i := i)
    (by rw [List.length_append, List.length_dropLast, List.length_singleton]; omega)
  rw [Nat.zero_add] at hmem
  rw [stored, hmem]
  by_cases hlast : i < payload.dropLast.length
  · rw [List.getElem_append_left hlast, List.getD_eq_getElem _ _ hlast]
  · rw [List.getElem_append_right (Nat.le_of_not_lt hlast), List.getElem_singleton,
      List.getD_eq_default _ _ (Nat.le_of_not_lt hlast)]

theorem stored_of_ge (hpos : 0 < payload.length) (h : payload.length ≤ i) :
    stored storage payload i = storage i := by
  refine storage.store_of_ge _ ?_
  rw [List.length_append, List.length_dropLast, List.length_singleton]
  omega

theorem stored_last (hpos : 0 < payload.length) :
    stored storage payload (payload.length - 1) = 0 := by
  rw [stored_eq (by omega), List.getD_eq_default _ _ (by rw [List.length_dropLast])]

/-- A byte of the reply before its checksum. -/
theorem stored_of_lt (h : i < payload.length - 1) :
    stored storage payload i = payload.getD i 0 := by
  have hlen : i < payload.dropLast.length := by rwa [List.length_dropLast]
  rw [stored_eq (by omega), List.getD_eq_getElem _ _ hlen, List.getElem_dropLast,
    List.getD_eq_getElem]

end Stored

/-! ## Fields -/

section Fields

variable {m m' : Memory UInt8} {n : ℕ}

/-- A text ends at the zero behind the reply. -/
theorem string_congr (h : ∀ i < n, m i = m' i) (hlast : m (n - 1) = 0) {i : ℕ} (hi : i < n)
    (k : ℕ) : Decode.string m i k = Decode.string m' i k := by
  have hload (j : ℕ) (hj : i + j ≤ n) : m.load i j = m'.load i j :=
    Memory.load_congr fun a _ ha => h a (by omega)
  rw [Decode.string, Decode.string]
  by_cases hk : i + k ≤ n
  · rw [hload k hk]
  · -- the loop reads the zero, and more behind it
    obtain ⟨j, hj⟩ : ∃ j, k = n - 1 - i + 1 + j := ⟨k - (n - i), by omega⟩
    have hsplit (m : Memory UInt8) (hm : m (n - 1) = 0) :
        (m.load i k).takeWhile (· ≠ 0) = (m.load i (n - 1 - i)).takeWhile (· ≠ 0) := by
      rw [hj, Memory.load_add, Memory.load_succ, List.append_assoc,
        show i + (n - 1 - i) = n - 1 by omega, hm]
      induction m.load i (n - 1 - i) with
      | nil => rfl
      | cons x l ih =>
        rw [List.cons_append, List.takeWhile_cons, List.takeWhile_cons, ih]
    rw [hsplit m hlast, hsplit m' ((h (n - 1) (by omega)).symm.trans hlast),
      hload _ (by omega)]

/-- And so does a text that the loop terminates. -/
theorem filled_congr (h : ∀ i < n, m i = m' i) (hlast : m (n - 1) = 0) {i : ℕ} (hi : i < n)
    (k : ℕ) : Decode.filled m i k = Decode.filled m' i k := by
  rw [Decode.filled, Decode.filled, string_congr h hlast hi]

theorem word_congr {i : ℕ} (h : ∀ j < n, m j = m' j) (hi : i + 4 ≤ n) :
    Decode.word m i = Decode.word m' i := by
  rw [Decode.word, Decode.word, h i (by omega), h (i + 1) (by omega), h (i + 2) (by omega),
    h (i + 3) (by omega)]

theorem wordLow_congr {i : ℕ} (h : ∀ j < n, m j = m' j) (hi : i + 4 ≤ n) :
    Decode.wordLow m i = Decode.wordLow m' i := by
  rw [Decode.wordLow, Decode.wordLow, h i (by omega), h (i + 1) (by omega), h (i + 2) (by omega),
    h (i + 3) (by omega)]

theorem half_congr {i : ℕ} (h : ∀ j < n, m j = m' j) (hi : i + 2 ≤ n) :
    Decode.half m i = Decode.half m' i := by
  rw [Decode.half, Decode.half, h i (by omega), h (i + 1) (by omega)]

theorem toUInt8_shiftLeft_of_mem (x : UInt32) {k : UInt32} (hk : k = 8 ∨ k = 16 ∨ k = 24) :
    (x <<< k).toUInt8 = 0 := by
  apply UInt8.toNat_inj.mp
  rw [UInt32.toNat_toUInt8, UInt32.toNat_shiftLeft, Nat.shiftLeft_eq]
  rcases hk with rfl | rfl | rfl <;>
    simp only [UInt32.reduceToNat, UInt8.reduceToNat, Nat.reduceMod, Nat.reducePow] <;> omega

/-- The last byte of a number, high byte first. -/
theorem toUInt8_word (m : Memory UInt8) (i : ℕ) : (Decode.word m i).toUInt8 = m (i + 3) := by
  rw [Decode.word, UInt32.toUInt8_or, UInt32.toUInt8_or, UInt32.toUInt8_or,
    toUInt8_shiftLeft_of_mem _ (.inr (.inr rfl)), toUInt8_shiftLeft_of_mem _ (.inr (.inl rfl)),
    toUInt8_shiftLeft_of_mem _ (.inl rfl)]
  simp

/-- The last byte of a number, low byte first. -/
theorem toUInt8_wordLow (m : Memory UInt8) (i : ℕ) :
    (Decode.wordLow m i >>> 24).toUInt8 = m (i + 3) := by
  apply UInt8.toNat_inj.mp
  have h₀ := (m i).toNat_lt
  have h₁ := (m (i + 1)).toNat_lt
  have h₂ := (m (i + 2)).toNat_lt
  have h₃ := (m (i + 3)).toNat_lt
  rw [Decode.wordLow, UInt32.shiftRight_or, UInt32.shiftRight_or, UInt32.shiftRight_or]
  simp only [UInt32.toNat_toUInt8, UInt32.toNat_shiftRight, UInt32.toNat_or,
    UInt32.toNat_shiftLeft, UInt8.toNat_toUInt32, Nat.shiftLeft_eq, Nat.shiftRight_eq_div_pow,
    UInt32.reduceToNat, Nat.reduceMod, Nat.reducePow]
  rw [Nat.div_eq_of_lt (a := (m i).toNat) (by omega),
    Nat.div_eq_of_lt (a := (m (i + 1)).toNat * 256 % 4294967296) (by omega),
    Nat.div_eq_of_lt (a := (m (i + 2)).toNat * 65536 % 4294967296) (by omega), Nat.zero_or,
    Nat.zero_or, Nat.zero_or]
  omega

theorem toInt32_toInt_inj {x y : UInt32} (h : x.toInt32.toInt = y.toInt32.toInt) : x = y := by
  simpa using congrArg Int32.toUInt32 (Int32.toInt_inj.mp h)

theorem toInt16_toInt_inj {x y : UInt16} (h : x.toInt16.toInt = y.toInt16.toInt) : x = y := by
  simpa using congrArg Int16.toUInt16 (Int16.toInt_inj.mp h)

end Fields

/-! ## When a value depends on the reply only -/

namespace Decoder

variable {payload : List UInt8}

/-- The byte count, where it is stored. -/
theorem toNat_word_stored (h : 9 ≤ payload.length) {storage : Memory UInt8} :
    (Decode.word (stored storage payload) 5).toNat = declared payload := by
  have hword : Decode.word (stored storage payload) 5 =
      Decode.word (fun i => payload.dropLast.getD i 0) 5 :=
    word_congr (fun j hj => stored_eq hj) h
  rw [hword, declared]

/-- The length of a text, where it is stored. -/
theorem toNat_half_stored (h : 7 ≤ payload.length) {storage : Memory UInt8} :
    (Decode.half (stored storage payload) 5).toNat = declaredText payload := by
  have hhalf : Decode.half (stored storage payload) 5 =
      Decode.half (fun i => payload.dropLast.getD i 0) 5 :=
    half_congr (fun j hj => stored_eq hj) h
  rw [hhalf, declaredText]

/-- A decoder reads the bytes of a reply that covers it, and texts end at the zero behind. -/
theorem decode_congr {d : Decoder} (hlength : 6 ≤ payload.length) (hcovered : d.Covered payload)
    (storage storage' : Memory UInt8) :
    d.decode (stored storage payload) = d.decode (stored storage' payload) := by
  have h : ∀ i < payload.length, stored storage payload i = stored storage' payload i :=
    fun i hi => (stored_eq hi).trans (stored_eq hi).symm
  have hlast : stored storage payload (payload.length - 1) = 0 := stored_last (by omega)
  cases d with
  | bool => simp only [decode, Decode.bool, h 5 (by omega)]
  | byte => simp only [decode, Decode.byte, h 5 (by omega)]
  | signedByte => simp only [decode, Decode.signedByte, h 5 (by omega)]
  | uint16 => simp only [decode, Decode.uint16, half_congr h hcovered]
  | int16 => simp only [decode, Decode.int16, half_congr h hcovered]
  | uint32 => simp only [decode, Decode.uint32, word_congr h hcovered]
  | int32 => simp only [decode, Decode.int32, word_congr h hcovered]
  | int32Copied => simp only [decode, Decode.int32Copied, wordLow_congr h hcovered]
  | address =>
    have hcovered : 9 ≤ payload.length := hcovered
    simp only [decode, Decode.address, h 5 (by omega), h 6 (by omega), h 7 (by omega),
      h 8 (by omega)]
  | shortText =>
    simp only [decode, Decode.shortText, h 5 (by omega)]
    by_cases hseven : 6 < payload.length
    · rw [string_congr h hlast hseven]
    · -- the length is the zero behind the reply
      have hzero : stored storage' payload 5 = 0 := by
        rw [← h 5 (by omega), ← hlast]
        congr 1
        omega
      rw [hzero]
      rfl
  | filledText =>
    simp only [decode, Decode.filledText, h 5 (by omega), filled_congr h hlast hcovered.1]
  | dangling => exact hcovered.elim
  | longText =>
    simp only [decode, Decode.longText]
    rcases hcovered.1 with height | ⟨hseven, hzero⟩
    · rw [half_congr h (by omega), string_congr h hlast height]
    · have hhalf (storage : Memory UInt8) : Decode.half (stored storage payload) 5 = 0 := by
        have hsix := @stored_last payload storage (by omega)
        rw [hseven] at hsix
        rw [Decode.half, stored_of_lt (by omega), hzero, hsix]
        rfl
      rw [hhalf, hhalf]
      rfl
  | bulk =>
    have hcovered : 9 + declared payload ≤ payload.length := hcovered
    have hnine : 9 ≤ payload.length := by omega
    simp only [decode, Decode.bulk, toNat_word_stored hnine]
    rw [Memory.load_congr fun i _ hi => h i (by omega)]
  | mac =>
    have hcovered : 11 ≤ payload.length := hcovered
    simp only [decode, Decode.mac]
    rw [Memory.load_congr fun i _ hi => h i (by omega)]
  | resolved =>
    have hcovered : 10 ≤ payload.length := hcovered
    simp only [decode, Decode.resolved, h 5 (by omega), h 6 (by omega), h 7 (by omega),
      h 8 (by omega), h 9 (by omega)]
  | fsInfo =>
    have hcovered : 30 ≤ payload.length := hcovered
    simp only [decode, Decode.fsInfo, h 29 (by omega), List.map_cons, List.map_nil,
      word_congr h (show 5 + 4 ≤ payload.length by omega),
      word_congr h (show 9 + 4 ≤ payload.length by omega),
      word_congr h (show 13 + 4 ≤ payload.length by omega),
      word_congr h (show 17 + 4 ≤ payload.length by omega),
      word_congr h (show 21 + 4 ≤ payload.length by omega),
      word_congr h (show 25 + 4 ≤ payload.length by omega)]
  | networkInfo =>
    have hlong : 24 ≤ payload.length := hcovered.1
    have hname : Decode.filled (stored storage payload) 23 (stored storage payload 6).toNat =
        Decode.filled (stored storage' payload) 23 (stored storage' payload 6).toNat := by
      rw [h 6 (by omega), filled_congr h hlast hlong]
    simp only [decode, Decode.networkInfo, hname, h 5 (by omega), h 7 (by omega), h 22 (by omega),
      wordLow_congr h (show 8 + 4 ≤ payload.length by omega),
      wordLow_congr h (show 18 + 4 ≤ payload.length by omega)]
    rw [Memory.load_congr fun i _ hi => h i (by omega)]
  | arrived => rfl

theorem string_ne_indeterminate (m : Memory UInt8) (i n : ℕ) :
    Decode.string m i n ≠ .indeterminate := by
  intro h
  cases h

/-- A text that the loop terminates is one where it has bytes. -/
theorem filled_ne_indeterminate_iff {m : Memory UInt8} {i n : ℕ} :
    Decode.filled m i n ≠ .indeterminate ↔ n ≠ 0 := by
  rw [Decode.filled]
  split
  · next h => simp [h]
  · next h => exact iff_of_true (string_ne_indeterminate m i n) h

theorem toNat_ne_zero_iff {x : UInt8} : x.toNat ≠ 0 ↔ x ≠ 0 :=
  not_congr (UInt8.toNat_inj (b := 0))

/-- A decoder that a reply covers reads only what was stored. -/
theorem determinate_of_covered {d : Decoder} (hcovered : d.Covered payload)
    (storage : Memory UInt8) : (d.decode (stored storage payload)).Determinate := by
  cases d with
  | filledText =>
    have hbyte : stored storage payload 5 ≠ 0 := by
      rw [stored_of_lt (by have := hcovered.1; omega)]
      exact hcovered.2
    simpa [decode, Decode.filledText, Value.Determinate, eq_comm] using
      filled_ne_indeterminate_iff.mpr (toNat_ne_zero_iff.mpr hbyte)
  | dangling => exact hcovered.elim
  | longText =>
    have hseven : 7 ≤ payload.length := by
      rcases hcovered.1 with h | ⟨h, -⟩ <;> omega
    have hroom : 7 + (Decode.half (stored storage payload) 5).toNat ≤ 512 := by
      rw [toNat_half_stored hseven]
      exact hcovered.2
    simpa [decode, Decode.longText, Value.Determinate, hroom, eq_comm] using
      string_ne_indeterminate _ _ _
  | networkInfo =>
    have hbyte : stored storage payload 6 ≠ 0 := by
      rw [stored_of_lt (by have := hcovered.1; omega)]
      exact hcovered.2
    simpa [decode, Decode.networkInfo, Value.Determinate, eq_comm] using
      filled_ne_indeterminate_iff.mpr (toNat_ne_zero_iff.mpr hbyte)
  | shortText =>
    simpa [decode, Decode.shortText, Value.Determinate, eq_comm] using
      string_ne_indeterminate _ _ _
  | fsInfo => simp [decode, Decode.fsInfo, Value.Determinate]
  | _ => exact of_decide_eq_true rfl

/-- A text that starts behind a reply is empty where a zero lies. -/
theorem string_of_zero {m : Memory UInt8} {i : ℕ} (h : m i = 0) (k : ℕ) :
    Decode.string m i k = .text [] := by
  cases k with
  | zero => rfl
  | succ k => rw [Decode.string, Memory.load_succ', h]; rfl

/-- A text that is empty where no zero lies has no length. -/
theorem eq_zero_of_string {m : Memory UInt8} {i k : ℕ} (h : m i = 1)
    (hstring : Decode.string m i k = .text []) : k = 0 := by
  cases k with
  | zero => rfl
  | succ k =>
    rw [Decode.string, Memory.load_succ', h] at hstring
    cases hstring

/-- A decoder that reads behind the reply tells zeros from ones there. -/
theorem covered_of_decode_eq {d : Decoder} (hlength : 6 ≤ payload.length)
    (hdet : (d.decode (stored (.fill 0) payload)).Determinate)
    (heq : d.decode (stored (.fill 0) payload) = d.decode (stored (.fill 1) payload)) :
    d.Covered payload := by
  have hsame : ∀ i < payload.length,
      stored (.fill 0) payload i = stored (.fill 1) payload i :=
    fun i hi => (stored_eq hi).trans (stored_eq hi).symm
  have hzero : ∀ i, payload.length ≤ i → stored (.fill 0) payload i = 0 :=
    fun i hi => stored_of_ge (by omega) hi
  have hone : ∀ i, payload.length ≤ i → stored (.fill 1) payload i = 1 :=
    fun i hi => stored_of_ge (by omega) hi
  -- a byte that does not depend on the memory belongs to the reply
  have hreply : ∀ i, stored (.fill 0) payload i = stored (.fill 1) payload i →
      i < payload.length := by
    intro i hi
    by_contra hle
    rw [hzero i (Nat.le_of_not_lt hle), hone i (Nat.le_of_not_lt hle)] at hi
    cases hi
  have hword (h : Decode.word (stored (.fill 0) payload) 5 =
      Decode.word (stored (.fill 1) payload) 5) : 9 ≤ payload.length := by
    have hbyte := congrArg UInt32.toUInt8 h
    rw [toUInt8_word, toUInt8_word] at hbyte
    exact hreply 8 hbyte
  have hhalf (h : Decode.half (stored (.fill 0) payload) 5 =
      Decode.half (stored (.fill 1) payload) 5) : 7 ≤ payload.length := by
    have hbyte := congrArg Bytes.low h
    rw [Decode.half, Decode.half, Bytes.low_join, Bytes.low_join] at hbyte
    exact hreply 6 hbyte
  cases d with
  | bool => trivial
  | byte => trivial
  | signedByte => trivial
  | shortText => trivial
  | arrived => trivial
  | uint16 =>
    simp only [decode, Decode.uint16, Value.mk.injEq, Datum.number.injEq, and_true] at heq
    exact hhalf (UInt16.toNat_inj.mp (Int.ofNat.inj heq))
  | int16 =>
    simp only [decode, Decode.int16, Value.mk.injEq, Datum.number.injEq, and_true] at heq
    exact hhalf (toInt16_toInt_inj heq)
  | uint32 =>
    simp only [decode, Decode.uint32, Value.mk.injEq, Datum.number.injEq, and_true] at heq
    exact hword (UInt32.toNat_inj.mp (Int.ofNat.inj heq))
  | int32 =>
    simp only [decode, Decode.int32, Value.mk.injEq, Datum.number.injEq, and_true] at heq
    exact hword (toInt32_toInt_inj heq)
  | int32Copied =>
    simp only [decode, Decode.int32Copied, Value.mk.injEq, Datum.number.injEq, and_true] at heq
    have hbyte := toUInt8_wordLow (stored (.fill 0) payload) 5
    rw [toInt32_toInt_inj heq, toUInt8_wordLow] at hbyte
    exact hreply 8 hbyte.symm
  | address =>
    simp only [decode, Decode.address, Value.mk.injEq, Datum.address.injEq, and_true] at heq
    exact hreply 8 heq.2.2.2
  | filledText =>
    have hbyte : stored (.fill 0) payload 5 ≠ 0 := by
      rw [← toNat_ne_zero_iff,
        ← filled_ne_indeterminate_iff (m := stored (.fill 0) payload) (i := 6)]
      exact fun h => hdet (List.mem_cons.mpr (.inl h.symm))
    have hseven : 7 ≤ payload.length := by
      by_contra hsix
      have hlast := @stored_last payload (.fill 0) (by omega)
      rw [show payload.length - 1 = 5 by omega] at hlast
      exact hbyte hlast
    exact ⟨hseven, by rwa [stored_of_lt (by omega)] at hbyte⟩
  | dangling => exact hdet (List.mem_cons_self)
  | longText =>
    have hroom : 7 + (Decode.half (stored (.fill 0) payload) 5).toNat ≤ 512 := by
      by_contra hlong
      exact hdet (List.mem_cons.mpr (.inl (if_neg hlong).symm))
    simp only [decode, Decode.longText, Value.mk.injEq, and_true, if_pos hroom] at heq
    have hroom' : 7 + (Decode.half (stored (.fill 1) payload) 5).toNat ≤ 512 := by
      by_contra hlong
      rw [if_neg hlong] at heq
      exact string_ne_indeterminate _ _ _ heq
    rw [if_pos hroom'] at heq
    have hseven : 8 ≤ payload.length ∨ payload.length = 7 ∧ payload.getD 5 0 = 0 := by
      by_cases hlong : 8 ≤ payload.length
      · exact .inl hlong
      · -- behind the reply lies a zero in the one memory, so the text is empty in the other
        rw [string_of_zero (hzero 7 (by omega))] at heq
        have hnone := UInt16.toNat_inj.mp
          (show _ = (0 : UInt16).toNat from eq_zero_of_string (hone 7 (by omega)) heq.symm)
        have hlow := congrArg Bytes.low hnone
        have hhigh := congrArg Bytes.high hnone
        rw [Decode.half, Bytes.low_join] at hlow
        rw [Decode.half, Bytes.high_join] at hhigh
        have hseven : payload.length = 7 := by
          by_contra hsix
          rw [hone 6 (by omega)] at hlow
          exact absurd hlow (by decide)
        rw [stored_of_lt (by omega)] at hhigh
        exact .inr ⟨hseven, hhigh⟩
    rw [toNat_half_stored (by omega)] at hroom
    exact ⟨hseven, hroom⟩
  | bulk =>
    simp only [decode, Decode.bulk, Value.mk.injEq, Datum.number.injEq, List.cons.injEq,
      Datum.bytes.injEq, and_true] at heq
    obtain ⟨hcount, hbytes⟩ := heq
    have hnine := hword (UInt32.toNat_inj.mp (Int.ofNat.inj hcount))
    rw [← Int.ofNat.inj hcount, toNat_word_stored hnine] at hbytes
    by_contra hlong
    have hlong : payload.length < 9 + declared payload := Nat.lt_of_not_le hlong
    have hindex : payload.length - 9 < declared payload := by omega
    have := hreply _ (Memory.eq_of_load_eq hbytes hindex)
    omega
  | mac =>
    simp only [decode, Decode.mac, Value.mk.injEq, List.cons.injEq, Datum.bytes.injEq, and_true,
      true_and] at heq
    exact hreply 10 (Memory.eq_of_load_eq heq (show 5 < 6 by omega))
  | resolved =>
    simp only [decode, Decode.resolved, Value.mk.injEq, List.cons.injEq, Datum.address.injEq,
      and_true] at heq
    exact hreply 9 heq.2.2.2.2
  | fsInfo =>
    simp only [decode, Decode.fsInfo, Value.mk.injEq] at heq
    by_contra hshort
    rw [hzero 29 (Nat.le_of_lt_succ (Nat.lt_of_not_le hshort)),
      hone 29 (Nat.le_of_lt_succ (Nat.lt_of_not_le hshort))] at heq
    exact absurd heq.1 (by decide)
  | networkInfo =>
    simp only [decode, Decode.networkInfo, Value.mk.injEq, List.cons.injEq, Datum.number.injEq,
      and_true] at heq
    obtain ⟨-, hname, -, -, -, -, hhidden⟩ := heq
    have htwentythree : 23 ≤ payload.length := by
      by_contra hshort
      rw [hzero 22 (by omega), hone 22 (by omega)] at hhidden
      exact absurd hhidden (by decide)
    have hbyte : stored (.fill 0) payload 6 ≠ 0 := by
      rw [← toNat_ne_zero_iff,
        ← filled_ne_indeterminate_iff (m := stored (.fill 0) payload) (i := 23)]
      exact fun h => hdet (List.mem_cons_of_mem _ (List.mem_cons.mpr (.inl h.symm)))
    have hbyte' : (stored (.fill 1) payload 6).toNat ≠ 0 := by
      rwa [toNat_ne_zero_iff, ← hsame 6 (by omega)]
    have hlong : 24 ≤ payload.length := by
      by_contra hshort
      rw [Decode.filled, Decode.filled, if_neg (toNat_ne_zero_iff.mpr hbyte), if_neg hbyte',
        string_of_zero (hzero 23 (by omega))] at hname
      exact hbyte' (eq_zero_of_string (hone 23 (by omega)) hname.symm)
    rw [stored_of_lt (by omega)] at hbyte
    exact ⟨hlong, hbyte⟩

end Decoder

/-! ## Replies and requests -/

/-- A reply is stored and decoded. -/
def Exchange.decodeReply (e : Exchange) (payload : List UInt8) : Prog Value := do
  storeReply (.uart payload) payload.length
  let w ← get
  return e.decode w.storageBuffer

/-- The value depends on the reply only, whatever `storage_buffer` held, and on nothing that is
read where no byte was stored. -/
def Exchange.Determined (e : Exchange) (payload : List UInt8) : Prop :=
  ∃ v : Value, v.Determinate ∧ ∀ w, (e.decodeReply payload).Returns w fun a _ => a = v

section Replies

variable {payload : List UInt8}

/-- A reply that fits the buffer is stored and decoded. -/
theorem Exchange.decodeReply_returns {e : Exchange} (hpos : 1 < payload.length)
    (hlength : payload.length ≤ 512) (w : World) :
    (e.decodeReply payload).Returns w fun a _ => a = e.decode (stored w.storageBuffer payload) := by
  unfold EStateM.Returns EStateM.Ends Exchange.decodeReply
  obtain ⟨n, hn⟩ : ∃ n, payload.length - 1 = n + 1 := ⟨payload.length - 2, by omega⟩
  have hload : (w.dataAt (.uart payload)).load 0 (n + 1) = payload.dropLast := by
    have hbytes : (w.dataAt (.uart payload)).load 0 payload.length = payload :=
      bytes_source w (.uart payload)
    rw [← hn, List.dropLast_eq_take, ← Memory.take_load _ _ (Nat.sub_le payload.length 1), hbytes]
  rw [EStateM.run_bind, storeReply_run hpos hlength, hn, copyReply_succ, hload]
  rfl

/-- **A value depends on the reply only** exactly when the reply fits the buffer and has all
bytes that are read. -/
theorem Exchange.determined_iff {e : Exchange} {d : Decoder} (hdecode : e.decode = d.decode)
    (hlength : 6 ≤ payload.length) :
    e.Determined payload ↔ payload.length ≤ 512 ∧ d.Covered payload := by
  constructor
  · rintro ⟨v, hdet, hv⟩
    have hshort : payload.length ≤ 512 := by
      by_contra hlong
      have hreturns := hv oneReading
      unfold EStateM.Returns EStateM.Ends Exchange.decodeReply at hreturns
      rw [EStateM.run_bind, storeReply_run_of_lt (Nat.lt_of_not_le hlong)] at hreturns
      exact hreturns
    have hvalue (storage : Memory UInt8) : e.decode (stored storage payload) = v := by
      obtain ⟨a, w', hrun, ha⟩ := (e.decodeReply_returns (by omega) hshort
        { oneReading with storageBuffer := storage }).exists_ok
      exact ha ▸ (hv _).of_ok hrun
    refine ⟨hshort, Decoder.covered_of_decode_eq hlength ?_ ?_⟩
    · rwa [← hdecode, hvalue]
    · rw [← hdecode, hvalue, hvalue]
  · rintro ⟨hshort, hcovered⟩
    refine ⟨e.decode (stored (.fill 0) payload),
      hdecode ▸ Decoder.determinate_of_covered hcovered _, fun w => ?_⟩
    refine (e.decodeReply_returns (by omega) hshort w).mono ?_
    rintro _ w' rfl
    rw [hdecode]
    exact Decoder.decode_congr hlength hcovered _ _

end Replies

/-- The block decodes its reply with one of the decoders. -/
def Stage.Decodes : Stage → Prop
  | request _ e => ∃ d : Decoder, e.decode = d.decode
  | _ => True

/-- All blocks do. -/
def Method.Decodes (m : Method) : Prop := ∀ stage ∈ m.stages, stage.Decodes

section Decodes

/-- A decoder of the list, written out. -/
theorem exists_decoder_iff {decode : Memory UInt8 → Value} :
    (∃ d : Decoder, decode = d.decode) ↔
      decode = Decode.bool ∨ decode = Decode.byte ∨ decode = Decode.signedByte ∨
      decode = Decode.uint16 ∨ decode = Decode.int16 ∨ decode = Decode.uint32 ∨
      decode = Decode.int32 ∨ decode = Decode.int32Copied ∨ decode = Decode.address ∨
      decode = Decode.shortText ∨ decode = Decode.filledText ∨ decode = Decode.longText ∨
      decode = Decode.dangling ∨ decode = Decode.bulk ∨
      decode = Decode.mac ∨ decode = Decode.resolved ∨ decode = Decode.fsInfo ∨
      decode = Decode.networkInfo ∨ decode = Decode.arrived := by
  constructor
  · rintro ⟨d, rfl⟩
    cases d <;> simp [Decoder.decode]
  · rintro (rfl | rfl | rfl | rfl | rfl | rfl | rfl | rfl | rfl | rfl | rfl | rfl | rfl | rfl |
      rfl | rfl | rfl | rfl | rfl)
    exacts [⟨.bool, rfl⟩, ⟨.byte, rfl⟩, ⟨.signedByte, rfl⟩, ⟨.uint16, rfl⟩, ⟨.int16, rfl⟩,
      ⟨.uint32, rfl⟩, ⟨.int32, rfl⟩, ⟨.int32Copied, rfl⟩, ⟨.address, rfl⟩, ⟨.shortText, rfl⟩,
      ⟨.filledText, rfl⟩, ⟨.longText, rfl⟩, ⟨.dangling, rfl⟩, ⟨.bulk, rfl⟩, ⟨.mac, rfl⟩,
      ⟨.resolved, rfl⟩, ⟨.fsInfo, rfl⟩, ⟨.networkInfo, rfl⟩, ⟨.arrived, rfl⟩]

@[simp] theorem Stage.decodes_ask (active : Bool) (limit : ℕ) (onTimeout : Value)
    (decode : Memory UInt8 → Value) (c : Command) :
    (Stage.ask active limit onTimeout decode c).Decodes ↔ ∃ d : Decoder, decode = d.decode :=
  Iff.rfl

@[simp] theorem Stage.decodes_request (active : Bool) (e : Exchange) :
    (Stage.request active e).Decodes ↔ ∃ d : Decoder, e.decode = d.decode := Iff.rfl

@[simp] theorem Stage.decodes_send (active : Bool) (c : Command) (result : Option Value) :
    (Stage.send active c result).Decodes := trivial

@[simp] theorem Stage.decodes_tell (active : Bool) (c : Command) :
    (Stage.tell active c).Decodes := trivial

@[simp] theorem Stage.decodes_update (active : Bool) (change : Handlers → Handlers)
    (command : Handlers → Command) : (Stage.update active change command).Decodes := trivial

@[simp] theorem Stage.decodes_undefined (active : Bool) : (Stage.undefined active).Decodes :=
  trivial

@[simp] theorem Method.decodes_guarded (default : Value) (stages : List Stage) :
    (Method.guarded default stages).Decodes ↔ ∀ stage ∈ stages, stage.Decodes := Iff.rfl

@[simp] theorem Method.decodes_unguarded (default : Value) (stages : List Stage) :
    (Method.unguarded default stages).Decodes ↔ ∀ stage ∈ stages, stage.Decodes := Iff.rfl

@[simp] theorem Method.decodes_mk (guard : Option Value) (stages : List Stage)
    (otherwise : Value) :
    (Method.mk guard stages otherwise).Decodes ↔ ∀ stage ∈ stages, stage.Decodes := Iff.rfl

theorem SpiffsCall.decodes (o : Object) (c : SpiffsCall) : (c.method o).Decodes := by
  cases c <;> simp [SpiffsCall.method, exists_decoder_iff]

theorem StreamCall.decodes (o : Object) (c : StreamCall) : (c.method o).Decodes := by
  cases c <;> simp [StreamCall.method, exists_decoder_iff]

theorem UdpCall.decodes (o : Object) (c : UdpCall) : (c.method o).Decodes := by
  cases c <;> simp [UdpCall.method, exists_decoder_iff]

theorem ClientCall.decodes (o : Object) (c : ClientCall) : (c.method o).Decodes := by
  cases c <;> simp [ClientCall.method, exists_decoder_iff]

theorem MqttCall.decodes (o : Object) (c : MqttCall) : (c.method o).Decodes := by
  unfold MqttCall.method
  split <;> simp [exists_decoder_iff]

theorem WebSocketCall.decodes (o : Object) (c : WebSocketCall) : (c.method o).Decodes := by
  cases c <;> simp [WebSocketCall.method, exists_decoder_iff]

theorem WiFiCall.decodes (o : Object) (c : WiFiCall) : (c.method o).Decodes := by
  unfold WiFiCall.method
  split <;> simp [exists_decoder_iff]

theorem AccessPointCall.decodes (o : Object) (c : AccessPointCall) : (c.method o).Decodes := by
  unfold AccessPointCall.method
  split <;> simp [exists_decoder_iff]

theorem EspCall.decodes (o : Object) (c : EspCall) : (c.method o).Decodes := by
  cases c <;> simp [EspCall.method, exists_decoder_iff]

theorem AsyncUdpCall.decodes (c : AsyncUdpCall) : c.method.Decodes := by
  cases c <;> simp [AsyncUdpCall.method, exists_decoder_iff]

theorem Call.decodes (c : Call) : c.method.Decodes := by
  cases c with
  | spiffs o call => exact call.decodes o
  | stream o call => exact call.decodes o
  | udp o call => exact call.decodes o
  | client o call => exact call.decodes o
  | mqtt o call => exact call.decodes o
  | webSocket o call => exact call.decodes o
  | wifi o call => exact call.decodes o
  | accessPoint o call => exact call.decodes o
  | esp o call => exact call.decodes o
  | asyncUdp call => exact call.decodes

end Decodes

/-! ## What a run leaves in the buffer -/

/-- Behind the replies that were stored between two states, the buffer holds the last one, which
had room. -/
def Stores (c c' : Core) : Prop :=
  ∃ events, c'.trace = c.trace ++ events ∧
    match lastReply events with
    | none => c'.storageBuffer = c.storageBuffer
    | some data =>
      data.length < 512 ∧
        (data ≠ [] → ∃ storage : Memory UInt8, c'.storageBuffer = storage.store 0 (data ++ [0]))

theorem lastReply_append (l l' : List Event) :
    lastReply (l ++ l') = (lastReply l').or (lastReply l) := by
  induction l' using List.reverseRecOn with
  | nil => rw [List.append_nil]; rfl
  | append_singleton l' e ih =>
    rw [← List.append_assoc, lastReply_concat, lastReply_concat, ih]
    cases e <;> rfl

namespace Stores

theorem refl (c : Core) : Stores c c := ⟨[], (List.append_nil _).symm, rfl⟩

theorem trans {c c' c'' : Core} (h : Stores c c') (h' : Stores c' c'') : Stores c c'' := by
  obtain ⟨l, htrace, hstored⟩ := h
  obtain ⟨l', htrace', hstored'⟩ := h'
  refine ⟨l ++ l', by rw [htrace', htrace, List.append_assoc], ?_⟩
  rw [lastReply_append]
  cases hl' : lastReply l' with
  | some data =>
    rw [hl'] at hstored'
    exact hstored'
  | none =>
    rw [hl'] at hstored'
    rw [Option.none_or, hstored']
    exact hstored

/-- Nothing is stored. -/
theorem of_eq {c c' : Core} (events : List Event) (hlast : lastReply events = none)
    (htrace : c'.trace = c.trace ++ events) (hstorage : c'.storageBuffer = c.storageBuffer) :
    Stores c c' := ⟨events, htrace, by rw [hlast]; exact hstorage⟩

end Stores

theorem Core.length_bytes (c : Core) (item : Item) : (c.bytes item).length = item.length := by
  cases item with
  | uart payload => rfl
  | row address length => exact Memory.length_load _ _ _

/-- One transition stores at most one reply. -/
theorem Step.stores {k k' : Config} (h : Step k k') : Stores k.2 k'.2 := by
  cases h with
  | reply item hheader hpos hlen =>
    refine ⟨[.reply _], rfl, ?_, fun hne => ⟨_, if_neg fun hone => hne ?_⟩⟩
    · rw [List.length_dropLast, Core.length_bytes]
      omega
    · rw [← List.length_eq_zero_iff, List.length_dropLast, Core.length_bytes, hone]
  | idle _ _ _ => exact .of_eq [] rfl (List.append_nil _).symm rfl
  | _ =>
    first
    | exact .refl _
    | exact .of_eq [] rfl (List.append_nil _).symm rfl
    | exact .of_eq [_] rfl rfl rfl

theorem Reaches.stores {k k' : Config} (h : Reaches k k') : Stores k.2 k'.2 := by
  induction h with
  | refl => exact .refl _
  | tail _ hstep ih => exact ih.trans hstep.stores

section Requests

/-- A request that accepts a reply returns `storage_buffer`. -/
theorem ends_answer (events : Prog Unit) (e : Exchange) (w : World) :
    (e.answer events).Ends w (fun result w' =>
      ∀ storage, result = .accepted storage → storage = w'.storageBuffer) fun _ _ => True := by
  have hconclude (key : Key) (timeout : UInt32) (w : World) :
      (conclude key e.checkLimit timeout).Ends w (fun result w' =>
        ∀ storage, result = .accepted storage → storage = w'.storageBuffer) fun _ _ => True := by
    refine EStateM.Ends.bind_of_forall (fun now w => ?_) fun _ _ => trivial
    rw [EStateM.ends_bind, EStateM.ends_get, EStateM.ends_ite]
    split
    · rintro storage ⟨⟩
    · rw [EStateM.ends_ite]
      split
      · rintro storage ⟨⟩
        rfl
      · rintro storage ⟨⟩
  unfold Exchange.answer awaitReply
  refine EStateM.Ends.bind_of_forall (fun frame w => ?_) fun _ _ => trivial
  refine EStateM.Ends.bind_of_forall (fun _ w => ?_) fun _ _ => trivial
  refine EStateM.Ends.bind_of_forall (fun timeout w => ?_) fun _ _ => trivial
  refine EStateM.Ends.bind_of_forall (fun _ w => ?_) fun _ _ => trivial
  refine EStateM.Ends.bind_of_forall (fun _ w => ?_) fun _ _ => trivial
  refine EStateM.Ends.bind_of_forall (fun _ w => ?_) fun _ _ => trivial
  exact EStateM.Ends.bind_of_forall (fun _ w => hconclude _ timeout w) fun _ _ => trivial

variable {call : Call} {active : Bool} {e : Exchange}

theorem follows_answer {events : Prog Unit} (hevents : Follows events [.entering] fun _ => [])
    (he : Stage.request active e ∈ call.method.stages) :
    Follows (e.answer events) [.method call] fun _ => [.method call] :=
  (follows_of_elapses (elapses_writeCommand _) _).bind fun _ =>
    follows_awaitReply hevents (List.any_eq_true.mpr ⟨_, he, rfl⟩) _ _ _

/-- A run of a request, from any state, that accepts a reply; `payload` is the last reply that
it stored. -/
structure Accepting (e : Exchange) (payload : List UInt8) (depth : ℕ) (w w' : World)
    (storage : Memory UInt8) : Prop where
  run : (e.answer (do let _ ← events (userCode depth))).run w = .ok (.accepted storage) w'
  last : ∀ new, w'.trace = w.trace ++ new → lastReply new = some payload.dropLast

/-- A request whose run is evaluated. -/
theorem exists_accepting {e : Exchange} {payload : List UInt8} {depth : ℕ} {w : World}
    (h : (e.answer (do let _ ← events (userCode depth))).Ends w
      (fun result w' => result.isAccepted = true ∧
        lastReply (w'.trace.drop w.trace.length) = some payload.dropLast) fun _ _ => False) :
    ∃ w' storage, Accepting e payload depth w w' storage := by
  unfold EStateM.Ends at h
  cases hrun : (e.answer (do let _ ← events (userCode depth))).run w with
  | error halt w' =>
    rw [hrun] at h
    exact h.elim
  | ok result w' =>
    rw [hrun] at h
    obtain ⟨storage, rfl⟩ := Result.eq_accepted h.1
    refine ⟨w', storage, hrun, fun new hnew => ?_⟩
    rw [← h.2, hnew, List.drop_left' rfl]

/-- A reply that was accepted had room, and the buffer that is decoded holds it. -/
theorem Accepting.stored (he : Stage.request active e ∈ call.method.stages)
    {payload : List UInt8} (hlength : 6 ≤ payload.length) {depth : ℕ} {w w' : World}
    {storage : Memory UInt8} (h : Accepting e payload depth w w' storage) :
    payload.length ≤ 512 ∧ ∃ before, storage = stored before payload := by
  have hfollows := follows_answer (follows_events (follows_userCode depth)) he w []
  obtain ⟨new, htrace, hstored⟩ := Reaches.stores (hfollows.of_ok h.run)
  rw [h.last new htrace] at hstored
  obtain ⟨hroom, hstored⟩ := hstored
  rw [List.length_dropLast] at hroom
  obtain ⟨before, hbefore⟩ := hstored (by
    rw [Ne, ← List.length_eq_zero_iff, List.length_dropLast]
    omega)
  exact ⟨by omega, before, ((ends_answer _ e w).of_ok h.run storage rfl).trans hbefore⟩

/-- **A reply's value depends on that reply only**, for every request of every method, exactly
when the reply fits `storage_buffer` and has all bytes that the decoder reads.  Two runs that
accept such a reply return one value, whatever they received before, and no part of it is read
where no byte was stored. -/
theorem reply_determines_value (he : Stage.request active e ∈ call.method.stages) :
    ∃ d : Decoder, e.decode = d.decode ∧ ∀ payload : List UInt8, 6 ≤ payload.length →
      (e.Determined payload ↔ payload.length ≤ 512 ∧ d.Covered payload) ∧
      (d.Covered payload → ∀ depth depth' w w' w₁ w₁' storage storage',
        Accepting e payload depth w w₁ storage → Accepting e payload depth' w' w₁' storage' →
        ∃ v : Value, v.Determinate ∧ e.value (.accepted storage) = some v ∧
          e.value (.accepted storage') = some v) := by
  obtain ⟨d, hdecode⟩ : ∃ d : Decoder, e.decode = d.decode := call.decodes _ he
  refine ⟨d, hdecode, fun payload hlength => ⟨e.determined_iff hdecode hlength, ?_⟩⟩
  intro hcovered depth depth' w w' w₁ w₁' storage storage' hrun hrun'
  obtain ⟨-, before, rfl⟩ := hrun.stored he hlength
  obtain ⟨-, before', rfl⟩ := hrun'.stored he hlength
  refine ⟨d.decode (Teensquitto.stored before payload), Decoder.determinate_of_covered hcovered _,
    ?_, ?_⟩
  · rw [Exchange.value, hdecode]
  · rw [Exchange.value, hdecode, Decoder.decode_congr hlength hcovered before before']

end Requests

theorem reply_determines_value_position :
    ∃ active e, Stage.request active e ∈ (Call.spiffs anyObject .position).method.stages ∧
      ∃ d : Decoder, e.decode = d.decode ∧
        (e.Determined [0xAA, 0x55, 0x34, 0x34, 0x08, 0x01, 0x02, 0x03, 0x04, 0xF3] ↔
          10 ≤ 512 ∧ d.Covered [0xAA, 0x55, 0x34, 0x34, 0x08, 0x01, 0x02, 0x03, 0x04, 0xF3]) := by
  refine ⟨_, _, List.mem_cons_self, ?_⟩
  obtain ⟨d, hdecode, h⟩ := @reply_determines_value (.spiffs anyObject .position) _ _
    List.mem_cons_self
  exact ⟨d, hdecode, (h _ (by decide)).1⟩

/-! ## A short reply -/

/-- The run ends with an accepted reply to `position()` that has no bytes behind its opcode. -/
def acceptsShortPosition (trace : List Event) : Bool :=
  (match trace.getLast? with
    | some (.accepted key) => key = ⟨0x34, 0x34, 0x08⟩
    | _ => false) &&
  lastReply trace = some [0xAA, 0x55, 0x34, 0x34, 0x08]

/-- The reply to `position()` arrives.  Irreducible, so that runs over it are evaluated only where
this is asked for. -/
@[irreducible] def shortReplySchedule : List Tick :=
  ⟨0, [0x24, 0x00, 0x06, 0xAA, 0x55, 0x34, 0x34, 0x08, 0xF7]⟩ :: List.replicate 40 ⟨0, []⟩

/-- It arrives behind a longer one. -/
@[irreducible] def secondReplySchedule : List Tick :=
  ⟨0, [0x24, 0x00, 0x0A, 0xAA, 0x55, 0x34, 0x34, 0x08, 0x01, 0x02, 0x03, 0x04, 0xF3,
    0x24, 0x00, 0x06, 0xAA, 0x55, 0x34, 0x34, 0x08, 0xF7]⟩ :: List.replicate 95 ⟨0, []⟩

/-- A short reply leaves bytes of the reply before it in the value. -/
theorem short_reply_returns_stale_bytes : ¬∀ w w' : World, w.Reachable → w'.Reachable →
    acceptsShortPosition w.trace = true → acceptsShortPosition w'.trace = true →
    Decode.uint32 w.storageBuffer = Decode.uint32 w'.storageBuffer := by
  intro h
  obtain ⟨w, hw, haccepts, hzero⟩ := @exists_reachable shortReplySchedule [] (fun _ _ => 0) 1
    [.user (.call (.spiffs anyObject .position))]
    (fun w => acceptsShortPosition w.trace = true ∧ Decode.uint32 w.storageBuffer = .zero)
    (by decide +kernel)
  obtain ⟨w', hw', haccepts', hstale⟩ := @exists_reachable secondReplySchedule [] (fun _ _ => 0) 1
    [.user (.call (.spiffs anyObject .position)), .user (.call (.spiffs anyObject .position))]
    (fun w => acceptsShortPosition w.trace = true ∧ Decode.uint32 w.storageBuffer ≠ .zero)
    (by decide +kernel)
  exact hstale ((h w w' hw hw' haccepts haccepts').symm.trans hzero)

end Teensquitto
