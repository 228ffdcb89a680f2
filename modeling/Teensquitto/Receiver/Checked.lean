import Teensquitto.Dispatch.Bounds
import Teensquitto.Program.Checking
import Teensquitto.Receiver.Truncation

/-!
# The receiver with checked indices

The receiver computes with the declared length of a packet as it comes: a packet of length 0 has
no last byte to compare, and one of length 1 no second byte for its NAK or its header.  Here every
index into `uartBuffer` is checked before it is used.

## Main definitions

* `checkedEvents`: `events()` with every index into `uartBuffer` checked
* `checkedRound`: a round of its receive loop

## Main results

* `checks_events`: where the checked code returns, the code returns the same
* `ends_receive_of_inTime`: a packet whose bytes come in time is received whole
* `ends_receive_of_not_inTime`: any other packet is given up
-/

namespace Teensquitto

/-! ## Checked indices -/

/-- Store a byte at an index inside the buffer. -/
def checkedTake (size : ℕ) (b : Buffer) (byte : UInt8) : Prog Buffer :=
  if b.bytes.length < size then return b.take size byte else throw .undefined

/-- Compare the last byte with the checksum; the NAK has the bytes 0 and 1. -/
def checkedVerdict (size : ℕ) (b : Buffer) : Prog Reception :=
  if b.bytes.getD (size - 1) 0 = b.checksum ∨ 2 ≤ size then verdict size b else throw .undefined

/-- Receive `size` bytes. -/
def checkedReceive (size : ℕ) (timeout : UInt32) : Prog Reception :=
  byteLoop (checkedTake size) (fun b => size ≤ b.bytes.length) (checkedVerdict size) ⟨[], 0⟩
    timeout

/-- A command packet from the end of the wait for its header. -/
def checkedBody : Prog Reception := do
  let _ ← read
  let high ← read
  let low ← read
  let timeout ← millis
  checkedReceive (frameSize high low).toNat timeout

/-- The receiver from the end of the wait. -/
def checkedReceiveBody : Option (Option UInt8) → Prog Reception
  | some (some 0x24) => checkedBody
  | b => receiveBody b

/-- `processing_data`: the argument `data` is `uartBuffer` or a row of the queue. -/
def checkedProcess (debug : Bool) (user : Prog Unit) (src : Source) (len : ℕ) : Prog Unit := do
  entrance user src len
  let w ← get
  if src.queued ∨ w.neededLength debug src len ≤ len then switchHeader user src len
  else throw .undefined

/-- What `events()` does with what the receiver found. -/
def checkedFound (debug : Bool) (user : Prog Unit) : Reception → Prog UInt8
  | .frame payload => do
    log (.received payload)
    checkedProcess debug user (.uart payload) payload.length
    return 0x24
  | .rejected => return 0x24
  | .expired => return 0x15
  | .ack b => return b
  | .nothing | .flushed => do
    drainQueue (checkedProcess debug user)
    return 0

/-- `events()` with its indices into `uartBuffer` checked. -/
def checkedEvents (debug : Bool) (user : Prog Unit) : Prog UInt8 := do
  checks
  let b ← awaitHeader
  let result ← checkedReceiveBody b
  checkedFound debug user result

theorem checks_byteLoop {β : Type} {take take' : β → UInt8 → Prog β} {full : β → Bool}
    {finish finish' : β → Prog Reception} (htake : ∀ b byte, (take b byte).Checks (take' b byte))
    (hfinish : ∀ b, (finish b).Checks (finish' b)) (b : β) (timeout : UInt32) :
    (byteLoop take full finish b timeout).Checks (byteLoop take' full finish' b timeout) := by
  unfold byteLoop loop
  refine (EStateM.Checks.refl _).bind fun w => EStateM.Checks.iterate ?_ _ _
  rintro ⟨b, timeout⟩
  refine (EStateM.Checks.refl _).bind fun now => .ite ?_ (.refl _)
  refine EStateM.Checks.bind ?_ fun r => .ite ?_ (.refl _)
  · refine (EStateM.Checks.refl _).bind fun n => .ite ?_ (.refl _)
    refine (EStateM.Checks.refl _).bind fun timeout => ?_
    refine (EStateM.Checks.refl _).bind fun byte => ?_
    exact (htake b _).bind fun _ => .refl _
  · exact (hfinish r.1).bind fun _ => .refl _

theorem checks_receiveBody (b : Option (Option UInt8)) :
    (checkedReceiveBody b).Checks (receiveBody b) := by
  unfold checkedReceiveBody
  split
  · refine (EStateM.Checks.refl _).bind fun _ => ?_
    refine (EStateM.Checks.refl _).bind fun high => ?_
    refine (EStateM.Checks.refl _).bind fun low => ?_
    refine (EStateM.Checks.refl _).bind fun timeout => ?_
    exact checks_byteLoop (fun b byte => .guard (.refl _)) (fun b => .guard (.refl _)) _ _
  · exact .refl _

theorem checks_process (debug : Bool) (user : Prog Unit) (src : Source) (len : ℕ) :
    (checkedProcess debug user src len).Checks (processingData user src len) := by
  rw [processingData_eq]
  refine (EStateM.Checks.refl _).bind fun _ => ?_
  intro s a s' h
  rw [EStateM.run_bind, EStateM.run_get] at h
  exact EStateM.Checks.guard (.refl _) s a s' h

/-- Where the checked code returns, the code returns the same. -/
theorem checks_events (debug : Bool) (user : Prog Unit) :
    (checkedEvents debug user).Checks (events user) := by
  rw [events, eventsWith_eq, uart_eq]
  refine (EStateM.Checks.refl _).bind fun _ => ?_
  rw [bind_assoc]
  refine (EStateM.Checks.refl _).bind fun b => (checks_receiveBody b).bind fun r => ?_
  have hdrain : (drainQueue (checkedProcess debug user)).Checks
      (drainQueue (processingData user)) := by
    refine (EStateM.Checks.refl _).bind fun w => .ite ?_ (.refl _)
    exact (checks_process debug user _ _).bind fun _ => .refl _
  cases r with
  | frame payload =>
    refine (EStateM.Checks.refl _).bind fun _ => ?_
    exact (checks_process debug user _ _).bind fun _ => .refl _
  | nothing => exact hdrain.bind fun _ => .refl _
  | flushed => exact hdrain.bind fun _ => .refl _
  | rejected => exact .refl _
  | expired => exact .refl _
  | ack b => exact .refl _

/-! ## Packets whose bytes come in time -/

/-- A round of the checked loop. -/
abbrev checkedRound (size : ℕ) : Buffer × UInt32 → Prog ((Buffer × UInt32) ⊕ Reception) :=
  byteRound (checkedTake size) (fun b => size ≤ b.bytes.length) (checkedVerdict size)

theorem checkedReceive_eq (size : ℕ) (timeout : UInt32) :
    checkedReceive size timeout = loop (checkedRound size) (⟨[], 0⟩, timeout) :=
  byteLoop_eq _ _

theorem checkedTake_of {size : ℕ} {bytes : List UInt8} (h : bytes.length < size) (x : UInt8) :
    checkedTake size (.of size bytes) x = pure (.of size (bytes ++ [x])) := by
  rw [checkedTake, Buffer.take_of h, Buffer.of, if_pos h]

theorem fills_checkedReceive (size : ℕ) :
    Fills (checkedTake size) (fun b => size ≤ b.bytes.length) size (Buffer.of size) :=
  ⟨fun _ x h => checkedTake_of h x, fun _ => decide_eq_true_iff⟩

section InTime

variable {size : ℕ} {E : Halt → World → Prop} {Q : Reception → World → Prop} {s : World} {c t : ℕ}

/-- A packet whose bytes come in time is received whole: the bytes to come are the next ones of
the stream. -/
theorem ends_receive_of_inTime {f n : ℕ} {bytes : List UInt8} (hf : s.ticks.length < f)
    (hsize : bytes.length + (n + 1) = size) (hclock : s.clock = c + t)
    (hin : InTime (n + 1) s.rx t s.ticks)
    (hverdict : ∀ s', s' = s.withPort s'.clock s'.ticks s'.rx →
      (bytes ++ s.stream.take (n + 1)).length = size →
      (checkedVerdict size (.of size (bytes ++ s.stream.take (n + 1)))).Ends s' Q E) :
    (EStateM.iterate (throw .exhausted) (checkedRound size) f
      (.of size bytes, UInt32.ofNat c)).Ends s Q E := by
  obtain ⟨clock, ticks, rx, -, hlen, hends⟩ :=
    exists_byteLoop_of_inTime (fills_checkedReceive size) hf hsize hclock hin
  refine hends Q E (hverdict _ rfl ?_)
  rw [List.length_append, hlen, hsize]

theorem ensures_checkedVerdict_zero (b : Buffer) :
    (checkedVerdict 0 b).Ensures s fun _ _ => False := by
  unfold checkedVerdict
  rw [EStateM.Ensures, EStateM.ends_ite]
  split
  · exact trivial
  · exact trivial

/-- A packet of length 0 has no bytes to compare. -/
theorem ensures_receive_zero {f : ℕ} (hclock : s.clock = c + t)
    (hin : InTime 0 s.rx t s.ticks) :
    (EStateM.iterate (throw .exhausted) (checkedRound 0) f (.of 0 [], UInt32.ofNat c)).Ensures s
      fun _ _ => False := by
  cases f with
  | zero => trivial
  | succ f =>
    match hticks : s.ticks with
    | [] | [_] =>
      rw [hticks] at hin
      simp [InTime] at hin
    | m :: a :: ticks =>
      rw [hticks, inTime_cons_cons] at hin
      obtain ⟨htime, hin⟩ := hin
      rw [EStateM.iterate_succ]
      refine EStateM.Ensures.bind (Q := fun _ _ => False) ?_ fun _ _ h => h.elim
      by_cases hnone : s.rx ++ m.arrived ++ a.arrived = []
      · rw [EStateM.Ensures, ends_byteRound_nil hticks hclock htime hnone,
          if_pos (((fills_checkedReceive 0).full []).mpr (Nat.zero_le _))]
        exact ensures_checkedVerdict_zero _
      · rw [if_neg hnone] at hin
        obtain ⟨x, rest, hbyte⟩ := List.exists_cons_of_ne_nil hnone
        obtain ⟨stamp, r, ticks, rfl, -⟩ := hin
        rw [EStateM.Ensures, ends_byteRound_cons hticks hclock htime hbyte, checkedTake,
          if_neg (Nat.not_lt_zero _)]
        trivial

/-- A packet whose bytes do not come in time is given up. -/
theorem ends_receive_of_not_inTime {f n : ℕ} {bytes : List UInt8}
    (hsize : bytes.length + n = size) (hclock : s.clock = c + t)
    (hin : ¬InTime n s.rx t s.ticks) :
    (EStateM.iterate (throw .exhausted) (checkedRound size) f
      (.of size bytes, UInt32.ofNat c)).Ends s (fun result _ => result = .expired)
        fun e _ => e = .exhausted :=
  ends_byteLoop_of_not_inTime (fills_checkedReceive size) hsize hclock hin

end InTime

end Teensquitto
