import Teensquitto.Device.Effects
import Teensquitto.Method.Decoding
import Teensquitto.Object.Message

/-!
# Messages that are sent

The methods of `AsyncUDP` that take a message pass its bytes on to those that take an array.  A
message holds at most 1460 bytes, so that its frame always fits: what was written to the message is
what the ESP is told to send.

## Main definitions

* `MessageCall`: the methods that take a message
* `MessageCall.datagram`: the frame that carries given bytes

## Main results

* `ends_request_first`: a request writes its frame before anything else is written
* `message_reaches_wire`: the frame carries what was written to the message
-/

namespace Teensquitto

open EStateM

/-! ## The methods -/

/-- The methods of `AsyncUDP` that take a message. -/
inductive MessageCall
  | sendTo (addr : IPAddress) (port : UInt16)
  | send
  | broadcastTo (port : UInt16)
  | broadcast

namespace MessageCall

/-- The method that takes an array. -/
def passed (data : List UInt8) : MessageCall → AsyncUdpCall
  | sendTo addr port => .writeTo data addr port
  | send => .write data
  | broadcastTo port => .broadcastTo data port
  | broadcast => .broadcast data

/-- A message without a buffer is not sent. -/
def run (events : Prog Unit) (c : MessageCall) (m : AsyncUDPMessage) : Prog Value :=
  if m.buffer.isNone then return .zero
  else Call.run events (.asyncUdp (c.passed m.contents))

/-- The opcode under the header `0xCECE`. -/
def opcode : MessageCall → UInt8
  | sendTo _ _ => 0x05
  | send => 0x08
  | broadcastTo _ => 0x10
  | broadcast => 0x09

/-- The address and the port. -/
def destination : MessageCall → List UInt8
  | sendTo addr port => [addr.a, addr.b, addr.c, addr.d, Bytes.high port, Bytes.low port]
  | send => []
  | broadcastTo port => [Bytes.high port, Bytes.low port]
  | broadcast => []

/-- The payload, without the checksum, of the frame that carries the bytes: their number in four
bytes, the destination, and the bytes. -/
def payload (c : MessageCall) (data : List UInt8) : List UInt8 :=
  [0xCE, 0xCE, c.opcode] ++ Bytes.word (UInt32.ofNat data.length) ++ c.destination ++ data

/-- The frame that carries the bytes. -/
def datagram (c : MessageCall) (data : List UInt8) : List UInt8 :=
  commandBytes (c.payload data ++ [Bytes.xorSum (c.payload data)])

end MessageCall

namespace MessageCall

/-- What the frame says. -/
def contents (c : MessageCall) (data : List UInt8) : Contents where
  family := .asyncUdp
  index := (c.passed data).ctorIdx
  key := ⟨0xCE, 0xCE, c.opcode⟩
  args := Bytes.word (UInt32.ofNat data.length) ++ c.destination
  strings := []
  body := data

end MessageCall

/-! ## Requests -/

section Requests

/-- The frame was written, and then other blocks. -/
def WritesFirst (frame : List UInt8) (w w' : World) : Prop :=
  ∃ others, w'.sent = w.sent ++ frame :: others

theorem effects_sent_prefix {w w' : World} (h : Effects w w') : w.sent <+: w'.sent :=
  Preserves.steps (P := fun w' => w.sent <+: w'.sent)
    (fun _ _ hstep hw => hw.trans hstep.sent_prefix) h List.prefix_rfl

variable {events : Prog Unit} {c : Call} {e : Exchange} {w : World}

/-- **A request writes its frame first**, while the ESP is detected. -/
theorem ends_request_first (hevents : events.Along Effects)
    (hmethod : c.method = .guarded .zero [.request true e]) (honline : w.espDetected = true)
    {frame : List UInt8} (hframe : ∀ garbage, e.command.emit garbage = frame) :
    (c.run events).Ends w (fun _ => WritesFirst frame w) fun _ => WritesFirst frame w := by
  have hstage (w' : World) (hsent : w'.sent = w.sent) : (Stage.run events (.request true e)).Ends w'
      (fun _ => WritesFirst frame w) fun _ => WritesFirst frame w := by
    have hwritten {w₂ w₃ : World} (hsent₂ : w₂.sent = w'.sent ++ [frame]) (h : Effects w₂ w₃) :
        WritesFirst frame w w₃ := by
      obtain ⟨others, hothers⟩ := effects_sent_prefix h
      exact ⟨others, by rw [← hothers, hsent₂, hsent, List.append_assoc]; rfl⟩
    rw [Stage.run, if_pos rfl, Exchange.run, ends_bind, Exchange.answer, ends_bind, writeCommand,
      ends_bind, ends_get, ends_bind, send, ends_modify, ends_pure, hframe]
    refine (effects_awaitReply hevents _ e.limit e.checkLimit _).mono ?_ ?_
    · exact fun _ _ h => hwritten rfl h
    · exact fun _ _ h => hwritten rfl h
  rw [Call.run, ends_bind, ends_get, ends_bind, log, ends_modify, hmethod, Method.run, ends_bind,
    ends_get, Method.guarded]
  dsimp only
  rw [ends_ite, if_pos honline, runStages, ends_bind]
  refine (hstage { w with trace := w.trace ++ [.call c w.espDetected] } rfl).mono
    (fun r w' h => ?_) fun _ _ h => h
  cases r with
  | none => exact h
  | some v => exact h

/-- Without the ESP, nothing is written and nothing but the call happens. -/
theorem ends_request_offline (hmethod : c.method = .guarded .zero [.request true e])
    (hoffline : w.espDetected = false) :
    (c.run events).Ends w
      (fun v w' => v = .zero ∧ w' = { w with trace := w.trace ++ [.call c false] })
      fun _ _ => False := by
  rw [Call.run, ends_bind, ends_get, ends_bind, log, ends_modify, hmethod, Method.run, ends_bind,
    ends_get, Method.guarded]
  dsimp only
  rw [ends_ite, if_neg (by rw [hoffline]; exact Bool.false_ne_true), hoffline]
  exact ⟨rfl, rfl⟩

end Requests

/-! ## Messages -/

section Messages

variable (c : MessageCall) {data : List UInt8}

/-- The command of a method that takes an array. -/
theorem exists_exchange (data : List UInt8) : ∃ e : Exchange,
    (Call.asyncUdp (c.passed data)).method = .guarded .zero [.request true e] ∧
      e.command.payload = c.payload data ∧ e.command.indexBits = 16 ∧ e.command.text = [] ∧
      (Call.asyncUdp (c.passed data)).contents e.command = c.contents data := by
  cases c with
  | sendTo addr port => exact ⟨_, rfl, rfl, rfl, rfl, rfl⟩
  | send => exact ⟨_, rfl, rfl, rfl, rfl, rfl⟩
  | broadcastTo port => exact ⟨_, rfl, rfl, rfl, rfl, rfl⟩
  | broadcast => exact ⟨_, rfl, rfl, rfl, rfl, rfl⟩

theorem length_messagePayload_le (data : List UInt8) :
    (c.payload data).length ≤ data.length + 13 := by
  have hdestination : c.destination.length ≤ 6 := by
    cases c <;> simp [MessageCall.destination]
  simp only [MessageCall.payload, List.length_append, List.length_cons, List.length_nil,
    Bytes.length_word]
  omega

/-- A message that is full still fits its frame. -/
theorem exists_datagram (hdata : data.length ≤ 1460) : ∃ e : Exchange,
    (Call.asyncUdp (c.passed data)).method = .guarded .zero [.request true e] ∧
      (∀ garbage, e.command.emit garbage = c.datagram data) ∧
      decodeFrame (c.datagram data) = some (c.contents data) := by
  obtain ⟨e, hmethod, hpayload, hbits, htext, hcontents⟩ := exists_exchange c data
  have hlength := e.command.length_payload
  have hle := length_messagePayload_le c data
  have hsize : e.command.size ≤ 2 ^ e.command.indexBits := by
    rw [hbits]
    rw [hpayload] at hlength
    omega
  have hemit (garbage : Memory UInt8) : e.command.emit garbage = c.datagram data := by
    have hvalid := (Command.validFrame_iff (hsize.trans (by rw [hbits]; decide))).mpr hsize
    rw [hvalid.bytes garbage, hpayload, MessageCall.datagram]
  refine ⟨e, hmethod, hemit, ?_⟩
  have hwrites : (Call.asyncUdp (c.passed data)).method.Writes .initial e.command :=
    ⟨.request true e, by rw [hmethod]; exact List.mem_cons_self, rfl⟩
  rw [← hemit (Memory.fill 0), ← hcontents]
  refine e.command.decodeFrame_emit _ hsize (Call.origin?_key _ hwrites) (.inl htext) ?_
  rw [htext]
  exact fun s hs => absurd hs List.not_mem_nil

/-- A message without a buffer never gets one. -/
theorem buffer_run_of_none {m : AsyncUDPMessage} (hm : m.buffer = none)
    (ops : List AsyncUDPMessage.Operation) : (AsyncUDPMessage.run ops m).buffer = none := by
  induction ops generalizing m with
  | nil => exact hm
  | cons op ops ih =>
    refine ih ?_
    cases op with
    | write data len =>
      change (m.write data len).2.buffer = none
      rwa [AsyncUDPMessage.write, hm]
    | writeByte data =>
      change (m.write (Memory.fill data) 1).2.buffer = none
      rwa [AsyncUDPMessage.write, hm]
    | flush => exact hm

/-- **What was written to a message reaches the wire**: while the ESP is detected, sending the
message first writes the frame that carries the first bytes written since the last `flush()`, as
many as the message can hold, whatever else was written to it and happened before; offline, or
without a buffer, nothing is written. -/
theorem message_reaches_wire (ops : List AsyncUDPMessage.Operation) (size : UInt32)
    (allocated : Option (Memory UInt8)) (depth : ℕ) (w : World) :
    let kept := (AsyncUDPMessage.written ops).take (min size.toNat 1460)
    let sending := c.run (do let _ ← events (userCode depth))
      (AsyncUDPMessage.run ops (.create size allocated))
    (allocated = none → sending.Returns w fun v w' => v = .zero ∧ w' = w) ∧
      (w.espDetected = false → sending.Returns w fun v w' => v = .zero ∧ w'.sent = w.sent) ∧
      (allocated ≠ none → w.espDetected = true →
        sending.Ends w (fun _ => WritesFirst (c.datagram kept) w) fun _ =>
          WritesFirst (c.datagram kept) w) ∧
      decodeFrame (c.datagram kept) = some (c.contents kept) := by
  intro kept sending
  have hkept : kept.length ≤ 1460 := by
    rw [List.length_take]
    omega
  obtain ⟨e, hmethod, hframe, hdecode⟩ := exists_datagram c hkept
  have hevents : (do let _ ← events (userCode depth) : Prog Unit).Along Effects :=
    (along_events (effects_userCode depth)).bind fun _ => Along.pure ()
  have hnone (h : allocated = none) : sending = return .zero := by
    subst h
    exact if_pos (Option.isNone_iff_eq_none.mpr (buffer_run_of_none rfl ops))
  have hsome {bytes : Memory UInt8} (h : allocated = some bytes) :
      sending = Call.run (do let _ ← events (userCode depth)) (.asyncUdp (c.passed kept)) := by
    subst h
    have hholds := AsyncUDPMessage.holds_run (AsyncUDPMessage.holds_create size bytes) ops
    have hbuffer := hholds.allocated
    have hcontents : (AsyncUDPMessage.run ops (.create size (some bytes))).contents = kept :=
      hholds.contents_eq
    rw [← hcontents]
    exact if_neg (by rwa [Option.isNone_iff_eq_none])
  refine ⟨fun h => ?_, fun hoffline => ?_, fun h honline => ?_, hdecode⟩
  · rw [hnone h]
    exact ⟨rfl, rfl⟩
  · cases hallocated : allocated with
    | none =>
      rw [hnone hallocated]
      exact ⟨rfl, rfl⟩
    | some bytes =>
      rw [hsome hallocated]
      refine (ends_request_offline hmethod hoffline).mono ?_ fun _ _ h => h
      rintro v w' ⟨hv, rfl⟩
      exact ⟨hv, rfl⟩
  · obtain ⟨bytes, hbytes⟩ := Option.ne_none_iff_exists'.mp h
    rw [hsome hbytes]
    exact ends_request_first hevents hmethod honline hframe

end Messages

end Teensquitto
