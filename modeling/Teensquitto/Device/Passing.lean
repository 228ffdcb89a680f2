import Teensquitto.Device.Receiver

/-!
# Relations along the receiver

What holds between the states before and after the receiver holds before and after each of its
steps: time passes, bytes arrive and are read, members of its own are set, and probes and NAKs are
written.

## Main definitions

* `BearsTicks`: the relation holds along the readings and the other steps of the receiver
* `BearsUart`: it holds also when any time passes and any bytes arrive
* `BearsReceiver`: it holds also along the steps of the probe

## Main results

* `BearsTicks.along_uart`, `BearsReceiver.along_syncController`: it holds along the whole
-/

namespace Teensquitto

open EStateM

/-- The relation holds along a reading and along the other steps of the receiver. -/
structure BearsTicks (R : World → World → Prop) : Prop where
  tick : tick.Along R
  take : ∀ w : World, R w { w with rx := w.rx.tail }
  ackNak : ∀ (w : World) (x : Memory UInt8), R w { w with ackNakBuf := x }
  sendNak : ∀ (w : World) (a b : UInt8), R w { w with sent := w.sent ++ [[0x21, 0x15, 0x00, a, b]] }

/-- The relation holds along the steps of the receiver. -/
structure BearsUart (R : World → World → Prop) : Prop where
  advance : ∀ w t ticks, R w (w.advance t ticks)
  take : ∀ w : World, R w { w with rx := w.rx.tail }
  ackNak : ∀ (w : World) (x : Memory UInt8), R w { w with ackNakBuf := x }
  sendNak : ∀ (w : World) (a b : UInt8), R w { w with sent := w.sent ++ [[0x21, 0x15, 0x00, a, b]] }

/-- The relation holds along the steps of the receiver and of the probe. -/
structure BearsReceiver (R : World → World → Prop) : Prop where
  advance : ∀ w t ticks, R w (w.advance t ticks)
  take : ∀ w : World, R w { w with rx := w.rx.tail }
  interval : ∀ (w : World) (x : UInt32), R w { w with espSyncInterval := x }
  latency : ∀ (w : World) (x : UInt32), R w { w with espCheckLatency := x }
  sync : ∀ (w : World) (e : SyncEvent), R w { w with syncs := e :: w.syncs }
  ackNak : ∀ (w : World) (x : Memory UInt8), R w { w with ackNakBuf := x }
  sendProbe : ∀ w : World, R w { w with sent := w.sent ++ [[0x24, 0x00, 0x03, 0x7E, 0x7E, 0x00]] }
  sendNak : ∀ (w : World) (a b : UInt8), R w { w with sent := w.sent ++ [[0x21, 0x15, 0x00, a, b]] }

namespace BearsTicks

variable {R : World → World → Prop} [IsPreorder World R] (h : BearsTicks R)

include h

theorem along_millis : millis.Along R :=
  h.tick.bind fun _ => along_get_bind fun _ => Along.pure _

theorem along_available : available.Along R :=
  h.tick.bind fun _ => along_get_bind fun _ => Along.pure _

theorem along_peek : peek.Along R :=
  h.tick.bind fun _ => along_get_bind fun _ => Along.pure _

theorem along_read : read.Along R :=
  h.tick.bind fun _ => h.take

omit [IsPreorder World R] in
theorem along_sendNak (a b : UInt8) : (Teensquitto.sendNak a b).Along R :=
  Along.modify fun w => h.sendNak w a b

theorem along_headerWait (timeout : UInt32) : (headerWait timeout).Along R := by
  refine along_loop (fun _ => h.along_millis.bind fun now => ?_) ()
  refine Along.ite (h.along_available.bind fun n => ?_) (Along.pure _)
  exact Along.ite (Along.pure _) (Along.pure _)

variable {β : Type} {take : β → UInt8 → Prog β} {full : β → Bool} {finish : β → Prog Reception}

theorem along_nextByte (htake : ∀ b byte, (take b byte).Along R) (b : β) (timeout : UInt32) :
    (nextByte take b timeout).Along R := by
  refine h.along_available.bind fun n => Along.ite ?_ (Along.pure _)
  refine h.along_millis.bind fun now => h.along_read.bind fun byte => ?_
  exact (htake b _).bind fun _ => Along.pure _

/-- The loop of both kinds of packets, whatever bytes come and however long they take. -/
theorem along_byteLoop (htake : ∀ b byte, (take b byte).Along R)
    (hfinish : ∀ b, (finish b).Along R) (b : β) (timeout : UInt32) :
    (byteLoop take full finish b timeout).Along R := by
  refine along_loop (fun p => h.along_millis.bind fun now => Along.ite ?_ ?_) (b, timeout)
  · refine (h.along_nextByte htake p.1 p.2).bind fun q => Along.ite ?_ (Along.pure _)
    exact (hfinish q.1).bind fun r => Along.pure _
  · exact (h.along_sendNak _ _).bind fun _ => Along.pure _

theorem along_verdict (size : ℕ) (b : Buffer) : (verdict size b).Along R := by
  refine Along.ite (Along.throw _) (Along.ite ?_ (Along.pure _))
  exact along_get_bind fun w => (h.along_sendNak _ _).bind fun _ => Along.pure _

theorem along_commandPacket : commandPacket.Along R := by
  refine h.along_millis.bind fun timeout => (h.along_headerWait timeout).bind fun _ => ?_
  refine h.along_read.bind fun _ => h.along_read.bind fun high => h.along_read.bind fun low => ?_
  refine h.along_millis.bind fun timeout => ?_
  exact h.along_byteLoop (fun _ _ => Along.pure _) (h.along_verdict _) _ timeout

theorem along_acknowledgement : acknowledgement.Along R := by
  refine h.along_read.bind fun _ => h.along_millis.bind fun timeout => ?_
  refine h.along_byteLoop (fun pointer byte => ?_) (fun _ => ?_) 0 timeout
  · exact Along.bind (Along.modify fun w => h.ackNak w _) fun _ => Along.pure _
  · exact along_get_bind fun w => Along.pure _

/-- The relation holds along the receiver. -/
theorem along_uart : uart.Along R := by
  refine h.along_available.bind fun n => Along.ite ?_ (Along.pure _)
  refine h.along_peek.bind fun byte => ?_
  split
  · exact h.along_commandPacket
  · exact h.along_acknowledgement
  · exact h.along_read.bind fun _ => Along.pure _

end BearsTicks

namespace BearsUart

variable {R : World → World → Prop} [IsPreorder World R] (h : BearsUart R)

include h

theorem bearsTicks : BearsTicks R := ⟨along_tick h.advance, h.take, h.ackNak, h.sendNak⟩

theorem along_millis : millis.Along R := Teensquitto.along_millis h.advance

/-- **The relation holds along the receiver.** -/
theorem along_uart : uart.Along R := h.bearsTicks.along_uart

end BearsUart

namespace BearsReceiver

variable {R : World → World → Prop} [IsPreorder World R] (h : BearsReceiver R)

include h

omit [IsPreorder World R] in
theorem bearsUart : BearsUart R := ⟨h.advance, h.take, h.ackNak, h.sendNak⟩

theorem along_millis : millis.Along R := h.bearsUart.along_millis

theorem along_probe : probe.Along R := by
  refine h.along_millis.bind fun interval => ?_
  refine Along.bind (Along.modify fun w => h.interval w interval) fun _ => ?_
  refine Along.bind (Along.modify h.sendProbe) fun _ => along_get_bind fun w => ?_
  refine h.along_millis.bind fun check => Along.bind ?_ fun _ => Along.modify fun w => h.sync w _
  exact Along.modify fun w => h.latency w check

theorem along_syncController : syncController.Along R := by
  refine along_get_bind fun w => Along.ite (Along.pure ()) (h.along_millis.bind fun now => ?_)
  exact Along.ite h.along_probe (Along.pure ())

theorem along_uart : uart.Along R := h.bearsUart.along_uart

end BearsReceiver

end Teensquitto
