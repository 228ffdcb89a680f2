import Teensquitto.Device.Request

/-!
# The library as the main program uses it

The main program calls methods, `events()`, `WFAN` and `onDetect` in any order, and sees what they
return.  The handlers that run meanwhile call methods and `onDetect` only: their requests call
`events()`, but they do not call it themselves, nor `WFAN`.

## Main definitions

* `wfan`: wait for an acknowledgement
* `library`: a sequence of operations and what they return
-/

namespace Teensquitto

/-- The acknowledgement in `ack_nak_buf` is about this frame. -/
def World.acknowledges (w : World) (remote : UInt8) (val : UInt16) : Bool :=
  w.ackNakBuf 1 = remote && Bytes.join (w.ackNakBuf 2) (w.ackNakBuf 3) = val

/-- `WFAN(remote, val, timeout_ms)`. -/
def wfan (events : Prog UInt8) (remote : UInt8) (val timeoutMs : UInt16) : Prog Int8 := do
  let timeout ← millis
  loop (fun _ => do
    let now ← millis
    if now - timeout < timeoutMs.toUInt32 then
      let event ← events
      let w ← get
      if event = 0x06 && w.acknowledges remote val then return .inr 1
      else if event = 0x15 && w.acknowledges remote val then return .inr 0
      else return .inl ()
    else return .inr (-1)) ()

/-- An operation of the main program that returns to it.  Handlers have the last two only. -/
inductive LibraryOp
  | events
  | wfan (remote : UInt8) (val timeoutMs : UInt16)
  | call (c : Call)
  | onDetect (o : Object) (handler : Bool)

/-- What an operation returns. -/
inductive Outcome
  | event (b : UInt8)
  | acknowledged (r : Int8)
  | value (v : Value)
  | nothing

/-- An operation, over handlers that nest at most `depth` deep. -/
def LibraryOp.run (depth : ℕ) : LibraryOp → Prog Outcome
  | .events => do
    let b ← Teensquitto.events (userCode depth)
    return .event b
  | .wfan remote val timeoutMs => do
    let r ← Teensquitto.wfan (Teensquitto.events (userCode depth)) remote val timeoutMs
    return .acknowledged r
  | .call c => do
    let v ← Call.run (do let _ ← Teensquitto.events (userCode depth)) c
    return .value v
  | .onDetect o handler => do
    runOnDetect (userCode depth) o handler
    return .nothing

/-- A sequence of operations. -/
def library (depth : ℕ) (ops : List LibraryOp) : Prog (List Outcome) :=
  ops.mapM (LibraryOp.run depth)

end Teensquitto
