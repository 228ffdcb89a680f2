import Teensquitto.Device.World

/-!
# The receiver in `events()`

The first half of `events()`: the detection probe, the offline check, and the receiver of
command packets and acknowledgements.

## Main definitions

* `syncController`, `offlineCheck`: the checks at the top of `events()`
* `byteLoop`: the loop that receives the bytes of a packet
* `commandPacket`, `acknowledgement`: the two kinds of packets
* `uart`: the receiver
-/

namespace Teensquitto

/-- The probe `0x7E7E` and the time it is sent at. -/
def probe : Prog Unit := do
  let interval ← millis
  modify fun w => { w with espSyncInterval := interval }
  send [0x24, 0x00, 0x03, 0x7E, 0x7E, 0x00]
  let w ← get
  let check ← millis
  modify fun w => { w with espCheckLatency := check }
  logSync (.probe w.clock)

/-- While the ESP is not detected a probe is sent every 250 ms. -/
def syncController : Prog Unit := do
  let w ← get
  if w.espDetected then return
  else
    let now ← millis
    if now - w.espSyncInterval > 250 then probe

/-- Clear `_esp_detected`. -/
def goOffline : Prog Unit := do
  modify fun w => { w with espDetected := false }
  log .offline

/-- Without a request pending, 5000 ms without a frame force the library offline. -/
def timeoutCheck : Prog Unit := do
  let w ← get
  if !w.pendingData && w.espDetected then
    let now ← millis
    if now - w.espSyncTimeout > 5000 then goOffline

def offlineCheck : Prog Unit := do
  timeoutCheck
  let w ← get
  log (.poll w.pendingData w.espDetected w.clock)

/-- What the receiver found. -/
inductive Reception
  /-- No byte was there. -/
  | nothing
  /-- A byte that starts no packet was dropped. -/
  | flushed
  /-- A frame with a matching checksum. -/
  | frame (payload : List UInt8)
  /-- A frame with another checksum; a NAK was sent. -/
  | rejected
  /-- The bytes stopped coming; a NAK was sent. -/
  | expired
  /-- An acknowledgement with this first byte. -/
  | ack (b : UInt8)
  deriving DecidableEq

/-- The five bytes of a NAK. -/
def sendNak (a b : UInt8) : Prog Unit := send [0x21, 0x15, 0x00, a, b]

/-- Wait 100 ms for the header of a packet. -/
def headerWait (timeout : UInt32) : Prog Unit :=
  loop (fun _ => do
    let now ← millis
    if now - timeout < 100 then
      if (← available) < 4 then return .inl () else return .inr ()
    else return .inr ()) ()

/-- `((uint16_t)(read() << 8) | read())`; a failed read gives -1. -/
def frameSize (high low : Option UInt8) : UInt16 :=
  match low with
  | none => 0xFFFF
  | some low => Bytes.join (high.getD 0xFF) low

/-- Store a byte, if there is one, and restart the timeout. -/
def nextByte {β : Type} (take : β → UInt8 → Prog β) (b : β) (timeout : UInt32) :
    Prog (β × UInt32) := do
  if (← available) > 0 then
    let timeout ← millis
    let byte := (← read).getD 0xFF
    let b ← take b byte
    return (b, timeout)
  else return (b, timeout)

/-- The loop both kinds of packets are received by, with at most 100 ms between two bytes:
`take` stores a byte, and `finish` is reached when `full` holds at the end of a round. -/
def byteLoop {β : Type} (take : β → UInt8 → Prog β) (full : β → Bool)
    (finish : β → Prog Reception) (b : β) (timeout : UInt32) : Prog Reception :=
  loop (fun (b, timeout) => do
    let now ← millis
    if now - timeout < 100 then
      let (b, timeout) ← nextByte take b timeout
      if full b then
        let r ← finish b
        return .inr r
      else return .inl (b, timeout)
    else
      sendNak 0xFF 0xFF
      return .inr .expired) (b, timeout)

/-- The local variables of a command packet. -/
structure Buffer where
  /-- The bytes stored; their number is `uartBufferPtr`. -/
  bytes : List UInt8
  checksum : UInt8
  deriving DecidableEq

/-- Store a byte.  The last one is not summed. -/
def Buffer.take (size : ℕ) (b : Buffer) (byte : UInt8) : Buffer where
  bytes := b.bytes ++ [byte]
  checksum := if b.bytes.length + 1 < size then b.checksum ^^^ byte else b.checksum

/-- Compare the last byte with the checksum. -/
def verdict (size : ℕ) (b : Buffer) : Prog Reception := do
  if size = 0 then throw .undefined
  else if b.bytes.getD (size - 1) 0 ≠ b.checksum then
    let w ← get
    sendNak (b.bytes.getD 0 0) (b.bytes.getD 1 (w.stray w.clock 0))
    return .rejected
  else return .frame b.bytes

/-- Receive `size` bytes. -/
def receiveLoop (size : ℕ) (timeout : UInt32) : Prog Reception :=
  byteLoop (fun b byte => return b.take size byte) (fun b => size ≤ b.bytes.length)
    (verdict size) ⟨[], 0⟩ timeout

/-- A packet that starts with `$`. -/
def commandPacket : Prog Reception := do
  let timeout ← millis
  headerWait timeout
  let _ ← read
  let high ← read
  let low ← read
  let timeout ← millis
  receiveLoop (frameSize high low).toNat timeout

/-- Store an acknowledgement byte. -/
def acknowledgeByte (pointer : ℕ) (byte : UInt8) : Prog ℕ := do
  modify fun w => { w with ackNakBuf := w.ackNakBuf.set pointer byte }
  return pointer + 1

/-- A packet that starts with `!`: four more bytes. -/
def acknowledgement : Prog Reception := do
  let _ ← read
  let timeout ← millis
  byteLoop acknowledgeByte (fun pointer => 4 ≤ pointer)
    (fun _ => return .ack ((← get).ackNakBuf 0)) 0 timeout

/-- The receiver. -/
def uart : Prog Reception := do
  if (← available) > 0 then
    match ← peek with
    | some 0x24 => commandPacket
    | some 0x21 => acknowledgement
    | _ =>
      let _ ← read
      return .flushed
  else return .nothing

end Teensquitto
