import Teensquitto.Device.Processing
import Teensquitto.Device.Receiver

/-!
# `events()`

The receiver comes first; only a call that received no packet looks at the queue.

## Main definitions

* `drainQueue`: the queue branch
* `eventsWith`: `events()` over any `processing_data`
* `events`: `events()` over the code of the user's handlers
-/

namespace Teensquitto

/-- Without a request pending, process the first queued frame in its row, then drop it. -/
def drainQueue (process : Source → ℕ → Prog Unit) : Prog Unit := do
  let w ← get
  if !w.pendingData && w.queue.available > 0 then
    process (.row w.queue.front) w.queue.lengthFront.toNat
    log .popped
    modify fun w => { w with queue := w.queue.popFront }

/-- `events()`, with the function it hands frames to. -/
def eventsWith (process : Source → ℕ → Prog Unit) : Prog UInt8 := do
  syncController
  offlineCheck
  match ← uart with
  | .frame payload =>
    log (.received payload)
    process (.uart payload) payload.length
    return 0x24
  | .rejected => return 0x24
  | .expired => return 0x15
  | .ack b => return b
  | .nothing | .flushed =>
    drainQueue process
    return 0

/-- `events()`; `user` is the code of the handlers. -/
def events (user : Prog Unit) : Prog UInt8 := eventsWith (processingData user)

end Teensquitto
