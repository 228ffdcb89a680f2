import Mathlib.Logic.Relation
import Teensquitto.Device.Request

/-!
# The protocol of a run

A run is described by transitions between configurations.  A configuration pairs the calls
that are in progress, the innermost first, with the members of the state by which requests,
replies and asynchronous frames affect each other.

## Main definitions

* `Core`: the members
* `Item`: a frame that `processing_data` was called with
* `Activity`: a call in progress
* `Step`: the transitions
* `Reaches`: sequences of transitions
-/

namespace Teensquitto

/-- The members of the state that the protocol is about. -/
structure Core where
  clock : ℕ
  espDetected : Bool
  pendingData : Bool
  dataReadyFlag : Bool
  espSyncTimeout : UInt32
  storageBuffer : Memory UInt8
  queue : CircularBuffer 16 300
  trace : List Event

/-- The protocol's view of a state. -/
def World.core (w : World) : Core where
  clock := w.clock
  espDetected := w.espDetected
  pendingData := w.pendingData
  dataReadyFlag := w.dataReadyFlag
  espSyncTimeout := w.espSyncTimeout
  storageBuffer := w.storageBuffer
  queue := w.queue
  trace := w.trace

/-- A frame that `processing_data` was called with: received, or in a row of the queue. -/
inductive Item
  | uart (payload : List UInt8)
  | row (address length : ℕ)

namespace Item

/-- The argument `data`. -/
def source : Item → Source
  | uart payload => .uart payload
  | row address _ => .row address

/-- The argument `len`. -/
def length : Item → ℕ
  | uart payload => payload.length
  | row _ length => length

/-- The frame comes from the queue. -/
def queued : Item → Bool
  | uart _ => false
  | row _ _ => true

end Item

/-- The frames that can cause a handler to be called after the detection. -/
def Async (data : List UInt8) : Prop :=
  ∃ high low rest, data = high :: low :: rest ∧ Bytes.join high low ∈ asyncHeaders

namespace Core

/-- Log an event. -/
def log (c : Core) (e : Event) : Core := { c with trace := c.trace ++ [e] }

section Log

variable (c : Core) (e : Event)

@[simp] theorem log_clock : (c.log e).clock = c.clock := rfl

@[simp] theorem log_espDetected : (c.log e).espDetected = c.espDetected := rfl

@[simp] theorem log_pendingData : (c.log e).pendingData = c.pendingData := rfl

@[simp] theorem log_dataReadyFlag : (c.log e).dataReadyFlag = c.dataReadyFlag := rfl

@[simp] theorem log_espSyncTimeout : (c.log e).espSyncTimeout = c.espSyncTimeout := rfl

@[simp] theorem log_storageBuffer : (c.log e).storageBuffer = c.storageBuffer := rfl

@[simp] theorem log_queue : (c.log e).queue = c.queue := rfl

@[simp] theorem log_trace : (c.log e).trace = c.trace ++ [e] := rfl

end Log

/-- The bytes of a frame. -/
def bytes (c : Core) : Item → List UInt8
  | .uart payload => payload
  | .row address length => c.queue.cabuf.load address length

/-- The header of a frame. -/
def header? (c : Core) : Item → Option UInt16
  | .uart (high :: low :: _) => some (Bytes.join high low)
  | .uart _ => none
  | .row address _ =>
    some (Bytes.join (c.queue.cabuf address) (c.queue.cabuf (address + 1)))

/-- The detection has run out. -/
def Expired (c : Core) : Prop :=
  c.pendingData = false ∧ c.espDetected = true ∧ UInt32.ofNat c.clock - c.espSyncTimeout > 5000

/-- What `processing_data` logs when it is entered. -/
def processing (c : Core) (item : Item) : Event :=
  .processing item.queued (c.bytes item) c.pendingData c.espDetected c.queue.available.toNat
    c.clock

end Core

/-- A call in progress, and how far it has come. -/
inductive Activity
  /-- The main program. -/
  | main
  /-- A user handler. -/
  | handler
  /-- A method behind its guard. -/
  | method (call : Call)
  /-- A request is written, `data_ready_flag` not yet cleared. -/
  | asking (key : Key)
  /-- The wait loop. -/
  | waiting (key : Key)
  /-- The check behind the wait loop. -/
  | concluding (key : Key)
  /-- `events()` at its first checks. -/
  | entering
  /-- `events()` behind its first checks. -/
  | receiving
  /-- `processing_data` before it refreshes the timer. -/
  | holding (item : Item)
  /-- `processing_data` before the detection. -/
  | processing (item : Item)
  /-- `_esp_detected` was just set. -/
  | detected (item : Item)
  /-- `processing_data` before the switch. -/
  | switching (item : Item)
  /-- An asynchronous frame on its way to its handler. -/
  | dispatching
  /-- `events()` before it pops the frame it has processed. -/
  | popping

/-- The activities of user code. -/
def Activity.IsUser : Activity → Prop
  | main => True
  | handler => True
  | _ => False

theorem Activity.IsUser.eq {a : Activity} (ha : a.IsUser) : a = .main ∨ a = .handler := by
  cases a with
  | main => exact .inl rfl
  | handler => exact .inr rfl
  | _ => cases ha

/-- The method waits for replies. -/
def Call.waits (call : Call) : Bool := call.method.stages.any Stage.waits

/-- A configuration. -/
abbrev Config := List Activity × Core

/-- The transitions.  Each replaces the innermost activities and changes the members. -/
inductive Step : Config → Config → Prop
  /-- Time passes. -/
  | idle (s : List Activity) (c : Core) (n : ℕ) :
    Step (s, c) (s, { c with clock := c.clock + n })
  /-- The main program calls `events()`. -/
  | enter {s : List Activity} {c : Core} : Step (.main :: s, c) (.entering :: .main :: s, c)
  /-- A wait loop calls `events()`. -/
  | enterWait {s : List Activity} {c : Core} (key : Key) :
    Step (.waiting key :: s, c) (.entering :: .waiting key :: s, { c with pendingData := true })
  /-- The library goes offline. -/
  | expire {s : List Activity} {c : Core} (h : c.Expired) :
    Step (.entering :: s, c) (.entering :: s, { c with espDetected := false }.log .offline)
  /-- The first checks are done. -/
  | poll {s : List Activity} {c : Core} (h : ¬c.Expired) :
    Step (.entering :: s, c)
      (.receiving :: s, c.log (.poll c.pendingData c.espDetected c.clock))
  /-- A frame with a matching checksum is received. -/
  | receive {s : List Activity} {c : Core} (payload : List UInt8) :
    Step (.receiving :: s, c) (.holding (.uart payload) :: s, c.log (.received payload))
  /-- A frame is taken from the queue. -/
  | drain {s : List Activity} {c : Core} (hpending : c.pendingData = false)
      (havailable : 0 < c.queue.available) :
    Step (.receiving :: s, c)
      (.holding (.row c.queue.front c.queue.lengthFront.toNat) :: .popping :: s, c)
  /-- `events()` returns without a frame. -/
  | leave {s : List Activity} {c : Core} : Step (.receiving :: s, c) (s, c)
  /-- The timer is refreshed. -/
  | refresh {s : List Activity} {c : Core} (item : Item) :
    Step (.holding item :: s, c) (.processing item :: s,
      { c with espSyncTimeout := UInt32.ofNat c.clock }.log (c.processing item))
  /-- The frame brings the library online. -/
  | detect {s : List Activity} {c : Core} (item : Item)
      (h : c.espDetected = false ∨ c.header? item = some 0x8080) :
    Step (.processing item :: s, c)
      (.detected item :: s, { c with espDetected := true }.log .detected)
  /-- The library is online already. -/
  | pass {s : List Activity} {c : Core} (item : Item) (h : c.espDetected = true)
      (hheader : c.header? item ≠ some 0x8080) :
    Step (.processing item :: s, c) (.switching item :: s, c)
  /-- The `onDetect` handler is called. -/
  | callDetect {s : List Activity} {c : Core} (item : Item) :
    Step (.detected item :: s, c)
      (.handler :: .switching item :: s, c.log (.handler .espDetectHandler []))
  /-- No `onDetect` handler is set. -/
  | skipDetect {s : List Activity} {c : Core} (item : Item) :
    Step (.detected item :: s, c) (.switching item :: s, c)
  /-- A reply is stored. -/
  | reply {s : List Activity} {c : Core} (item : Item) (h : c.header? item = some 0xAA55)
      (hpos : 0 < item.length) (hlen : item.length ≤ 512) :
    Step (.switching item :: s, c) (s,
      { c with
        storageBuffer :=
          if item.length = 1 then c.storageBuffer
          else c.storageBuffer.store 0 ((c.bytes item).dropLast ++ [0])
        dataReadyFlag := true }.log (.reply (c.bytes item).dropLast))
  /-- A frame that is no reply and not asynchronous. -/
  | ignore {s : List Activity} {c : Core} (item : Item) {header : UInt16}
      (h : c.header? item = some header) (hreply : header ≠ 0xAA55)
      (hasync : header ∉ asyncHeaders) :
    Step (.switching item :: s, c) (s, c)
  /-- An asynchronous frame is queued. -/
  | queue {s : List Activity} {c : Core} (item : Item) {header : UInt16}
      (h : c.header? item = some header) (hasync : header ∈ asyncHeaders)
      (hpending : c.pendingData = true)
      (hroom : c.queue.row c.queue.tail + 2 + item.length ≤ 16 * 302) :
    Step (.switching item :: s, c) (s,
      { c with queue := c.queue.pushBack (c.bytes item) }.log
        (.queued (c.bytes item) c.queue.available.toNat))
  /-- An asynchronous frame is dispatched. -/
  | dispatch {s : List Activity} {c : Core} (item : Item) {header : UInt16}
      (h : c.header? item = some header) (hasync : header ∈ asyncHeaders)
      (hpending : c.pendingData = false) :
    Step (.switching item :: s, c)
      (.dispatching :: s, c.log (.dispatched item.queued (c.bytes item)))
  /-- The handler of the frame is called. -/
  | callHandler {s : List Activity} {c : Core} (slot : Slot) (args : List Datum) :
    slot ≠ .espDetectHandler →
    Step (.dispatching :: s, c) (.handler :: s, c.log (.handler slot args))
  /-- The frame has no handler. -/
  | skipHandler {s : List Activity} {c : Core} : Step (.dispatching :: s, c) (s, c)
  /-- The frame that was processed is popped. -/
  | pop {s : List Activity} {c : Core} :
    Step (.popping :: s, c) (s, { c with queue := c.queue.popFront }.log .popped)
  /-- A handler returns. -/
  | handlerReturns {s : List Activity} {c : Core} : Step (.handler :: s, c) (s, c)
  /-- User code calls `onDetect`, which may call the handler. -/
  | onDetect {s : List Activity} {c : Core} {a : Activity} (ha : a.IsUser) :
    Step (a :: s, c) (a :: s, c.log (.onDetect c.espDetected))
  | callAtOnce {s : List Activity} {c : Core} {a : Activity} (ha : a.IsUser)
      (h : c.espDetected = true) :
    Step (a :: s, c) (.handler :: a :: s, c.log (.onDetect c.espDetected))
  /-- User code calls a method whose guard holds. -/
  | call {s : List Activity} {c : Core} {a : Activity} (ha : a.IsUser) (call : Call)
      (h : c.espDetected = true ∨ call.method.guard = none) :
    Step (a :: s, c) (.method call :: a :: s, c.log (.call call c.espDetected))
  /-- User code calls a method whose guard fails. -/
  | refuse {s : List Activity} {c : Core} {a : Activity} (ha : a.IsUser) (call : Call) :
    Step (a :: s, c) (a :: s, c.log (.call call c.espDetected))
  /-- A request is written. -/
  | ask {s : List Activity} {c : Core} {call : Call} (hwaits : call.waits = true) (key : Key) :
    Step (.method call :: s, c) (.asking key :: .method call :: s, c.log (.request key))
  /-- `data_ready_flag` is cleared. -/
  | arm {s : List Activity} {c : Core} (key : Key) :
    Step (.asking key :: s, c) (.waiting key :: s, { c with dataReadyFlag := false })
  /-- A reply is passed over. -/
  | skip {s : List Activity} {c : Core} (key : Key) (hready : c.dataReadyFlag = true)
      (h : foreign c.storageBuffer key = true) :
    Step (.waiting key :: s, c) (.waiting key :: s, { c with dataReadyFlag := false })
  /-- The wait loop is left. -/
  | endWait {s : List Activity} {c : Core} (key : Key) :
    Step (.waiting key :: s, c)
      (.concluding key :: s, { c with pendingData := false }.log .waitEnd)
  /-- The reply is accepted. -/
  | accept {s : List Activity} {c : Core} (key : Key) (hready : c.dataReadyFlag = true)
      (h : accepts c.storageBuffer key = true) :
    Step (.concluding key :: s, c) (s, c.log (.accepted key))
  /-- No reply is accepted. -/
  | giveUp {s : List Activity} {c : Core} (key : Key) : Step (.concluding key :: s, c) (s, c)
  /-- A method returns. -/
  | methodReturns {s : List Activity} {c : Core} (call : Call) :
    Step (.method call :: s, c) (s, c)

/-- Sequences of transitions. -/
abbrev Reaches : Config → Config → Prop := Relation.ReflTransGen Step

end Teensquitto
