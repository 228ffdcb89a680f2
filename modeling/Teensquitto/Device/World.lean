import Teensquitto.CircularBuffer.Multi
import Teensquitto.Method.Call
import Teensquitto.Program.Hoare

/-!
# The state of a run

The state holds the static members of `teensquitto`, the serial port, the clock, and what
the environment will still do: every reading of the clock or the port is a point at which
time may pass and bytes may arrive, and every call of a user handler takes the next script.
A run is logged as a list of events.

## Main definitions

* `World`: the state
* `Event`: what is logged
* `Prog`: programs over the state
* `millis`, `available`, `peek`, `read`, `send`: the clock and the serial port
-/

namespace Teensquitto

/-- What happens at one reading of the clock or the port: `elapsed` milliseconds pass and
the bytes `arrived` come in. -/
structure Tick where
  elapsed : ℕ
  arrived : List UInt8
  deriving DecidableEq

/-- The header and the opcode by which a reply is matched. -/
structure Key where
  high : UInt8
  low : UInt8
  opcode : UInt8
  deriving DecidableEq

/-- Where the argument `data` of `processing_data` points: into the local buffer of
`events()`, or into the queue. -/
inductive Source
  | uart (payload : List UInt8)
  | row (address : ℕ)
  deriving DecidableEq

/-- The frame comes from the queue. -/
def Source.queued : Source → Bool
  | uart _ => false
  | row _ => true

/-- An operation of user code.  Handlers call methods and `onDetect`; `events()` and `WFAN`, which
would process frames inside the processing of a frame, are left to the main program. -/
inductive UserOp
  | call (c : Call)
  | onDetect (o : Object) (handler : Bool)

/-- What a run logs. -/
inductive Event
  /-- A method is called; `online` is `_esp_detected`. -/
  | call (c : Call) (online : Bool)
  /-- A request frame is written and its wait begins. -/
  | request (key : Key)
  /-- The wait loop of a request is left. -/
  | waitEnd
  /-- A value decoded from `storage_buffer` is returned. -/
  | accepted (key : Key)
  /-- The checks at the top of `events()` are done. -/
  | poll (pending online : Bool) (time : ℕ)
  /-- `_esp_detected` is cleared. -/
  | offline
  /-- A checksum-valid frame was received. -/
  | received (payload : List UInt8)
  /-- `processing_data` is entered and refreshes `_esp_sync_timeout`. -/
  | processing (queued : Bool) (data : List UInt8) (pending online : Bool) (backlog time : ℕ)
  /-- `_esp_detected` is set by `processing_data`, which then calls the handler. -/
  | detected
  /-- A reply is copied to `storage_buffer`. -/
  | reply (data : List UInt8)
  /-- An asynchronous frame is pushed on the queue. -/
  | queued (data : List UInt8) (backlog : ℕ)
  /-- An asynchronous frame reaches the dispatch to its handler. -/
  | dispatched (queued : Bool) (data : List UInt8)
  /-- A handler is called. -/
  | handler (slot : Slot) (args : List Datum)
  /-- `pop_front()` after a queued frame was processed. -/
  | popped
  /-- `onDetect` is called; `online` is `_esp_detected`. -/
  | onDetect (online : Bool)

/-- The frames that concern the latency, with the value of the clock. -/
inductive SyncEvent
  /-- A probe `0x7E7E` was written at this time, and the time behind it is stored. -/
  | probe (time : ℕ)
  /-- The processing of a frame with this header takes the time since the last probe: the clock
  shows this value there, behind the second that a detection waits and behind its handler. -/
  | answer (header : UInt16) (time : ℕ)
  deriving DecidableEq

/-- The static members of `AsyncUDPPacket`. -/
structure Packet where
  isBroadcast : Bool
  isMulticast : Bool
  remoteIP : IPAddress
  remotePort : UInt16
  localIP : IPAddress
  localPort : UInt16
  length : UInt16
  data : Memory UInt8

/-- The state of a run. -/
structure World where
  /-- Milliseconds since power-up. -/
  clock : ℕ
  /-- The readings of clock and port to come. -/
  ticks : List Tick
  /-- The bytes received and not yet read. -/
  rx : List UInt8
  /-- The blocks written to the port. -/
  sent : List (List UInt8)
  /-- What uninitialised and foreign memory holds at each time. -/
  stray : ℕ → Memory UInt8
  espDetected : Bool
  pendingData : Bool
  dataReadyFlag : Bool
  mqttOnlineFlag : Bool
  mqttServerSync : Bool
  clientOnlineFlag : Bool
  mqttClientSync : Bool
  wifiStatus : UInt8
  espLatency : UInt16
  espCheckLatency : UInt32
  espSyncTimeout : UInt32
  espSyncInterval : UInt32
  storageBuffer : Memory UInt8
  ackNakBuf : Memory UInt8
  /-- `TEENSQUITTO_QUEUE_SLOTS` rows of `TEENSQUITTO_QUEUE_LEN` bytes. -/
  queue : CircularBuffer 16 300
  handlers : Handlers
  packet : Packet
  /-- What the coming calls of user handlers do. -/
  scripts : List (List UserOp)
  trace : List Event
  /-- The probes and the frames that updated the estimate of the latency, the last one first. -/
  syncs : List SyncEvent

/-- The state at power-up: the initial values of the static members, over any environment. -/
def World.powerUp (ticks : List Tick) (scripts : List (List UserOp))
    (stray : ℕ → Memory UInt8) : World where
  clock := 0
  ticks := ticks
  rx := []
  sent := []
  stray := stray
  espDetected := true
  pendingData := false
  dataReadyFlag := false
  mqttOnlineFlag := false
  mqttServerSync := false
  clientOnlineFlag := false
  mqttClientSync := false
  wifiStatus := 0
  espLatency := 0
  espCheckLatency := 0
  espSyncTimeout := 0
  espSyncInterval := 0
  storageBuffer := fun _ => 0
  ackNakBuf := fun _ => 0
  queue := CircularBuffer.create (fun _ => 0) (fun _ => 0)
  handlers := Handlers.initial
  packet := ⟨false, false, ⟨0, 0, 0, 0⟩, 0, ⟨0, 0, 0, 0⟩, 0, 0, fun _ => 0⟩
  scripts := scripts
  trace := []
  syncs := []

/-- Why a run stops before its program ends. -/
inductive Halt
  /-- The readings of clock and port are used up. -/
  | exhausted
  /-- The program has undefined behaviour. -/
  | undefined
  /-- The program loops forever. -/
  | hang
  deriving DecidableEq

/-- Programs over the state. -/
abbrev Prog := EStateM Halt World

/-- Log a frame that concerns the latency. -/
def logSync (e : SyncEvent) : Prog Unit := modify fun w => { w with syncs := e :: w.syncs }

/-- Log an event. -/
def log (e : Event) : Prog Unit := modify fun w => { w with trace := w.trace ++ [e] }

theorem run_log (e : Event) (w : World) :
    (log e).run w = .ok () { w with trace := w.trace ++ [e] } := rfl

/-- Time passes and bytes arrive. -/
def World.advance (w : World) (t : Tick) (ticks : List Tick) : World :=
  { w with clock := w.clock + t.elapsed, rx := w.rx ++ t.arrived, ticks := ticks }

/-- One reading of the clock or the port. -/
def tick : Prog Unit := do
  let w ← get
  match w.ticks with
  | [] => throw .exhausted
  | t :: ticks => set (w.advance t ticks)

/-- `millis()`: the low 32 bits of the clock. -/
def millis : Prog UInt32 := do
  tick
  return UInt32.ofNat (← get).clock

/-- `delay(ms)`. -/
def delay (ms : ℕ) : Prog Unit := do
  tick
  modify fun w => { w with clock := w.clock + ms }

/-- `deviceSerial->available()`. -/
def available : Prog ℕ := do
  tick
  return (← get).rx.length

/-- `deviceSerial->peek()`: nothing stands for -1. -/
def peek : Prog (Option UInt8) := do
  tick
  return (← get).rx.head?

/-- `deviceSerial->read()`: nothing stands for -1. -/
def read : Prog (Option UInt8) := do
  tick
  let w ← get
  set { w with rx := w.rx.tail }
  return w.rx.head?

/-- Write a block to the port. -/
def send (bytes : List UInt8) : Prog Unit := modify fun w => { w with sent := w.sent ++ [bytes] }

/-- A loop that reads the clock or the port in every round: it ends before the readings do,
or they are used up. -/
def loop {β γ : Type} (body : β → Prog (β ⊕ γ)) (b : β) : Prog γ := do
  let w ← get
  EStateM.iterate (throw .exhausted) body (w.ticks.length + 1) b

/-! ## Relations along programs -/

section Along

variable {α β γ : Type} {R : World → World → Prop} [IsPreorder World R]

/-- A program that reads the state follows the relation if it does for every state read. -/
theorem along_get_bind {f : World → Prog α} (h : ∀ w, (f w).Along R) :
    (MonadState.get >>= f).Along R :=
  EStateM.Along.get.bind h

/-- A loop follows the relation its rounds follow. -/
theorem along_loop {body : β → Prog (β ⊕ γ)} (h : ∀ b, (body b).Along R) (b : β) :
    (loop body b).Along R :=
  EStateM.Along.get_bind fun w => EStateM.Along.iterate (EStateM.Along.throw _) h _ b w

theorem along_tick (h : ∀ w t ticks, R w (w.advance t ticks)) : tick.Along R := by
  intro w
  unfold tick
  rw [EStateM.ends_bind, EStateM.ends_get]
  cases w.ticks with
  | nil => exact refl_of R w
  | cons t ticks => exact h w t ticks

theorem along_millis (h : ∀ w t ticks, R w (w.advance t ticks)) : millis.Along R :=
  (along_tick h).bind fun _ => along_get_bind fun _ => EStateM.Along.pure _

end Along

end Teensquitto
