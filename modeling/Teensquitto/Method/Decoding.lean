import Teensquitto.Device.Request
import Teensquitto.Method.Frames

/-!
# Decoding the frames of the methods

The header and the opcode of a frame name the method that wrote it and say which of its argument
bytes are lengths of strings.  A receiver that knows this much recovers from a frame the method, the
argument bytes, the strings and the raw bytes.

## Main definitions

* `Origin`, `origin?`: what the header and the opcode of a frame say
* `Call.family`, `Call.index`: the place of a method in the table
* `Call.contents`, `decodeFrame`: what a frame says, and how it is recovered

## Main results

* `Call.origin?_key`: the table is right about every command of every method
* `Command.decodeFrame_emit`: decoding is the inverse of writing
* `Call.Fits.decodes`: for every command of every method
* `Call.frames_tell_apart`: frames are equal exactly when they say the same
-/

namespace Teensquitto

/-! ## The table of the opcodes -/

/-- The kinds of calls. -/
inductive Family
  | spiffs | stream | udp | client | mqtt | webSocket | wifi | accessPoint | esp | asyncUdp
  deriving DecidableEq

/-- What the header and the opcode of a frame say. -/
structure Origin where
  family : Family
  /-- The place of the method in its family. -/
  index : ℕ
  /-- The argument bytes; those that are lengths of strings are marked. -/
  shape : List Bool
  deriving DecidableEq

/-- The lengths of `n` strings. -/
def texts (n : ℕ) : List Bool := List.replicate n true

/-- As many bytes that are no lengths. -/
def plain (n : ℕ) : List Bool := List.replicate n false

/-- Under `0x3434`: files. -/
def fileOpcodes : List (UInt8 × Origin) :=
  [(0x00, ⟨.spiffs, 0, texts 2⟩), (0x01, ⟨.stream, 7, []⟩), (0x02, ⟨.spiffs, 1, texts 1⟩),
    (0x03, ⟨.spiffs, 3, []⟩), (0x04, ⟨.spiffs, 2, texts 1⟩), (0x05, ⟨.spiffs, 4, texts 2⟩),
    (0x06, ⟨.spiffs, 5, plain 1⟩), (0x07, ⟨.spiffs, 6, []⟩), (0x08, ⟨.spiffs, 7, []⟩),
    (0x09, ⟨.spiffs, 8, []⟩), (0x10, ⟨.spiffs, 9, []⟩), (0x11, ⟨.stream, 0, plain 4⟩),
    (0x12, ⟨.spiffs, 10, plain 5⟩), (0x13, ⟨.stream, 1, []⟩), (0x14, ⟨.stream, 2, []⟩),
    (0x15, ⟨.stream, 3, []⟩), (0x16, ⟨.stream, 4, []⟩), (0x17, ⟨.stream, 5, plain 4⟩),
    (0x18, ⟨.spiffs, 11, texts 1⟩), (0x19, ⟨.spiffs, 12, []⟩), (0x20, ⟨.spiffs, 13, []⟩),
    (0x21, ⟨.spiffs, 14, []⟩), (0x22, ⟨.spiffs, 15, texts 1⟩), (0x23, ⟨.spiffs, 16, []⟩)]

/-- Under `0xA2A2`: the wireless network. -/
def wifiOpcodes : List (UInt8 × Origin) :=
  [(0x00, ⟨.wifi, 8, texts 1⟩), (0x01, ⟨.wifi, 8, texts 2 ++ plain 4⟩),
    (0x02, ⟨.wifi, 8, texts 2 ++ plain 11⟩), (0x03, ⟨.stream, 7, []⟩),
    (0x04, ⟨.wifi, 9, plain 20⟩), (0x05, ⟨.stream, 8, plain 1⟩), (0x06, ⟨.wifi, 10, []⟩),
    (0x07, ⟨.wifi, 11, plain 1⟩), (0x08, ⟨.wifi, 12, []⟩), (0x09, ⟨.wifi, 13, plain 1⟩),
    (0x10, ⟨.wifi, 14, []⟩), (0x11, ⟨.wifi, 15, []⟩), (0x12, ⟨.stream, 9, []⟩),
    (0x13, ⟨.wifi, 16, []⟩), (0x14, ⟨.wifi, 17, []⟩), (0x15, ⟨.wifi, 18, plain 1⟩),
    (0x16, ⟨.wifi, 19, []⟩), (0x17, ⟨.wifi, 20, []⟩), (0x18, ⟨.wifi, 21, texts 1⟩),
    (0x19, ⟨.wifi, 22, []⟩), (0x20, ⟨.wifi, 23, []⟩), (0x21, ⟨.wifi, 24, []⟩),
    (0x22, ⟨.wifi, 25, []⟩), (0x23, ⟨.stream, 11, []⟩), (0x24, ⟨.wifi, 26, []⟩),
    (0x25, ⟨.wifi, 27, []⟩), (0x26, ⟨.wifi, 28, []⟩), (0x27, ⟨.wifi, 29, []⟩),
    (0x28, ⟨.wifi, 30, []⟩), (0x29, ⟨.wifi, 31, []⟩), (0x30, ⟨.wifi, 32, texts 1 ++ plain 4⟩),
    (0x31, ⟨.wifi, 33, []⟩), (0x32, ⟨.wifi, 34, []⟩), (0x33, ⟨.wifi, 35, plain 1⟩),
    (0x34, ⟨.wifi, 36, []⟩), (0x35, ⟨.wifi, 37, plain 1⟩), (0x36, ⟨.wifi, 38, []⟩),
    (0x37, ⟨.wifi, 39, texts 1⟩), (0x38, ⟨.wifi, 40, plain 1⟩), (0x39, ⟨.wifi, 41, plain 1⟩),
    (0x40, ⟨.wifi, 42, []⟩), (0x41, ⟨.wifi, 43, plain 1⟩), (0x42, ⟨.wifi, 44, plain 1⟩),
    (0x43, ⟨.wifi, 45, plain 4⟩), (0x44, ⟨.wifi, 46, []⟩), (0x45, ⟨.wifi, 0, plain 1⟩),
    (0x47, ⟨.accessPoint, 0, texts 2 ++ plain 3⟩), (0x48, ⟨.accessPoint, 1, plain 12⟩),
    (0x49, ⟨.accessPoint, 2, plain 1⟩), (0x50, ⟨.accessPoint, 3, []⟩),
    (0x51, ⟨.accessPoint, 4, []⟩), (0x52, ⟨.accessPoint, 5, []⟩), (0x53, ⟨.accessPoint, 6, []⟩),
    (0x54, ⟨.accessPoint, 7, plain 2⟩), (0x55, ⟨.accessPoint, 8, plain 1⟩),
    (0x56, ⟨.accessPoint, 9, []⟩), (0x57, ⟨.accessPoint, 10, []⟩),
    (0x58, ⟨.accessPoint, 11, plain 1⟩), (0x59, ⟨.accessPoint, 12, plain 1⟩),
    (0x60, ⟨.accessPoint, 13, plain 1⟩), (0x61, ⟨.accessPoint, 14, plain 1⟩),
    (0x62, ⟨.accessPoint, 15, plain 1⟩), (0x63, ⟨.accessPoint, 16, plain 1⟩),
    (0x64, ⟨.accessPoint, 17, plain 1⟩), (0x65, ⟨.accessPoint, 18, plain 1⟩)]

/-- Under `0xBABA`: `WiFiMulti`. -/
def multiOpcodes : List (UInt8 × Origin) :=
  [(0x00, ⟨.accessPoint, 19, texts 2⟩), (0x01, ⟨.accessPoint, 20, []⟩)]

/-- Under `0x3838`: MQTT. -/
def mqttOpcodes : List (UInt8 × Origin) :=
  [(0x00, ⟨.mqtt, 0, [false, true]⟩), (0x01, ⟨.mqtt, 1, texts 1⟩), (0x02, ⟨.stream, 6, []⟩),
    (0x03, ⟨.mqtt, 2, []⟩), (0x04, ⟨.stream, 8, plain 1⟩),
    (0x05, ⟨.mqtt, 3, texts 1 ++ plain 2⟩), (0x06, ⟨.mqtt, 3, texts 2 ++ plain 9⟩),
    (0x07, ⟨.mqtt, 10, plain 2⟩), (0x08, ⟨.mqtt, 11, texts 1⟩), (0x09, ⟨.mqtt, 12, plain 1⟩),
    (0x10, ⟨.mqtt, 13, plain 2⟩), (0x11, ⟨.mqtt, 14, texts 1⟩), (0x12, ⟨.mqtt, 14, texts 2⟩),
    (0x13, ⟨.mqtt, 15, texts 1 ++ plain 2⟩), (0x14, ⟨.mqtt, 16, plain 6⟩),
    (0x15, ⟨.mqtt, 17, texts 1 ++ plain 2⟩), (0x16, ⟨.mqtt, 17, texts 2 ++ plain 6⟩),
    (0x17, ⟨.mqtt, 4, plain 1⟩)]

/-- Under `0xEAEA`: web sockets. -/
def webSocketOpcodes : List (UInt8 × Origin) :=
  [(0x00, ⟨.webSocket, 2, texts 3 ++ plain 2⟩), (0x01, ⟨.webSocket, 3, texts 4 ++ plain 2⟩),
    (0x02, ⟨.webSocket, 4, texts 3 ++ plain 2⟩), (0x03, ⟨.webSocket, 5, texts 3 ++ plain 2⟩),
    (0x04, ⟨.stream, 8, []⟩), (0x05, ⟨.webSocket, 6, plain 4⟩), (0x06, ⟨.webSocket, 7, texts 2⟩),
    (0x07, ⟨.webSocket, 8, texts 1⟩), (0x08, ⟨.webSocket, 9, texts 1⟩),
    (0x09, ⟨.webSocket, 10, plain 4⟩), (0x10, ⟨.webSocket, 11, plain 5⟩),
    (0x11, ⟨.webSocket, 12, plain 5⟩), (0x12, ⟨.stream, 7, []⟩),
    (0x13, ⟨.webSocket, 13, plain 6⟩), (0x14, ⟨.webSocket, 14, plain 6⟩),
    (0x15, ⟨.webSocket, 15, plain 5⟩), (0x16, ⟨.webSocket, 16, plain 5⟩),
    (0x17, ⟨.webSocket, 17, plain 5⟩), (0x18, ⟨.webSocket, 18, plain 4⟩),
    (0x19, ⟨.stream, 8, plain 1⟩), (0x20, ⟨.webSocket, 7, texts 2⟩),
    (0x21, ⟨.webSocket, 8, texts 1⟩), (0x22, ⟨.webSocket, 19, plain 1⟩),
    (0x23, ⟨.webSocket, 0, []⟩), (0x24, ⟨.webSocket, 1, []⟩)]

/-- Under `0xA4A4`: the ESP. -/
def espOpcodes : List (UInt8 × Origin) :=
  [(0x00, ⟨.esp, 0, []⟩), (0x01, ⟨.esp, 1, []⟩), (0x02, ⟨.esp, 2, plain 4⟩),
    (0x03, ⟨.esp, 3, []⟩), (0x04, ⟨.esp, 4, []⟩), (0x05, ⟨.esp, 5, plain 5⟩),
    (0x06, ⟨.esp, 6, plain 8⟩), (0x07, ⟨.esp, 7, plain 8⟩), (0x08, ⟨.esp, 8, []⟩),
    (0x09, ⟨.esp, 9, []⟩), (0x10, ⟨.esp, 10, []⟩), (0x11, ⟨.esp, 11, []⟩),
    (0x12, ⟨.esp, 12, []⟩), (0x13, ⟨.esp, 13, []⟩), (0x14, ⟨.esp, 14, []⟩),
    (0x15, ⟨.esp, 15, []⟩), (0x16, ⟨.esp, 16, []⟩), (0x17, ⟨.esp, 17, []⟩),
    (0x18, ⟨.esp, 18, []⟩), (0x19, ⟨.esp, 19, []⟩), (0x20, ⟨.esp, 20, []⟩),
    (0x21, ⟨.esp, 21, []⟩), (0x22, ⟨.esp, 22, plain 1⟩), (0x23, ⟨.esp, 23, plain 1⟩),
    (0x24, ⟨.esp, 24, plain 1⟩), (0x25, ⟨.esp, 25, plain 1⟩), (0x26, ⟨.esp, 26, plain 4⟩),
    (0x29, ⟨.esp, 27, []⟩), (0x30, ⟨.esp, 28, []⟩), (0x31, ⟨.esp, 29, []⟩),
    (0x33, ⟨.esp, 30, []⟩), (0x34, ⟨.esp, 31, []⟩), (0x36, ⟨.esp, 32, []⟩),
    (0x37, ⟨.esp, 33, []⟩)]

/-- Under `0xBBBB`: `EEPROM`. -/
def eepromOpcodes : List (UInt8 × Origin) :=
  [(0x00, ⟨.esp, 34, []⟩), (0x01, ⟨.stream, 19, plain 2⟩), (0x02, ⟨.esp, 35, plain 2⟩),
    (0x03, ⟨.esp, 36, plain 3⟩)]

/-- Under `0xCCCC`: UDP. -/
def udpOpcodes : List (UInt8 × Origin) :=
  [(0x00, ⟨.stream, 19, plain 2⟩), (0x01, ⟨.stream, 15, []⟩), (0x02, ⟨.stream, 18, []⟩),
    (0x03, ⟨.stream, 3, []⟩), (0x04, ⟨.stream, 2, []⟩), (0x05, ⟨.stream, 1, []⟩),
    (0x06, ⟨.stream, 4, []⟩), (0x07, ⟨.udp, 1, []⟩), (0x08, ⟨.stream, 10, []⟩),
    (0x09, ⟨.udp, 0, []⟩), (0x10, ⟨.stream, 16, []⟩), (0x11, ⟨.stream, 17, []⟩),
    (0x12, ⟨.udp, 2, []⟩), (0x13, ⟨.udp, 3, texts 1 ++ plain 2⟩), (0x14, ⟨.udp, 4, plain 6⟩),
    (0x15, ⟨.udp, 5, plain 14⟩), (0x16, ⟨.udp, 6, plain 10⟩), (0x17, ⟨.stream, 5, plain 4⟩),
    (0x18, ⟨.stream, 0, plain 4⟩)]

/-- Under `0xA6A6`: clients. -/
def clientOpcodes : List (UInt8 × Origin) :=
  [(0x00, ⟨.stream, 11, plain 1⟩), (0x01, ⟨.stream, 6, plain 1⟩),
    (0x02, ⟨.stream, 12, [false, true, false, false]⟩), (0x03, ⟨.stream, 13, plain 7⟩),
    (0x04, ⟨.stream, 5, plain 5⟩), (0x05, ⟨.stream, 3, plain 1⟩), (0x06, ⟨.stream, 2, plain 1⟩),
    (0x07, ⟨.stream, 0, plain 5⟩), (0x08, ⟨.stream, 1, plain 1⟩), (0x09, ⟨.stream, 14, plain 5⟩),
    (0x10, ⟨.stream, 4, plain 1⟩), (0x11, ⟨.stream, 15, plain 1⟩), (0x12, ⟨.client, 2, plain 1⟩),
    (0x13, ⟨.client, 3, plain 1⟩), (0x14, ⟨.stream, 16, plain 1⟩),
    (0x15, ⟨.stream, 17, plain 1⟩), (0x16, ⟨.stream, 18, plain 1⟩),
    (0x17, ⟨.stream, 9, plain 1⟩), (0x18, ⟨.stream, 10, plain 1⟩), (0x19, ⟨.client, 4, plain 3⟩),
    (0x20, ⟨.client, 5, plain 1⟩)]

/-- Under `0xADCC`: secure clients. -/
def secureOpcodes : List (UInt8 × Origin) :=
  [(0x00, ⟨.stream, 13, plain 6⟩), (0x01, ⟨.stream, 12, texts 1 ++ plain 2⟩),
    (0x02, ⟨.client, 0, texts 2⟩), (0x03, ⟨.client, 1, texts 1⟩), (0x04, ⟨.stream, 6, []⟩),
    (0x05, ⟨.stream, 5, plain 4⟩), (0x06, ⟨.stream, 3, []⟩), (0x07, ⟨.stream, 2, []⟩),
    (0x08, ⟨.stream, 1, []⟩), (0x09, ⟨.stream, 0, plain 4⟩), (0x10, ⟨.stream, 14, plain 4⟩),
    (0x11, ⟨.stream, 15, []⟩), (0x12, ⟨.client, 6, plain 4⟩), (0x13, ⟨.client, 7, plain 4⟩),
    (0x14, ⟨.client, 8, plain 4⟩), (0x15, ⟨.client, 9, []⟩), (0x16, ⟨.client, 10, []⟩),
    (0x17, ⟨.client, 11, []⟩), (0x18, ⟨.client, 12, []⟩)]

/-- Under `0xCECE`: `AsyncUDP`. -/
def asyncUdpOpcodes : List (UInt8 × Origin) :=
  [(0x00, ⟨.asyncUdp, 2, plain 6⟩), (0x01, ⟨.asyncUdp, 3, plain 2⟩), (0x02, ⟨.asyncUdp, 4, []⟩),
    (0x03, ⟨.asyncUdp, 6, plain 6⟩), (0x04, ⟨.asyncUdp, 5, plain 7⟩),
    (0x05, ⟨.asyncUdp, 7, plain 10⟩), (0x06, ⟨.asyncUdp, 0, []⟩), (0x07, ⟨.asyncUdp, 1, []⟩),
    (0x08, ⟨.asyncUdp, 8, plain 4⟩), (0x09, ⟨.asyncUdp, 10, plain 4⟩),
    (0x10, ⟨.asyncUdp, 9, plain 6⟩)]

/-- The opcodes under a header. -/
def opcodes (high low : UInt8) : List (UInt8 × Origin) :=
  match high, low with
  | 0x34, 0x34 => fileOpcodes
  | 0xA2, 0xA2 => wifiOpcodes
  | 0xBA, 0xBA => multiOpcodes
  | 0x38, 0x38 => mqttOpcodes
  | 0xEA, 0xEA => webSocketOpcodes
  | 0xA4, 0xA4 => espOpcodes
  | 0xBB, 0xBB => eepromOpcodes
  | 0xCC, 0xCC => udpOpcodes
  | 0xA6, 0xA6 => clientOpcodes
  | 0xAD, 0xCC => secureOpcodes
  | 0xCE, 0xCE => asyncUdpOpcodes
  | _, _ => []

/-- What a header and an opcode say. -/
def origin? (key : Key) : Option Origin := (opcodes key.high key.low).lookup key.opcode

/-! ## The methods in the table -/

/-- All registrations of handlers that are announced in one mask write the same frames. -/
def MqttCall.index : MqttCall → ℕ
  | .onConnect _ | .onDisconnect _ | .onSubscribe _ | .onUnsubscribe _ | .onMessage _
  | .onPublish _ => 4
  | call => call.ctorIdx

def WiFiCall.index : WiFiCall → ℕ
  | .onStationModeGotIP _ | .onStationModeDisconnected _ | .onStationModeConnected _
  | .onStationModeAuthModeChanged _ | .onStationModeDHCPTimeout _
  | .onSoftAPModeStationConnected _ | .onSoftAPModeStationDisconnected _
  | .onSoftAPModeProbeRequestReceived _ => 0
  | call => call.ctorIdx

namespace Call

/-- The kind of a call. -/
def family : Call → Family
  | spiffs _ _ => .spiffs
  | stream _ _ => .stream
  | udp _ _ => .udp
  | client _ _ => .client
  | mqtt _ _ => .mqtt
  | webSocket _ _ => .webSocket
  | wifi _ _ => .wifi
  | accessPoint _ _ => .accessPoint
  | esp _ _ => .esp
  | asyncUdp _ => .asyncUdp

/-- The place of the method in its family. -/
def index : Call → ℕ
  | spiffs _ call => call.ctorIdx
  | stream _ call => call.ctorIdx
  | udp _ call => call.ctorIdx
  | client _ call => call.ctorIdx
  | mqtt _ call => call.index
  | webSocket _ call => call.ctorIdx
  | wifi _ call => call.index
  | accessPoint _ call => call.ctorIdx
  | esp _ call => call.ctorIdx
  | asyncUdp call => call.ctorIdx

end Call

/-- The header and the opcode of a command. -/
def Command.key (c : Command) : Key := ⟨c.header.1, c.header.2, c.opcode⟩

/-- The table is right about the commands of a block. -/
def Stage.Listed (family : Family) (index : ℕ) (stage : Stage) : Prop :=
  ∀ h c, stage.command? h = some c → origin? c.key = some ⟨family, index, c.shape⟩

/-- The table is right about the commands of a method. -/
def Method.Listed (family : Family) (index : ℕ) (m : Method) : Prop :=
  ∀ stage ∈ m.stages, stage.Listed family index

section Listed

variable {family : Family} {index : ℕ}

theorem Stage.listed_request {active : Bool} {e : Exchange}
    (h : origin? e.command.key = some ⟨family, index, e.command.shape⟩) :
    (Stage.request active e).Listed family index := by
  intro hs c hc
  rw [Stage.command?, Option.ite_none_right_eq_some] at hc
  exact Option.some.inj hc.2 ▸ h

theorem Stage.listed_send {active : Bool} {c : Command} {result : Option Value}
    (h : origin? c.key = some ⟨family, index, c.shape⟩) :
    (Stage.send active c result).Listed family index := by
  intro hs c' hc
  rw [Stage.command?, Option.ite_none_right_eq_some] at hc
  exact Option.some.inj hc.2 ▸ h

theorem Stage.listed_update {active : Bool} {change : Handlers → Handlers}
    {command : Handlers → Command}
    (h : ∀ hs, origin? (command hs).key = some ⟨family, index, (command hs).shape⟩) :
    (Stage.update active change command).Listed family index := by
  intro hs c hc
  rw [Stage.command?, Option.ite_none_right_eq_some] at hc
  exact Option.some.inj hc.2 ▸ h _

theorem Stage.listed_undefined (active : Bool) :
    (Stage.undefined active).Listed family index := by
  intro hs c hc
  cases hc

theorem SpiffsCall.listed (o : Object) (c : SpiffsCall) :
    (c.method o).Listed .spiffs c.ctorIdx := by
  cases c <;> exact List.forall_mem_singleton.mpr (Stage.listed_request rfl)

/-- The methods that several roles share have a block for each role. -/
theorem StreamCall.listed (o : Object) (c : StreamCall) :
    (c.method o).Listed .stream c.ctorIdx := by
  cases c <;> repeat'
    first
    | exact Stage.listed_request rfl
    | exact Stage.listed_send rfl
    | exact List.forall_mem_nil _
    | refine List.forall_mem_cons.mpr ⟨?_, ?_⟩

theorem UdpCall.listed (o : Object) (c : UdpCall) : (c.method o).Listed .udp c.ctorIdx := by
  cases c <;> exact List.forall_mem_singleton.mpr (Stage.listed_request rfl)

theorem ClientCall.listed (o : Object) (c : ClientCall) :
    (c.method o).Listed .client c.ctorIdx := by
  cases c <;>
    first
    | exact List.forall_mem_singleton.mpr (Stage.listed_request rfl)
    | exact List.forall_mem_singleton.mpr (Stage.listed_send rfl)

theorem MqttCall.listed (o : Object) (c : MqttCall) : (c.method o).Listed .mqtt c.index := by
  unfold MqttCall.method
  split <;>
    first
    | exact List.forall_mem_singleton.mpr (Stage.listed_request rfl)
    | exact List.forall_mem_singleton.mpr (Stage.listed_update fun _ => rfl)

theorem WebSocketCall.listed (o : Object) (c : WebSocketCall) :
    (c.method o).Listed .webSocket c.ctorIdx := by
  cases c with
  | onEventClient handler => exact List.forall_mem_singleton.mpr (Stage.listed_update fun _ => rfl)
  | onEventServer handler => exact List.forall_mem_singleton.mpr (Stage.listed_update fun _ => rfl)
  | setAuthorization user password =>
    exact List.forall_mem_cons.mpr
      ⟨Stage.listed_send rfl, List.forall_mem_singleton.mpr (Stage.listed_send rfl)⟩
  | setAuthorizationToken auth =>
    exact List.forall_mem_cons.mpr
      ⟨Stage.listed_send rfl, List.forall_mem_singleton.mpr (Stage.listed_send rfl)⟩
  | _ =>
    first
    | exact List.forall_mem_singleton.mpr (Stage.listed_request rfl)
    | exact List.forall_mem_singleton.mpr (Stage.listed_send rfl)

theorem WiFiCall.listed (o : Object) (c : WiFiCall) : (c.method o).Listed .wifi c.index := by
  unfold WiFiCall.method
  split <;>
    first
    | exact List.forall_mem_singleton.mpr (Stage.listed_request rfl)
    | exact List.forall_mem_singleton.mpr (Stage.listed_send rfl)
    | exact List.forall_mem_singleton.mpr (Stage.listed_update fun _ => rfl)

theorem AccessPointCall.listed (o : Object) (c : AccessPointCall) :
    (c.method o).Listed .accessPoint c.ctorIdx := by
  unfold AccessPointCall.method
  split <;>
    first
    | exact List.forall_mem_singleton.mpr (Stage.listed_request rfl)
    | exact List.forall_mem_singleton.mpr (Stage.listed_send rfl)
    | exact List.forall_mem_singleton.mpr (Stage.listed_update fun _ => rfl)
    | exact List.forall_mem_singleton.mpr (Stage.listed_undefined _)

theorem EspCall.listed (o : Object) (c : EspCall) : (c.method o).Listed .esp c.ctorIdx := by
  cases c <;>
    first
    | exact List.forall_mem_singleton.mpr (Stage.listed_request rfl)
    | exact List.forall_mem_singleton.mpr (Stage.listed_send rfl)

theorem AsyncUdpCall.listed (c : AsyncUdpCall) : c.method.Listed .asyncUdp c.ctorIdx := by
  cases c <;>
    first
    | exact List.forall_mem_singleton.mpr (Stage.listed_request rfl)
    | exact List.forall_mem_singleton.mpr (Stage.listed_send rfl)
    | exact List.forall_mem_singleton.mpr (Stage.listed_update fun _ => rfl)

end Listed

theorem Call.listed (c : Call) : c.method.Listed c.family c.index := by
  cases c with
  | spiffs o call => exact call.listed o
  | stream o call => exact call.listed o
  | udp o call => exact call.listed o
  | client o call => exact call.listed o
  | mqtt o call => exact call.listed o
  | webSocket o call => exact call.listed o
  | wifi o call => exact call.listed o
  | accessPoint o call => exact call.listed o
  | esp o call => exact call.listed o
  | asyncUdp call => exact call.listed

/-- **The table is right** about every command of every method. -/
theorem Call.origin?_key (c : Call) {h : Handlers} {cmd : Command} (hw : c.method.Writes h cmd) :
    origin? cmd.key = some ⟨c.family, c.index, cmd.shape⟩ := by
  obtain ⟨stage, hmem, hcommand⟩ := hw
  exact c.listed stage hmem h cmd hcommand

/-! ## Decoding -/

/-- What a frame says. -/
structure Contents where
  family : Family
  index : ℕ
  /-- The header and the opcode. -/
  key : Key
  /-- The argument bytes. -/
  args : List UInt8
  strings : List (List UInt8)
  /-- The raw bytes. -/
  body : List UInt8
  deriving DecidableEq

/-- Recover what a frame says: behind the argument bytes lie the strings, or raw bytes. -/
def decodeFrame (frame : List UInt8) : Option Contents :=
  (origin? (keyOf frame)).map fun o =>
    let lengths := Command.lengthBytes o.shape frame
    let area := Command.stringArea o.shape frame
    { family := o.family
      index := o.index
      key := keyOf frame
      args := (frame.drop 6).take o.shape.length
      strings := Command.splitBy lengths area
      body := if lengths = [] then area else [] }

/-- What a command of a method says. -/
def Call.contents (c : Call) (cmd : Command) : Contents where
  family := c.family
  index := c.index
  key := cmd.key
  args := cmd.args.map Arg.value
  strings := cmd.text.map CString.bytes
  body := cmd.body

namespace Command

variable {cmd : Command} (garbage : Memory UInt8)

theorem emit_eq_cons (h : cmd.size ≤ 2 ^ cmd.indexBits) :
    cmd.emit garbage = [0x24, Bytes.high (UInt16.ofNat (cmd.size - 3)),
      Bytes.low (UInt16.ofNat (cmd.size - 3)), cmd.header.1, cmd.header.2, cmd.opcode] ++
        (cmd.args.map Arg.value ++ cmd.text.flatMap CString.bytes ++ cmd.body ++
          [Bytes.xorSum cmd.payload]) := by
  rw [cmd.emit_eq garbage h, framing, payload]
  simp

/-- The header and the opcode of a frame. -/
theorem keyOf_emit (h : cmd.size ≤ 2 ^ cmd.indexBits) : keyOf (cmd.emit garbage) = cmd.key := by
  rw [emit_eq_cons garbage h]
  rfl

theorem drop_six_emit (h : cmd.size ≤ 2 ^ cmd.indexBits) :
    (cmd.emit garbage).drop 6 = cmd.args.map Arg.value ++ (cmd.text.flatMap CString.bytes ++
      cmd.body ++ [Bytes.xorSum cmd.payload]) := by
  rw [emit_eq_cons garbage h]
  simp only [List.append_assoc]
  rfl

theorem lengthBytes_emit (h : cmd.size ≤ 2 ^ cmd.indexBits) :
    lengthBytes cmd.shape (cmd.emit garbage) = cmd.text.map fun s => UInt8.ofNat s.strlen := by
  rw [lengthBytes, drop_six_emit garbage h, shape, filterMap_zip_args, cmd.lengths_eq]

theorem stringArea_emit (h : cmd.size ≤ 2 ^ cmd.indexBits) :
    stringArea cmd.shape (cmd.emit garbage) = cmd.text.flatMap CString.bytes ++ cmd.body := by
  rw [stringArea, ← List.drop_drop, drop_six_emit garbage h, shape, List.length_map,
    List.drop_left' (List.length_map _), List.dropLast_concat]

/-- **Decoding is the inverse of writing**, for a command the table is right about. -/
theorem decodeFrame_emit {family : Family} {index : ℕ} (h : cmd.size ≤ 2 ^ cmd.indexBits)
    (hlisted : origin? cmd.key = some ⟨family, index, cmd.shape⟩)
    (harea : cmd.text = [] ∨ cmd.body = []) (htext : ∀ s ∈ cmd.text, s.strlen ≤ 255) :
    decodeFrame (cmd.emit garbage) = some ⟨family, index, cmd.key, cmd.args.map Arg.value,
      cmd.text.map CString.bytes, cmd.body⟩ := by
  have hargs : ((cmd.emit garbage).drop 6).take cmd.shape.length = cmd.args.map Arg.value := by
    rw [drop_six_emit garbage h, shape, List.length_map]
    exact List.take_left' (List.length_map _)
  rw [decodeFrame, keyOf_emit garbage h, hlisted, Option.map_some]
  simp only [hargs, lengthBytes_emit garbage h, stringArea_emit garbage h]
  rcases harea with hnil | hnil
  · simp [hnil, splitBy]
  · rw [hnil, List.append_nil, splitBy_flatMap htext]
    congr 2
    split
    · next hlengths => rw [List.map_eq_nil_iff.mp hlengths, List.flatMap_nil]
    · rfl

end Command

/-- No command of a method mixes strings and raw bytes. -/
theorem Call.text_eq_nil_or (c : Call) {h : Handlers} {cmd : Command}
    (hw : c.method.Writes h cmd) : cmd.text = [] ∨ cmd.body = [] := by
  cases hc : c.isRegular with
  | true => exact ((c.regular hc).command hw).area
  | false =>
    unfold Call.isRegular at hc
    split at hc
    · next o name timeout_ms =>
      rw [(writes_hostByName_iff.mp hw).2]
      exact .inr rfl
    · next o ssid channel hidden max =>
      exact absurd hw (not_writes_softAP_none o ssid channel hidden max h cmd)
    · cases hc

/-- The frames of a call fit their arrays, and its strings their length bytes. -/
structure Call.Fits (c : Call) : Prop where
  frames : ∀ h cmd, c.method.Writes h cmd → cmd.size ≤ 65538 ∧ cmd.size ≤ 2 ^ cmd.indexBits
  strings : ∀ h cmd, c.method.Writes h cmd → ∀ s ∈ cmd.text, s.strlen ≤ 255

/-- **The frames of every method can be decoded**: the method, the argument bytes, the strings and
the raw bytes of a command are recovered from its frame. -/
theorem Call.Fits.decodes {c : Call} (hc : c.Fits) {h : Handlers} {cmd : Command}
    (hw : c.method.Writes h cmd) (garbage : Memory UInt8) :
    decodeFrame (cmd.emit garbage) = some (c.contents cmd) :=
  cmd.decodeFrame_emit garbage (hc.frames h cmd hw).2 (c.origin?_key hw) (c.text_eq_nil_or hw)
    (hc.strings h cmd hw)

/-- The contents say everything that is written. -/
theorem Call.payload_eq_of_contents_eq {c c' : Call} {cmd cmd' : Command}
    (h : c.contents cmd = c'.contents cmd') : cmd.payload = cmd'.payload := by
  obtain ⟨-, -, hkey, hargs, htext, hbody⟩ := Contents.mk.inj h
  obtain ⟨hhigh, hlow, hopcode⟩ := Key.mk.inj hkey
  have hheader : cmd.header = cmd'.header := Prod.ext hhigh hlow
  have hstrings : cmd.text.flatMap CString.bytes = cmd'.text.flatMap CString.bytes := by
    rw [List.flatMap_def, List.flatMap_def, htext]
  simp only [Command.payload, hheader, show cmd.opcode = cmd'.opcode from hopcode, hargs,
    hstrings, hbody]

/-- Two frames that fit are equal exactly when they say the same. -/
theorem Call.Fits.emit_eq_iff {c c' : Call} (hc : c.Fits) (hc' : c'.Fits) {h h' : Handlers}
    {cmd cmd' : Command} (hw : c.method.Writes h cmd) (hw' : c'.method.Writes h' cmd')
    (garbage garbage' : Memory UInt8) :
    cmd.emit garbage = cmd'.emit garbage' ↔ c.contents cmd = c'.contents cmd' := by
  constructor
  · intro heq
    have hdecode := hc.decodes hw garbage
    rw [heq, hc'.decodes hw' garbage'] at hdecode
    exact (Option.some.inj hdecode).symm
  · intro heq
    have hpayload := payload_eq_of_contents_eq heq
    have hsize : cmd.size = cmd'.size := by
      have h₁ := cmd.length_payload
      have h₂ := cmd'.length_payload
      rw [hpayload] at h₁
      omega
    rw [cmd.emit_eq garbage (hc.frames h cmd hw).2,
      cmd'.emit_eq garbage' (hc'.frames h' cmd' hw').2, Command.framing, Command.framing, hpayload,
      hsize]

/-- **The frames of all methods tell the calls apart**: a frame that fits is decoded to the method,
the argument bytes, the strings and the raw bytes, and so two such frames are equal exactly when
these are. -/
theorem Call.frames_tell_apart {c c' : Call} (hc : c.Fits) (hc' : c'.Fits) {h h' : Handlers}
    {cmd cmd' : Command} (hw : c.method.Writes h cmd) (hw' : c'.method.Writes h' cmd')
    (garbage garbage' : Memory UInt8) :
    decodeFrame (cmd.emit garbage) = some (c.contents cmd) ∧
      (cmd.emit garbage = cmd'.emit garbage' ↔ c.contents cmd = c'.contents cmd') :=
  ⟨hc.decodes hw garbage, hc.emit_eq_iff hc' hw hw' garbage garbage'⟩

/-! ## Two files that are renamed -/

/-- The call of `rename` on an object for files. -/
def renameCall (pathFrom pathTo : CString) : Call :=
  .spiffs { Object.initial with spiffs := true } (.rename pathFrom pathTo)

theorem writes_renameCall_iff {pathFrom pathTo : CString} {h : Handlers} {cmd : Command} :
    (renameCall pathFrom pathTo).method.Writes h cmd ↔ cmd = renameCommand pathFrom pathTo := by
  constructor
  · rintro ⟨stage, hmem, hcommand⟩
    obtain rfl := List.mem_singleton.mp hmem
    exact (Option.some.inj hcommand).symm
  · rintro rfl
    exact ⟨_, List.mem_cons_self, rfl⟩

theorem fits_renameCall {pathFrom pathTo : CString} (hfrom : pathFrom.strlen ≤ 255)
    (hto : pathTo.strlen ≤ 255) : (renameCall pathFrom pathTo).Fits where
  frames h cmd hw := by
    rw [writes_renameCall_iff.mp hw]
    have hsize : (renameCommand pathFrom pathTo).size = pathFrom.strlen + pathTo.strlen + 9 := rfl
    have hbits : (renameCommand pathFrom pathTo).indexBits = 16 := rfl
    rw [hsize, hbits]
    omega
  strings h cmd hw s hs := by
    rw [writes_renameCall_iff.mp hw] at hs
    rcases List.mem_cons.mp hs with rfl | hs
    · exact hfrom
    · rwa [List.mem_singleton.mp hs]

/-- Renaming `a` to `bc` and renaming `ab` to `c` are told apart. -/
theorem frames_tell_apart_rename :
    (renameCommand ⟨[0x61], by decide⟩ ⟨[0x62, 0x63], by decide⟩).emit (Memory.fill 0) ≠
      (renameCommand ⟨[0x61, 0x62], by decide⟩ ⟨[0x63], by decide⟩).emit (Memory.fill 0) := by
  intro heq
  have hfits : (renameCall ⟨[0x61], by decide⟩ ⟨[0x62, 0x63], by decide⟩).Fits :=
    fits_renameCall (by decide) (by decide)
  have hfits' : (renameCall ⟨[0x61, 0x62], by decide⟩ ⟨[0x63], by decide⟩).Fits :=
    fits_renameCall (by decide) (by decide)
  obtain ⟨-, happart⟩ := Call.frames_tell_apart hfits hfits'
    (writes_renameCall_iff (h := .initial).mpr rfl) (writes_renameCall_iff (h := .initial).mpr rfl)
    (Memory.fill 0) (Memory.fill 0)
  exact absurd (congrArg Contents.args (happart.mp heq)) (by decide)

end Teensquitto
