import Teensquitto.Wire.Command

/-!
# Public methods

A public method of `teensquitto` or `AsyncUDP` is a guard, a list of blocks that are tried
in order, and the value returned when no block returns.  A block is entered when its object
plays the block's role; it writes one command frame and may wait for the reply.

## Main definitions

* `Object`: the role members of a `teensquitto` object
* `Value`: what a method returns and stores through its reference arguments
* `Handlers`: the registered event handlers
* `Stage`, `Method`: the blocks of a method and the method
-/

namespace Teensquitto

/-- The members of a `teensquitto` object that select its blocks.  The numeric roles are
off at 255. -/
structure Object where
  esp : UInt8
  espEeprom : UInt8
  wifi : UInt8
  wifiudp : UInt8
  wificlient : UInt8
  wificlientsecure : UInt8
  websocketclient : UInt8
  websocketserver : UInt8
  spiffs : Bool
  wiFiMulti : Bool
  mqttSupport : Bool
  deriving DecidableEq

/-- An object in static storage, before a role is chosen: `_spiffs` and `_mqtt_support` have no
initialiser. -/
def Object.initial : Object :=
  { esp := 255, espEeprom := 255, wifi := 255, wifiudp := 255, wificlient := 255
    wificlientsecure := 255, websocketclient := 255, websocketserver := 255
    spiffs := false, wiFiMulti := false, mqttSupport := false }

/-- A returned or stored datum. -/
inductive Datum
  | nothing
  | number (n : ℤ)
  | text (s : List UInt8)
  | address (a b c d : UInt8)
  | bytes (l : List UInt8)
  /-- The null pointer. -/
  | null
  /-- The caller's own buffer. -/
  | buffer
  /-- What the code reads where it has stored nothing: an uninitialised array, memory behind
  `storage_buffer`, or an array that is gone. -/
  | indeterminate
  deriving DecidableEq

/-- The result of a call and what it stored through reference and pointer arguments. -/
structure Value where
  result : Datum
  stored : List Datum := []
  deriving DecidableEq

namespace Value

/-- No part of the value is read where nothing was stored. -/
def Determinate (v : Value) : Prop := Datum.indeterminate ∉ v.result :: v.stored

instance (v : Value) : Decidable v.Determinate := inferInstanceAs (Decidable (¬_))

def nothing : Value := ⟨.nothing, []⟩

def zero : Value := ⟨.number 0, []⟩

def one : Value := ⟨.number 1, []⟩

def emptyText : Value := ⟨.text [], []⟩

/-- `hostByName` without a result. -/
def unresolved : Value := ⟨.number 0, [.address 0 0 0 0]⟩

/-- `info` while the ESP is not detected. -/
def noInfo : Value := ⟨.number 0, List.replicate 6 (.number 0)⟩

def noAddress : Value := ⟨.address 0 0 0 0, []⟩

def null : Value := ⟨.null, []⟩

def buffer : Value := ⟨.buffer, []⟩

end Value

/-! ## Values decoded from a reply

The reply lies in `storage_buffer`: header `0xAA55`, the request's header and opcode, and
the fields from index 5 on. -/

namespace Decode

variable (storage : Memory UInt8)

/-- A 16-bit field, high byte first. -/
def half (i : ℕ) : UInt16 := Bytes.join (storage i) (storage (i + 1))

/-- A 32-bit field, high byte first. -/
def word (i : ℕ) : UInt32 :=
  ((storage i).toUInt32 <<< 24) ||| ((storage (i + 1)).toUInt32 <<< 16) |||
    ((storage (i + 2)).toUInt32 <<< 8) ||| (storage (i + 3)).toUInt32

/-- A 32-bit field copied by `memcpy`, low byte first. -/
def wordLow (i : ℕ) : UInt32 :=
  (storage i).toUInt32 ||| ((storage (i + 1)).toUInt32 <<< 8) |||
    ((storage (i + 2)).toUInt32 <<< 16) ||| ((storage (i + 3)).toUInt32 <<< 24)

/-- `String(response)`: the bytes before the first zero. -/
def string (i n : ℕ) : Datum := .text ((storage.load i n).takeWhile (· ≠ 0))

/-- A text copied by a loop that writes the terminator behind each byte: without a byte the array
stays uninitialised. -/
def filled (i n : ℕ) : Datum := if n = 0 then .indeterminate else string storage i n

def bool : Value := ⟨.number (if storage 5 = 0 then 0 else 1), []⟩

def byte : Value := ⟨.number (storage 5).toNat, []⟩

def signedByte : Value := ⟨.number (storage 5).toInt8.toInt, []⟩

def uint16 : Value := ⟨.number (half storage 5).toNat, []⟩

def int16 : Value := ⟨.number (half storage 5).toInt16.toInt, []⟩

def uint32 : Value := ⟨.number (word storage 5).toNat, []⟩

def int32 : Value := ⟨.number (word storage 5).toInt32.toInt, []⟩

/-- `memcpy(&val, buf, 4)` on the little-endian host. -/
def int32Copied : Value := ⟨.number (wordLow storage 5).toInt32.toInt, []⟩

def address : Value := ⟨.address (storage 5) (storage 6) (storage 7) (storage 8), []⟩

/-- A text with a one-byte length. -/
def shortText : Value := ⟨string storage 6 (storage 5).toNat, []⟩

/-- A text with a one-byte length, terminated by the loop that copies it. -/
def filledText : Value := ⟨filled storage 6 (storage 5).toNat, []⟩

/-- A text with a two-byte length; `storage_buffer` has 512 bytes. -/
def longText : Value :=
  ⟨if 7 + (half storage 5).toNat ≤ 512 then string storage 7 (half storage 5).toNat
    else .indeterminate, []⟩

/-- A text that is returned as a pointer to a local array. -/
def dangling (_ : Memory UInt8) : Value := ⟨.indeterminate, []⟩

/-- A byte count, returned, and as many bytes, copied to the caller's buffer. -/
def bulk : Value :=
  ⟨.number (word storage 5).toNat, [.bytes (storage.load 9 (word storage 5).toNat)]⟩

/-- Six bytes copied to the caller's buffer. -/
def mac : Value := ⟨.buffer, [.bytes (storage.load 5 6)]⟩

/-- The status byte, and the address stored in the reference argument. -/
def resolved : Value :=
  ⟨.number (storage 5).toNat, [.address (storage 6) (storage 7) (storage 8) (storage 9)]⟩

/-- `FSInfo`: six sizes, then the status byte. -/
def fsInfo : Value :=
  ⟨.number (if storage 29 = 0 then 0 else 1),
    [5, 9, 13, 17, 21, 25].map fun i => .number (word storage i).toNat⟩

/-- The description of one scanned network. -/
def networkInfo : Value :=
  ⟨.number (if storage 5 = 0 then 0 else 1),
    [filled storage 23 (storage 6).toNat, .number (storage 7).toNat,
      .number (wordLow storage 8).toInt32.toInt, .bytes (storage.load 12 6),
      .number (wordLow storage 18).toInt32.toInt,
      .number (if storage 22 = 0 then 0 else 1)]⟩

/-- A reply whose arrival alone is reported. -/
def arrived (_ : Memory UInt8) : Value := .one

end Decode

/-! ## Event handlers -/

/-- The handler pointers. -/
inductive Slot
  | mqttConnect | mqttDisconnect | mqttSub | mqttUnsub | mqttMessage | mqttPub
  | wifiOnSTAgotIP | wifiOnSTADisconnect | wifiOnSTAConnected | wifiOnSTAAuthModeChange
  | wifiOnSTADHCPtimeout | wifiOnAPConnected | wifiOnAPDisconnected | wifiOnAPProbe
  | wifiScanHndl | wscHndl | wssHndl | udpHandler | espDetectHandler
  deriving DecidableEq

/-- Which handlers are set, and the two masks sent to the ESP. -/
structure Handlers where
  present : Slot → Bool
  mqttHandlers : UInt8
  wifiHandlers : UInt8

namespace Handlers

/-- No handler is set. -/
def initial : Handlers := ⟨fun _ => false, 0, 0⟩

instance : Inhabited Handlers := ⟨initial⟩

/-- Store a handler pointer. -/
def set (h : Handlers) (slot : Slot) (present : Bool) : Handlers :=
  { h with present := fun s => if s = slot then present else h.present s }

/-- `bitSet(_mqtt_handlers, bit)`. -/
def setMqttBit (h : Handlers) (bit : UInt8) : Handlers :=
  { h with mqttHandlers := h.mqttHandlers ||| (1 <<< bit) }

/-- `bitSet(_wifi_handlers, bit)`. -/
def setWiFiBit (h : Handlers) (bit : UInt8) : Handlers :=
  { h with wifiHandlers := h.wifiHandlers ||| (1 <<< bit) }

end Handlers

/-! ## Methods -/

/-- A command that waits for its reply. -/
structure Exchange where
  command : Command
  /-- The wait loop runs for `_esp_latency + limit` milliseconds. -/
  limit : ℕ
  /-- The check behind the loop gives up past `_esp_latency + checkLimit` milliseconds. -/
  checkLimit : ℕ
  onTimeout : Value
  /-- The value read from `storage_buffer` after an accepted reply. -/
  decode : Memory UInt8 → Value

/-- One block of a method; `active` is the condition under which it is entered. -/
inductive Stage
  /-- Write a command and wait; without an accepted reply the next block is tried. -/
  | request (active : Bool) (exchange : Exchange)
  /-- Write a command, then return `result` or try the next block. -/
  | send (active : Bool) (command : Command) (result : Option Value)
  /-- Change the handlers and write a command that depends on them. -/
  | update (active : Bool) (change : Handlers → Handlers) (command : Handlers → Command)
  /-- The block has undefined behaviour. -/
  | undefined (active : Bool)

/-- A public method: the value returned while the ESP is not detected, when the method
tests for it, its blocks, and the value behind them. -/
structure Method where
  guard : Option Value
  stages : List Stage
  otherwise : Value

/-- A block that waits with one limit in the loop and behind it. -/
def Stage.ask (active : Bool) (limit : ℕ) (onTimeout : Value) (decode : Memory UInt8 → Value)
    (command : Command) : Stage :=
  .request active ⟨command, limit, limit, onTimeout, decode⟩

/-- A block that writes without waiting and goes on. -/
def Stage.tell (active : Bool) (command : Command) : Stage := .send active command none

/-- A method that returns one default, offline and at its end. -/
def Method.guarded (default : Value) (stages : List Stage) : Method :=
  ⟨some default, stages, default⟩

/-- A method that does not test for the ESP. -/
def Method.unguarded (default : Value) (stages : List Stage) : Method := ⟨none, stages, default⟩

end Teensquitto
