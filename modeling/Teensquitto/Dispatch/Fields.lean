import Teensquitto.Device.Processing
import Teensquitto.Program.Tracked

/-!
# The fields of a frame

The switch on the header in `processing_data`, with every byte of the frame it reads.  A field is
read when the handler it is for is set; the payload of an MQTT message is copied before its
handler is looked at, and with the length of the whole frame.

## Main definitions

* `Action`: what a frame makes the library do
* `frameFields`: the fields read from a frame, and the action
* `perform`: the action
* `neededLength`: the length the header, the sub-code and the embedded lengths call for

## Main results

* `switchHeader_run`: the switch performs the action read from the frame
* `extent_frameFields`: what is read ends at the needed length
-/

namespace Teensquitto

open Tracked

/-- Computations over the bytes of a frame. -/
abbrev Fields (α : Type) := Tracked UInt8 α

/-! ## Numbers and blocks -/

/-- `((uint16_t)(data[i] << 8) | data[i + 1])`. -/
def halfAt (i : ℕ) : Fields UInt16 := do
  let high ← cell i
  let low ← cell (i + 1)
  return Bytes.join high low

/-- Four bytes. -/
def fourAt (i : ℕ) : Fields (UInt8 × UInt8 × UInt8 × UInt8) := do
  let a ← cell i
  let b ← cell (i + 1)
  let c ← cell (i + 2)
  let d ← cell (i + 3)
  return (a, b, c, d)

/-- A 32-bit number, high byte first. -/
def wordAt (i : ℕ) : Fields UInt32 := do
  let (a, b, c, d) ← fourAt i
  return (a.toUInt32 <<< 24) ||| (b.toUInt32 <<< 16) ||| (c.toUInt32 <<< 8) ||| d.toUInt32

/-- Four bytes copied over a 32-bit number, low byte first. -/
def wordLowAt (i : ℕ) : Fields UInt32 := do
  let (a, b, c, d) ← fourAt i
  return a.toUInt32 ||| (b.toUInt32 <<< 8) ||| (c.toUInt32 <<< 16) ||| (d.toUInt32 <<< 24)

/-- An address. -/
def addressAt (i : ℕ) : Fields Datum := do
  let (a, b, c, d) ← fourAt i
  return .address a b c d

/-- A name of a network, copied and cut at its first zero. -/
def nameAt (i n : ℕ) : Fields Datum := do
  let bytes ← cells i n
  return .text (bytes.takeWhile (· ≠ 0))

section Values

variable (data : Memory UInt8)

@[simp] theorem value_halfAt (i : ℕ) : (halfAt i).value data = Decode.half data i := rfl

@[simp] theorem value_fourAt (i : ℕ) :
    (fourAt i).value data = (data i, data (i + 1), data (i + 2), data (i + 3)) := rfl

@[simp] theorem value_wordAt (i : ℕ) : (wordAt i).value data = Decode.word data i := rfl

@[simp] theorem value_wordLowAt (i : ℕ) : (wordLowAt i).value data = Decode.wordLow data i := rfl

@[simp] theorem value_addressAt (i : ℕ) : (addressAt i).value data = addressArg data i := rfl

@[simp] theorem value_nameAt (i n : ℕ) : (nameAt i n).value data = Decode.string data i n := rfl

@[simp] theorem extent_halfAt (i : ℕ) : (halfAt i).extent data = i + 2 := by
  simp [halfAt]

@[simp] theorem extent_fourAt (i : ℕ) : (fourAt i).extent data = i + 4 := by
  simp [fourAt]

@[simp] theorem extent_wordAt (i : ℕ) : (wordAt i).extent data = i + 4 := by
  simp [wordAt]

@[simp] theorem extent_wordLowAt (i : ℕ) : (wordLowAt i).extent data = i + 4 := by
  simp [wordLowAt]

@[simp] theorem extent_addressAt (i : ℕ) : (addressAt i).extent data = i + 4 := by
  simp [addressAt]

@[simp] theorem extent_nameAt (i n : ℕ) :
    (nameAt i n).extent data = if n = 0 then 0 else i + n := by
  simp [nameAt]

end Values

/-! ## The handlers -/

/-- A handler and the arguments it is called with. -/
abbrev Invocation := Slot × List Datum

section Handlers

variable (present : Slot → Bool)

/-- The arguments are read when the handler is set. -/
def whenSet (slot : Slot) (args : Fields (List Datum)) : Fields (Option Invocation) := do
  if present slot then
    let args ← args
    return some (slot, args)
  else return none

/-- A byte. -/
def byteAt (i : ℕ) : Fields Datum := do
  let b ← cell i
  return .number b.toNat

/-- A `bool`. -/
def boolAt (i : ℕ) : Fields Datum := do
  let b ← cell i
  return .number (if b = 0 then 0 else 1)

/-- An MQTT message: everything is read before the handler is looked at. -/
def messageFields (len : ℕ) : Fields (Option Invocation) := do
  let topicLen ← halfAt 3
  let topic ← cells 20 topicLen.toNat
  let length ← wordAt 8
  let index ← wordAt 12
  let total ← wordAt 16
  -- `len` is the length of the frame, not that of the payload
  let payload ← cells (20 + topicLen.toNat) len
  let qos ← byteAt 5
  let dup ← boolAt 6
  let retain ← boolAt 7
  if present .mqttMessage then
    return some (.mqttMessage, [.bytes topic, .bytes payload, qos, dup, retain,
      .number length.toNat, .number index.toNat, .number total.toNat])
  else return none

/-- `0xAFAF`. -/
def mqttFields (len : ℕ) : Fields (Option Invocation) := do
  match ← cell 2 with
  | 0x00 => whenSet present .mqttConnect do
    let b ← boolAt 3
    return [b]
  | 0x01 => whenSet present .mqttDisconnect do
    let reason ← cell 3
    return [.number reason.toInt8.toInt]
  | 0x02 => whenSet present .mqttSub do
    let id ← halfAt 4
    let qos ← byteAt 3
    return [.number id.toNat, qos]
  | 0x03 => whenSet present .mqttUnsub do
    let id ← halfAt 3
    return [.number id.toNat]
  | 0x04 => whenSet present .mqttPub do
    let id ← halfAt 3
    return [.number id.toNat]
  | 0x05 => messageFields present len
  | _ => return none

/-- `0xABAB`. -/
def wifiFields : Fields (Option Invocation) := do
  match ← cell 2 with
  | 0x00 => whenSet present .wifiOnSTAgotIP do
    let ip ← addressAt 3
    let gw ← addressAt 7
    let mask ← addressAt 11
    return [ip, gw, mask]
  | 0x01 => whenSet present .wifiOnSTADisconnect do
    let n ← cell 3
    let ssid ← nameAt 11 n.toNat
    let bssid ← cells 4 6
    let reason ← byteAt 10
    return [ssid, .bytes bssid, reason]
  | 0x02 => whenSet present .wifiOnSTAConnected do
    let n ← cell 3
    let ssid ← nameAt 14 n.toNat
    let bssid ← cells 4 6
    let (channel, _) ← fourAt 10
    return [ssid, .bytes bssid, .number channel.toNat]
  | 0x03 => whenSet present .wifiOnSTAAuthModeChange do
    let oldMode ← byteAt 3
    let newMode ← byteAt 4
    return [oldMode, newMode]
  | 0x04 => whenSet present .wifiOnSTADHCPtimeout do return []
  | 0x05 => whenSet present .wifiOnAPConnected do
    let mac ← cells 3 6
    let aid ← byteAt 9
    return [.bytes mac, aid]
  | 0x06 => whenSet present .wifiOnAPDisconnected do
    let mac ← cells 3 6
    let aid ← byteAt 9
    return [.bytes mac, aid]
  | 0x07 => whenSet present .wifiOnAPProbe do
    let mac ← cells 3 6
    let rssi ← wordLowAt 9
    return [.bytes mac, .number rssi.toInt32.toInt]
  | 0x08 => whenSet present .wifiScanHndl do
    let networks ← wordAt 3
    return [.number networks.toInt32.toInt]
  | _ => return none

/-- `0xABCD`. -/
def webSocketFields : Fields (Option Invocation) := do
  match ← cell 2 with
  | 0x00 => whenSet present .wssHndl do
    let len ← wordAt 5
    let bytes ← cells 9 len.toNat
    let num ← byteAt 3
    let type ← byteAt 4
    return [num, type, .bytes bytes, .number len.toNat]
  | 0x01 => whenSet present .wscHndl do
    let len ← wordAt 4
    let bytes ← cells 8 len.toNat
    let type ← byteAt 3
    return [type, .bytes bytes, .number len.toNat]
  | _ => return none

section

variable (data : Memory UInt8)

@[simp] theorem value_whenSet (slot : Slot) (args : Fields (List Datum)) :
    (whenSet present slot args).value data =
      if present slot then some (slot, args.value data) else none := by
  unfold whenSet
  split
  · rfl
  · rfl

@[simp] theorem extent_whenSet (slot : Slot) (args : Fields (List Datum)) :
    (whenSet present slot args).extent data = if present slot then args.extent data else 0 := by
  unfold whenSet
  split
  · rw [extent_bind, extent_pure, Nat.max_zero]
  · rfl

@[simp] theorem value_byteAt (i : ℕ) : (byteAt i).value data = byteArg data i := rfl

@[simp] theorem value_boolAt (i : ℕ) : (boolAt i).value data = boolArg data i := rfl

@[simp] theorem extent_byteAt (i : ℕ) : (byteAt i).extent data = i + 1 := by
  simp [byteAt]

@[simp] theorem extent_boolAt (i : ℕ) : (boolAt i).extent data = i + 1 := by
  simp [boolAt]

/-- The invocation whose handler is set. -/
def keepSet (invocation : Option Invocation) : Option Invocation :=
  invocation.filter fun i => present i.1

@[simp] theorem keepSet_some (slot : Slot) (args : List Datum) :
    keepSet present (some (slot, args)) = if present slot then some (slot, args) else none := by
  rw [keepSet, Option.filter_some]

@[simp] theorem keepSet_none : keepSet present none = none := rfl

theorem value_messageFields (len : ℕ) : (messageFields present len).value data =
    if present .mqttMessage then
      some (.mqttMessage,
        [.bytes (data.load 20 (Decode.half data 3).toNat),
          .bytes (data.load (20 + (Decode.half data 3).toNat) len), byteArg data 5, boolArg data 6,
          boolArg data 7, wordArg data 8, wordArg data 12, wordArg data 16])
    else none := by
  unfold messageFields
  simp only [value_bind, value_halfAt, value_cells, value_wordAt, value_byteAt, value_boolAt]
  split
  · rfl
  · rfl

theorem value_mqttFields (len : ℕ) :
    (mqttFields present len).value data = keepSet present (mqttInvocation data len) := by
  rw [mqttFields, value_bind, value_cell, mqttInvocation]
  split <;> simp -implicitDefEqProofs [*, value_messageFields, halfArg]

theorem value_wifiFields :
    (wifiFields present).value data = keepSet present (wifiInvocation data) := by
  rw [wifiFields, value_bind, value_cell, wifiInvocation]
  split <;> simp -implicitDefEqProofs [*, byteArg]

theorem value_webSocketFields :
    (webSocketFields present).value data = keepSet present (webSocketInvocation data) := by
  rw [webSocketFields, value_bind, value_cell, webSocketInvocation]
  split <;> simp -implicitDefEqProofs [*, wordArg]

end

end Handlers

/-! ## The switch on the header -/

/-- A UDP packet over the members it replaces. -/
structure Datagram where
  length : UInt16
  members : Packet → Packet

/-- `0xCFCF`. -/
def udpFields : Fields (Option Datagram) := do
  if (← cell 2) = 0 then
    let broadcast ← cell 3
    let multicast ← cell 4
    let remote ← fourAt 5
    let remotePort ← halfAt 9
    let local' ← fourAt 11
    let localPort ← halfAt 15
    let length ← halfAt 17
    let bytes ← cells 19 length.toNat
    return some ⟨length, fun p =>
      { isBroadcast := broadcast ≠ 0
        isMulticast := multicast ≠ 0
        remoteIP := ⟨remote.1, remote.2.1, remote.2.2.1, remote.2.2.2⟩
        remotePort := remotePort
        localIP := ⟨local'.1, local'.2.1, local'.2.2.1, local'.2.2.2⟩
        localPort := localPort
        length := length
        data := p.data.store 0 bytes }⟩
  else return none

/-- `0x7373`: with debug output on, the topics resubscribed to are printed. -/
def resubscribeFields (debug : Bool) : Fields UInt8 := do
  let online ← cell 2
  if debug ∧ online ≠ 0 then
    let id ← halfAt 3
    if id ≠ 0 then
      let n ← cell 5
      let _ ← cells 6 n.toNat
      return online
    else return online
  else return online

/-- What a frame makes the library do. -/
inductive Action
  /-- Copy a reply to `storage_buffer`. -/
  | reply (bytes : List UInt8)
  /-- Take the time of a probe's answer. -/
  | latency
  /-- Push the frame on the queue. -/
  | queue
  /-- Call a handler. -/
  | dispatch (invocation : Option Invocation)
  /-- Set the members of the UDP packet and call its handler. -/
  | udp (datagram : Option Datagram)
  /-- Set a member. -/
  | status (header : UInt16) (value : UInt8)
  /-- The ESP was restarted. -/
  | restart
  /-- Print a frame that is not known. -/
  | print

/-- The fields of an asynchronous frame. -/
def asyncFields (present : Slot → Bool) (header : UInt16) (len : ℕ) : Fields Action := do
  if header = 0xCFCF then
    let datagram ← udpFields
    return .udp datagram
  else if header = 0xAFAF then
    let invocation ← mqttFields present len
    return .dispatch invocation
  else if header = 0xABAB then
    let invocation ← wifiFields present
    return .dispatch invocation
  else
    -- only `0xABCD` is left
    let invocation ← webSocketFields present
    return .dispatch invocation

/-- The fields of a frame: `pending` is `_pendingData`, and `debug` is `_debug_flag`. -/
def frameFields (debug pending : Bool) (present : Slot → Bool) (len : ℕ) : Fields Action := do
  let header ← halfAt 0
  if header = 0xAA55 then
    let bytes ← cells 0 (len - 1)
    return .reply bytes
  else if header = 0x7F7F then return .latency
  else if header ∈ asyncHeaders then
    if pending then return .queue else asyncFields present header len
  else if header = 0x7373 then
    let online ← resubscribeFields debug
    return .status header online
  else if header = 0x8080 then return .restart
  else if header ∈ statusHeaders then
    let value ← cell 2
    return .status header value
  else
    -- an unknown frame is printed as far as its checksum
    let _ ← cells 0 (len - 1)
    return .print

/-! ## The action -/

/-- Set the member of a status frame. -/
def setStatus (header : UInt16) (value : UInt8) (w : World) : World :=
  match header with
  | 0x7272 =>
    -- `WL_DISCONNECTED`
    if value = 6 then
      { w with wifiStatus := value, mqttOnlineFlag := false, clientOnlineFlag := false }
    else { w with wifiStatus := value }
  | 0x7474 => { w with mqttOnlineFlag := value ≠ 0 }
  | 0x7575 => { w with clientOnlineFlag := value ≠ 0 }
  | 0x7676 => { w with mqttServerSync := value ≠ 0 }
  | 0x7777 => { w with mqttClientSync := value ≠ 0 }
  | 0x7373 => { w with mqttOnlineFlag := value ≠ 0 }
  | _ => w

/-- Copy a reply to `storage_buffer`. -/
def putReply (len : ℕ) (bytes : List UInt8) : Prog Unit :=
  -- the terminator is written behind the reply, and `len - 1` must not wrap
  if len = 0 ∨ 512 < len then throw .undefined
  else do
    log (.reply bytes)
    modify fun w =>
      { w with
        storageBuffer := if len = 1 then w.storageBuffer else w.storageBuffer.store 0 (bytes ++ [0])
        dataReadyFlag := true }

/-- Call a handler that was found to be set, unless its argument was overrun. -/
def callHandler (user : Prog Unit) (invocation : Option Invocation) : Prog Unit :=
  match invocation with
  | some (slot, args) =>
    if slot = .wifiOnSTAConnected then throw .undefined
    else do
      log (.handler slot args)
      user
  | none => pure ()

/-- Set the members of the UDP packet and call its handler. -/
def putDatagram (user : Prog Unit) (datagram : Option Datagram) : Prog Unit :=
  match datagram with
  | some d =>
    if 256 < d.length.toNat then throw .undefined
    else do
      modify fun w => { w with packet := d.members w.packet }
      invoke user .udpHandler []
  | none => pure ()

/-- The frame goes to its handler. -/
def logDispatch (src : Source) (len : ℕ) : Prog Unit := do
  let w ← get
  log (.dispatched src.queued ((w.dataAt src).load 0 len))

/-- Perform the action of a frame.  The frame itself is only looked at to be queued. -/
def perform (user : Prog Unit) (src : Source) (len : ℕ) : Action → Prog Unit
  | .reply bytes => putReply len bytes
  | .latency => latencyFrame 0x7F7F
  | .queue => queueFrame src len
  | .dispatch invocation => do
    logDispatch src len
    callHandler user invocation
  | .udp datagram => do
    logDispatch src len
    putDatagram user datagram
  | .status header value => modify (setStatus header value)
  | .restart => pure ()
  | .print => if len = 0 then throw .hang else pure ()

/-! ## The switch performs the action -/

section Switch

variable {user : Prog Unit} {src : Source} {len : ℕ} {w : World}

theorem setStatus_dataAt (src : Source) (w : World) :
    setStatus (headerOf (w.dataAt src)) (w.dataAt src 2) w = statusFrame src w := rfl

/-- The first two bytes are the header. -/
theorem headerOf_dataAt {header : UInt16} (h : w.header? src = some header) :
    Decode.half (w.dataAt src) 0 = header := by
  match src, h with
  | .uart (high :: low :: _), h => exact Option.some.inj h
  | .row _, h => exact Option.some.inj h

theorem invoke_run (slot : Slot) (args : List Datum) :
    (invoke user slot args).run w =
      (callHandler user (keepSet w.handlers.present (some (slot, args)))).run w := by
  unfold invoke
  rw [keepSet_some, EStateM.run_bind, EStateM.run_get]
  simp only
  split
  · rfl
  · rfl

/-- An invocation is called when its handler is set. -/
theorem invoke_elim_run (invocation : Option Invocation) :
    (match invocation with
      | some (slot, args) => invoke user slot args
      | none => pure ()).run w =
      (callHandler user (keepSet w.handlers.present invocation)).run w := by
  cases invocation with
  | none => rfl
  | some i => exact invoke_run i.1 i.2

theorem value_udpFields (data : Memory UInt8) : udpFields.value data =
    if data 2 = 0 then some ⟨Decode.half data 17, packetOf data⟩ else none := by
  unfold udpFields
  simp -implicitDefEqProofs only [value_bind, value_cell]
  split
  · simp -implicitDefEqProofs only [value_bind, value_cell, value_fourAt, value_halfAt,
      value_cells, value_pure]
    rfl
  · rfl

theorem dispatchUdp_run : (dispatchUdp user src).run w =
    (putDatagram user (udpFields.value (w.dataAt src))).run w := by
  unfold dispatchUdp
  rw [EStateM.run_bind, EStateM.run_get, value_udpFields]
  simp only
  by_cases hkind : w.dataAt src 2 = 0
  · rw [if_pos hkind, if_pos hkind, putDatagram]
    split
    · rfl
    · rfl
  · rw [if_neg hkind, if_neg hkind]
    rfl

/-- An asynchronous frame goes to its handler. -/
theorem dispatch_run {header : UInt16} (h : headerOf (w.dataAt src) = header) :
    (dispatch user src len).run w = (perform user src len
      ((asyncFields w.handlers.present header len).value (w.dataAt src))).run w := by
  let w₁ : World := { w with
    trace := w.trace ++ [.dispatched src.queued ((w.dataAt src).load 0 len)] }
  have hdata : w₁.dataAt src = w.dataAt src := by
    cases src with
    | uart payload => rfl
    | row address => rfl
  unfold dispatch asyncFields
  rw [EStateM.run_bind, EStateM.run_get]
  simp only
  rw [EStateM.run_bind, run_log, h]
  simp only
  -- the four headers in the order of the switch
  change _ = _
  by_cases hudp : header = 0xCFCF
  · rw [if_pos hudp, if_pos hudp, value_bind, value_pure]
    refine (dispatchUdp_run (w := w₁)).trans ?_
    rw [hdata]
    rfl
  · rw [if_neg hudp, if_neg hudp]
    by_cases hmqtt : header = 0xAFAF
    · rw [if_pos hmqtt, if_pos hmqtt, value_bind, value_pure, value_mqttFields]
      exact invoke_elim_run (w := w₁) _
    · rw [if_neg hmqtt, if_neg hmqtt]
      by_cases hwifi : header = 0xABAB
      · rw [if_pos hwifi, if_pos hwifi, value_bind, value_pure, value_wifiFields]
        exact invoke_elim_run (w := w₁) _
      · rw [if_neg hwifi, if_neg hwifi, value_bind, value_pure, value_webSocketFields]
        exact invoke_elim_run (w := w₁) _

theorem value_resubscribeFields (debug : Bool) (data : Memory UInt8) :
    (resubscribeFields debug).value data = data 2 := by
  unfold resubscribeFields
  rw [value_bind, value_cell]
  split
  · rw [value_bind]
    split
    · rfl
    · rfl
  · rfl

theorem storeReply_run_putReply : (storeReply src len).run w =
    (putReply len ((w.dataAt src).load 0 (len - 1))).run w := by
  unfold storeReply putReply
  rw [EStateM.run_bind, EStateM.run_get]

/-- **The switch performs the action** read from the frame. -/
theorem switchHeader_run (debug : Bool) {header : UInt16} (h : w.header? src = some header) :
    (switchHeader user src len).run w = (perform user src len
      ((frameFields debug w.pendingData w.handlers.present len).value (w.dataAt src))).run w := by
  have hread : (readHeader src).run w = .ok header w := by
    unfold readHeader
    rw [EStateM.run_bind, EStateM.run_get]
    simp only [h]
    rfl
  have hheader := headerOf_dataAt h
  unfold switchHeader frameFields
  rw [EStateM.run_bind, hread, value_bind, value_halfAt, hheader]
  simp only
  -- one case of the switch after the other
  by_cases hreply : header = 0xAA55
  · rw [if_pos hreply, if_pos hreply]
    exact storeReply_run_putReply
  rw [if_neg hreply, if_neg hreply]
  by_cases hlatency : header = 0x7F7F
  · rw [if_pos hlatency, if_pos hlatency]
    rw [hlatency]
    rfl
  rw [if_neg hlatency, if_neg hlatency]
  by_cases hasync : header ∈ asyncHeaders
  · rw [if_pos hasync, if_pos hasync, asyncFrame, EStateM.run_bind, EStateM.run_get]
    simp only
    by_cases hpending : w.pendingData = true
    · rw [if_pos hpending, if_pos hpending]
      rfl
    · rw [if_neg hpending, if_neg hpending]
      exact dispatch_run hheader
  rw [if_neg hasync, if_neg hasync]
  -- what is left sets a member or is not known
  have hset : statusFrame src w = setStatus header (w.dataAt src 2) w :=
    hheader ▸ (setStatus_dataAt src w).symm
  have hstatus : (modify (statusFrame src) : Prog Unit).run w =
      .ok () (setStatus header (w.dataAt src 2) w) :=
    congrArg (EStateM.Result.ok ()) hset
  by_cases hresubscribe : header = 0x7373
  · have hmem : header ∈ statusHeaders := by
      rw [hresubscribe]
      decide
    rw [if_pos hmem, if_pos hresubscribe, hstatus, value_bind, value_resubscribeFields]
    rfl
  rw [if_neg hresubscribe]
  by_cases hrestart : header = 0x8080
  · have hmem : header ∈ statusHeaders := by
      rw [hrestart]
      decide
    rw [if_pos hmem, if_pos hrestart, hstatus, hrestart]
    rfl
  rw [if_neg hrestart]
  by_cases hmem : header ∈ statusHeaders
  · rw [if_pos hmem, if_pos hmem, hstatus]
    rfl
  · rw [if_neg hmem, if_neg hmem]
    rfl

end Switch

/-! ## How far the fields reach -/

section Needed

variable (present : Slot → Bool) (data : Memory UInt8)

/-- The length a field calls for when its handler is set; the sub-code is read in any case. -/
def neededBy (slot : Slot) (n : ℕ) : ℕ := if present slot then n else 3

/-- The length an MQTT frame calls for.  That of a message is more than the length of the frame. -/
def mqttNeeded (len : ℕ) : ℕ :=
  match data 2 with
  | 0x00 => neededBy present .mqttConnect 4
  | 0x01 => neededBy present .mqttDisconnect 4
  | 0x02 => neededBy present .mqttSub 6
  | 0x03 => neededBy present .mqttUnsub 5
  | 0x04 => neededBy present .mqttPub 5
  | 0x05 => 20 + (Decode.half data 3).toNat + len
  | _ => 3

/-- The length a WiFi frame calls for. -/
def wifiNeeded : ℕ :=
  match data 2 with
  | 0x00 => neededBy present .wifiOnSTAgotIP 15
  | 0x01 => neededBy present .wifiOnSTADisconnect (11 + (data 3).toNat)
  | 0x02 => neededBy present .wifiOnSTAConnected (14 + (data 3).toNat)
  | 0x03 => neededBy present .wifiOnSTAAuthModeChange 5
  | 0x04 => neededBy present .wifiOnSTADHCPtimeout 3
  | 0x05 => neededBy present .wifiOnAPConnected 10
  | 0x06 => neededBy present .wifiOnAPDisconnected 10
  | 0x07 => neededBy present .wifiOnAPProbe 13
  | 0x08 => neededBy present .wifiScanHndl 7
  | _ => 3

/-- The length a web socket frame calls for. -/
def webSocketNeeded : ℕ :=
  match data 2 with
  | 0x00 => neededBy present .wssHndl (9 + (Decode.word data 5).toNat)
  | 0x01 => neededBy present .wscHndl (8 + (Decode.word data 4).toNat)
  | _ => 3

/-- The length a UDP frame calls for. -/
def udpNeeded : ℕ := if data 2 = 0 then 19 + (Decode.half data 17).toNat else 3

/-- The length the frame of a resubscription calls for. -/
def resubscribeNeeded (debug : Bool) : ℕ :=
  if debug ∧ data 2 ≠ 0 then
    if Decode.half data 3 ≠ 0 then 6 + (data 5).toNat else 5
  else 3

/-- The length an asynchronous frame calls for. -/
def asyncNeeded (header : UInt16) (len : ℕ) : ℕ :=
  if header = 0xCFCF then udpNeeded data
  else if header = 0xAFAF then mqttNeeded present data len
  else if header = 0xABAB then wifiNeeded present data
  else webSocketNeeded present data

/-- The length that a frame calls for, without its checksum. -/
def neededLength (debug pending : Bool) (len : ℕ) : ℕ :=
  let header := headerOf data
  if header = 0xAA55 then max 2 (len - 1)
  else if header = 0x7F7F then 2
  else if header ∈ asyncHeaders then
    if pending then 2 else asyncNeeded present data header len
  else if header = 0x7373 then resubscribeNeeded data debug
  else if header = 0x8080 then 2
  else if header ∈ statusHeaders then 3
  else max 2 (len - 1)

theorem extent_messageFields (len : ℕ) :
    (messageFields present len).extent data = 20 + (Decode.half data 3).toNat + len := by
  simp -implicitDefEqProofs only [messageFields, extent_bind, extent_halfAt, extent_cells,
    extent_wordAt, extent_byteAt, extent_boolAt, extent_ite, extent_pure, value_halfAt]
  split_ifs <;> omega

/-- A field whose handler is set lies behind the sub-code. -/
theorem max_extent_whenSet (slot : Slot) {args : Fields (List Datum)} {n : ℕ}
    (h : max 3 (args.extent data) = n) :
    max 3 ((whenSet present slot args).extent data) = neededBy present slot n := by
  rw [extent_whenSet, neededBy]
  split
  · exact h
  · rfl

theorem extent_mqttFields (len : ℕ) :
    (mqttFields present len).extent data = mqttNeeded present data len := by
  rw [mqttFields, extent_bind, extent_cell, value_cell, mqttNeeded]
  split
  -- a message, whatever its handler
  case h_6 =>
    rw [extent_messageFields]
    omega
  case h_7 => rfl
  -- the other sub-codes read their fields when the handler is set
  all_goals
    refine max_extent_whenSet present data _ ?_
    simp -implicitDefEqProofs

theorem extent_wifiFields : (wifiFields present).extent data = wifiNeeded present data := by
  rw [wifiFields, extent_bind, extent_cell, value_cell, wifiNeeded]
  split
  case h_10 => rfl
  all_goals
    refine max_extent_whenSet present data _ ?_
    simp -implicitDefEqProofs
  -- the two names
  all_goals split_ifs <;> omega

theorem extent_webSocketFields :
    (webSocketFields present).extent data = webSocketNeeded present data := by
  rw [webSocketFields, extent_bind, extent_cell, value_cell, webSocketNeeded]
  split
  case h_3 => rfl
  all_goals
    refine max_extent_whenSet present data _ ?_
    simp -implicitDefEqProofs
    split_ifs <;> omega

theorem extent_udpFields : udpFields.extent data = udpNeeded data := by
  rw [udpFields, extent_bind, extent_cell, value_cell, udpNeeded]
  split
  · simp -implicitDefEqProofs only [extent_bind, extent_cell, extent_fourAt, extent_halfAt,
      extent_cells, extent_pure, value_halfAt]
    split_ifs <;> omega
  · rfl

theorem extent_resubscribeFields (debug : Bool) :
    (resubscribeFields debug).extent data = resubscribeNeeded data debug := by
  rw [resubscribeFields, extent_bind, extent_cell, value_cell, resubscribeNeeded]
  split
  · rw [extent_bind, value_halfAt, extent_halfAt]
    split
    · simp -implicitDefEqProofs only [extent_bind, extent_cell, extent_cells, extent_pure,
        value_cell]
      split_ifs <;> omega
    · rfl
  · rfl

theorem extent_asyncFields (header : UInt16) (len : ℕ) :
    (asyncFields present header len).extent data = asyncNeeded present data header len := by
  unfold asyncFields asyncNeeded
  split
  · rw [extent_bind, extent_pure, Nat.max_zero, extent_udpFields]
  · split
    · rw [extent_bind, extent_pure, Nat.max_zero, extent_mqttFields]
    · split
      · rw [extent_bind, extent_pure, Nat.max_zero, extent_wifiFields]
      · rw [extent_bind, extent_pure, Nat.max_zero, extent_webSocketFields]

/-- Whatever follows, a cell that is read is counted. -/
theorem lt_extent_cell_bind {α : Type} (i : ℕ) (f : UInt8 → Fields α) :
    i < (cell i >>= f).extent data := by
  rw [extent_bind, extent_cell]
  exact Nat.le_max_left _ _

theorem two_le_asyncNeeded (header : UInt16) (len : ℕ) :
    2 ≤ asyncNeeded present data header len := by
  unfold asyncNeeded
  split_ifs
  · exact extent_udpFields data ▸ (lt_extent_cell_bind data 2 _).le
  · exact extent_mqttFields present data len ▸ (lt_extent_cell_bind data 2 _).le
  · exact extent_wifiFields present data ▸ (lt_extent_cell_bind data 2 _).le
  · exact extent_webSocketFields present data ▸ (lt_extent_cell_bind data 2 _).le

/-- **What is read of a frame** ends at the length it calls for. -/
theorem extent_frameFields (debug pending : Bool) (len : ℕ) :
    (frameFields debug pending present len).extent data =
      neededLength present data debug pending len := by
  have hcopy : (cells 0 (len - 1) : Fields _).extent data = len - 1 := by
    rw [extent_cells]
    split <;> omega
  have hresubscribe : 2 ≤ resubscribeNeeded data debug :=
    extent_resubscribeFields data debug ▸ (lt_extent_cell_bind data 2 _).le
  have hheader : Decode.half data 0 = headerOf data := rfl
  rw [frameFields, extent_bind, extent_halfAt, value_halfAt, hheader, neededLength]
  simp only [Nat.zero_add, extent_ite, extent_bind, extent_pure, extent_cell, hcopy,
    extent_asyncFields, extent_resubscribeFields, Nat.max_zero]
  -- the two bytes of the header are read in every case
  split_ifs
  · rfl
  · rfl
  · rfl
  · exact Nat.max_eq_right (two_le_asyncNeeded present data _ len)
  · exact Nat.max_eq_right hresubscribe
  · rfl
  · rfl
  · rfl

end Needed

end Teensquitto
