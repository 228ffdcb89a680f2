import Teensquitto.Device.World

/-!
# `processing_data`

A frame refreshes the detection timer, may bring the library online, and is then switched
on its header: replies are stored, status frames set a member, asynchronous frames are
queued while a request is pending and else dispatched to their handler.

## Main definitions

* `World.dataAt`: the bytes `data` points to
* `mqttInvocation`, `wifiInvocation`, `webSocketInvocation`: the handler an asynchronous frame
  calls, and its arguments
* `processingData`: the function, over the code of the user's handlers
-/

namespace Teensquitto

/-- The bytes behind the pointer `data`: in the local buffer and the memory behind it, or
in the rows of the queue. -/
def World.dataAt (w : World) : Source → Memory UInt8
  | .uart payload => fun i => (payload[i]?).getD (w.stray w.clock i)
  | .row address => fun i => w.queue.cabuf (address + i)

/-- The local buffer holds the payload. -/
theorem World.load_dataAt_uart (w : World) (payload : List UInt8) :
    (w.dataAt (.uart payload)).load 0 payload.length = payload := by
  refine List.ext_getElem (Memory.length_load _ _ _) fun i h _ => ?_
  rw [Memory.length_load] at h
  rw [Memory.getElem_load]
  exact congrArg (fun x : Option UInt8 => x.getD (w.stray w.clock (0 + i)))
    ((congrArg (payload[·]?) (Nat.zero_add i)).trans (List.getElem?_eq_getElem h))

/-- The first two bytes as a number. -/
def headerOf (data : Memory UInt8) : UInt16 := Bytes.join (data 0) (data 1)

/-- The header that `data` starts with.  A frame of fewer than two bytes ends before it, and
reading it is undefined; a row of the queue has always room for it. -/
def World.header? (w : World) : Source → Option UInt16
  | .uart (high :: low :: _) => some (Bytes.join high low)
  | .uart _ => none
  | .row address => some (Bytes.join (w.queue.cabuf address) (w.queue.cabuf (address + 1)))

/-- `((uint16_t)(data[0] << 8) | data[1])`. -/
def readHeader (src : Source) : Prog UInt16 := do
  let w ← get
  match w.header? src with
  | some header => return header
  | none => throw .undefined

/-- The headers of the asynchronous frames: MQTT, WiFi, UDP and web socket events. -/
def asyncHeaders : List UInt16 := [0xAFAF, 0xABAB, 0xCFCF, 0xABCD]

/-! ## Handler arguments -/

section Arguments

variable (data : Memory UInt8)

/-- A byte argument. -/
def byteArg (i : ℕ) : Datum := .number (data i).toNat

/-- A 16-bit argument, high byte first. -/
def halfArg (i : ℕ) : Datum := .number (Decode.half data i).toNat

/-- A 32-bit argument, high byte first. -/
def wordArg (i : ℕ) : Datum := .number (Decode.word data i).toNat

/-- A `bool` argument. -/
def boolArg (i : ℕ) : Datum := .number (if data i = 0 then 0 else 1)

/-- An address argument. -/
def addressArg (i : ℕ) : Datum :=
  .address (data i) (data (i + 1)) (data (i + 2)) (data (i + 3))

/-- The MQTT handler that the frame calls. -/
def mqttInvocation (len : ℕ) : Option (Slot × List Datum) :=
  match data 2 with
  | 0x00 => some (.mqttConnect, [boolArg data 3])
  | 0x01 => some (.mqttDisconnect, [.number (data 3).toInt8.toInt])
  | 0x02 => some (.mqttSub, [halfArg data 4, byteArg data 3])
  | 0x03 => some (.mqttUnsub, [halfArg data 3])
  | 0x04 => some (.mqttPub, [halfArg data 3])
  | 0x05 =>
    let topic := (Decode.half data 3).toNat
    -- the payload is copied with the length of the whole frame
    some (.mqttMessage,
      [.bytes (data.load 20 topic), .bytes (data.load (20 + topic) len), byteArg data 5,
        boolArg data 6, boolArg data 7, wordArg data 8, wordArg data 12, wordArg data 16])
  | _ => none

/-- The WiFi handler that the frame calls. -/
def wifiInvocation : Option (Slot × List Datum) :=
  match data 2 with
  | 0x00 => some (.wifiOnSTAgotIP, [addressArg data 3, addressArg data 7, addressArg data 11])
  | 0x01 =>
    some (.wifiOnSTADisconnect,
      [Decode.string data 11 (data 3).toNat, .bytes (data.load 4 6), byteArg data 10])
  | 0x02 =>
    some (.wifiOnSTAConnected,
      [Decode.string data 14 (data 3).toNat, .bytes (data.load 4 6), byteArg data 10])
  | 0x03 => some (.wifiOnSTAAuthModeChange, [byteArg data 3, byteArg data 4])
  | 0x04 => some (.wifiOnSTADHCPtimeout, [])
  | 0x05 => some (.wifiOnAPConnected, [.bytes (data.load 3 6), byteArg data 9])
  | 0x06 => some (.wifiOnAPDisconnected, [.bytes (data.load 3 6), byteArg data 9])
  | 0x07 =>
    some (.wifiOnAPProbe,
      [.bytes (data.load 3 6), .number (Decode.wordLow data 9).toInt32.toInt])
  | 0x08 => some (.wifiScanHndl, [.number (Decode.word data 3).toInt32.toInt])
  | _ => none

/-- The web socket handler that the frame calls. -/
def webSocketInvocation : Option (Slot × List Datum) :=
  match data 2 with
  | 0x00 =>
    some (.wssHndl, [byteArg data 3, byteArg data 4,
      .bytes (data.load 9 (Decode.word data 5).toNat), wordArg data 5])
  | 0x01 =>
    some (.wscHndl, [byteArg data 3,
      .bytes (data.load 8 (Decode.word data 4).toNat), wordArg data 4])
  | _ => none

/-- The packet a UDP frame describes, over the packet before. -/
def packetOf (p : Packet) : Packet where
  isBroadcast := data 3 ≠ 0
  isMulticast := data 4 ≠ 0
  remoteIP := ⟨data 5, data 6, data 7, data 8⟩
  remotePort := Decode.half data 9
  localIP := ⟨data 11, data 12, data 13, data 14⟩
  localPort := Decode.half data 15
  length := Decode.half data 17
  data := p.data.store 0 (data.load 19 (Decode.half data 17).toNat)

end Arguments

/-! ## The function -/

/-- Call a handler that is set.  The argument of `wifi_onSTAConnected` ends in a channel of one
byte, over which four are copied. -/
def invoke (user : Prog Unit) (slot : Slot) (args : List Datum) : Prog Unit := do
  let w ← get
  if w.handlers.present slot then
    if slot = .wifiOnSTAConnected then throw .undefined
    else
      log (.handler slot args)
      user

/-- Dispatch a UDP frame: `AsyncUDPPacket::_data` has 256 bytes. -/
def dispatchUdp (user : Prog Unit) (src : Source) : Prog Unit := do
  let w ← get
  if w.dataAt src 2 = 0 then
    if 256 < (Decode.half (w.dataAt src) 17).toNat then throw .undefined
    else
      modify fun w => { w with packet := packetOf (w.dataAt src) w.packet }
      invoke user .udpHandler []

/-- Dispatch an asynchronous frame to its handler. -/
def dispatch (user : Prog Unit) (src : Source) (len : ℕ) : Prog Unit := do
  let w ← get
  log (.dispatched src.queued ((w.dataAt src).load 0 len))
  if headerOf (w.dataAt src) = 0xCFCF then dispatchUdp user src
  else
    let invocation :=
      if headerOf (w.dataAt src) = 0xAFAF then mqttInvocation (w.dataAt src) len
      else if headerOf (w.dataAt src) = 0xABAB then wifiInvocation (w.dataAt src)
      else webSocketInvocation (w.dataAt src)
    match invocation with
    | some (slot, args) => invoke user slot args
    | none => return

/-- `teensquitto_queue.push_back(data, len)`, inside the array. -/
def queueFrame (src : Source) (len : ℕ) : Prog Unit := do
  let w ← get
  if 16 * 302 < w.queue.row w.queue.tail + 2 + len then throw .undefined
  else
    let bytes := (w.dataAt src).load 0 len
    log (.queued bytes w.queue.available.toNat)
    modify fun w => { w with queue := w.queue.pushBack bytes }

/-- An asynchronous frame is queued while a request is pending. -/
def asyncFrame (user : Prog Unit) (src : Source) (len : ℕ) : Prog Unit := do
  let w ← get
  if w.pendingData then queueFrame src len else dispatch user src len

/-- A reply: all bytes but the last go to `storage_buffer`, followed by a zero. -/
def storeReply (src : Source) (len : ℕ) : Prog Unit := do
  let w ← get
  if len = 0 ∨ 512 < len then throw .undefined
  else
    let bytes := (w.dataAt src).load 0 (len - 1)
    log (.reply bytes)
    modify fun w =>
      { w with
        storageBuffer := if len = 1 then w.storageBuffer else w.storageBuffer.store 0 (bytes ++ [0])
        dataReadyFlag := true }

/-- A status frame: one member is set. -/
def statusFrame (src : Source) (w : World) : World :=
  let data := w.dataAt src
  match headerOf data with
  | 0x7272 =>
    if data 2 = 6 then
      { w with wifiStatus := data 2, mqttOnlineFlag := false, clientOnlineFlag := false }
    else { w with wifiStatus := data 2 }
  | 0x7474 => { w with mqttOnlineFlag := data 2 ≠ 0 }
  | 0x7575 => { w with clientOnlineFlag := data 2 ≠ 0 }
  | 0x7676 => { w with mqttServerSync := data 2 ≠ 0 }
  | 0x7777 => { w with mqttClientSync := data 2 ≠ 0 }
  | 0x7373 => { w with mqttOnlineFlag := data 2 ≠ 0 }
  | _ => w

/-- The answer to a probe: the mean of the last round trip and the estimate before. -/
def latencyFrame (header : UInt16) : Prog Unit := do
  let now ← millis
  let w ← get
  logSync (.answer header w.clock)
  modify fun w =>
    { w with espLatency := (((now - w.espCheckLatency) + w.espLatency.toUInt32) / 2).toUInt16 }

/-- The headers of the frames that set a member or only restart the detection. -/
def statusHeaders : List UInt16 := [0x7272, 0x7474, 0x7575, 0x7676, 0x7777, 0x7373, 0x8080]

/-- The switch on the header. -/
def switchHeader (user : Prog Unit) (src : Source) (len : ℕ) : Prog Unit := do
  let header ← readHeader src
  if header = 0xAA55 then storeReply src len
  else if header = 0x7F7F then latencyFrame header
  else if header ∈ asyncHeaders then asyncFrame user src len
  else if header ∈ statusHeaders then modify (statusFrame src)
  -- the bytes of any other frame are printed, all but the last: an empty one never ends
  else if len = 0 then throw .hang

/-- Set `_esp_detected` and call the `onDetect` handler. -/
def bringOnline (user : Prog Unit) : Prog Unit := do
  log .detected
  modify fun w => { w with espDetected := true }
  delay 1000
  invoke user .espDetectHandler []

/-- A frame while offline, or the frame of a restarted ESP, brings the library online and
calls the `onDetect` handler. -/
def detection (user : Prog Unit) (src : Source) : Prog Unit := do
  let w ← get
  if w.espDetected then
    let header ← readHeader src
    if header = 0x8080 then bringOnline user
  else bringOnline user

/-- Refresh the detection timer. -/
def refresh (src : Source) (len : ℕ) : Prog Unit := do
  let now ← millis
  let w ← get
  log (.processing src.queued ((w.dataAt src).load 0 len) w.pendingData w.espDetected
    w.queue.available.toNat w.clock)
  modify fun w => { w with espSyncTimeout := now }

/-- `processing_data(data, len)`. -/
def processingData (user : Prog Unit) (src : Source) (len : ℕ) : Prog Unit := do
  refresh src len
  detection user src
  switchHeader user src len

end Teensquitto
