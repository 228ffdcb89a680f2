import Teensquitto.Method.Basic

/-!
# The methods of the objects

Each object has the blocks of its methods under the names and the values of the source:
the ESP and its EEPROM, MQTT and web sockets, the wireless network, the sockets, and the
files and streams.

## Main definitions

* `EspCall.method`
* `MqttCall.method`, `WebSocketCall.method`
* `WiFiCall.method`, `AccessPointCall.method`
* `UdpCall.method`, `ClientCall.method`, `AsyncUdpCall.method`
* `SpiffsCall.method`, `StreamCall.method`
* `connectResultExchange`, `formatExchange`, `fileRead`: the requests of single methods
-/

namespace Teensquitto

/-! ## The ESP and its EEPROM -/

/-- The methods of an `ESP` object and of `EEPROM`. -/
inductive EspCall
  | reset
  | restart
  | wdtEnable (timeout_ms : UInt32)
  | wdtDisable
  | wdtFeed
  | deepSleep (time_us : UInt32) (mode : UInt8)
  | rtcUserMemoryRead (offset : UInt32) (rtcdata : List UInt32)
  | rtcUserMemoryWrite (offset : UInt32) (rtcdata : List UInt32)
  | getVcc
  | getFreeHeap
  | getChipId
  | getBootVersion
  | getBootMode
  | getCpuFreqMHz
  | getFlashChipId
  | getCoreVersion
  | getSdkVersion
  | getFlashChipRealSize
  | getFlashChipSize
  | getFlashChipSpeed
  | getFlashChipMode
  | getFlashChipSizeByChipId
  | magicFlashChipSize (byte : UInt8)
  | magicFlashChipSpeed (byte : UInt8)
  | magicFlashChipMode (byte : UInt8)
  | checkFlashConfig (needsEquals : Bool)
  | flashEraseSector (sector : UInt32)
  | getSketchSize
  | getSketchMD5
  | getFreeSketchSpace
  | getResetReason
  | getResetInfo
  | eraseConfig
  | getCycleCount
  | commit
  | readEEPROM (address : UInt32)
  | writeEEPROM (address : UInt32) (val : UInt8)

/-- The blocks of each method. -/
def EspCall.method (o : Object) : EspCall → Method
  | .reset =>
    .guarded .nothing
      [.tell (o.esp != 255)
         { size := 7, indexBits := 8, header := (0xA4, 0xA4), opcode := 0x00 }]
  | .restart =>
    .guarded .nothing
      [.tell (o.esp != 255)
         { size := 7, indexBits := 8, header := (0xA4, 0xA4), opcode := 0x01 }]
  | .wdtEnable timeout_ms =>
    .guarded .nothing
      [.tell (o.esp != 255)
         { size := 11, indexBits := 8, header := (0xA4, 0xA4), opcode := 0x02
           args := Arg.word timeout_ms }]
  | .wdtDisable =>
    .guarded .nothing
      [.tell (o.esp != 255)
         { size := 7, indexBits := 8, header := (0xA4, 0xA4), opcode := 0x03 }]
  | .wdtFeed =>
    .guarded .nothing
      [.tell (o.esp != 255)
         { size := 7, indexBits := 8, header := (0xA4, 0xA4), opcode := 0x04 }]
  | .deepSleep time_us mode =>
    .guarded .nothing
      [.tell (o.esp != 255)
         { size := 12, indexBits := 8, header := (0xA4, 0xA4), opcode := 0x05
           args := Arg.word time_us ++ [.byte mode] }]
  | .rtcUserMemoryRead offset rtcdata =>
    -- `return 0` stands directly behind the write
    .guarded .zero
      [.send (o.esp != 255)
         { size := 15 + 4 * rtcdata.length, indexBits := 32, header := (0xA4, 0xA4), opcode := 0x06
           args := Arg.word offset ++ Arg.word (UInt32.ofNat rtcdata.length)
           body := rtcdata.flatMap Bytes.word
           size_eq := by rw [Bytes.length_flatMap_word]; simp [Arg.word]; omega } (some .zero)]
  | .rtcUserMemoryWrite offset rtcdata =>
    -- `return 0` stands directly behind the write
    .guarded .zero
      [.send (o.esp != 255)
         { size := 15 + 4 * rtcdata.length, indexBits := 32, header := (0xA4, 0xA4), opcode := 0x07
           args := Arg.word offset ++ Arg.word (UInt32.ofNat rtcdata.length)
           body := rtcdata.flatMap Bytes.word
           size_eq := by rw [Bytes.length_flatMap_word]; simp [Arg.word]; omega } (some .zero)]
  | .getVcc =>
    .guarded .zero
      [.ask (o.esp != 255) 1000 .zero Decode.uint16
         { size := 7, header := (0xA4, 0xA4), opcode := 0x08 }]
  | .getFreeHeap =>
    .guarded .zero
      [.ask (o.esp != 255) 1000 .zero Decode.uint32
         { size := 7, header := (0xA4, 0xA4), opcode := 0x09 }]
  | .getChipId =>
    .guarded .zero
      [.ask (o.esp != 255) 1000 .zero Decode.uint32
         { size := 7, header := (0xA4, 0xA4), opcode := 0x10 }]
  | .getBootVersion =>
    .guarded .zero
      [.ask (o.esp != 255) 1000 .zero Decode.byte
         { size := 7, header := (0xA4, 0xA4), opcode := 0x11 }]
  | .getBootMode =>
    .guarded .zero
      [.ask (o.esp != 255) 1000 .zero Decode.byte
         { size := 7, header := (0xA4, 0xA4), opcode := 0x12 }]
  | .getCpuFreqMHz =>
    .guarded .zero
      [.ask (o.esp != 255) 1000 .zero Decode.byte
         { size := 7, header := (0xA4, 0xA4), opcode := 0x13 }]
  | .getFlashChipId =>
    .guarded .zero
      [.ask (o.esp != 255) 1000 .zero Decode.uint32
         { size := 7, header := (0xA4, 0xA4), opcode := 0x14 }]
  | .getCoreVersion =>
    .guarded .emptyText
      [.ask o.spiffs 1000 .emptyText Decode.shortText
         { size := 7, indexBits := 8, header := (0xA4, 0xA4), opcode := 0x15 }]
  | .getSdkVersion =>
    ⟨some .null,
      [.ask (o.esp != 255) 1000 .emptyText Decode.dangling
         { size := 7, header := (0xA4, 0xA4), opcode := 0x16 }], .emptyText⟩
  | .getFlashChipRealSize =>
    .guarded .zero
      [.ask (o.esp != 255) 1000 .zero Decode.uint32
         { size := 7, header := (0xA4, 0xA4), opcode := 0x17 }]
  | .getFlashChipSize =>
    .guarded .zero
      [.ask (o.esp != 255) 1000 .zero Decode.uint32
         { size := 7, header := (0xA4, 0xA4), opcode := 0x18 }]
  | .getFlashChipSpeed =>
    .guarded .zero
      [.ask (o.esp != 255) 1000 .zero Decode.uint32
         { size := 7, header := (0xA4, 0xA4), opcode := 0x19 }]
  | .getFlashChipMode =>
    .guarded .zero
      [.ask (o.esp != 255) 1000 .zero Decode.byte
         { size := 7, header := (0xA4, 0xA4), opcode := 0x20 }]
  | .getFlashChipSizeByChipId =>
    .guarded .zero
      [.ask (o.esp != 255) 1000 .zero Decode.uint32
         { size := 7, header := (0xA4, 0xA4), opcode := 0x21 }]
  | .magicFlashChipSize byte =>
    .guarded .zero
      [.ask (o.esp != 255) 1000 .zero Decode.uint32
         { size := 8, header := (0xA4, 0xA4), opcode := 0x22, args := [.byte byte] }]
  | .magicFlashChipSpeed byte =>
    .guarded .zero
      [.ask (o.esp != 255) 1000 .zero Decode.uint32
         { size := 8, header := (0xA4, 0xA4), opcode := 0x23, args := [.byte byte] }]
  | .magicFlashChipMode byte =>
    .guarded .zero
      [.ask (o.esp != 255) 1000 .zero Decode.byte
         { size := 8, header := (0xA4, 0xA4), opcode := 0x24, args := [.byte byte] }]
  | .checkFlashConfig needsEquals =>
    .guarded .zero
      [.ask (o.esp != 255) 1000 .zero Decode.bool
         { size := 8, header := (0xA4, 0xA4), opcode := 0x25, args := [.byte needsEquals.toUInt8] }]
  | .flashEraseSector sector =>
    .guarded .zero
      [.ask (o.esp != 255) 1000 .zero Decode.bool
         { size := 11, header := (0xA4, 0xA4), opcode := 0x26, args := Arg.word sector }]
  | .getSketchSize =>
    .guarded .zero
      [.ask (o.esp != 255) 1000 .zero Decode.uint32
         { size := 7, header := (0xA4, 0xA4), opcode := 0x29 }]
  | .getSketchMD5 =>
    .guarded .emptyText
      [.ask o.spiffs 1000 .emptyText Decode.shortText
         { size := 7, indexBits := 8, header := (0xA4, 0xA4), opcode := 0x30 }]
  | .getFreeSketchSpace =>
    .guarded .zero
      [.ask (o.esp != 255) 1000 .zero Decode.uint32
         { size := 7, header := (0xA4, 0xA4), opcode := 0x31 }]
  | .getResetReason =>
    .guarded .emptyText
      [.ask o.spiffs 1000 .emptyText Decode.shortText
         { size := 7, indexBits := 8, header := (0xA4, 0xA4), opcode := 0x33 }]
  | .getResetInfo =>
    .guarded .emptyText
      [.ask o.spiffs 1000 .emptyText Decode.shortText
         { size := 7, indexBits := 8, header := (0xA4, 0xA4), opcode := 0x34 }]
  | .eraseConfig =>
    .guarded .zero
      [.ask (o.esp != 255) 1000 .zero Decode.bool
         { size := 7, header := (0xA4, 0xA4), opcode := 0x36 }]
  | .getCycleCount =>
    .guarded .zero
      [.ask (o.esp != 255) 1000 .zero Decode.uint32
         { size := 7, header := (0xA4, 0xA4), opcode := 0x37 }]
  | .commit =>
    .guarded .zero
      [.ask (o.espEeprom != 255) 1000 .zero Decode.bool
         { size := 7, indexBits := 8, header := (0xBB, 0xBB), opcode := 0x00 }]
  | .readEEPROM address =>
    .guarded .zero
      [.ask (o.espEeprom != 255) 1000 .zero Decode.byte
         { size := 9, indexBits := 8, header := (0xBB, 0xBB), opcode := 0x02
           args := Arg.half address.toUInt16 }]
  | .writeEEPROM address val =>
    .unguarded .nothing
      [.tell (o.espEeprom != 255)
         { size := 10, header := (0xBB, 0xBB), opcode := 0x03
           args := Arg.half address.toUInt16 ++ [.byte val] }]

/-! ## MQTT and web sockets -/

/-- `update_mqtt_handlers()`. -/
def update_mqtt_handlers (h : Handlers) : Command :=
  { size := 8, header := (0x38, 0x38), opcode := 0x17, args := [.byte h.mqttHandlers] }

/-- The payload of a text message: `length` bytes, or the characters of a C string when
the length passed is zero. -/
inductive TextArgument
  | sized (bytes : List UInt8) (nonempty : bytes ≠ [])
  | terminated (s : CString)

/-- The bytes that are sent. -/
def TextArgument.bytes : TextArgument → List UInt8
  | sized bytes _ => bytes
  | terminated s => s.bytes

/-- The methods of an MQTT object. -/
inductive MqttCall
  | subscribe (topic : CString) (qos : UInt8)
  | unsubscribe (topic : CString)
  | connect
  | publish (topic : CString) (qos : UInt8) (retain : Bool) (payload : Option CString)
      (length : UInt32) (dup : Bool) (message_id : UInt16)
  | onConnect (handler : Bool)
  | onDisconnect (handler : Bool)
  | onSubscribe (handler : Bool)
  | onUnsubscribe (handler : Bool)
  | onMessage (handler : Bool)
  | onPublish (handler : Bool)
  | setKeepAlive (keepAlive : UInt16)
  | setClientId (clientId : CString)
  | setCleanSession (cleanSession : Bool)
  | setMaxTopicLength (maxTopicLength : UInt16)
  | setCredentials (username : CString) (password : Option CString)
  | setServerHost (host : CString) (port : UInt16)
  | setServerAddress (ip : IPAddress) (port : UInt16)
  | setWill (topic : CString) (qos : UInt8) (retain : Bool) (payload : Option CString)
      (length : UInt32)

/-- The blocks of each method. -/
def MqttCall.method (o : Object) : MqttCall → Method
  | .subscribe topic qos =>
    .guarded .zero
      [.ask o.mqttSupport 1000 .zero Decode.uint16
         { size := topic.strlen + 9, header := (0x38, 0x38), opcode := 0x00
           args := [.byte qos, .strlen topic], text := [topic] }]
  | .unsubscribe topic =>
    .guarded .zero
      [.ask o.mqttSupport 1000 .zero Decode.uint16
         { size := topic.strlen + 8, header := (0x38, 0x38), opcode := 0x01
           args := [.strlen topic], text := [topic] }]
  | .connect =>
    .guarded .zero
      [.ask o.mqttSupport 1000 .zero Decode.bool
         { size := 7, header := (0x38, 0x38), opcode := 0x03 }]
  | .publish topic qos retain none _ _ _ =>
    .guarded .zero
      [.ask o.mqttSupport 1000 .zero Decode.uint16
         { size := topic.strlen + 10, header := (0x38, 0x38), opcode := 0x05
           args := [.strlen topic, .byte qos, .byte retain.toUInt8], text := [topic] }]
  | .publish topic qos retain (some payload) length dup message_id =>
    .guarded .zero
      [.ask o.mqttSupport 1000 .zero Decode.uint16
         { size := topic.strlen + payload.strlen + 18, header := (0x38, 0x38), opcode := 0x06
           args := [.strlen topic, .strlen payload, .byte qos, .byte retain.toUInt8] ++
             Arg.word length ++ [.byte dup.toUInt8] ++ Arg.half message_id
           text := [topic, payload] }]
  | .onConnect handler =>
    .unguarded .nothing
      [.update o.mqttSupport (fun h => (h.set .mqttConnect handler).setMqttBit 0)
         update_mqtt_handlers]
  | .onDisconnect handler =>
    .unguarded .nothing
      [.update o.mqttSupport (fun h => (h.set .mqttDisconnect handler).setMqttBit 1)
         update_mqtt_handlers]
  | .onSubscribe handler =>
    .unguarded .nothing
      [.update o.mqttSupport (fun h => (h.set .mqttSub handler).setMqttBit 2)
         update_mqtt_handlers]
  | .onUnsubscribe handler =>
    .unguarded .nothing
      [.update o.mqttSupport (fun h => (h.set .mqttUnsub handler).setMqttBit 3)
         update_mqtt_handlers]
  | .onMessage handler =>
    .unguarded .nothing
      [.update o.mqttSupport (fun h => (h.set .mqttMessage handler).setMqttBit 4)
         update_mqtt_handlers]
  | .onPublish handler =>
    .unguarded .nothing
      [.update o.mqttSupport (fun h => (h.set .mqttPub handler).setMqttBit 5)
         update_mqtt_handlers]
  | .setKeepAlive keepAlive =>
    .guarded .zero
      [.ask o.mqttSupport 1000 .zero Decode.bool
         { size := 9, header := (0x38, 0x38), opcode := 0x07, args := Arg.half keepAlive }]
  | .setClientId clientId =>
    .guarded .zero
      [.ask o.mqttSupport 1000 .zero Decode.bool
         { size := clientId.strlen + 8, header := (0x38, 0x38), opcode := 0x08
           args := [.strlen clientId], text := [clientId] }]
  | .setCleanSession cleanSession =>
    .guarded .zero
      [.ask o.mqttSupport 1000 .zero Decode.bool
         { size := 8, header := (0x38, 0x38), opcode := 0x09
           args := [.byte cleanSession.toUInt8] }]
  | .setMaxTopicLength maxTopicLength =>
    .guarded .zero
      [.ask o.mqttSupport 1000 .zero Decode.bool
         { size := 9, header := (0x38, 0x38), opcode := 0x10, args := Arg.half maxTopicLength }]
  | .setCredentials username none =>
    .guarded .zero
      [.ask o.mqttSupport 1000 .zero Decode.bool
         { size := username.strlen + 8, header := (0x38, 0x38), opcode := 0x11
           args := [.strlen username], text := [username] }]
  | .setCredentials username (some password) =>
    .guarded .zero
      [.ask o.mqttSupport 1000 .zero Decode.bool
         { size := username.strlen + password.strlen + 9, header := (0x38, 0x38), opcode := 0x12
           args := [.strlen username, .strlen password], text := [username, password] }]
  | .setServerHost host port =>
    .guarded .zero
      [.ask o.mqttSupport 1000 .zero Decode.bool
         { size := host.strlen + 10, header := (0x38, 0x38), opcode := 0x13
           args := [.strlen host] ++ Arg.half port, text := [host] }]
  | .setServerAddress ip port =>
    .guarded .zero
      [.ask o.mqttSupport 1000 .zero Decode.bool
         { size := 13, header := (0x38, 0x38), opcode := 0x14
           args := Arg.address ip ++ Arg.half port }]
  | .setWill topic qos retain none _ =>
    .guarded .zero
      [.ask o.mqttSupport 1000 .zero Decode.bool
         { size := topic.strlen + 10, header := (0x38, 0x38), opcode := 0x15
           args := [.strlen topic, .byte qos, .byte retain.toUInt8], text := [topic] }]
  | .setWill topic qos retain (some payload) length =>
    .guarded .zero
      [.ask o.mqttSupport 1000 .zero Decode.bool
         { size := topic.strlen + payload.strlen + 15, header := (0x38, 0x38), opcode := 0x16
           args := [.strlen topic, .strlen payload, .byte qos, .byte retain.toUInt8] ++
             Arg.word length
           text := [topic, payload] }]

/-- The methods of web socket clients and servers. -/
inductive WebSocketCall
  | onEventClient (handler : Bool)
  | onEventServer (handler : Bool)
  | beginSocket (host : CString) (port : UInt16) (url protocol : CString)
  | beginSSL (host : CString) (port : UInt16) (url fingerprint protocol : CString)
  | beginSocketIO (host : CString) (port : UInt16) (url protocol : CString)
  | beginSocketIOSSL (host : CString) (port : UInt16) (url protocol : CString)
  | sendPing (payload : List UInt8)
  | setAuthorization (user password : CString)
  | setAuthorizationToken (auth : CString)
  | setExtraHeaders (extraHeaders : CString)
  | setReconnectInterval (time : UInt32)
  | sendBIN (payload : List UInt8) (headerToPayload : Bool)
  | sendTXT (payload : TextArgument) (headerToPayload : Bool)
  | sendTXTTo (num : UInt8) (payload : TextArgument) (headerToPayload : Bool)
  | sendBINTo (num : UInt8) (payload : List UInt8) (headerToPayload : Bool)
  | sendPingTo (num : UInt8) (payload : List UInt8)
  | broadcastTXT (payload : TextArgument) (headerToPayload : Bool)
  | broadcastBIN (payload : List UInt8) (headerToPayload : Bool)
  | broadcastPing (payload : List UInt8)
  | remoteIPOf (num : UInt8)

/-- The blocks of each method. -/
def WebSocketCall.method (o : Object) : WebSocketCall → Method
  | .onEventClient handler =>
    .unguarded .nothing
      [.update true (fun h => h.set .wscHndl handler) fun _ =>
         { size := 7, header := (0xEA, 0xEA), opcode := 0x23 }]
  | .onEventServer handler =>
    .unguarded .nothing
      [.update true (fun h => h.set .wssHndl handler) fun _ =>
         { size := 7, header := (0xEA, 0xEA), opcode := 0x24 }]
  | .beginSocket host port url protocol =>
    .guarded .nothing
      [.tell (o.websocketclient != 255)
         { size := 12 + host.strlen + url.strlen + protocol.strlen,
           header := (0xEA, 0xEA), opcode := 0x00
           args := [.strlen host, .strlen url, .strlen protocol] ++ Arg.half port
           text := [host, url, protocol] }]
  | .beginSSL host port url fingerprint protocol =>
    .guarded .nothing
      [.tell (o.websocketclient != 255)
         { size := 13 + host.strlen + url.strlen + fingerprint.strlen + protocol.strlen,
           header := (0xEA, 0xEA), opcode := 0x01
           args := [.strlen host, .strlen url, .strlen fingerprint, .strlen protocol] ++
             Arg.half port
           text := [host, url, fingerprint, protocol] }]
  | WebSocketCall.beginSocketIO host port url protocol =>
    .guarded .nothing
      [.tell (o.websocketclient != 255)
         { size := 12 + host.strlen + url.strlen + protocol.strlen,
           header := (0xEA, 0xEA), opcode := 0x02
           args := [.strlen host, .strlen url, .strlen protocol] ++ Arg.half port
           text := [host, url, protocol] }]
  | .beginSocketIOSSL host port url protocol =>
    .guarded .nothing
      [.tell (o.websocketclient != 255)
         { size := 12 + host.strlen + url.strlen + protocol.strlen,
           header := (0xEA, 0xEA), opcode := 0x03
           args := [.strlen host, .strlen url, .strlen protocol] ++ Arg.half port
           text := [host, url, protocol] }]
  | .sendPing payload =>
    .guarded .zero
      [.ask (o.websocketclient != 255) 1000 .zero Decode.bool
         { size := 11 + payload.length, header := (0xEA, 0xEA), opcode := 0x05
           args := Arg.word (UInt32.ofNat payload.length), body := payload }]
  | .setAuthorization user password =>
    .guarded .nothing
      [.tell (o.websocketclient != 255)
         { size := 9 + user.strlen + password.strlen, header := (0xEA, 0xEA), opcode := 0x06
           args := [.strlen user, .strlen password], text := [user, password] },
       .tell (o.websocketserver != 255)
         { size := 9 + user.strlen + password.strlen, header := (0xEA, 0xEA), opcode := 0x20
           args := [.strlen user, .strlen password], text := [user, password] }]
  | .setAuthorizationToken auth =>
    .guarded .nothing
      [.tell (o.websocketclient != 255)
         { size := 8 + auth.strlen, header := (0xEA, 0xEA), opcode := 0x07
           args := [.strlen auth], text := [auth] },
       .tell (o.websocketserver != 255)
         { size := 8 + auth.strlen, header := (0xEA, 0xEA), opcode := 0x21
           args := [.strlen auth], text := [auth] }]
  | .setExtraHeaders extraHeaders =>
    .guarded .nothing
      [.tell (o.websocketclient != 255)
         { size := 8 + extraHeaders.strlen, header := (0xEA, 0xEA), opcode := 0x08
           args := [.strlen extraHeaders], text := [extraHeaders] }]
  | .setReconnectInterval time =>
    .guarded .nothing
      [.tell (o.websocketclient != 255)
         { size := 11, header := (0xEA, 0xEA), opcode := 0x09, args := Arg.word time }]
  | .sendBIN payload headerToPayload =>
    .guarded .zero
      [.ask (o.websocketclient != 255) 1000 .zero Decode.bool
         { size := 12 + payload.length, header := (0xEA, 0xEA), opcode := 0x10
           args := Arg.word (UInt32.ofNat payload.length) ++ [.byte headerToPayload.toUInt8]
           body := payload }]
  | .sendTXT payload headerToPayload =>
    .guarded .zero
      [.ask (o.websocketclient != 255) 1000 .zero Decode.bool
         { size := 12 + payload.bytes.length, header := (0xEA, 0xEA), opcode := 0x11
           args := Arg.word (UInt32.ofNat payload.bytes.length) ++ [.byte headerToPayload.toUInt8]
           body := payload.bytes }]
  | .sendTXTTo num payload headerToPayload =>
    .guarded .zero
      [.ask (o.websocketserver != 255) 1000 .zero Decode.bool
         { size := 13 + payload.bytes.length, header := (0xEA, 0xEA), opcode := 0x13
           args := Arg.word (UInt32.ofNat payload.bytes.length) ++
             [.byte headerToPayload.toUInt8, .byte num]
           body := payload.bytes }]
  | .sendBINTo num payload headerToPayload =>
    .guarded .zero
      [.ask (o.websocketserver != 255) 1000 .zero Decode.bool
         { size := 13 + payload.length, header := (0xEA, 0xEA), opcode := 0x14
           args := Arg.word (UInt32.ofNat payload.length) ++
             [.byte headerToPayload.toUInt8, .byte num]
           body := payload }]
  | .sendPingTo num payload =>
    .guarded .zero
      [.ask (o.websocketserver != 255) 1000 .zero Decode.bool
         { size := 12 + payload.length, header := (0xEA, 0xEA), opcode := 0x15
           args := Arg.word (UInt32.ofNat payload.length) ++ [.byte num], body := payload }]
  | .broadcastTXT payload headerToPayload =>
    .guarded .zero
      [.ask (o.websocketserver != 255) 1000 .zero Decode.bool
         { size := 12 + payload.bytes.length, header := (0xEA, 0xEA), opcode := 0x16
           args := Arg.word (UInt32.ofNat payload.bytes.length) ++ [.byte headerToPayload.toUInt8]
           body := payload.bytes }]
  | .broadcastBIN payload headerToPayload =>
    .guarded .zero
      [.ask (o.websocketserver != 255) 1000 .zero Decode.bool
         { size := 12 + payload.length, header := (0xEA, 0xEA), opcode := 0x17
           args := Arg.word (UInt32.ofNat payload.length) ++ [.byte headerToPayload.toUInt8]
           body := payload }]
  | .broadcastPing payload =>
    .guarded .zero
      [.ask (o.websocketserver != 255) 1000 .zero Decode.bool
         { size := 11 + payload.length, header := (0xEA, 0xEA), opcode := 0x18
           args := Arg.word (UInt32.ofNat payload.length), body := payload }]
  | .remoteIPOf num =>
    .guarded .noAddress
      [.ask (o.websocketserver != 255) 1000 .noAddress Decode.address
         { size := 8, indexBits := 8, header := (0xEA, 0xEA), opcode := 0x22, args := [.byte num] }]

/-! ## Wireless network -/

/-- `update_wifi_handlers()`. -/
def update_wifi_handlers (h : Handlers) : Command :=
  { size := 8, header := (0xA2, 0xA2), opcode := 0x45, args := [.byte h.wifiHandlers] }

/-- The station methods of a `WiFi` object. -/
inductive WiFiCall
  | onStationModeGotIP (handler : Bool)
  | onStationModeDisconnected (handler : Bool)
  | onStationModeConnected (handler : Bool)
  | onStationModeAuthModeChanged (handler : Bool)
  | onStationModeDHCPTimeout (handler : Bool)
  | onSoftAPModeStationConnected (handler : Bool)
  | onSoftAPModeStationDisconnected (handler : Bool)
  | onSoftAPModeProbeRequestReceived (handler : Bool)
  | beginNetwork (ssid : CString) (passphrase : Option CString) (channel : UInt32)
      (bssid : Option MacAddress) (connect : Bool)
  | config (local_ip gateway subnet dns1 dns2 : IPAddress)
  | reconnect
  | setAutoConnect (autoConnect : Bool)
  | getAutoConnect
  | setAutoReconnect (autoReconnect : Bool)
  | waitForConnectResult
  | isConnected
  | subnetMask
  | gatewayIP
  | dnsIP (dns_no : UInt8)
  | macAddress
  | hostname
  | setHostname (aHostname : CString)
  | SSID
  | psk
  | BSSIDstr
  | RSSI
  | macAddressInto
  | BSSID
  | beginSmartConfig
  | stopSmartConfig
  | smartConfigDone
  | beginWPSConfig
  | hostByName (aHostname : CString) (timeout_ms : UInt32)
  | getPersistent
  | channel
  | setSleepMode (type : UInt8)
  | getSleepMode
  | setPhyMode (mode : UInt8)
  | getPhyMode
  | setOutputPower (buffer : CString)
  | persistent (persistent : Bool)
  | mode (m : UInt8)
  | getMode
  | enableSTA (enable : Bool)
  | enableAP (enable : Bool)
  | forceSleepBegin (sleepUs : UInt32)
  | forceSleepWake

/-- The blocks of each method. -/
def WiFiCall.method (o : Object) : WiFiCall → Method
  | .onStationModeGotIP handler =>
    .unguarded .nothing
      [.update (o.wifi != 255) (fun h => (h.set .wifiOnSTAgotIP handler).setWiFiBit 0)
         update_wifi_handlers]
  | .onStationModeDisconnected handler =>
    .unguarded .nothing
      [.update (o.wifi != 255) (fun h => (h.set .wifiOnSTADisconnect handler).setWiFiBit 1)
         update_wifi_handlers]
  | .onStationModeConnected handler =>
    .unguarded .nothing
      [.update (o.wifi != 255) (fun h => (h.set .wifiOnSTAConnected handler).setWiFiBit 2)
         update_wifi_handlers]
  | .onStationModeAuthModeChanged handler =>
    .unguarded .nothing
      [.update (o.wifi != 255) (fun h => (h.set .wifiOnSTAAuthModeChange handler).setWiFiBit 3)
         update_wifi_handlers]
  | .onStationModeDHCPTimeout handler =>
    .unguarded .nothing
      [.update (o.wifi != 255) (fun h => (h.set .wifiOnSTADHCPtimeout handler).setWiFiBit 4)
         update_wifi_handlers]
  | .onSoftAPModeStationConnected handler =>
    .unguarded .nothing
      [.update (o.wifi != 255) (fun h => (h.set .wifiOnAPConnected handler).setWiFiBit 5)
         update_wifi_handlers]
  | .onSoftAPModeStationDisconnected handler =>
    .unguarded .nothing
      [.update (o.wifi != 255) (fun h => (h.set .wifiOnAPDisconnected handler).setWiFiBit 6)
         update_wifi_handlers]
  | .onSoftAPModeProbeRequestReceived handler =>
    .unguarded .nothing
      [.update (o.wifi != 255) (fun h => (h.set .wifiOnAPProbe handler).setWiFiBit 7)
         update_wifi_handlers]
  | .beginNetwork ssid none _ _ _ =>
    .guarded .zero
      [.ask (o.wifi != 255) 1000 .zero Decode.byte
         { size := ssid.strlen + 8, header := (0xA2, 0xA2), opcode := 0x00
           args := [.strlen ssid], text := [ssid] }]
  | .beginNetwork ssid (some passphrase) chan none _ =>
    .guarded .zero
      [.ask (o.wifi != 255) 1000 .zero Decode.byte
         { size := ssid.strlen + passphrase.strlen + 13, header := (0xA2, 0xA2), opcode := 0x01
           args := [.strlen ssid, .strlen passphrase] ++ Arg.wordLow chan
           text := [ssid, passphrase] }]
  | .beginNetwork ssid (some passphrase) chan (some bssid) connect =>
    .guarded .zero
      [.ask (o.wifi != 255) 1000 .zero Decode.byte
         { size := ssid.strlen + passphrase.strlen + 20, header := (0xA2, 0xA2), opcode := 0x02
           args := [.strlen ssid, .strlen passphrase] ++ Arg.wordLow chan ++ Arg.mac bssid ++
             [.byte connect.toUInt8]
           text := [ssid, passphrase] }]
  | .config local_ip gateway subnet dns1 dns2 =>
    .guarded .zero
      [.ask (o.wifi != 255) 1000 .zero Decode.bool
         { size := 27, indexBits := 8, header := (0xA2, 0xA2), opcode := 0x04
           args := Arg.address local_ip ++ Arg.address gateway ++ Arg.address subnet ++
             Arg.address dns1 ++ Arg.address dns2 }]
  | .reconnect =>
    .guarded .zero
      [.ask (o.wifi != 255) 1000 .zero Decode.bool
         { size := 7, indexBits := 8, header := (0xA2, 0xA2), opcode := 0x06 }]
  | .setAutoConnect autoConnect =>
    .guarded .zero
      [.ask (o.wifi != 255) 1000 .zero Decode.bool
         { size := 8, indexBits := 8, header := (0xA2, 0xA2), opcode := 0x07
           args := [.byte autoConnect.toUInt8] }]
  | .getAutoConnect =>
    .guarded .zero
      [.ask (o.wifi != 255) 1000 .zero Decode.bool
         { size := 7, indexBits := 8, header := (0xA2, 0xA2), opcode := 0x08 }]
  | .setAutoReconnect autoReconnect =>
    .guarded .zero
      [.ask (o.wifi != 255) 1000 .zero Decode.bool
         { size := 8, indexBits := 8, header := (0xA2, 0xA2), opcode := 0x09
           args := [.byte autoReconnect.toUInt8] }]
  | .waitForConnectResult =>
    -- the loop waits 3500 ms, the check behind it allows 1000 ms
    .guarded .zero
      [.request (o.wifi != 255)
         { command := { size := 7, indexBits := 8, header := (0xA2, 0xA2), opcode := 0x10 }
           limit := 3500, checkLimit := 1000, onTimeout := .zero, decode := Decode.byte }]
  | .isConnected =>
    .guarded .zero
      [.ask (o.wifi != 255) 1000 .zero Decode.bool
         { size := 7, indexBits := 8, header := (0xA2, 0xA2), opcode := 0x11 }]
  | .subnetMask =>
    .guarded .noAddress
      [.ask (o.wifi != 255) 1000 .noAddress Decode.address
         { size := 7, indexBits := 8, header := (0xA2, 0xA2), opcode := 0x13 }]
  | .gatewayIP =>
    .guarded .noAddress
      [.ask (o.wifi != 255) 1000 .noAddress Decode.address
         { size := 7, indexBits := 8, header := (0xA2, 0xA2), opcode := 0x14 }]
  | .dnsIP dns_no =>
    .guarded .noAddress
      [.ask (o.wifi != 255) 1000 .noAddress Decode.address
         { size := 8, indexBits := 8, header := (0xA2, 0xA2), opcode := 0x15
           args := [.byte dns_no] }]
  | .macAddress =>
    .guarded .emptyText
      [.ask (o.wifi != 255) 1000 .emptyText Decode.filledText
         { size := 7, indexBits := 8, header := (0xA2, 0xA2), opcode := 0x16 }]
  | .hostname =>
    .guarded .emptyText
      [.ask (o.wifi != 255) 1000 .emptyText Decode.filledText
         { size := 7, indexBits := 8, header := (0xA2, 0xA2), opcode := 0x17 }]
  | .setHostname aHostname =>
    .guarded .zero
      [.ask (o.wifi != 255 && aHostname.strlen ≤ 32) 1000 .zero Decode.bool
         { size := aHostname.strlen + 8, indexBits := 8, header := (0xA2, 0xA2), opcode := 0x18
           args := [.strlen aHostname], text := [aHostname] }]
  | .SSID =>
    .guarded .emptyText
      [.ask (o.wifi != 255) 1000 .emptyText Decode.filledText
         { size := 7, indexBits := 8, header := (0xA2, 0xA2), opcode := 0x19 }]
  | .psk =>
    .guarded .emptyText
      [.ask (o.wifi != 255) 1000 .emptyText Decode.filledText
         { size := 7, indexBits := 8, header := (0xA2, 0xA2), opcode := 0x20 }]
  | .BSSIDstr =>
    .guarded .emptyText
      [.ask (o.wifi != 255) 1000 .emptyText Decode.filledText
         { size := 7, indexBits := 8, header := (0xA2, 0xA2), opcode := 0x21 }]
  | .RSSI =>
    .guarded .zero
      [.ask (o.wifi != 255) 1000 .zero Decode.int32Copied
         { size := 7, indexBits := 8, header := (0xA2, 0xA2), opcode := 0x22 }]
  | .macAddressInto =>
    ⟨some .null,
      [.ask (o.wifi != 255) 1000 .buffer Decode.mac
         { size := 7, indexBits := 8, header := (0xA2, 0xA2), opcode := 0x24 }], .buffer⟩
  | .BSSID =>
    .guarded .zero
      [.ask (o.wifi != 255) 1000 .zero Decode.mac
         { size := 7, indexBits := 8, header := (0xA2, 0xA2), opcode := 0x25 }]
  | .beginSmartConfig =>
    .guarded .zero
      [.ask (o.wifi != 255) 1000 .zero Decode.bool
         { size := 7, indexBits := 8, header := (0xA2, 0xA2), opcode := 0x26 }]
  | .stopSmartConfig =>
    .guarded .zero
      [.ask (o.wifi != 255) 1000 .zero Decode.bool
         { size := 7, indexBits := 8, header := (0xA2, 0xA2), opcode := 0x27 }]
  | .smartConfigDone =>
    .guarded .zero
      [.ask (o.wifi != 255) 1000 .zero Decode.bool
         { size := 7, indexBits := 8, header := (0xA2, 0xA2), opcode := 0x28 }]
  | .beginWPSConfig =>
    .guarded .zero
      [.ask (o.wifi != 255) 1000 .zero Decode.bool
         { size := 7, indexBits := 8, header := (0xA2, 0xA2), opcode := 0x29 }]
  | .hostByName aHostname timeout_ms =>
    -- `data_pos` is a `uint8_t` over an array of variable length
    ⟨some .zero,
      [.ask (o.wifi != 255) 1000 .unresolved Decode.resolved
         { size := aHostname.strlen + 12, indexBits := 8, header := (0xA2, 0xA2), opcode := 0x30
           args := [.strlen aHostname] ++ Arg.word timeout_ms, text := [aHostname] }],
      .unresolved⟩
  | .getPersistent =>
    .guarded .zero
      [.ask (o.wifi != 255) 1000 .zero Decode.bool
         { size := 7, header := (0xA2, 0xA2), opcode := 0x31 }]
  | .channel =>
    .guarded .zero
      [.ask (o.wifi != 255) 1000 .zero Decode.int32Copied
         { size := 7, indexBits := 8, header := (0xA2, 0xA2), opcode := 0x32 }]
  | .setSleepMode type =>
    .guarded .zero
      [.ask (o.wifi != 255) 1000 .zero Decode.bool
         { size := 8, header := (0xA2, 0xA2), opcode := 0x33, args := [.byte type] }]
  | .getSleepMode =>
    .guarded .zero
      [.ask (o.wifi != 255) 1000 .zero Decode.byte
         { size := 7, header := (0xA2, 0xA2), opcode := 0x34 }]
  | .setPhyMode m =>
    .guarded .zero
      [.ask (o.wifi != 255) 1000 .zero Decode.bool
         { size := 8, header := (0xA2, 0xA2), opcode := 0x35, args := [.byte m] }]
  | .getPhyMode =>
    .guarded .zero
      [.ask (o.wifi != 255) 1000 .zero Decode.byte
         { size := 7, header := (0xA2, 0xA2), opcode := 0x36 }]
  | .setOutputPower buffer =>
    -- `buffer` is the text that `dtostrf` makes of the argument
    .guarded .nothing
      [.tell (o.wifi != 255)
         { size := 8 + buffer.strlen, header := (0xA2, 0xA2), opcode := 0x37
           args := [.strlen buffer], text := [buffer] }]
  | .persistent p =>
    .guarded .nothing
      [.tell (o.wifi != 255)
         { size := 8, header := (0xA2, 0xA2), opcode := 0x38, args := [.byte p.toUInt8] }]
  | .mode m =>
    .guarded .zero
      [.ask (o.wifi != 255) 1000 .zero Decode.bool
         { size := 8, header := (0xA2, 0xA2), opcode := 0x39, args := [.byte m] }]
  | .getMode =>
    .guarded .zero
      [.ask (o.wifi != 255) 1000 .zero Decode.byte
         { size := 7, header := (0xA2, 0xA2), opcode := 0x40 }]
  | .enableSTA enable =>
    .guarded .zero
      [.ask (o.wifi != 255) 1000 .zero Decode.bool
         { size := 8, header := (0xA2, 0xA2), opcode := 0x41, args := [.byte enable.toUInt8] }]
  | .enableAP enable =>
    .guarded .zero
      [.ask (o.wifi != 255) 1000 .zero Decode.bool
         { size := 8, header := (0xA2, 0xA2), opcode := 0x42, args := [.byte enable.toUInt8] }]
  | .forceSleepBegin sleepUs =>
    .guarded .zero
      [.ask (o.wifi != 255) 1000 .zero Decode.bool
         { size := 11, header := (0xA2, 0xA2), opcode := 0x43, args := Arg.word sleepUs }]
  | .forceSleepWake =>
    .guarded .zero
      [.ask (o.wifi != 255) 1000 .zero Decode.bool
         { size := 7, header := (0xA2, 0xA2), opcode := 0x44 }]

/-- The access point and scan methods of a `WiFi` object, and those of `WiFiMulti`. -/
inductive AccessPointCall
  | softAP (ssid : CString) (passphrase : Option CString)
      (channel ssid_hidden max_connection : UInt32)
  | softAPConfig (local_ip gateway subnet : IPAddress)
  | softAPdisconnect (wifioff : Bool)
  | softAPgetStationNum
  | softAPIP
  | softAPmacAddressInto
  | softAPmacAddress
  | scanNetworks (async show_hidden : Bool)
  | scanNetworksAsync (handler : Bool) (show_hidden : Bool)
  | scanComplete
  | scanDelete
  | getNetworkInfo (i : UInt8)
  | SSIDOf (i : UInt8)
  | encryptionType (i : UInt8)
  | RSSIOf (i : UInt8)
  | BSSIDOf (i : UInt8)
  | BSSIDstrOf (i : UInt8)
  | channelOf (i : UInt8)
  | isHidden (i : UInt8)
  | addAP (ssid passphrase : CString)
  | run

/-- The blocks of each method. -/
def AccessPointCall.method (o : Object) : AccessPointCall → Method
  | .softAP _ none _ _ _ =>
    -- the array size calls `strlen(passphrase)` on the null pointer
    .guarded .zero [.undefined (o.wifi != 255)]
  | .softAP ssid (some passphrase) channel ssid_hidden max_connection =>
    .guarded .zero
      [.ask (o.wifi != 255) 1000 .zero Decode.bool
         { size := ssid.strlen + passphrase.strlen + 12, header := (0xA2, 0xA2), opcode := 0x47
           args := [.strlen ssid, .strlen passphrase, .byte channel.toUInt8,
             .byte ssid_hidden.toUInt8, .byte max_connection.toUInt8]
           text := [ssid, passphrase] }]
  | .softAPConfig local_ip gateway subnet =>
    .guarded .zero
      [.ask (o.wifi != 255) 1000 .zero Decode.bool
         { size := 19, indexBits := 8, header := (0xA2, 0xA2), opcode := 0x48
           args := Arg.address local_ip ++ Arg.address gateway ++ Arg.address subnet }]
  | .softAPdisconnect wifioff =>
    .guarded .zero
      [.ask (o.wifi != 255) 1000 .zero Decode.bool
         { size := 8, indexBits := 8, header := (0xA2, 0xA2), opcode := 0x49
           args := [.byte wifioff.toUInt8] }]
  | .softAPgetStationNum =>
    .guarded .zero
      [.ask (o.wifi != 255) 1000 .zero Decode.byte
         { size := 7, indexBits := 8, header := (0xA2, 0xA2), opcode := 0x50 }]
  | .softAPIP =>
    .guarded .noAddress
      [.ask (o.wifi != 255) 1000 .noAddress Decode.address
         { size := 7, indexBits := 8, header := (0xA2, 0xA2), opcode := 0x51 }]
  | .softAPmacAddressInto =>
    ⟨some .null,
      [.ask (o.wifi != 255) 1000 .buffer Decode.mac
         { size := 7, indexBits := 8, header := (0xA2, 0xA2), opcode := 0x52 }], .buffer⟩
  | .softAPmacAddress =>
    .guarded .emptyText
      [.ask (o.wifi != 255) 1000 .emptyText Decode.filledText
         { size := 7, indexBits := 8, header := (0xA2, 0xA2), opcode := 0x53 }]
  | .scanNetworks async show_hidden =>
    .guarded .zero
      [.ask (o.wifi != 255) 1000 .zero Decode.signedByte
         { size := 9, indexBits := 8, header := (0xA2, 0xA2), opcode := 0x54
           args := [.byte async.toUInt8, .byte show_hidden.toUInt8] }]
  | .scanNetworksAsync handler show_hidden =>
    .unguarded .nothing
      [.update (o.wifi != 255) (fun h => h.set .wifiScanHndl handler) fun _ =>
         { size := 8, header := (0xA2, 0xA2), opcode := 0x55, args := [.byte show_hidden.toUInt8] }]
  | .scanComplete =>
    .guarded .zero
      [.ask (o.wifi != 255) 1000 .zero Decode.signedByte
         { size := 7, indexBits := 8, header := (0xA2, 0xA2), opcode := 0x56 }]
  | .scanDelete =>
    .guarded .nothing
      [.tell (o.wifi != 255)
         { size := 7, indexBits := 8, header := (0xA2, 0xA2), opcode := 0x57 }]
  | .getNetworkInfo i =>
    .guarded .zero
      [.ask (o.wifi != 255) 1000 .zero Decode.networkInfo
         { size := 8, indexBits := 8, header := (0xA2, 0xA2), opcode := 0x58, args := [.byte i] }]
  | .SSIDOf i =>
    .guarded .emptyText
      [.ask (o.wifi != 255) 1000 .emptyText Decode.filledText
         { size := 8, indexBits := 8, header := (0xA2, 0xA2), opcode := 0x59, args := [.byte i] }]
  | .encryptionType i =>
    .guarded .zero
      [.ask (o.wifi != 255) 1000 .zero Decode.byte
         { size := 8, indexBits := 8, header := (0xA2, 0xA2), opcode := 0x60, args := [.byte i] }]
  | .RSSIOf i =>
    .guarded .zero
      [.ask (o.wifi != 255) 1000 .zero Decode.int32Copied
         { size := 8, indexBits := 8, header := (0xA2, 0xA2), opcode := 0x61, args := [.byte i] }]
  | .BSSIDOf i =>
    .guarded .zero
      [.ask (o.wifi != 255) 1000 .zero Decode.mac
         { size := 8, indexBits := 8, header := (0xA2, 0xA2), opcode := 0x62, args := [.byte i] }]
  | .BSSIDstrOf i =>
    .guarded .emptyText
      [.ask (o.wifi != 255) 1000 .emptyText Decode.filledText
         { size := 8, indexBits := 8, header := (0xA2, 0xA2), opcode := 0x63, args := [.byte i] }]
  | .channelOf i =>
    .guarded .zero
      [.ask (o.wifi != 255) 1000 .zero Decode.int32Copied
         { size := 8, indexBits := 8, header := (0xA2, 0xA2), opcode := 0x64, args := [.byte i] }]
  | .isHidden i =>
    .guarded .zero
      [.ask (o.wifi != 255) 1000 .zero Decode.bool
         { size := 8, indexBits := 8, header := (0xA2, 0xA2), opcode := 0x65, args := [.byte i] }]
  | .addAP ssid passphrase =>
    .guarded .zero
      [.ask o.wiFiMulti 1000 .zero Decode.bool
         { size := ssid.strlen + passphrase.strlen + 9, header := (0xBA, 0xBA), opcode := 0x00
           args := [.strlen ssid, .strlen passphrase], text := [ssid, passphrase] }]
  | .run =>
    .guarded .zero
      [.ask o.wiFiMulti 1000 .zero Decode.byte
         { size := 7, indexBits := 8, header := (0xBA, 0xBA), opcode := 0x01 }]

/-! ## Sockets -/

/-- The methods of a `WiFiUdp` object alone. -/
inductive UdpCall
  | destinationIP
  | endPacket
  | parsePacket
  | beginPacketHost (host : CString) (port : UInt16)
  | beginPacketAddress (ip : IPAddress) (port : UInt16)
  | beginPacketMulticast (multicastAddress : IPAddress) (port : UInt16)
      (interfaceAddress : IPAddress) (ttl : UInt32)
  | beginMulticast (interfaceAddr multicast : IPAddress) (port : UInt16)

/-- The blocks of each method. -/
def UdpCall.method (o : Object) : UdpCall → Method
  | .destinationIP =>
    .guarded .noAddress
      [.ask (o.wifiudp != 255) 1000 .noAddress Decode.address
         { size := 7, indexBits := 8, header := (0xCC, 0xCC), opcode := 0x09 }]
  | .endPacket =>
    .guarded .zero
      [.ask (o.wifiudp != 255) 1000 .zero Decode.byte
         { size := 7, header := (0xCC, 0xCC), opcode := 0x07 }]
  | .parsePacket =>
    .guarded .zero
      [.ask (o.wifiudp != 255) 1000 .zero Decode.uint16
         { size := 7, header := (0xCC, 0xCC), opcode := 0x12 }]
  | .beginPacketHost host port =>
    .guarded .zero
      [.ask (o.wifiudp != 255) 1000 .zero Decode.byte
         { size := host.strlen + 10, header := (0xCC, 0xCC), opcode := 0x13
           args := [.strlen host] ++ Arg.half port, text := [host] }]
  | .beginPacketAddress ip port =>
    .guarded .zero
      [.ask (o.wifiudp != 255) 1000 .zero Decode.byte
         { size := 13, header := (0xCC, 0xCC), opcode := 0x14
           args := Arg.address ip ++ Arg.half port }]
  | .beginPacketMulticast multicastAddress port interfaceAddress ttl =>
    .guarded .zero
      [.ask (o.wifiudp != 255) 1000 .zero Decode.byte
         { size := 21, indexBits := 8, header := (0xCC, 0xCC), opcode := 0x15
           args := Arg.address multicastAddress ++ Arg.half port ++
             Arg.address interfaceAddress ++ Arg.word ttl }]
  | .beginMulticast interfaceAddr multicast port =>
    .guarded .zero
      [.ask (o.wifiudp != 255) 1000 .zero Decode.byte
         { size := 17, indexBits := 8, header := (0xCC, 0xCC), opcode := 0x16
           args := Arg.address multicast ++ Arg.half port ++ Arg.address interfaceAddr }]

/-- The methods of `WiFiClient` and `WiFiClientSecure` objects alone. -/
inductive ClientCall
  | verify (fp domain_name : CString)
  | verifyCertChain (domain_name : CString)
  | getNoDelay
  | setNoDelay (nodelay : Bool)
  | setLocalPortStart (port : UInt16)
  | availableForWrite
  | setCACert (pk : List UInt8)
  | setCertificate (pk : List UInt8)
  | setPrivateKey (pk : List UInt8)
  | allowSelfSignedCerts
  | loadCACert
  | loadCertificate
  | loadPrivateKey

/-- The blocks of each method. -/
def ClientCall.method (o : Object) : ClientCall → Method
  | .verify fp domain_name =>
    .guarded .zero
      [.ask (o.wificlientsecure != 255) 1000 .zero Decode.bool
         { size := 9 + fp.strlen + domain_name.strlen, header := (0xAD, 0xCC), opcode := 0x02
           args := [.strlen fp, .strlen domain_name], text := [fp, domain_name] }]
  | .verifyCertChain domain_name =>
    .guarded .zero
      [.ask (o.wificlientsecure != 255) 1000 .zero Decode.bool
         { size := 8 + domain_name.strlen, header := (0xAD, 0xCC), opcode := 0x03
           args := [.strlen domain_name], text := [domain_name] }]
  | .getNoDelay =>
    .guarded .zero
      [.ask (o.wificlient != 255) 1000 .zero Decode.bool
         { size := 8, header := (0xA6, 0xA6), opcode := 0x12, args := [.byte o.wificlient] }]
  | .setNoDelay nodelay =>
    .guarded .zero
      [.ask (o.wificlient != 255) 1000 .zero Decode.bool
         { size := 8, header := (0xA6, 0xA6), opcode := 0x13, args := [.byte o.wificlient] }]
  | .setLocalPortStart port =>
    .guarded .nothing
      [.tell (o.wificlient != 255)
         { size := 10, header := (0xA6, 0xA6), opcode := 0x19
           args := [.byte o.wificlient] ++ Arg.half port }]
  | .availableForWrite =>
    .guarded .zero
      [.ask (o.wificlient != 255) 1000 .zero Decode.uint16
         { size := 8, header := (0xA6, 0xA6), opcode := 0x20, args := [.byte o.wificlient] }]
  | .setCACert pk =>
    .guarded .zero
      [.ask (o.wificlientsecure != 255) 1000 .zero Decode.bool
         { size := 11 + pk.length, header := (0xAD, 0xCC), opcode := 0x12
           args := Arg.word (UInt32.ofNat pk.length), body := pk }]
  | .setCertificate pk =>
    .guarded .zero
      [.ask (o.wificlientsecure != 255) 1000 .zero Decode.bool
         { size := 11 + pk.length, header := (0xAD, 0xCC), opcode := 0x13
           args := Arg.word (UInt32.ofNat pk.length), body := pk }]
  | .setPrivateKey pk =>
    .guarded .zero
      [.ask (o.wificlientsecure != 255) 1000 .zero Decode.bool
         { size := 11 + pk.length, header := (0xAD, 0xCC), opcode := 0x14
           args := Arg.word (UInt32.ofNat pk.length), body := pk }]
  | .allowSelfSignedCerts =>
    .guarded .nothing
      [.tell (o.wificlientsecure != 255)
         { size := 7, header := (0xAD, 0xCC), opcode := 0x15 }]
  | .loadCACert =>
    .guarded .zero
      [.ask (o.wificlientsecure != 255) 1000 .zero Decode.bool
         { size := 7, header := (0xAD, 0xCC), opcode := 0x16 }]
  | .loadCertificate =>
    .guarded .zero
      [.ask (o.wificlientsecure != 255) 1000 .zero Decode.bool
         { size := 7, header := (0xAD, 0xCC), opcode := 0x17 }]
  | .loadPrivateKey =>
    .guarded .zero
      [.ask (o.wificlientsecure != 255) 1000 .zero Decode.bool
         { size := 7, header := (0xAD, 0xCC), opcode := 0x18 }]

/-- The methods of an `AsyncUDP` object. -/
inductive AsyncUdpCall
  | connected
  | onPacket (handler : Bool)
  | listenAddress (addr : IPAddress) (port : UInt16)
  | listenPort (port : UInt16)
  | close
  | listenMulticast (addr : IPAddress) (port : UInt16) (ttl : UInt8)
  | connect (addr : IPAddress) (port : UInt16)
  | writeTo (data : List UInt8) (addr : IPAddress) (port : UInt16)
  | write (data : List UInt8)
  | broadcastTo (data : List UInt8) (port : UInt16)
  | broadcast (data : List UInt8)

/-- The blocks of each method. -/
def AsyncUdpCall.method : AsyncUdpCall → Method
  | .connected =>
    .guarded .zero
      [.ask true 500 .zero Decode.bool
         { size := 7, indexBits := 8, header := (0xCE, 0xCE), opcode := 0x06 }]
  | .onPacket handler =>
    .guarded .nothing
      [.update true (fun h => h.set .udpHandler handler) fun _ =>
         { size := 7, indexBits := 8, header := (0xCE, 0xCE), opcode := 0x07 }]
  | .listenAddress addr port =>
    .guarded .zero
      [.ask true 500 .zero Decode.bool
         { size := 13, indexBits := 8, header := (0xCE, 0xCE), opcode := 0x00
           args := Arg.address addr ++ Arg.half port }]
  | .listenPort port =>
    .guarded .zero
      [.ask true 500 .zero Decode.bool
         { size := 9, indexBits := 8, header := (0xCE, 0xCE), opcode := 0x01
           args := Arg.half port }]
  | .close =>
    .guarded .nothing
      [.tell true
         { size := 7, indexBits := 8, header := (0xCE, 0xCE), opcode := 0x02 }]
  | .listenMulticast addr port ttl =>
    .guarded .zero
      [.ask true 500 .zero Decode.bool
         { size := 14, indexBits := 8, header := (0xCE, 0xCE), opcode := 0x04
           args := Arg.address addr ++ Arg.half port ++ [.byte ttl] }]
  | .connect addr port =>
    .guarded .zero
      [.ask true 500 .zero Decode.bool
         { size := 13, indexBits := 8, header := (0xCE, 0xCE), opcode := 0x03
           args := Arg.address addr ++ Arg.half port }]
  | .writeTo data addr port =>
    .guarded .zero
      [.ask true 500 .zero Decode.uint32
         { size := 17 + data.length, header := (0xCE, 0xCE), opcode := 0x05
           args := Arg.word (UInt32.ofNat data.length) ++ Arg.address addr ++ Arg.half port
           body := data }]
  | .write data =>
    .guarded .zero
      [.ask true 500 .zero Decode.uint32
         { size := 11 + data.length, header := (0xCE, 0xCE), opcode := 0x08
           args := Arg.word (UInt32.ofNat data.length), body := data }]
  | .broadcastTo data port =>
    .guarded .zero
      [.ask true 500 .zero Decode.uint32
         { size := 13 + data.length, header := (0xCE, 0xCE), opcode := 0x10
           args := Arg.word (UInt32.ofNat data.length) ++ Arg.half port, body := data }]
  | .broadcast data =>
    .guarded .zero
      [.ask true 500 .zero Decode.uint32
         { size := 11 + data.length, header := (0xCE, 0xCE), opcode := 0x09
           args := Arg.word (UInt32.ofNat data.length), body := data }]

/-! ## Files and streams -/

/-- The methods of a `SPIFFS` object alone. -/
inductive SpiffsCall
  | open (path mode : CString)
  | exists (path : CString)
  | remove (path : CString)
  | format
  | rename (pathFrom pathTo : CString)
  | readStringUntil (terminator : UInt8)
  | close
  | position
  | size
  | name
  | seek (pos : UInt32) (mode : UInt8)
  | openDir (path : CString)
  | next
  | fileName
  | fileSize
  | openFile (mode : CString)
  | info

/-- The blocks of each method. -/
def SpiffsCall.method (o : Object) : SpiffsCall → Method
  | .open path mode =>
    .guarded .zero
      [.ask o.spiffs 1000 .zero Decode.bool
         { size := path.strlen + mode.strlen + 9, header := (0x34, 0x34), opcode := 0x00
           args := [.strlen path, .strlen mode], text := [path, mode] }]
  | .exists path =>
    .guarded .zero
      [.ask o.spiffs 1000 .zero Decode.bool
         { size := path.strlen + 8, header := (0x34, 0x34), opcode := 0x02
           args := [.strlen path], text := [path] }]
  | .remove path =>
    .guarded .zero
      [.ask o.spiffs 1000 .zero Decode.bool
         { size := path.strlen + 8, header := (0x34, 0x34), opcode := 0x04
           args := [.strlen path], text := [path] }]
  | .format =>
    .guarded .zero
      [.ask o.spiffs 35000 .zero Decode.bool
         { size := 7, indexBits := 8, header := (0x34, 0x34), opcode := 0x03 }]
  | .rename pathFrom pathTo =>
    .guarded .zero
      [.ask o.spiffs 1000 .zero Decode.bool
         { size := pathFrom.strlen + pathTo.strlen + 9, header := (0x34, 0x34), opcode := 0x05
           args := [.strlen pathFrom, .strlen pathTo], text := [pathFrom, pathTo] }]
  | .readStringUntil terminator =>
    .guarded .emptyText
      [.ask o.spiffs 1500 .emptyText Decode.longText
         { size := 8, indexBits := 8, header := (0x34, 0x34), opcode := 0x06
           args := [.byte terminator] }]
  | .close =>
    .guarded .zero
      [.ask o.spiffs 1000 .zero Decode.bool
         { size := 7, indexBits := 8, header := (0x34, 0x34), opcode := 0x07 }]
  | .position =>
    .guarded .zero
      [.ask o.spiffs 1000 .zero Decode.uint32
         { size := 7, indexBits := 8, header := (0x34, 0x34), opcode := 0x08 }]
  | .size =>
    .guarded .zero
      [.ask o.spiffs 1000 .zero Decode.uint32
         { size := 7, indexBits := 8, header := (0x34, 0x34), opcode := 0x09 }]
  | .name =>
    .guarded .emptyText
      [.ask o.spiffs 1000 .emptyText Decode.shortText
         { size := 7, indexBits := 8, header := (0x34, 0x34), opcode := 0x10 }]
  | .seek pos mode =>
    .guarded .zero
      [.ask o.spiffs 1000 .zero Decode.bool
         { size := 12, indexBits := 8, header := (0x34, 0x34), opcode := 0x12
           args := Arg.word pos ++ [.byte mode] }]
  | .openDir path =>
    .guarded .zero
      [.ask o.spiffs 1000 .zero Decode.arrived
         { size := path.strlen + 8, header := (0x34, 0x34), opcode := 0x18
           args := [.strlen path], text := [path] }]
  | .next =>
    .guarded .zero
      [.ask o.spiffs 1000 .zero Decode.bool
         { size := 7, indexBits := 8, header := (0x34, 0x34), opcode := 0x19 }]
  | .fileName =>
    .guarded .emptyText
      [.ask o.spiffs 1000 .emptyText Decode.longText
         { size := 7, header := (0x34, 0x34), opcode := 0x20 }]
  | .fileSize =>
    .guarded .zero
      [.ask o.spiffs 1000 .zero Decode.uint32
         { size := 7, indexBits := 8, header := (0x34, 0x34), opcode := 0x21 }]
  | .openFile mode =>
    .guarded .zero
      [.ask o.spiffs 1000 .zero Decode.bool
         { size := mode.strlen + 8, header := (0x34, 0x34), opcode := 0x22
           args := [.strlen mode], text := [mode] }]
  | .info =>
    ⟨some Value.noInfo,
      [.ask o.spiffs 1000 .zero Decode.fsInfo
         { size := 7, header := (0x34, 0x34), opcode := 0x23 }], .zero⟩

/-- The methods that several roles share; the blocks are tried in the order of the source. -/
inductive StreamCall
  | readBuffer (size : UInt32)
  | peek
  | available
  | read
  | flush
  | writeBuffer (buf : List UInt8)
  | connected
  | begin
  | disconnect (wifioff : Bool)
  | localIP
  | remoteIP
  | status
  | connectHost (host : CString) (port : UInt16)
  | connectAddress (ip : IPAddress) (port : UInt16)
  | peekBytes (length : UInt32)
  | stop
  | remotePort
  | localPort
  | stopAll
  | beginPort (baudrate : UInt32)

/-- The blocks of each method. -/
def StreamCall.method (o : Object) : StreamCall → Method
  | .readBuffer size =>
    .guarded .zero
      [.ask o.spiffs 2500 .zero Decode.bulk
         { size := 11, indexBits := 8, header := (0x34, 0x34), opcode := 0x11
           args := Arg.word size },
       .ask (o.wificlient != 255) 2500 .zero Decode.bulk
         { size := 12, indexBits := 8, header := (0xA6, 0xA6), opcode := 0x07
           args := [.byte o.wificlient] ++ Arg.word size },
       .ask (o.wificlientsecure != 255) 2500 .zero Decode.bulk
         { size := 11, indexBits := 8, header := (0xAD, 0xCC), opcode := 0x09
           args := Arg.word size },
       .ask (o.wifiudp != 255) 2500 .zero Decode.bulk
         { size := 11, indexBits := 8, header := (0xCC, 0xCC), opcode := 0x18
           args := Arg.word size }]
  | .peek =>
    .guarded .zero
      [.ask o.spiffs 1000 .zero Decode.int16
         { size := 7, indexBits := 8, header := (0x34, 0x34), opcode := 0x13 },
       .ask (o.wificlient != 255) 1000 .zero Decode.int16
         { size := 8, indexBits := 8, header := (0xA6, 0xA6), opcode := 0x08
           args := [.byte o.wificlient] },
       .ask (o.wificlientsecure != 255) 1000 .zero Decode.int16
         { size := 7, indexBits := 8, header := (0xAD, 0xCC), opcode := 0x08 },
       .ask (o.wifiudp != 255) 1000 .zero Decode.int16
         { size := 7, indexBits := 8, header := (0xCC, 0xCC), opcode := 0x05 }]
  | .available =>
    .guarded .zero
      [.ask o.spiffs 1000 .zero Decode.int32
         { size := 7, indexBits := 8, header := (0x34, 0x34), opcode := 0x14 },
       .ask (o.wificlient != 255) 1000 .zero Decode.int32
         { size := 8, indexBits := 8, header := (0xA6, 0xA6), opcode := 0x06
           args := [.byte o.wificlient] },
       .ask (o.wificlientsecure != 255) 1000 .zero Decode.int32
         { size := 7, indexBits := 8, header := (0xAD, 0xCC), opcode := 0x07 },
       .ask (o.wifiudp != 255) 1000 .zero Decode.int32
         { size := 7, indexBits := 8, header := (0xCC, 0xCC), opcode := 0x04 }]
  | .read =>
    .guarded .zero
      [.ask o.spiffs 1000 .zero Decode.int16
         { size := 7, indexBits := 8, header := (0x34, 0x34), opcode := 0x15 },
       .ask (o.wificlient != 255) 1000 .zero Decode.int16
         { size := 8, indexBits := 8, header := (0xA6, 0xA6), opcode := 0x05
           args := [.byte o.wificlient] },
       .ask (o.wificlientsecure != 255) 1000 .zero Decode.int16
         { size := 7, indexBits := 8, header := (0xAD, 0xCC), opcode := 0x06 },
       .ask (o.wifiudp != 255) 1000 .zero Decode.int16
         { size := 7, indexBits := 8, header := (0xCC, 0xCC), opcode := 0x03 }]
  | .flush =>
    .guarded .nothing
      [.tell o.spiffs
         { size := 7, indexBits := 8, header := (0x34, 0x34), opcode := 0x16 },
       .tell (o.wificlient != 255)
         { size := 8, indexBits := 8, header := (0xA6, 0xA6), opcode := 0x10
           args := [.byte o.wificlient] },
       .tell (o.wifiudp != 255)
         { size := 7, indexBits := 8, header := (0xCC, 0xCC), opcode := 0x06 }]
  | .writeBuffer buf =>
    .guarded .zero
      [.ask o.spiffs 1000 .zero Decode.uint32
         { size := 11 + buf.length, header := (0x34, 0x34), opcode := 0x17
           args := Arg.word (UInt32.ofNat buf.length), body := buf },
       .ask (o.wificlient != 255) 1000 .zero Decode.uint32
         { size := 12 + buf.length, header := (0xA6, 0xA6), opcode := 0x04
           args := [.byte o.wificlient] ++ Arg.word (UInt32.ofNat buf.length), body := buf },
       .ask (o.wifiudp != 255) 1000 .zero Decode.uint32
         { size := 11 + buf.length, header := (0xCC, 0xCC), opcode := 0x17
           args := Arg.word (UInt32.ofNat buf.length), body := buf },
       .ask (o.wificlientsecure != 255) 1000 .zero Decode.uint32
         { size := 11 + buf.length, header := (0xAD, 0xCC), opcode := 0x05
           args := Arg.word (UInt32.ofNat buf.length), body := buf }]
  | .connected =>
    .guarded .zero
      [.ask o.mqttSupport 1000 .zero Decode.bool
         { size := 7, header := (0x38, 0x38), opcode := 0x02 },
       .ask (o.wificlient != 255) 1000 .zero Decode.bool
         { size := 8, header := (0xA6, 0xA6), opcode := 0x01, args := [.byte o.wificlient] },
       .ask (o.wificlientsecure != 255) 1000 .zero Decode.bool
         { size := 7, header := (0xAD, 0xCC), opcode := 0x04 }]
  | .begin =>
    .guarded .zero
      [.ask (o.wifi != 255) 1000 .zero Decode.signedByte
         { size := 7, indexBits := 8, header := (0xA2, 0xA2), opcode := 0x03 },
       .ask o.spiffs 1000 .zero Decode.signedByte
         { size := 7, indexBits := 8, header := (0x34, 0x34), opcode := 0x01 },
       .send (o.websocketserver != 255)
         { size := 7, header := (0xEA, 0xEA), opcode := 0x12 } (some .one)]
  | .disconnect wifioff =>
    .guarded .zero
      [.ask (o.wifi != 255) 1000 .zero Decode.bool
         { size := 8, indexBits := 8, header := (0xA2, 0xA2), opcode := 0x05
           args := [.byte wifioff.toUInt8] },
       .ask o.mqttSupport 1000 .zero Decode.bool
         { size := 8, header := (0x38, 0x38), opcode := 0x04, args := [.byte wifioff.toUInt8] },
       .send (o.websocketclient != 255)
         { size := 7, header := (0xEA, 0xEA), opcode := 0x04 } (some .one),
       .send (o.websocketserver != 255)
         { size := 8, header := (0xEA, 0xEA), opcode := 0x19
           args := [.byte wifioff.toUInt8] } (some .one)]
  | .localIP =>
    .guarded .noAddress
      [.ask (o.wifi != 255) 1000 .noAddress Decode.address
         { size := 7, indexBits := 8, header := (0xA2, 0xA2), opcode := 0x12 },
       .ask (o.wificlient != 255) 1000 .noAddress Decode.address
         { size := 8, indexBits := 8, header := (0xA6, 0xA6), opcode := 0x17
           args := [.byte o.wificlient] }]
  | .remoteIP =>
    .guarded .noAddress
      [.ask (o.wificlient != 255) 1000 .noAddress Decode.address
         { size := 8, indexBits := 8, header := (0xA6, 0xA6), opcode := 0x18
           args := [.byte o.wificlient] },
       .ask (o.wifiudp != 255) 1000 .noAddress Decode.address
         { size := 7, indexBits := 8, header := (0xCC, 0xCC), opcode := 0x08 }]
  | .status =>
    .guarded .zero
      [.ask (o.wifi != 255) 1000 .zero Decode.byte
         { size := 7, indexBits := 8, header := (0xA2, 0xA2), opcode := 0x23 },
       .ask (o.wificlient != 255) 1000 .zero Decode.byte
         { size := 8, indexBits := 8, header := (0xA6, 0xA6), opcode := 0x00
           args := [.byte o.wificlient] }]
  | .connectHost host port =>
    .unguarded .zero
      [.ask (o.wificlient != 255) 1000 .zero Decode.byte
         { size := host.strlen + 11, header := (0xA6, 0xA6), opcode := 0x02
           args := [.byte o.wificlient, .strlen host] ++ Arg.half port, text := [host] },
       .ask (o.wificlientsecure != 255) 1000 .zero Decode.byte
         { size := host.strlen + 10, header := (0xAD, 0xCC), opcode := 0x01
           args := [.strlen host] ++ Arg.half port, text := [host] }]
  | .connectAddress ip port =>
    .guarded .zero
      [.ask (o.wificlient != 255) 1000 .zero Decode.byte
         { size := 14, header := (0xA6, 0xA6), opcode := 0x03
           args := [.byte o.wificlient] ++ Arg.address ip ++ Arg.half port },
       .ask (o.wificlientsecure != 255) 1000 .zero Decode.byte
         { size := 13, header := (0xAD, 0xCC), opcode := 0x00
           args := Arg.address ip ++ Arg.half port }]
  | .peekBytes length =>
    .guarded .zero
      [.ask (o.wificlient != 255) 5000 .zero Decode.bulk
         { size := 12, indexBits := 8, header := (0xA6, 0xA6), opcode := 0x09
           args := [.byte o.wificlient] ++ Arg.word length },
       .ask (o.wificlientsecure != 255) 5000 .zero Decode.bulk
         { size := 11, indexBits := 8, header := (0xAD, 0xCC), opcode := 0x10
           args := Arg.word length }]
  | .stop =>
    .guarded .zero
      [.ask (o.wificlient != 255) 1000 .zero Decode.bool
         { size := 8, header := (0xA6, 0xA6), opcode := 0x11, args := [.byte o.wificlient] },
       .ask (o.wificlientsecure != 255) 1000 .zero Decode.bool
         { size := 7, header := (0xAD, 0xCC), opcode := 0x11 },
       .tell (o.wifiudp != 255)
         { size := 7, header := (0xCC, 0xCC), opcode := 0x01 }]
  | .remotePort =>
    .guarded .zero
      [.ask (o.wificlient != 255) 1000 .zero Decode.uint16
         { size := 8, header := (0xA6, 0xA6), opcode := 0x14, args := [.byte o.wificlient] },
       .ask (o.wifiudp != 255) 1000 .zero Decode.uint16
         { size := 7, header := (0xCC, 0xCC), opcode := 0x10 }]
  | .localPort =>
    .guarded .zero
      [.ask (o.wificlient != 255) 1000 .zero Decode.uint16
         { size := 8, header := (0xA6, 0xA6), opcode := 0x15, args := [.byte o.wificlient] },
       .ask (o.wifiudp != 255) 1000 .zero Decode.uint16
         { size := 7, header := (0xCC, 0xCC), opcode := 0x11 }]
  | .stopAll =>
    .guarded .nothing
      [.tell (o.wificlient != 255)
         { size := 8, header := (0xA6, 0xA6), opcode := 0x16, args := [.byte o.wificlient] },
       .tell (o.wifiudp != 255)
         { size := 7, header := (0xCC, 0xCC), opcode := 0x02 }]
  | .beginPort baudrate =>
    .guarded .nothing
      [.tell (o.wifiudp != 255)
         { size := 9, header := (0xCC, 0xCC), opcode := 0x00, args := Arg.half baudrate.toUInt16 },
       .tell (o.espEeprom != 255)
         { size := 9, header := (0xBB, 0xBB), opcode := 0x01, args := Arg.half baudrate.toUInt16 }]

/-! ## Single requests -/

/-- The request of `waitForConnectResult()`. -/
def connectResultExchange : Exchange where
  command := { size := 7, indexBits := 8, header := (0xA2, 0xA2), opcode := 0x10 }
  limit := 3500
  checkLimit := 1000
  onTimeout := .zero
  decode := Decode.byte

/-- The request of `format()`. -/
def formatExchange : Exchange where
  command := { size := 7, indexBits := 8, header := (0x34, 0x34), opcode := 0x03 }
  limit := 35000
  checkLimit := 35000
  onTimeout := .zero
  decode := Decode.bool

/-- The block of `read(buf, size)` on a file. -/
def fileRead (size : UInt32) : Exchange where
  command := { size := 11, indexBits := 8, header := (0x34, 0x34), opcode := 0x11
               args := Arg.word size }
  limit := 2500
  checkLimit := 2500
  onTimeout := .zero
  decode := Decode.bulk

/-- The command of `hostByName`. -/
def hostByNameCommand (name : CString) (timeout_ms : UInt32) : Command :=
  { size := name.strlen + 12, indexBits := 8, header := (0xA2, 0xA2), opcode := 0x30
    args := [.strlen name] ++ Arg.word timeout_ms, text := [name] }

/-- The command of a publication with a payload. -/
def publishCommand (topic payload : CString) : Command :=
  { size := topic.strlen + payload.strlen + 18, header := (0x38, 0x38), opcode := 0x06
    args := [.strlen topic, .strlen payload, .byte 0, .byte Bool.false.toUInt8] ++
      Arg.word 0 ++ [.byte Bool.false.toUInt8] ++ Arg.half 0
    text := [topic, payload] }

/-- The command of `rename`. -/
def renameCommand (pathFrom pathTo : CString) : Command :=
  { size := pathFrom.strlen + pathTo.strlen + 9, header := (0x34, 0x34), opcode := 0x05
    args := [.strlen pathFrom, .strlen pathTo], text := [pathFrom, pathTo] }

end Teensquitto
