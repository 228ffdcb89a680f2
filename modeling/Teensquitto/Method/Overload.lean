import Mathlib.Data.List.TakeWhile
import Teensquitto.Method.Call

/-!
# Overloads

Many methods are offered several times, for a `String`, a `const char*` or a `char*`.  One overload
writes the command; the others convert the string and pass it on, some after a test of their own.

## Main definitions

* `cStr`, `textOf`: how a `String` is passed on
* `StringOperation`: what is asked for, and of which strings
* `Overload`: the overloads, with the method each passes its arguments to

## Main results

* `Overload.method_call`: all overloads but `remove(const String&)` reach the method that is asked
  for
-/

namespace Teensquitto

/-- The bytes before the first zero. -/
def beforeNul (s : List UInt8) : List UInt8 := s.takeWhile (· ≠ 0)

theorem zero_notMem_beforeNul (s : List UInt8) : 0 ∉ beforeNul s := fun h => by
  simpa using List.mem_takeWhile_imp h

/-- `s.c_str()`, read as a C string. -/
def cStr (s : List UInt8) : CString := ⟨beforeNul s, zero_notMem_beforeNul s⟩

/-- `(uint8_t *) s.c_str(), s.length()` for a text: a length of zero asks for `strlen`. -/
def textOf (s : List UInt8) : TextArgument :=
  if h : s = [] then .terminated (cStr s) else .sized s h

@[simp] theorem bytes_textOf (s : List UInt8) : (textOf s).bytes = s := by
  unfold textOf
  split
  · next h => rw [h]; rfl
  · rfl

/-- The operations that have several overloads, and the strings they are asked for. -/
inductive StringOperation
  | open (path mode : CString)
  | exists (path : CString)
  | remove (path : CString)
  | rename (pathFrom pathTo : CString)
  | openDir (path : CString)
  | beginNetwork (ssid : CString) (passphrase : Option CString) (channel : UInt32)
      (bssid : Option MacAddress) (connect : Bool)
  | hostname (aHostname : CString)
  | connect (host : CString) (port : UInt16)
  | beginSocket (host : CString) (port : UInt16) (url protocol : CString)
  | beginSSL (host : CString) (port : UInt16) (url fingerprint protocol : CString)
  | beginSocketIO (host : CString) (port : UInt16) (url protocol : CString)
  | beginSocketIOSSL (host : CString) (port : UInt16) (url protocol : CString)
  | sendPing (payload : List UInt8)
  | sendBIN (payload : List UInt8) (headerToPayload : Bool)
  | sendTXT (payload : List UInt8) (headerToPayload : Bool)
  | sendTXTTo (num : UInt8) (payload : List UInt8) (headerToPayload : Bool)
  | sendBINTo (num : UInt8) (payload : List UInt8) (headerToPayload : Bool)
  | sendPingTo (num : UInt8) (payload : List UInt8)
  | broadcastTXT (payload : List UInt8) (headerToPayload : Bool)
  | broadcastBIN (payload : List UInt8) (headerToPayload : Bool)
  | broadcastPing (payload : List UInt8)
  deriving DecidableEq

/-- The overloads, each with the arguments of its signature.  A `String` is the list of its bytes; a
payload behind a pointer is as many bytes as the length passed with it. -/
inductive Overload
  | openString (path : List UInt8) (mode : CString)
  | openChars (path mode : CString)
  | existsString (path : List UInt8)
  | existsChars (path : CString)
  | removeString (path : List UInt8)
  | removeChars (path : CString)
  | renameString (pathFrom pathTo : List UInt8)
  | renameChars (pathFrom pathTo : CString)
  | openDirString (path : List UInt8)
  | openDirChars (path : CString)
  | beginChars (ssid : CString) (passphrase : Option CString) (channel : UInt32)
      (bssid : Option MacAddress) (connect : Bool)
  | beginConstChars (ssid : CString) (passphrase : Option CString) (channel : UInt32)
      (bssid : Option MacAddress) (connect : Bool)
  | hostnameChars (aHostname : CString)
  | hostnameConstChars (aHostname : CString)
  | hostnameString (aHostname : List UInt8)
  | connectString (host : List UInt8) (port : UInt16)
  | connectChars (host : CString) (port : UInt16)
  | beginSocketString (host : List UInt8) (port : UInt16) (url protocol : List UInt8)
  | beginSocketChars (host : CString) (port : UInt16) (url protocol : CString)
  | beginSSLString (host : List UInt8) (port : UInt16) (url fingerprint protocol : List UInt8)
  | beginSSLChars (host : CString) (port : UInt16) (url fingerprint protocol : CString)
  | beginSocketIOString (host : List UInt8) (port : UInt16) (url protocol : List UInt8)
  | beginSocketIOChars (host : CString) (port : UInt16) (url protocol : CString)
  | beginSocketIOSSLString (host : List UInt8) (port : UInt16) (url protocol : List UInt8)
  | beginSocketIOSSLChars (host : CString) (port : UInt16) (url protocol : CString)
  | sendPingString (payload : List UInt8)
  | sendPingBytes (payload : List UInt8)
  | sendBINConst (payload : List UInt8)
  | sendBINBytes (payload : List UInt8) (headerToPayload : Bool)
  | sendTXTConstBytes (payload : TextArgument)
  | sendTXTChars (payload : TextArgument) (headerToPayload : Bool)
  | sendTXTConstChars (payload : TextArgument)
  | sendTXTString (payload : List UInt8)
  | sendTXTBytes (payload : TextArgument) (headerToPayload : Bool)
  | sendTXTToConstBytes (num : UInt8) (payload : TextArgument)
  | sendTXTToChars (num : UInt8) (payload : TextArgument) (headerToPayload : Bool)
  | sendTXTToConstChars (num : UInt8) (payload : TextArgument)
  | sendTXTToString (num : UInt8) (payload : List UInt8)
  | sendTXTToBytes (num : UInt8) (payload : TextArgument) (headerToPayload : Bool)
  | sendBINToConst (num : UInt8) (payload : List UInt8)
  | sendBINToBytes (num : UInt8) (payload : List UInt8) (headerToPayload : Bool)
  | sendPingToString (num : UInt8) (payload : List UInt8)
  | sendPingToBytes (num : UInt8) (payload : List UInt8)
  | broadcastTXTConstBytes (payload : TextArgument)
  | broadcastTXTChars (payload : TextArgument) (headerToPayload : Bool)
  | broadcastTXTConstChars (payload : TextArgument)
  | broadcastTXTString (payload : List UInt8)
  | broadcastTXTBytes (payload : TextArgument) (headerToPayload : Bool)
  | broadcastBINConst (payload : List UInt8)
  | broadcastBINBytes (payload : List UInt8) (headerToPayload : Bool)
  | broadcastPingString (payload : List UInt8)
  | broadcastPingBytes (payload : List UInt8)

namespace Overload

/-- What an overload is asked for. -/
def operation : Overload → StringOperation
  | openString path mode => .open (cStr path) mode
  | openChars path mode => .open path mode
  | existsString path => .exists (cStr path)
  | existsChars path => .exists path
  | removeString path => .remove (cStr path)
  | removeChars path => .remove path
  | renameString pathFrom pathTo => .rename (cStr pathFrom) (cStr pathTo)
  | renameChars pathFrom pathTo => .rename pathFrom pathTo
  | openDirString path => .openDir (cStr path)
  | openDirChars path => .openDir path
  | beginChars ssid passphrase channel bssid connect =>
    .beginNetwork ssid passphrase channel bssid connect
  | beginConstChars ssid passphrase channel bssid connect =>
    .beginNetwork ssid passphrase channel bssid connect
  | hostnameChars aHostname => .hostname aHostname
  | hostnameConstChars aHostname => .hostname aHostname
  | hostnameString aHostname => .hostname (cStr aHostname)
  | connectString host port => .connect (cStr host) port
  | connectChars host port => .connect host port
  | beginSocketString host port url protocol =>
    .beginSocket (cStr host) port (cStr url) (cStr protocol)
  | beginSocketChars host port url protocol => .beginSocket host port url protocol
  | beginSSLString host port url fingerprint protocol =>
    .beginSSL (cStr host) port (cStr url) (cStr fingerprint) (cStr protocol)
  | beginSSLChars host port url fingerprint protocol => .beginSSL host port url fingerprint protocol
  | beginSocketIOString host port url protocol =>
    StringOperation.beginSocketIO (cStr host) port (cStr url) (cStr protocol)
  | beginSocketIOChars host port url protocol =>
    StringOperation.beginSocketIO host port url protocol
  | beginSocketIOSSLString host port url protocol =>
    .beginSocketIOSSL (cStr host) port (cStr url) (cStr protocol)
  | beginSocketIOSSLChars host port url protocol => .beginSocketIOSSL host port url protocol
  | sendPingString payload => .sendPing payload
  | sendPingBytes payload => .sendPing payload
  | sendBINConst payload => .sendBIN payload false
  | sendBINBytes payload headerToPayload => .sendBIN payload headerToPayload
  | sendTXTConstBytes payload => .sendTXT payload.bytes false
  | sendTXTChars payload headerToPayload => .sendTXT payload.bytes headerToPayload
  | sendTXTConstChars payload => .sendTXT payload.bytes false
  | sendTXTString payload => .sendTXT payload false
  | sendTXTBytes payload headerToPayload => .sendTXT payload.bytes headerToPayload
  | sendTXTToConstBytes num payload => .sendTXTTo num payload.bytes false
  | sendTXTToChars num payload headerToPayload => .sendTXTTo num payload.bytes headerToPayload
  | sendTXTToConstChars num payload => .sendTXTTo num payload.bytes false
  | sendTXTToString num payload => .sendTXTTo num payload false
  | sendTXTToBytes num payload headerToPayload => .sendTXTTo num payload.bytes headerToPayload
  | sendBINToConst num payload => .sendBINTo num payload false
  | sendBINToBytes num payload headerToPayload => .sendBINTo num payload headerToPayload
  | sendPingToString num payload => .sendPingTo num payload
  | sendPingToBytes num payload => .sendPingTo num payload
  | broadcastTXTConstBytes payload => .broadcastTXT payload.bytes false
  | broadcastTXTChars payload headerToPayload => .broadcastTXT payload.bytes headerToPayload
  | broadcastTXTConstChars payload => .broadcastTXT payload.bytes false
  | broadcastTXTString payload => .broadcastTXT payload false
  | broadcastTXTBytes payload headerToPayload => .broadcastTXT payload.bytes headerToPayload
  | broadcastBINConst payload => .broadcastBIN payload false
  | broadcastBINBytes payload headerToPayload => .broadcastBIN payload headerToPayload
  | broadcastPingString payload => .broadcastPing payload
  | broadcastPingBytes payload => .broadcastPing payload

/-- The test an overload makes before it passes its arguments on; it returns 0 when the test
fails. -/
def passes (o : Object) : Overload → Bool
  | beginChars .. => o.wifi != 255
  | hostnameConstChars _ => o.wifi != 255
  | hostnameString _ => o.wifi != 255
  | _ => true

/-- The method that is reached. -/
def call (o : Object) : Overload → Call
  | openString path mode => .spiffs o (.open (cStr path) mode)
  | openChars path mode => .spiffs o (.open path mode)
  | existsString path => .spiffs o (.exists (cStr path))
  | existsChars path => .spiffs o (.exists path)
  -- `remove(const String&)` calls `exists`
  | removeString path => .spiffs o (.exists (cStr path))
  | removeChars path => .spiffs o (.remove path)
  | renameString pathFrom pathTo => .spiffs o (.rename (cStr pathFrom) (cStr pathTo))
  | renameChars pathFrom pathTo => .spiffs o (.rename pathFrom pathTo)
  | openDirString path => .spiffs o (.openDir (cStr path))
  | openDirChars path => .spiffs o (.openDir path)
  | beginChars ssid passphrase channel bssid connect =>
    .wifi o (.beginNetwork ssid passphrase channel bssid connect)
  | beginConstChars ssid passphrase channel bssid connect =>
    .wifi o (.beginNetwork ssid passphrase channel bssid connect)
  | hostnameChars aHostname => .wifi o (.setHostname aHostname)
  | hostnameConstChars aHostname => .wifi o (.setHostname aHostname)
  | hostnameString aHostname => .wifi o (.setHostname (cStr aHostname))
  | connectString host port => .stream o (.connectHost (cStr host) port)
  | connectChars host port => .stream o (.connectHost host port)
  | beginSocketString host port url protocol =>
    .webSocket o (.beginSocket (cStr host) port (cStr url) (cStr protocol))
  | beginSocketChars host port url protocol => .webSocket o (.beginSocket host port url protocol)
  | beginSSLString host port url fingerprint protocol =>
    .webSocket o (.beginSSL (cStr host) port (cStr url) (cStr fingerprint) (cStr protocol))
  | beginSSLChars host port url fingerprint protocol =>
    .webSocket o (.beginSSL host port url fingerprint protocol)
  | beginSocketIOString host port url protocol =>
    .webSocket o <| WebSocketCall.beginSocketIO (cStr host) port (cStr url) (cStr protocol)
  | beginSocketIOChars host port url protocol =>
    .webSocket o <| WebSocketCall.beginSocketIO host port url protocol
  | beginSocketIOSSLString host port url protocol =>
    .webSocket o (.beginSocketIOSSL (cStr host) port (cStr url) (cStr protocol))
  | beginSocketIOSSLChars host port url protocol =>
    .webSocket o (.beginSocketIOSSL host port url protocol)
  | sendPingString payload => .webSocket o (.sendPing payload)
  | sendPingBytes payload => .webSocket o (.sendPing payload)
  | sendBINConst payload => .webSocket o (.sendBIN payload false)
  | sendBINBytes payload headerToPayload => .webSocket o (.sendBIN payload headerToPayload)
  | sendTXTConstBytes payload => .webSocket o (.sendTXT payload false)
  | sendTXTChars payload headerToPayload => .webSocket o (.sendTXT payload headerToPayload)
  | sendTXTConstChars payload => .webSocket o (.sendTXT payload false)
  | sendTXTString payload => .webSocket o (.sendTXT (textOf payload) false)
  | sendTXTBytes payload headerToPayload => .webSocket o (.sendTXT payload headerToPayload)
  | sendTXTToConstBytes num payload => .webSocket o (.sendTXTTo num payload false)
  | sendTXTToChars num payload headerToPayload =>
    .webSocket o (.sendTXTTo num payload headerToPayload)
  | sendTXTToConstChars num payload => .webSocket o (.sendTXTTo num payload false)
  | sendTXTToString num payload => .webSocket o (.sendTXTTo num (textOf payload) false)
  | sendTXTToBytes num payload headerToPayload =>
    .webSocket o (.sendTXTTo num payload headerToPayload)
  | sendBINToConst num payload => .webSocket o (.sendBINTo num payload false)
  | sendBINToBytes num payload headerToPayload =>
    .webSocket o (.sendBINTo num payload headerToPayload)
  | sendPingToString num payload => .webSocket o (.sendPingTo num payload)
  | sendPingToBytes num payload => .webSocket o (.sendPingTo num payload)
  | broadcastTXTConstBytes payload => .webSocket o (.broadcastTXT payload false)
  | broadcastTXTChars payload headerToPayload =>
    .webSocket o (.broadcastTXT payload headerToPayload)
  | broadcastTXTConstChars payload => .webSocket o (.broadcastTXT payload false)
  | broadcastTXTString payload => .webSocket o (.broadcastTXT (textOf payload) false)
  | broadcastTXTBytes payload headerToPayload =>
    .webSocket o (.broadcastTXT payload headerToPayload)
  | broadcastBINConst payload => .webSocket o (.broadcastBIN payload false)
  | broadcastBINBytes payload headerToPayload =>
    .webSocket o (.broadcastBIN payload headerToPayload)
  | broadcastPingString payload => .webSocket o (.broadcastPing payload)
  | broadcastPingBytes payload => .webSocket o (.broadcastPing payload)

/-- The overload `remove(const String& path)`. -/
def isRemoveString : Overload → Bool
  | removeString _ => true
  | _ => false

end Overload

/-- The method that writes the command of an operation. -/
def StringOperation.method (o : Object) : StringOperation → Method
  | .open path mode => SpiffsCall.method o (.open path mode)
  | .exists path => SpiffsCall.method o (.exists path)
  | .remove path => SpiffsCall.method o (.remove path)
  | .rename pathFrom pathTo => SpiffsCall.method o (.rename pathFrom pathTo)
  | .openDir path => SpiffsCall.method o (.openDir path)
  | .beginNetwork ssid passphrase channel bssid joins =>
    WiFiCall.method o (.beginNetwork ssid passphrase channel bssid joins)
  | .hostname aHostname => WiFiCall.method o (.setHostname aHostname)
  | .connect host port => StreamCall.method o (.connectHost host port)
  | .beginSocket host port url protocol =>
    WebSocketCall.method o (.beginSocket host port url protocol)
  | .beginSSL host port url fingerprint protocol =>
    WebSocketCall.method o (.beginSSL host port url fingerprint protocol)
  | StringOperation.beginSocketIO host port url protocol =>
    WebSocketCall.method o <| WebSocketCall.beginSocketIO host port url protocol
  | .beginSocketIOSSL host port url protocol =>
    WebSocketCall.method o (.beginSocketIOSSL host port url protocol)
  | .sendPing payload => WebSocketCall.method o (.sendPing payload)
  | .sendBIN payload headerToPayload => WebSocketCall.method o (.sendBIN payload headerToPayload)
  | .sendTXT payload headerToPayload =>
    WebSocketCall.method o (.sendTXT (textOf payload) headerToPayload)
  | .sendTXTTo num payload headerToPayload =>
    WebSocketCall.method o (.sendTXTTo num (textOf payload) headerToPayload)
  | .sendBINTo num payload headerToPayload =>
    WebSocketCall.method o (.sendBINTo num payload headerToPayload)
  | .sendPingTo num payload => WebSocketCall.method o (.sendPingTo num payload)
  | .broadcastTXT payload headerToPayload =>
    WebSocketCall.method o (.broadcastTXT (textOf payload) headerToPayload)
  | .broadcastBIN payload headerToPayload =>
    WebSocketCall.method o (.broadcastBIN payload headerToPayload)
  | .broadcastPing payload => WebSocketCall.method o (.broadcastPing payload)

/-! ## The methods that are reached -/

section Text

variable {o : Object} {payload payload' : TextArgument}

/-- The three methods that send a text depend on the bytes alone, not on whether their number was
passed. -/
theorem WebSocketCall.method_sendTXT_congr (h : payload.bytes = payload'.bytes) (b : Bool) :
    method o (.sendTXT payload b) = method o (.sendTXT payload' b) := by
  simp only [method, h]

theorem WebSocketCall.method_sendTXTTo_congr (h : payload.bytes = payload'.bytes) (num : UInt8)
    (b : Bool) : method o (.sendTXTTo num payload b) = method o (.sendTXTTo num payload' b) := by
  simp only [method, h]

theorem WebSocketCall.method_broadcastTXT_congr (h : payload.bytes = payload'.bytes) (b : Bool) :
    method o (.broadcastTXT payload b) = method o (.broadcastTXT payload' b) := by
  simp only [method, h]

end Text

/-- **All overloads but one reach the method that is asked for.** -/
theorem Overload.method_call (o : Object) {e : Overload} (h : e.isRemoveString = false) :
    (e.call o).method = e.operation.method o := by
  cases e
  case removeString => cases h
  -- the text overloads differ in how the length is found
  case sendTXTConstBytes | sendTXTChars | sendTXTConstChars | sendTXTBytes =>
    exact WebSocketCall.method_sendTXT_congr (bytes_textOf _).symm _
  case sendTXTToConstBytes | sendTXTToChars | sendTXTToConstChars | sendTXTToBytes =>
    exact WebSocketCall.method_sendTXTTo_congr (bytes_textOf _).symm _ _
  case broadcastTXTConstBytes | broadcastTXTChars | broadcastTXTConstChars | broadcastTXTBytes =>
    exact WebSocketCall.method_broadcastTXT_congr (bytes_textOf _).symm _
  all_goals rfl

end Teensquitto
