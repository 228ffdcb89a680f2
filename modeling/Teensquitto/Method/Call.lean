import Teensquitto.Method.Objects

/-!
# Calls

A call is a public method with its arguments, on an object.  Overloads that only convert
an argument and pass it on are calls of the method they pass it to; methods that return a
constant and write nothing are left out.

## Main definitions

* `Call`: the calls a program can make
* `Call.method`: the method that is called

## Main results

* `Call.tests_iff`: the methods that test for the ESP before they wait
-/

namespace Teensquitto

/-- A method of `teensquitto` on an object, or a method of `AsyncUDP`. -/
inductive Call
  | spiffs (o : Object) (call : SpiffsCall)
  | stream (o : Object) (call : StreamCall)
  | udp (o : Object) (call : UdpCall)
  | client (o : Object) (call : ClientCall)
  | mqtt (o : Object) (call : MqttCall)
  | webSocket (o : Object) (call : WebSocketCall)
  | wifi (o : Object) (call : WiFiCall)
  | accessPoint (o : Object) (call : AccessPointCall)
  | esp (o : Object) (call : EspCall)
  | asyncUdp (call : AsyncUdpCall)

namespace Call

/-- The method that is called. -/
def method : Call → Method
  | spiffs o call => call.method o
  | stream o call => call.method o
  | udp o call => call.method o
  | client o call => call.method o
  | mqtt o call => call.method o
  | webSocket o call => call.method o
  | wifi o call => call.method o
  | accessPoint o call => call.method o
  | esp o call => call.method o
  | asyncUdp call => call.method

/-- The one method that waits for a reply and does not test for the ESP:
`connect(const char* host, uint16_t port)`. -/
def isConnectHost : Call → Bool
  | stream _ (.connectHost _ _) => true
  | _ => false

end Call

/-- The block waits for a reply. -/
def Stage.waits : Stage → Bool
  | request _ _ => true
  | _ => false

/-- The method tests for the ESP, or has no block that waits. -/
def Method.tests (m : Method) : Bool :=
  m.guard.isSome || m.stages.all fun stage => !stage.waits

theorem SpiffsCall.tests (o : Object) (c : SpiffsCall) : (c.method o).tests = true := by
  cases c <;> rfl

theorem UdpCall.tests (o : Object) (c : UdpCall) : (c.method o).tests = true := by
  cases c <;> rfl

theorem ClientCall.tests (o : Object) (c : ClientCall) : (c.method o).tests = true := by
  cases c <;> rfl

theorem MqttCall.tests (o : Object) (c : MqttCall) : (c.method o).tests = true := by
  unfold MqttCall.method
  split <;> rfl

theorem WebSocketCall.tests (o : Object) (c : WebSocketCall) : (c.method o).tests = true := by
  cases c <;> rfl

theorem WiFiCall.tests (o : Object) (c : WiFiCall) : (c.method o).tests = true := by
  unfold WiFiCall.method
  split <;> rfl

theorem AccessPointCall.tests (o : Object) (c : AccessPointCall) :
    (c.method o).tests = true := by
  unfold AccessPointCall.method
  split <;> rfl

theorem EspCall.tests (o : Object) (c : EspCall) : (c.method o).tests = true := by
  cases c <;> rfl

theorem AsyncUdpCall.tests (c : AsyncUdpCall) : c.method.tests = true := by
  cases c <;> rfl

/-- Among the methods several roles share, `connect(host, port)` alone waits without a
test. -/
theorem StreamCall.tests_iff (o : Object) (c : StreamCall) :
    (c.method o).tests = true ↔ ∀ host port, c ≠ .connectHost host port := by
  cases c <;> simp [StreamCall.method, Method.guarded, Method.unguarded, Method.tests,
    Stage.ask, Stage.waits]

/-- **Every method that waits tests for the ESP first**, except `connect(host, port)`. -/
theorem Call.tests_iff (c : Call) : c.method.tests = true ↔ c.isConnectHost = false := by
  cases c with
  | stream o call =>
    rw [Call.method, StreamCall.tests_iff]
    cases call <;> simp [Call.isConnectHost]
  | spiffs o call => simp [Call.method, Call.isConnectHost, SpiffsCall.tests]
  | udp o call => simp [Call.method, Call.isConnectHost, UdpCall.tests]
  | client o call => simp [Call.method, Call.isConnectHost, ClientCall.tests]
  | mqtt o call => simp [Call.method, Call.isConnectHost, MqttCall.tests]
  | webSocket o call => simp [Call.method, Call.isConnectHost, WebSocketCall.tests]
  | wifi o call => simp [Call.method, Call.isConnectHost, WiFiCall.tests]
  | accessPoint o call => simp [Call.method, Call.isConnectHost, AccessPointCall.tests]
  | esp o call => simp [Call.method, Call.isConnectHost, EspCall.tests]
  | asyncUdp call => simp [Call.method, Call.isConnectHost, AsyncUdpCall.tests]

end Teensquitto
