import Teensquitto.Device.Sending

/-!
# The roles of objects

A constructor gives an object its role by a string, and every method has a block for each role in
which it can be called.  An object in static storage has one role at most, so that a call on it
writes one frame of its own at most, and this frame belongs to the role.  Two members have no
initialiser: elsewhere they may add the roles of files and of MQTT.

## Main definitions

* `Role`, `Object.has`: the roles, and those of an object
* `Unset`, `Construction`: what is left from before, and the constructors
* `Role.Speaks`: the frames that belong to a role

## Main results

* `Call.forRoles`: the blocks of a method are for different roles
* `Construction.oneRole`, `Construction.adds`: the roles of an object
* `Construction.writes_for_role`: what the calls on an object write
-/

namespace Teensquitto

open EStateM

/-! ## Roles -/

/-- The roles of objects. -/
inductive Role
  | wifi
  | wifiUdp
  | wifiClient
  | wifiClientSecure
  | wifiMulti
  | spiffs
  | mqtt
  | esp
  | eeprom
  | webSocketClient
  | webSocketServer
  deriving DecidableEq

/-- All roles. -/
def Role.all : List Role := [.wifi, .wifiUdp, .wifiClient, .wifiClientSecure, .wifiMulti, .spiffs,
  .mqtt, .esp, .eeprom, .webSocketClient, .webSocketServer]

theorem Role.mem_all (role : Role) : role ∈ Role.all := by
  cases role <;> decide

/-- The object has the role: the test of a block. -/
def Object.has (o : Object) : Role → Bool
  | .wifi => o.wifi != 255
  | .wifiUdp => o.wifiudp != 255
  | .wifiClient => o.wificlient != 255
  | .wifiClientSecure => o.wificlientsecure != 255
  | .wifiMulti => o.wiFiMulti
  | .spiffs => o.spiffs
  | .mqtt => o.mqttSupport
  | .esp => o.esp != 255
  | .eeprom => o.espEeprom != 255
  | .webSocketClient => o.websocketclient != 255
  | .webSocketServer => o.websocketserver != 255

/-- The header of the frames of a role. -/
def Role.header : Role → UInt8 × UInt8
  | .wifi => (0xA2, 0xA2)
  | .wifiUdp => (0xCC, 0xCC)
  | .wifiClient => (0xA6, 0xA6)
  | .wifiClientSecure => (0xAD, 0xCC)
  | .wifiMulti => (0xBA, 0xBA)
  | .spiffs => (0x34, 0x34)
  | .mqtt => (0x38, 0x38)
  | .esp => (0xA4, 0xA4)
  | .eeprom => (0xBB, 0xBB)
  | .webSocketClient => (0xEA, 0xEA)
  | .webSocketServer => (0xEA, 0xEA)

/-- Four questions to the ESP are asked by objects for files: `getCoreVersion`, `getSketchMD5`,
`getResetReason` and `getResetInfo` test `_spiffs`. -/
def fileQuestions : List UInt8 := [0x15, 0x30, 0x33, 0x34]

/-- The frame of a command belongs to the role. -/
def Role.Speaks (role : Role) (cmd : Command) : Prop :=
  cmd.header = role.header ∨
    role = .spiffs ∧ cmd.header = Role.esp.header ∧ cmd.opcode ∈ fileQuestions

instance (role : Role) (cmd : Command) : Decidable (role.Speaks cmd) :=
  inferInstanceAs (Decidable (_ ∨ _ ∧ _ ∧ _))

/-! ## The blocks of the methods -/

/-- The block is for a role: it is entered only by objects that have it, and writes its frames. -/
def Stage.For (o : Object) (role : Role) (stage : Stage) : Prop :=
  ∀ h cmd, stage.command? h = some cmd → o.has role = true ∧ role.Speaks cmd

/-- The blocks are for different roles. -/
def Method.ForRoles (o : Object) (m : Method) : Prop :=
  ∃ roles : List Role, roles.Nodup ∧ List.Forall₂ (Stage.For o) roles m.stages

section Stages

variable {o : Object} (role : Role) {active : Bool}

theorem Stage.for_request {e : Exchange} (hactive : active = true → o.has role = true)
    (hspeaks : role.Speaks e.command) : (Stage.request active e).For o role := by
  intro h cmd hcmd
  rw [command?, Option.ite_none_right_eq_some] at hcmd
  exact ⟨hactive hcmd.1, Option.some.inj hcmd.2 ▸ hspeaks⟩

theorem Stage.for_send {c : Command} {result : Option Value}
    (hactive : active = true → o.has role = true) (hspeaks : role.Speaks c) :
    (Stage.send active c result).For o role := by
  intro h cmd hcmd
  rw [command?, Option.ite_none_right_eq_some] at hcmd
  exact ⟨hactive hcmd.1, Option.some.inj hcmd.2 ▸ hspeaks⟩

theorem Stage.for_update {change : Handlers → Handlers} {command : Handlers → Command}
    (hactive : active = true → o.has role = true) (hspeaks : ∀ h, role.Speaks (command h)) :
    (Stage.update active change command).For o role := by
  intro h cmd hcmd
  rw [command?, Option.ite_none_right_eq_some] at hcmd
  exact ⟨hactive hcmd.1, Option.some.inj hcmd.2 ▸ hspeaks _⟩

theorem Stage.for_undefined : (Stage.undefined active).For o role := by
  intro h cmd hcmd
  cases hcmd

/-- A method with one block. -/
theorem Method.forRoles_single {m : Method} {stage : Stage} (hm : m.stages = [stage])
    (h : stage.For o role) : m.ForRoles o := by
  refine ⟨[role], List.nodup_singleton role, ?_⟩
  rw [hm]
  exact .cons h .nil

end Stages

theorem SpiffsCall.forRoles (o : Object) (c : SpiffsCall) : (c.method o).ForRoles o := by
  cases c <;> exact Method.forRoles_single .spiffs rfl (Stage.for_request .spiffs id (.inl rfl))

theorem UdpCall.forRoles (o : Object) (c : UdpCall) : (c.method o).ForRoles o := by
  cases c <;> exact Method.forRoles_single .wifiUdp rfl (Stage.for_request .wifiUdp id (.inl rfl))

/-- The roles in which a method can be called that several roles share, in the order of its
blocks. -/
def StreamCall.roles : StreamCall → List Role
  | .readBuffer _ | .peek | .available | .read =>
    [.spiffs, .wifiClient, .wifiClientSecure, .wifiUdp]
  | .flush => [.spiffs, .wifiClient, .wifiUdp]
  | .writeBuffer _ => [.spiffs, .wifiClient, .wifiUdp, .wifiClientSecure]
  | .connected => [.mqtt, .wifiClient, .wifiClientSecure]
  | .begin => [.wifi, .spiffs, .webSocketServer]
  | .disconnect _ => [.wifi, .mqtt, .webSocketClient, .webSocketServer]
  | .localIP | .status => [.wifi, .wifiClient]
  | .connectHost _ _ | .connectAddress _ _ | .peekBytes _ => [.wifiClient, .wifiClientSecure]
  | .stop => [.wifiClient, .wifiClientSecure, .wifiUdp]
  | .remoteIP | .remotePort | .localPort | .stopAll => [.wifiClient, .wifiUdp]
  | .beginPort _ => [.wifiUdp, .eeprom]

theorem StreamCall.forRoles (o : Object) (c : StreamCall) : (c.method o).ForRoles o := by
  refine ⟨c.roles, by unfold roles; split <;> decide, ?_⟩
  cases c <;> repeat'
    first
    | exact Stage.for_request _ id (.inl rfl)
    | exact Stage.for_send _ id (.inl rfl)
    | exact .nil
    | refine .cons ?_ ?_

theorem ClientCall.forRoles (o : Object) (c : ClientCall) : (c.method o).ForRoles o := by
  cases c <;>
    first
    | exact Method.forRoles_single .wifiClient rfl (Stage.for_request _ id (.inl rfl))
    | exact Method.forRoles_single .wifiClient rfl (Stage.for_send _ id (.inl rfl))
    | exact Method.forRoles_single .wifiClientSecure rfl (Stage.for_request _ id (.inl rfl))
    | exact Method.forRoles_single .wifiClientSecure rfl (Stage.for_send _ id (.inl rfl))

theorem MqttCall.forRoles (o : Object) (c : MqttCall) : (c.method o).ForRoles o := by
  unfold MqttCall.method
  split <;>
    first
    | exact Method.forRoles_single .mqtt rfl (Stage.for_request _ id (.inl rfl))
    | exact Method.forRoles_single .mqtt rfl (Stage.for_update _ id fun _ => .inl rfl)

/-- The two registrations that do not test for a role. -/
def WebSocketCall.isOpen : WebSocketCall → Bool
  | .onEventClient _ | .onEventServer _ => true
  | _ => false

theorem WebSocketCall.forRoles (o : Object) (c : WebSocketCall) (hclosed : c.isOpen = false) :
    (c.method o).ForRoles o := by
  cases c <;>
    first
    | exact Bool.noConfusion hclosed
    | exact Method.forRoles_single .webSocketClient rfl (Stage.for_request _ id (.inl rfl))
    | exact Method.forRoles_single .webSocketClient rfl (Stage.for_send _ id (.inl rfl))
    | exact Method.forRoles_single .webSocketServer rfl (Stage.for_request _ id (.inl rfl))
    | exact Method.forRoles_single .webSocketServer rfl (Stage.for_send _ id (.inl rfl))
    | exact ⟨[.webSocketClient, .webSocketServer], by decide,
        .cons (Stage.for_send _ id (.inl rfl)) (.cons (Stage.for_send _ id (.inl rfl)) .nil)⟩

theorem WiFiCall.forRoles (o : Object) (c : WiFiCall) : (c.method o).ForRoles o := by
  have hboth {p q : Bool} (h : (p && q) = true) : p = true := (Bool.and_eq_true_iff.mp h).1
  unfold WiFiCall.method
  split <;>
    first
    | exact Method.forRoles_single .wifi rfl (Stage.for_request _ id (.inl rfl))
    | exact Method.forRoles_single .wifi rfl (Stage.for_send _ id (.inl rfl))
    | exact Method.forRoles_single .wifi rfl (Stage.for_update _ id fun _ => .inl rfl)
    | exact Method.forRoles_single .wifi rfl (Stage.for_request _ hboth (.inl rfl))

theorem AccessPointCall.forRoles (o : Object) (c : AccessPointCall) :
    (c.method o).ForRoles o := by
  unfold AccessPointCall.method
  split <;>
    first
    | exact Method.forRoles_single .wifi rfl (Stage.for_request _ id (.inl rfl))
    | exact Method.forRoles_single .wifi rfl (Stage.for_send _ id (.inl rfl))
    | exact Method.forRoles_single .wifi rfl (Stage.for_update _ id fun _ => .inl rfl)
    | exact Method.forRoles_single .wifi rfl (Stage.for_undefined _)
    | exact Method.forRoles_single .wifiMulti rfl (Stage.for_request _ id (.inl rfl))

theorem EspCall.forRoles (o : Object) (c : EspCall) : (c.method o).ForRoles o := by
  cases c <;>
    first
    | exact Method.forRoles_single .esp rfl (Stage.for_request _ id (.inl rfl))
    | exact Method.forRoles_single .esp rfl (Stage.for_send _ id (.inl rfl))
    | exact Method.forRoles_single .eeprom rfl (Stage.for_request _ id (.inl rfl))
    | exact Method.forRoles_single .eeprom rfl (Stage.for_send _ id (.inl rfl))
    | exact Method.forRoles_single .spiffs rfl
        (Stage.for_request _ id (.inr ⟨rfl, rfl, by decide⟩))

/-! ## Calls -/

namespace Call

/-- The object a method is called on; the methods of `AsyncUDP` are static. -/
def object? : Call → Option Object
  | spiffs o _ | stream o _ | udp o _ | client o _ | mqtt o _ | webSocket o _ | wifi o _
  | accessPoint o _ | esp o _ => some o
  | asyncUdp _ => none

/-- The registrations of the handlers of web sockets can be made on every object. -/
def isOpen : Call → Bool
  | webSocket _ call => call.isOpen
  | _ => false

/-- The commands of a call, in the order of the blocks. -/
def commands (c : Call) (h : Handlers) : List Command :=
  c.method.stages.filterMap (Stage.command? h)

theorem mem_commands_iff {c : Call} {h : Handlers} {cmd : Command} :
    cmd ∈ c.commands h ↔ c.method.Writes h cmd := List.mem_filterMap

/-- **The blocks of a method are for different roles.** -/
theorem forRoles {c : Call} {o : Object} (hobj : c.object? = some o) (hclosed : c.isOpen = false) :
    c.method.ForRoles o := by
  cases c with
  | asyncUdp call => cases hobj
  | webSocket o' call =>
    obtain rfl := Option.some.inj hobj
    exact call.forRoles o' hclosed
  | spiffs o' call | stream o' call | udp o' call | client o' call | mqtt o' call | wifi o' call
  | accessPoint o' call | esp o' call =>
    obtain rfl := Option.some.inj hobj
    exact call.forRoles o'

end Call

/-! ## Constructors -/

/-- The characters of a string literal. -/
def ascii (s : String) : List UInt8 := s.toList.map fun c => UInt8.ofNat c.toNat

example : ascii "WiFi" = [0x57, 0x69, 0x46, 0x69] := by decide

/-- The constructors. -/
inductive Construction
  /-- With the address of a broker. -/
  | broker
  /-- With a remote name and a location. -/
  | remote
  /-- With the name of a role and the port. -/
  | controlled (data : List UInt8)
  /-- With the name of a role alone. -/
  | plain (data : List UInt8)

/-- What the two members without an initialiser hold before the constructor. -/
structure Unset where
  spiffs : Bool
  mqttSupport : Bool

/-- In static storage they are zero. -/
def Unset.static : Unset := ⟨false, false⟩

/-- An object before a role is chosen. -/
def Unset.object (u : Unset) : Object :=
  { Object.initial with spiffs := u.spiffs, mqttSupport := u.mqttSupport }

/-- The object that is constructed, as far as the methods read its members: the names `WiFiMulti`,
`ESPWire` and `ESPSPI` set members that none of them reads. -/
def Construction.object (u : Unset) : Construction → Object
  | broker => { u.object with mqttSupport := true }
  | remote => u.object
  | controlled data =>
    if data = ascii "WiFi" then { u.object with wifi := 1 }
    else if data = ascii "WiFiUdp" then { u.object with wifiudp := 1 }
    else if data = ascii "WiFiClient" then { u.object with wificlient := 0 }
    else if data = ascii "WiFiClientSecure" then { u.object with wificlientsecure := 0 }
    else if data = ascii "WiFiMulti" then u.object
    else if data = ascii "ESPWire" then u.object
    else if data = ascii "ESPSPI" then u.object
    else if data = ascii "SPIFFS" then { u.object with spiffs := true }
    else if data = ascii "MQTT" then { u.object with mqttSupport := true }
    else if data = ascii "ESP" then { u.object with esp := 1 }
    else if data = ascii "EEPROM" then { u.object with espEeprom := 1 }
    else if data = ascii "WSC" then { u.object with websocketclient := 1 }
    else if data = ascii "WSS" then { u.object with websocketserver := 1 }
    else u.object
  | plain data =>
    if data = ascii "WiFi" then { u.object with wifi := 1 }
    else if data = ascii "SPIFFS" then { u.object with spiffs := true }
    else if data = ascii "ESP" then { u.object with esp := 1 }
    else if data = ascii "WiFiMulti" then { u.object with wiFiMulti := true }
    else u.object

/-- No two roles of an object. -/
def Object.OneRole (o : Object) : Prop := ∀ role role', o.has role = true → o.has role' = true →
  role = role'

theorem Object.oneRole_of {o : Object} (role : Role)
    (h : ∀ role', o.has role' = true → role' = role) : o.OneRole :=
  fun role₁ role₂ h₁ h₂ => (h role₁ h₁).trans (h role₂ h₂).symm

theorem Object.oneRole_initial : Object.initial.OneRole := by
  intro role role' h
  cases role <;> cases h

theorem Object.oneRole_ite {p : Prop} [Decidable p] {o o' : Object} (h : o.OneRole)
    (h' : o'.OneRole) : (if p then o else o').OneRole := by
  split
  · exact h
  · exact h'

/-- The roles of the first object are those of the second, and the ones left from before. -/
def Unset.Adds (u : Unset) (o o' : Object) : Prop := ∀ role, o.has role = true ↔
  o'.has role = true ∨ role = .spiffs ∧ u.spiffs = true ∨ role = .mqtt ∧ u.mqttSupport = true

theorem Unset.adds_ite {u : Unset} {p : Prop} [Decidable p] {o₁ o₁' o₂ o₂' : Object}
    (h₁ : u.Adds o₁ o₁') (h₂ : u.Adds o₂ o₂') :
    u.Adds (if p then o₁ else o₂) (if p then o₁' else o₂') := by
  split
  · exact h₁
  · exact h₂

namespace Construction

/-- **An object in static storage has one role at most.** -/
theorem oneRole (k : Construction) : (k.object .static).OneRole := by
  have hone {o : Object} (role : Role) (h : ∀ role' ∈ Role.all, o.has role' = true → role' = role) :
      o.OneRole := Object.oneRole_of role fun role' => h role' (Role.mem_all role')
  cases k with
  | broker => exact hone .mqtt (by decide)
  | remote => exact Object.oneRole_initial
  | controlled data =>
    refine Object.oneRole_ite (hone .wifi (by decide)) ?_
    refine Object.oneRole_ite (hone .wifiUdp (by decide)) ?_
    refine Object.oneRole_ite (hone .wifiClient (by decide)) ?_
    refine Object.oneRole_ite (hone .wifiClientSecure (by decide)) ?_
    refine Object.oneRole_ite Object.oneRole_initial ?_
    refine Object.oneRole_ite Object.oneRole_initial ?_
    refine Object.oneRole_ite Object.oneRole_initial ?_
    refine Object.oneRole_ite (hone .spiffs (by decide)) ?_
    refine Object.oneRole_ite (hone .mqtt (by decide)) ?_
    refine Object.oneRole_ite (hone .esp (by decide)) ?_
    refine Object.oneRole_ite (hone .eeprom (by decide)) ?_
    refine Object.oneRole_ite (hone .webSocketClient (by decide)) ?_
    exact Object.oneRole_ite (hone .webSocketServer (by decide)) Object.oneRole_initial
  | plain data =>
    refine Object.oneRole_ite (hone .wifi (by decide)) ?_
    refine Object.oneRole_ite (hone .spiffs (by decide)) ?_
    refine Object.oneRole_ite (hone .esp (by decide)) ?_
    exact Object.oneRole_ite (hone .wifiMulti (by decide)) Object.oneRole_initial

/-- **Elsewhere it has this role and what was left from before.** -/
theorem adds (k : Construction) (u : Unset) : u.Adds (k.object u) (k.object .static) := by
  obtain ⟨spiffs, mqttSupport⟩ := u
  have hadds {u : Unset} {o o' : Object} (h : ∀ role ∈ Role.all, o.has role = true ↔
      o'.has role = true ∨ role = .spiffs ∧ u.spiffs = true ∨
        role = .mqtt ∧ u.mqttSupport = true) : u.Adds o o' :=
    fun role => h role (Role.mem_all role)
  cases k with
  | broker => exact hadds (by revert spiffs mqttSupport; decide)
  | remote => exact hadds (by revert spiffs mqttSupport; decide)
  | controlled data =>
    repeat' refine Unset.adds_ite ?_ ?_
    all_goals exact hadds (by revert spiffs mqttSupport; decide)
  | plain data =>
    repeat' refine Unset.adds_ite ?_ ?_
    all_goals exact hadds (by revert spiffs mqttSupport; decide)

end Construction

/-! ## What is written -/

section Writing

variable {o : Object} {roles : List Role} {stages : List Stage} {hs : Handlers}

/-- Blocks for roles that the object does not have write nothing. -/
theorem filterMap_command_eq_nil (h : List.Forall₂ (Stage.For o) roles stages)
    (hnone : ∀ role ∈ roles, o.has role ≠ true) :
    stages.filterMap (Stage.command? hs) = [] := by
  induction h with
  | nil => rfl
  | @cons role stage roles stages hstage hrest ih =>
    obtain ⟨hfirst, hroles⟩ := List.forall_mem_cons.mp hnone
    cases hcmd : stage.command? hs with
    | none =>
      rw [List.filterMap_cons_none hcmd]
      exact ih hroles
    | some cmd => exact absurd (hstage hs cmd hcmd).1 hfirst

/-- Of blocks for different roles one writes at most, when the object has one role. -/
theorem length_filterMap_command_le (hone : o.OneRole) (hroles : roles.Nodup)
    (h : List.Forall₂ (Stage.For o) roles stages) :
    (stages.filterMap (Stage.command? hs)).length ≤ 1 := by
  induction h with
  | nil => exact Nat.zero_le 1
  | @cons role stage roles stages hstage hrest ih =>
    obtain ⟨hnew, hroles⟩ := List.nodup_cons.mp hroles
    cases hcmd : stage.command? hs with
    | none =>
      rw [List.filterMap_cons_none hcmd]
      exact ih hroles
    | some cmd =>
      -- the role of this block is the only one
      have hnone : ∀ role' ∈ roles, o.has role' ≠ true := fun role' hmem hrole' =>
        hnew (hone _ _ hrole' (hstage hs cmd hcmd).1 ▸ hmem)
      rw [List.filterMap_cons_some hcmd, filterMap_command_eq_nil hrest hnone]
      exact Nat.le_refl 1

/-- What a block writes belongs to a role of the object. -/
theorem exists_role_of_command (h : List.Forall₂ (Stage.For o) roles stages) {cmd : Command}
    (hmem : cmd ∈ stages.filterMap (Stage.command? hs)) :
    ∃ role, o.has role = true ∧ role.Speaks cmd := by
  induction h with
  | nil => cases hmem
  | @cons role stage roles stages hstage hrest ih =>
    cases hcmd : stage.command? hs with
    | none =>
      rw [List.filterMap_cons_none hcmd] at hmem
      exact ih hmem
    | some cmd' =>
      rw [List.filterMap_cons_some hcmd] at hmem
      rcases List.mem_cons.mp hmem with rfl | hmem
      · exact ⟨role, hstage hs cmd hcmd⟩
      · exact ih hmem

end Writing

/-- The registrations that every object can make. -/
theorem Call.length_commands_of_isOpen {c : Call} (hopen : c.isOpen = true) (h : Handlers) :
    (c.commands h).length ≤ 1 := by
  cases c with
  | webSocket o call =>
    cases call with
    | onEventClient handler => exact Nat.le_refl 1
    | onEventServer handler => exact Nat.le_refl 1
    | _ => exact Bool.noConfusion hopen
  | _ => exact Bool.noConfusion hopen

theorem Call.header_of_isOpen {c : Call} (hopen : c.isOpen = true) {h : Handlers} {cmd : Command}
    (hmem : cmd ∈ c.commands h) : cmd.header = Role.webSocketClient.header := by
  cases c with
  | webSocket o call =>
    cases call with
    | onEventClient handler => exact (List.mem_singleton.mp hmem) ▸ rfl
    | onEventServer handler => exact (List.mem_singleton.mp hmem) ▸ rfl
    | _ => exact Bool.noConfusion hopen
  | _ => exact Bool.noConfusion hopen

/-- In static storage a call has one frame to write at most. -/
theorem Construction.length_commands_le (k : Construction) {c : Call}
    (hobj : c.object? = some (k.object .static)) (h : Handlers) : (c.commands h).length ≤ 1 := by
  cases hopen : c.isOpen with
  | false =>
    obtain ⟨roles, hroles, hfor⟩ := Call.forRoles hobj hopen
    exact length_filterMap_command_le k.oneRole hroles hfor
  | true => exact Call.length_commands_of_isOpen hopen h

/-- What a call on an object may write: the frames of its roles.  The registrations of the handlers
of web sockets can be made on every object. -/
def Call.Allows (c : Call) (o : Object) (cmd : Command) : Prop :=
  if c.isOpen then cmd.header = Role.webSocketClient.header
  else ∃ role, o.has role = true ∧ role.Speaks cmd

theorem Call.allows_of_mem {c : Call} {o : Object} (hobj : c.object? = some o) {h : Handlers}
    {cmd : Command} (hmem : cmd ∈ c.commands h) : c.Allows o cmd := by
  unfold Allows
  split
  · next hopen => exact header_of_isOpen hopen hmem
  · next hclosed =>
    obtain ⟨roles, -, hfor⟩ := forRoles hobj (Bool.not_eq_true _ ▸ hclosed)
    exact exists_role_of_command hfor hmem

/-- **Objects write for their roles.**  However an object is constructed, its roles are the one it
has in static storage, and those that the two members without an initialiser held before.  Whatever
a call on it writes beside the probes and NAKs of `events()` and the blocks of the handlers that run
while it waits are frames of these roles, and in static storage it is one frame at most. -/
theorem Construction.writes_for_role (k : Construction) (u : Unset) {c : Call}
    (hobj : c.object? = some (k.object u)) {S : List UInt8 → Prop} {user : Prog Unit}
    (huser : user.Along (Sends S)) :
    u.Adds (k.object u) (k.object .static) ∧ (k.object .static).OneRole ∧
      (c.run (do let _ ← events user)).Along fun w w' =>
        ∃ own, SendsOwn (fun block => Duty block ∨ S block) own w w' ∧
          (u = .static → own.length ≤ 1) ∧
          ∀ frame ∈ own, ∃ cmd garbage, frame = cmd.emit garbage ∧ c.Allows (k.object u) cmd := by
  refine ⟨k.adds u, k.oneRole, fun w => ?_⟩
  have hevents : (do let _ ← events user : Prog Unit).Along
      (Sends fun block => Duty block ∨ S block) :=
    (sends_events huser).bind fun _ => Along.pure ()
  have howned (w' : World)
      (h : SendsFor (fun block => Duty block ∨ S block) c.method.stages w w') :
      ∃ own, SendsOwn (fun block => Duty block ∨ S block) own w w' ∧
        (u = .static → own.length ≤ 1) ∧
        ∀ frame ∈ own, ∃ cmd garbage, frame = cmd.emit garbage ∧ c.Allows (k.object u) cmd := by
    obtain ⟨own, howns, hsends⟩ := h
    refine ⟨own, hsends, ?_, fun frame hmem => ?_⟩
    · rintro rfl
      exact (howns.length_le .initial).trans (k.length_commands_le hobj .initial)
    · obtain ⟨stage, hstage, hs, cmd, garbage, hcmd, hframe⟩ := howns.frames frame hmem
      exact ⟨cmd, garbage, hframe,
        Call.allows_of_mem hobj (Call.mem_commands_iff.mpr ⟨stage, hstage, hcmd⟩)⟩
  exact (Call.run_sendsFor hevents c w).mono (fun _ w' h => howned w' h) fun _ w' h => howned w' h

/-- `connected()` on an object for MQTT, and `flush()` on one where `_spiffs` held one before, while
no handler writes. -/
theorem writes_for_role_mqtt :
    (∀ w : World, ((Call.stream (Construction.broker.object .static) .connected).run
      (do let _ ← events (pure ()))).Ensures w fun _ w' =>
        ∃ own, SendsOwn (fun block => Duty block ∨ False) own w w' ∧ own.length ≤ 1) ∧
    ∀ w : World, ((Call.stream (Construction.broker.object ⟨true, false⟩) .flush).run
      (do let _ ← events (pure ()))).Ensures w fun _ w' =>
        ∃ own, SendsOwn (fun block => Duty block ∨ False) own w w' ∧ ∀ frame ∈ own,
          ∃ cmd garbage role, frame = cmd.emit garbage ∧
            (Construction.broker.object ⟨true, false⟩).has role = true ∧ role.Speaks cmd := by
  have hquiet : (pure () : Prog Unit).Along (Sends fun _ => False) := Along.pure ()
  obtain ⟨-, -, hone⟩ :=
    Construction.broker.writes_for_role .static (c := .stream _ .connected) rfl hquiet
  obtain ⟨-, -, hspeaks⟩ :=
    Construction.broker.writes_for_role ⟨true, false⟩ (c := .stream _ .flush) rfl hquiet
  refine ⟨fun w => (hone w).mono ?_ fun _ _ _ => trivial, fun w => (hspeaks w).mono ?_ fun _ _ _ =>
    trivial⟩
  · rintro _ w' ⟨own, hsends, hle, -⟩
    exact ⟨own, hsends, hle rfl⟩
  · rintro _ w' ⟨own, hsends, -, hframes⟩
    refine ⟨own, hsends, fun frame hmem => ?_⟩
    obtain ⟨cmd, garbage, hframe, role, hrole⟩ := hframes frame hmem
    exact ⟨cmd, garbage, role, hframe, hrole⟩

end Teensquitto
