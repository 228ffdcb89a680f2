import Teensquitto.Device.Effects
import Teensquitto.Method.Decoding

/-!
# The registration of handlers

A handler of MQTT or of the wireless network is announced to the ESP by one bit of a mask, in a
frame that is written in the same breath as the handler is stored.  So the mask that the ESP was
told last is the library's own one, and no handler is ever called that was not announced.

## Main definitions

* `Mask`, `Slot.flag`: the two masks, and the bit of a handler
* `announced`: the mask that was told last
* `Registers`: what a registration does
* `Registered`: a handler was registered

## Main results

* `Call.registers`: the blocks that change handlers are registrations
* `preserves_announces`, `preserves_handlersRegistered`: the two invariants
* `always_registered_announced`: they hold at every moment of every run
-/

namespace Teensquitto

open EStateM Relation

/-! ## Masks -/

/-- The masks in which handlers are announced. -/
inductive Mask
  | mqtt
  | wifi
  deriving DecidableEq

/-- The function that announces a mask. -/
def Mask.command : Mask → Handlers → Command
  | mqtt => update_mqtt_handlers
  | wifi => update_wifi_handlers

/-- The header and the opcode of its frames. -/
def Mask.key : Mask → Key
  | mqtt => ⟨0x38, 0x38, 0x17⟩
  | wifi => ⟨0xA2, 0xA2, 0x45⟩

/-- The mask. -/
def Handlers.mask (h : Handlers) : Mask → UInt8
  | .mqtt => h.mqttHandlers
  | .wifi => h.wifiHandlers

/-- The mask a handler is announced in, and its bit. -/
def Slot.announcement : Slot → Option (Mask × UInt8)
  | .mqttConnect => some (.mqtt, 0)
  | .mqttDisconnect => some (.mqtt, 1)
  | .mqttSub => some (.mqtt, 2)
  | .mqttUnsub => some (.mqtt, 3)
  | .mqttMessage => some (.mqtt, 4)
  | .mqttPub => some (.mqtt, 5)
  | .wifiOnSTAgotIP => some (.wifi, 0)
  | .wifiOnSTADisconnect => some (.wifi, 1)
  | .wifiOnSTAConnected => some (.wifi, 2)
  | .wifiOnSTAAuthModeChange => some (.wifi, 3)
  | .wifiOnSTADHCPtimeout => some (.wifi, 4)
  | .wifiOnAPConnected => some (.wifi, 5)
  | .wifiOnAPDisconnected => some (.wifi, 6)
  | .wifiOnAPProbe => some (.wifi, 7)
  | _ => none

/-- The bit of a handler in a mask, or nothing. -/
def Slot.flag (slot : Slot) (mask : Mask) : UInt8 :=
  match slot.announcement with
  | some (m, bit) => if m = mask then 1 <<< bit else 0
  | none => 0

/-- The bit of the handler is set in a value of the mask. -/
def Slot.InMask (slot : Slot) (mask : Mask) (value : UInt8) : Prop :=
  value ||| slot.flag mask = value

instance (slot : Slot) (mask : Mask) (value : UInt8) : Decidable (slot.InMask mask value) :=
  inferInstanceAs (Decidable (_ = _))

/-- Bits are only added. -/
theorem Slot.InMask.or {slot : Slot} {mask : Mask} {value : UInt8} (h : slot.InMask mask value)
    (bits : UInt8) : slot.InMask mask (value ||| bits) := by
  unfold InMask at h ⊢
  rw [UInt8.or_assoc, UInt8.or_comm bits, ← UInt8.or_assoc, h]

theorem Slot.inMask_or_flag (slot : Slot) (mask : Mask) (value : UInt8) :
    slot.InMask mask (value ||| slot.flag mask) := by
  unfold InMask
  rw [UInt8.or_assoc, UInt8.or_self]

/-! ## The mask that was told last -/

/-- The mask in the last frame with this header and opcode. -/
def announced (key : Key) (sent : List (List UInt8)) : UInt8 :=
  ((sent.filter fun block => keyOf block = key).getLast?.map fun block => block.getD 6 0).getD 0

theorem announced_snoc_of_eq {key : Key} {sent : List (List UInt8)} {block : List UInt8}
    (h : keyOf block = key) : announced key (sent ++ [block]) = block.getD 6 0 := by
  simp [announced, List.filter_append, h]

theorem announced_snoc_of_ne {key : Key} {sent : List (List UInt8)} {block : List UInt8}
    (h : keyOf block ≠ key) : announced key (sent ++ [block]) = announced key sent := by
  simp [announced, List.filter_append, h]

theorem Mask.key_command (mask : Mask) (h : Handlers) : (mask.command h).key = mask.key := by
  cases mask <;> rfl

theorem Mask.key_ne (mask : Mask) {mask' : Mask} (h : mask ≠ mask') : mask.key ≠ mask'.key := by
  cases mask <;> cases mask' <;> first | exact absurd rfl h | decide

/-- The frame that announces a mask. -/
theorem Mask.emit_command (mask : Mask) (h : Handlers) (garbage : Memory UInt8) :
    ((mask.command h).emit garbage).getD 6 0 = h.mask mask := by
  have hsize : (mask.command h).size ≤ 2 ^ (mask.command h).indexBits := by
    cases mask <;> exact (by decide : 8 ≤ 2 ^ 16)
  rw [Command.emit_eq_cons garbage hsize]
  cases mask <;> rfl

theorem Mask.keyOf_command (mask : Mask) (h : Handlers) (garbage : Memory UInt8) :
    keyOf ((mask.command h).emit garbage) = mask.key := by
  have hsize : (mask.command h).size ≤ 2 ^ (mask.command h).indexBits := by
    cases mask <;> exact (by decide : 8 ≤ 2 ^ 16)
  rw [Command.keyOf_emit garbage hsize, mask.key_command]

/-! ## Registrations -/

/-- What a registration does: the handler is stored, its bit is added to its mask, and the frame
announces this mask or is about a handler that has none. -/
structure Registers (slot : Slot) (handler : Bool) (change : Handlers → Handlers)
    (command : Handlers → Command) : Prop where
  present : ∀ h s, (change h).present s = if s = slot then handler else h.present s
  mask : ∀ h m, (change h).mask m = h.mask m ||| slot.flag m
  command : (∃ m bit, slot.announcement = some (m, bit) ∧ command = m.command) ∨
    slot.announcement = none ∧ ∀ h (m : Mask), (command h).key ≠ m.key

/-- The handler a method registers, and whether it is set. -/
def Call.handler? : Call → Option (Slot × Bool)
  | .mqtt _ (.onConnect b) => some (.mqttConnect, b)
  | .mqtt _ (.onDisconnect b) => some (.mqttDisconnect, b)
  | .mqtt _ (.onSubscribe b) => some (.mqttSub, b)
  | .mqtt _ (.onUnsubscribe b) => some (.mqttUnsub, b)
  | .mqtt _ (.onMessage b) => some (.mqttMessage, b)
  | .mqtt _ (.onPublish b) => some (.mqttPub, b)
  | .webSocket _ (.onEventClient b) => some (.wscHndl, b)
  | .webSocket _ (.onEventServer b) => some (.wssHndl, b)
  | .wifi _ (.onStationModeGotIP b) => some (.wifiOnSTAgotIP, b)
  | .wifi _ (.onStationModeDisconnected b) => some (.wifiOnSTADisconnect, b)
  | .wifi _ (.onStationModeConnected b) => some (.wifiOnSTAConnected, b)
  | .wifi _ (.onStationModeAuthModeChanged b) => some (.wifiOnSTAAuthModeChange, b)
  | .wifi _ (.onStationModeDHCPTimeout b) => some (.wifiOnSTADHCPtimeout, b)
  | .wifi _ (.onSoftAPModeStationConnected b) => some (.wifiOnAPConnected, b)
  | .wifi _ (.onSoftAPModeStationDisconnected b) => some (.wifiOnAPDisconnected, b)
  | .wifi _ (.onSoftAPModeProbeRequestReceived b) => some (.wifiOnAPProbe, b)
  | .accessPoint _ (.scanNetworksAsync b _) => some (.wifiScanHndl, b)
  | .asyncUdp (.onPacket b) => some (.udpHandler, b)
  | _ => none

/-- A block that changes handlers makes this registration. -/
def Stage.Registering (r : Option (Slot × Bool)) (stage : Stage) : Prop :=
  ∀ change command, stage = .update true change command →
    ∃ slot handler, r = some (slot, handler) ∧ Registers slot handler change command

section Registering

variable {r : Option (Slot × Bool)} {slot : Slot} {handler : Bool}

theorem Stage.registering_request (active : Bool) (e : Exchange) :
    (Stage.request active e).Registering r := fun _ _ h => Stage.noConfusion h

theorem Stage.registering_send (active : Bool) (c : Command) (result : Option Value) :
    (Stage.send active c result).Registering r := fun _ _ h => Stage.noConfusion h

theorem Stage.registering_undefined (active : Bool) :
    (Stage.undefined active).Registering r := fun _ _ h => Stage.noConfusion h

theorem Stage.registering_update {active : Bool} {change : Handlers → Handlers}
    {command : Handlers → Command} (h : Registers slot handler change command) :
    (Stage.update active change command).Registering (some (slot, handler)) := by
  intro change' command' heq
  cases heq
  exact ⟨slot, handler, rfl, h⟩

/-- A handler of MQTT. -/
theorem registers_mqtt {bit : UInt8} (h : slot.announcement = some (.mqtt, bit)) :
    Registers slot handler (fun hs => (hs.set slot handler).setMqttBit bit)
      update_mqtt_handlers where
  present hs s := rfl
  mask hs m := by
    unfold Slot.flag
    rw [h]
    cases m with
    | mqtt => rfl
    | wifi => exact UInt8.or_zero.symm
  command := .inl ⟨.mqtt, bit, h, rfl⟩

/-- A handler of the wireless network. -/
theorem registers_wifi {bit : UInt8} (h : slot.announcement = some (.wifi, bit)) :
    Registers slot handler (fun hs => (hs.set slot handler).setWiFiBit bit)
      update_wifi_handlers where
  present hs s := rfl
  mask hs m := by
    unfold Slot.flag
    rw [h]
    cases m with
    | mqtt => exact UInt8.or_zero.symm
    | wifi => rfl
  command := .inl ⟨.wifi, bit, h, rfl⟩

/-- A handler that has no bit. -/
theorem registers_plain {c : Command} (h : slot.announcement = none)
    (hkey : ∀ m : Mask, c.key ≠ m.key) :
    Registers slot handler (fun hs => hs.set slot handler) fun _ => c where
  present hs s := rfl
  mask hs m := by
    unfold Slot.flag
    rw [h]
    exact UInt8.or_zero.symm
  command := .inr ⟨h, fun _ => hkey⟩

end Registering

theorem StreamCall.registering (o : Object) (c : StreamCall) :
    ∀ stage ∈ (c.method o).stages, stage.Registering none := by
  cases c <;> repeat'
    first
    | exact Stage.registering_request _ _
    | exact Stage.registering_send _ _ _
    | exact List.forall_mem_nil _
    | refine List.forall_mem_cons.mpr ⟨?_, ?_⟩

theorem SpiffsCall.registering (o : Object) (c : SpiffsCall) :
    ∀ stage ∈ (c.method o).stages, stage.Registering none := by
  cases c <;> exact List.forall_mem_singleton.mpr (Stage.registering_request _ _)

theorem UdpCall.registering (o : Object) (c : UdpCall) :
    ∀ stage ∈ (c.method o).stages, stage.Registering none := by
  cases c <;> exact List.forall_mem_singleton.mpr (Stage.registering_request _ _)

theorem ClientCall.registering (o : Object) (c : ClientCall) :
    ∀ stage ∈ (c.method o).stages, stage.Registering none := by
  cases c <;>
    first
    | exact List.forall_mem_singleton.mpr (Stage.registering_request _ _)
    | exact List.forall_mem_singleton.mpr (Stage.registering_send _ _ _)

theorem EspCall.registering (o : Object) (c : EspCall) :
    ∀ stage ∈ (c.method o).stages, stage.Registering none := by
  cases c <;>
    first
    | exact List.forall_mem_singleton.mpr (Stage.registering_request _ _)
    | exact List.forall_mem_singleton.mpr (Stage.registering_send _ _ _)

theorem MqttCall.registering (o : Object) (c : MqttCall) :
    ∀ stage ∈ (c.method o).stages, stage.Registering (Call.mqtt o c).handler? := by
  unfold MqttCall.method
  split <;>
    first
    | exact List.forall_mem_singleton.mpr (Stage.registering_request _ _)
    | exact List.forall_mem_singleton.mpr (Stage.registering_update (registers_mqtt rfl))

theorem WebSocketCall.registering (o : Object) (c : WebSocketCall) :
    ∀ stage ∈ (c.method o).stages, stage.Registering (Call.webSocket o c).handler? := by
  have hclient (m : Mask) : (⟨0xEA, 0xEA, 0x23⟩ : Key) ≠ m.key := by cases m <;> decide
  have hserver (m : Mask) : (⟨0xEA, 0xEA, 0x24⟩ : Key) ≠ m.key := by cases m <;> decide
  cases c with
  | onEventClient handler =>
    exact List.forall_mem_singleton.mpr (Stage.registering_update (registers_plain rfl hclient))
  | onEventServer handler =>
    exact List.forall_mem_singleton.mpr (Stage.registering_update (registers_plain rfl hserver))
  | setAuthorization user password =>
    exact List.forall_mem_cons.mpr ⟨Stage.registering_send _ _ _,
      List.forall_mem_singleton.mpr (Stage.registering_send _ _ _)⟩
  | setAuthorizationToken auth =>
    exact List.forall_mem_cons.mpr ⟨Stage.registering_send _ _ _,
      List.forall_mem_singleton.mpr (Stage.registering_send _ _ _)⟩
  | _ =>
    first
    | exact List.forall_mem_singleton.mpr (Stage.registering_request _ _)
    | exact List.forall_mem_singleton.mpr (Stage.registering_send _ _ _)

theorem WiFiCall.registering (o : Object) (c : WiFiCall) :
    ∀ stage ∈ (c.method o).stages, stage.Registering (Call.wifi o c).handler? := by
  unfold WiFiCall.method
  split <;>
    first
    | exact List.forall_mem_singleton.mpr (Stage.registering_request _ _)
    | exact List.forall_mem_singleton.mpr (Stage.registering_send _ _ _)
    | exact List.forall_mem_singleton.mpr (Stage.registering_update (registers_wifi rfl))

theorem AccessPointCall.registering (o : Object) (c : AccessPointCall) :
    ∀ stage ∈ (c.method o).stages, stage.Registering (Call.accessPoint o c).handler? := by
  have hkey (m : Mask) : (⟨0xA2, 0xA2, 0x55⟩ : Key) ≠ m.key := by cases m <;> decide
  unfold AccessPointCall.method
  split <;>
    first
    | exact List.forall_mem_singleton.mpr (Stage.registering_request _ _)
    | exact List.forall_mem_singleton.mpr (Stage.registering_send _ _ _)
    | exact List.forall_mem_singleton.mpr (Stage.registering_undefined _)
    | exact List.forall_mem_singleton.mpr (Stage.registering_update (registers_plain rfl hkey))

theorem AsyncUdpCall.registering (c : AsyncUdpCall) :
    ∀ stage ∈ c.method.stages, stage.Registering (Call.asyncUdp c).handler? := by
  have hkey (m : Mask) : (⟨0xCE, 0xCE, 0x07⟩ : Key) ≠ m.key := by cases m <;> decide
  cases c <;>
    first
    | exact List.forall_mem_singleton.mpr (Stage.registering_request _ _)
    | exact List.forall_mem_singleton.mpr (Stage.registering_send _ _ _)
    | exact List.forall_mem_singleton.mpr (Stage.registering_update (registers_plain rfl hkey))

/-- **The blocks that change handlers are registrations.** -/
theorem Call.registering (c : Call) :
    ∀ stage ∈ c.method.stages, stage.Registering c.handler? := by
  cases c with
  | spiffs o call => exact call.registering o
  | stream o call => exact call.registering o
  | udp o call => exact call.registering o
  | client o call => exact call.registering o
  | mqtt o call => exact call.registering o
  | webSocket o call => exact call.registering o
  | wifi o call => exact call.registering o
  | accessPoint o call => exact call.registering o
  | esp o call => exact call.registering o
  | asyncUdp call => exact call.registering

theorem Call.registers {c : Call} {change : Handlers → Handlers} {command : Handlers → Command}
    (h : .update true change command ∈ c.method.stages) :
    ∃ slot handler, c.handler? = some (slot, handler) ∧ Registers slot handler change command :=
  c.registering _ h change command rfl

/-! ## Commands of other methods -/

theorem Stage.Tells.command? {stage : Stage} {cmd : Command} (h : stage.Tells cmd)
    (hs : Handlers) : stage.command? hs = some cmd := by
  cases h with
  | request e => rfl
  | send c result => rfl

theorem Stage.not_tells_update (active : Bool) (change : Handlers → Handlers)
    (command : Handlers → Command) (cmd : Command) :
    ¬(Stage.update active change command).Tells cmd := by
  intro h
  cases h

/-- The methods that announce a handler of MQTT write nothing else. -/
theorem MqttCall.not_tells {o : Object} {c : MqttCall} (h : c.index = 4) :
    ∀ stage ∈ (c.method o).stages, ∀ cmd, ¬stage.Tells cmd := by
  cases c <;>
    first
    | exact List.forall_mem_singleton.mpr (Stage.not_tells_update _ _ _)
    | exact absurd h (Nat.ne_of_beq_eq_false rfl)

/-- The methods that announce a handler of the wireless network write nothing else. -/
theorem WiFiCall.not_tells {o : Object} {c : WiFiCall} (h : c.index = 0) :
    ∀ stage ∈ (c.method o).stages, ∀ cmd, ¬stage.Tells cmd := by
  cases c <;>
    first
    | exact List.forall_mem_singleton.mpr (Stage.not_tells_update _ _ _)
    | exact absurd h (Nat.ne_of_beq_eq_false rfl)

/-- No other method writes a frame that looks like the announcement of a mask. -/
theorem Call.key_ne_of_tells {c : Call} {stage : Stage} {cmd : Command}
    (hmem : stage ∈ c.method.stages) (h : stage.Tells cmd) (mask : Mask) : cmd.key ≠ mask.key := by
  intro hkey
  have horigin := c.origin?_key ⟨stage, hmem, h.command? .initial⟩
  rw [hkey] at horigin
  -- the table names the methods that announce a mask
  cases mask with
  | mqtt =>
    obtain ⟨hfamily, hindex, -⟩ := Origin.mk.inj (Option.some.inj horigin)
    cases c with
    | mqtt o call => exact MqttCall.not_tells hindex.symm stage hmem cmd h
    | _ => cases hfamily
  | wifi =>
    obtain ⟨hfamily, hindex, -⟩ := Origin.mk.inj (Option.some.inj horigin)
    cases c with
    | wifi o call => exact WiFiCall.not_tells hindex.symm stage hmem cmd h
    | _ => cases hfamily

/-! ## The invariant -/

/-- The frames that were written fit their arrays: whatever was not written may be of any size. -/
def World.SentFits (w : World) : Prop :=
  ∀ c h cmd garbage, w.Called c → c.method.Writes h cmd → cmd.emit garbage ∈ w.sent →
    cmd.size ≤ 2 ^ cmd.indexBits

theorem Effect.sentFits {w w' : World} (h : Effect w w') (hfit : w'.SentFits) : w.SentFits :=
  fun c hs cmd garbage hcall hw hsent => hfit c hs cmd garbage (preserves_called c w w' h hcall) hw
    (h.sent_prefix.subset hsent)

/-- The ESP has been told both masks, and they hold the bits of all handlers that are set or were
called. -/
structure World.Announces (w : World) : Prop where
  told : ∀ mask : Mask, announced mask.key w.sent = w.handlers.mask mask
  present : ∀ slot mask, w.handlers.present slot = true → slot.InMask mask (w.handlers.mask mask)
  called : ∀ slot args mask, .handler slot args ∈ w.trace →
    slot.InMask mask (w.handlers.mask mask)

/-- A block that is no announcement. -/
theorem World.Announces.send {w : World} (h : w.Announces) {block : List UInt8}
    (hblock : ∀ mask : Mask, keyOf block ≠ mask.key) :
    World.Announces { w with sent := w.sent ++ [block] } where
  told mask := (announced_snoc_of_ne (hblock mask)).trans (h.told mask)
  present := h.present
  called := h.called

/-- Handlers are registered. -/
theorem World.Announces.update {w : World} (h : w.Announces) {slot : Slot} {handler : Bool}
    {change : Handlers → Handlers} {command : Handlers → Command}
    (hr : Registers slot handler change command) (garbage : Memory UInt8)
    (hfits : (command (change w.handlers)).size ≤ 2 ^ (command (change w.handlers)).indexBits) :
    World.Announces { w with
      handlers := change w.handlers
      sent := w.sent ++ [(command (change w.handlers)).emit garbage] } where
  told mask := by
    dsimp only
    rcases hr.command with ⟨m, bit, hslot, rfl⟩ | ⟨hslot, hkey⟩
    · by_cases hm : m = mask
      · subst hm
        rw [announced_snoc_of_eq (m.keyOf_command _ garbage), m.emit_command]
      · rw [announced_snoc_of_ne (by rw [m.keyOf_command]; exact m.key_ne hm), h.told, hr.mask]
        simp [Slot.flag, hslot, hm]
    · rw [announced_snoc_of_ne (by rw [Command.keyOf_emit garbage hfits]; exact hkey _ mask),
        h.told, hr.mask]
      simp [Slot.flag, hslot]
  present s mask hs := by
    dsimp only at hs ⊢
    rw [hr.present] at hs
    rw [hr.mask]
    split at hs
    · next heq => exact heq ▸ s.inMask_or_flag mask _
    · exact (h.present s mask hs).or _
  called s args mask hmem := by
    dsimp only
    rw [hr.mask]
    exact (h.called s args mask hmem).or _

/-- `onDetect` concerns a handler that has no bit. -/
theorem World.Announces.onDetect {w : World} (h : w.Announces) (handler : Bool) :
    World.Announces { w with handlers := w.handlers.set .espDetectHandler handler } where
  told mask := (h.told mask).trans (by cases mask <;> rfl)
  present slot mask hslot := by
    have hmask : (w.handlers.set .espDetectHandler handler).mask mask = w.handlers.mask mask := by
      cases mask <;> rfl
    by_cases heq : slot = .espDetectHandler
    · subst heq
      exact UInt8.or_zero
    · rw [hmask]
      exact h.present slot mask (by simpa [Handlers.set, heq] using hslot)
  called slot args mask hmem := by
    have hmask : (w.handlers.set .espDetectHandler handler).mask mask = w.handlers.mask mask := by
      cases mask <;> rfl
    rw [hmask]
    exact h.called slot args mask hmem

/-- **The masks that were told last are the ones of the library**, as long as the frames written
fit. -/
theorem preserves_announces : Preserves Effect fun w => w.SentFits → w.Announces := by
  refine Preserves.imp (fun w w' h => h.sentFits) fun w w' h hfit hw => ?_
  cases h with
  | nak a b =>
    refine hw.send fun mask hkey => ?_
    have hopcode : (0 : UInt8) = mask.key.opcode := congrArg Key.opcode hkey
    cases mask <;> exact absurd hopcode (by decide)
  | probe t t' ticks ticks' =>
    have hother (mask : Mask) : keyOf probeBlock ≠ mask.key := by cases mask <;> decide
    have hsend := hw.send hother
    exact ⟨hsend.told, hsend.present, hsend.called⟩
  | command c cmd garbage hcall hstage =>
    obtain ⟨stage, hmem, htells⟩ := hstage
    have hfits := hfit c .initial cmd garbage hcall ⟨stage, hmem, htells.command? .initial⟩
      (List.mem_append_right _ List.mem_cons_self)
    refine hw.send fun mask => ?_
    rw [Command.keyOf_emit garbage hfits]
    exact Call.key_ne_of_tells hmem htells mask
  | update c change command garbage hcall hstage =>
    obtain ⟨slot, handler, -, hr⟩ := Call.registers hstage
    have hwrites : c.method.Writes w.handlers (command (change w.handlers)) :=
      ⟨_, hstage, rfl⟩
    exact hw.update hr garbage (hfit c _ _ garbage hcall hwrites
      (List.mem_append_right _ List.mem_cons_self))
  | onDetect handler hcall => exact hw.onDetect handler
  | log e he =>
    refine ⟨hw.told, hw.present, fun slot args mask hmem => ?_⟩
    rcases List.mem_append.mp hmem with hold | hnew
    · exact hw.called slot args mask hold
    · rw [← List.mem_singleton.mp hnew] at he
      cases he
  | handler slot args hpresent =>
    refine ⟨hw.told, hw.present, fun s as mask hmem => ?_⟩
    rcases List.mem_append.mp hmem with hold | hnew
    · exact hw.called s as mask hold
    · obtain ⟨rfl, -⟩ := Event.handler.inj (List.mem_singleton.mp hnew)
      exact hw.present s mask hpresent
  | dispatch src len slot args p hinvocation hpresent =>
    refine ⟨hw.told, hw.present, fun s as mask hmem => ?_⟩
    rcases List.mem_append.mp hmem with hold | hnew
    · rcases List.mem_append.mp hold with hold | hnew
      · exact hw.called s as mask hold
      · cases List.mem_singleton.mp hnew
    · obtain ⟨rfl, -⟩ := Event.handler.inj (List.mem_singleton.mp hnew)
      exact hw.present s mask hpresent
  | pass src len hunset =>
    refine ⟨hw.told, hw.present, fun s as mask hmem => ?_⟩
    rcases List.mem_append.mp hmem with hold | hnew
    · exact hw.called s as mask hold
    · cases List.mem_singleton.mp hnew
  | status src hsrc hheader hstatus =>
    obtain ⟨_, _, _, _, _, heq⟩ := exists_statusFrame_eq src w
    rw [heq]
    exact ⟨hw.told, hw.present, hw.called⟩
  | _ => exact ⟨hw.told, hw.present, hw.called⟩

/-! ## Registered handlers -/

/-- The handler was registered: by its method, or by `onDetect`. -/
def Registered (slot : Slot) (trace : List Event) : Prop :=
  (slot = .espDetectHandler ∧ ∃ online, Event.onDetect online ∈ trace) ∨
    ∃ c online, Event.call c online ∈ trace ∧ c.handler? = some (slot, true)

theorem Registered.append {slot : Slot} {trace : List Event} (h : Registered slot trace)
    (l : List Event) : Registered slot (trace ++ l) := by
  rcases h with ⟨hslot, online, hmem⟩ | ⟨c, online, hmem, hc⟩
  · exact .inl ⟨hslot, online, List.mem_append_left l hmem⟩
  · exact .inr ⟨c, online, List.mem_append_left l hmem, hc⟩

/-- Handlers that are set were registered, and so was every handler when it was called. -/
structure World.HandlersRegistered (w : World) : Prop where
  present : ∀ slot, w.handlers.present slot = true → Registered slot w.trace
  called : ∀ before slot args after, w.trace = before ++ .handler slot args :: after →
    Registered slot before

/-- The same handlers are set, and an event is logged: no call, or the call of one that is set. -/
theorem World.HandlersRegistered.snoc {w w' : World} (h : w.HandlersRegistered) {e : Event}
    (hhandlers : w'.handlers = w.handlers) (htrace : w'.trace = w.trace ++ [e])
    (he : ∀ slot args, e = .handler slot args → w.handlers.present slot = true) :
    w'.HandlersRegistered where
  present slot hslot := by
    rw [htrace]
    rw [hhandlers] at hslot
    exact (h.present slot hslot).append [e]
  called before slot args after heq := by
    rw [htrace] at heq
    rcases List.eq_nil_or_concat after with rfl | ⟨after, last, rfl⟩
    · -- the last event is the call
      obtain ⟨rfl, hlast⟩ := List.append_inj' heq rfl
      exact h.present slot (he slot args (List.singleton_inj.mp hlast))
    · rw [List.concat_eq_append, ← List.cons_append, ← List.append_assoc] at heq
      exact h.called before slot args after (List.append_inj' heq rfl).1

/-- A handler is registered, and nothing is logged. -/
theorem World.HandlersRegistered.set {w w' : World} (h : w.HandlersRegistered)
    (htrace : w'.trace = w.trace)
    (hset : ∀ slot, w'.handlers.present slot = true →
      w.handlers.present slot = true ∨ Registered slot w.trace) : w'.HandlersRegistered where
  present slot hslot := by
    rw [htrace]
    exact (hset slot hslot).elim (h.present slot) id
  called before slot args after heq := h.called before slot args after (htrace ▸ heq)

/-- **Handlers are called only after they were registered.** -/
theorem preserves_handlersRegistered : Preserves Effect World.HandlersRegistered := by
  intro w w' h hw
  cases h with
  | log e he =>
    refine hw.snoc rfl rfl fun slot args heq => ?_
    rw [heq] at he
    cases he
  | handler slot args hpresent =>
    refine hw.snoc rfl rfl fun s as heq => ?_
    obtain ⟨rfl, -⟩ := Event.handler.inj heq
    exact hpresent
  | pass src len hunset => exact hw.snoc rfl rfl fun s as heq => by cases heq
  | dispatch src len slot args p hinvocation hpresent =>
    have hdispatched : (w.dispatched src len).HandlersRegistered :=
      hw.snoc rfl rfl fun s as heq => by cases heq
    refine hdispatched.snoc rfl rfl fun s as heq => ?_
    obtain ⟨rfl, -⟩ := Event.handler.inj heq
    exact hpresent
  | update c change command garbage hcall hstage =>
    obtain ⟨slot, handler, hc, hr⟩ := Call.registers hstage
    obtain ⟨online, hmem⟩ := hcall
    refine hw.set rfl fun s hs => ?_
    dsimp only at hs
    rw [hr.present] at hs
    split at hs
    · next heq =>
      subst heq
      exact .inr (.inr ⟨c, online, hmem, by rw [hc, hs]⟩)
    · exact .inl hs
  | onDetect handler hcall =>
    refine hw.set rfl fun s hs => ?_
    by_cases hslot : s = .espDetectHandler
    · exact .inr (.inl ⟨hslot, hcall⟩)
    · exact .inl (by simpa [Handlers.set, hslot] using hs)
  | status src hsrc hheader hstatus =>
    obtain ⟨_, _, _, _, _, heq⟩ := exists_statusFrame_eq src w
    rw [heq]
    exact hw.set rfl fun s hs => .inl hs
  | _ => exact hw.set rfl fun s hs => .inl hs

/-- **At every moment of every run** the ESP was last told the masks that the library has, they
cover all handlers that are set or were called, and no handler was called before it was
registered. -/
theorem always_registered_announced :
    Always fun w => w.HandlersRegistered ∧ (w.SentFits → w.Announces) := by
  refine always_of_preserves (fun ticks scripts stray => ⟨⟨?_, ?_⟩, fun _ => ⟨?_, ?_, ?_⟩⟩) ?_
  · intro slot hslot
    cases hslot
  · intro before slot args after heq
    exact absurd heq (by simp [World.powerUp])
  · intro mask
    cases mask <;> rfl
  · intro slot mask hslot
    cases hslot
  · intro slot args mask hmem
    cases hmem
  · exact preserves_handlersRegistered.and preserves_announces

end Teensquitto
