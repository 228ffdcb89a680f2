import Teensquitto.Dispatch.Bounds

/-!
# UDP datagrams

The ESP forwards a datagram as a frame `0xCFCF`, `0x00`: the two flags, both addresses and ports,
the length in two bytes, and the bytes.  The switch copies the fields over the static members of
`AsyncUDPPacket` and calls the handler.  The length has two bytes and `_data` has 256.

## Main definitions

* `UdpFrame`: a datagram with its fields, and the frame it is forwarded in
* `UdpFrame.Delivered`: the handler is called over the fields and bytes of the frame

## Main results

* `exists_udpFrame_iff`: the frames that declare the number of the bytes they carry
* `UdpFrame.delivered_iff`: a datagram is delivered exactly when `_data` has room for it
-/

namespace Teensquitto

/-- A datagram and where it came from. -/
structure UdpFrame where
  broadcast : UInt8
  multicast : UInt8
  remoteIP : IPAddress
  remotePort : UInt16
  localIP : IPAddress
  localPort : UInt16
  bytes : List UInt8
  /-- The length is declared in two bytes. -/
  length_lt : bytes.length < 2 ^ 16

/-- The octets of an address. -/
def IPAddress.octets (ip : IPAddress) : List UInt8 := [ip.a, ip.b, ip.c, ip.d]

/-- A number of two bytes, high byte first. -/
def halfBytes (x : UInt16) : List UInt8 := [Bytes.high x, Bytes.low x]

namespace UdpFrame

/-- The header fields: the last one declares the length. -/
def fields (f : UdpFrame) : List UInt8 :=
  [0xCF, 0xCF, 0x00, f.broadcast, f.multicast] ++ f.remoteIP.octets ++ halfBytes f.remotePort ++
    f.localIP.octets ++ halfBytes f.localPort ++ halfBytes (UInt16.ofNat f.bytes.length)

/-- The frame, with its checksum. -/
def payload (f : UdpFrame) : List UInt8 :=
  f.fields ++ f.bytes ++ [Bytes.xorSum (f.fields ++ f.bytes)]

@[simp] theorem length_fields (f : UdpFrame) : f.fields.length = 19 := rfl

@[simp] theorem length_payload (f : UdpFrame) : f.payload.length = f.bytes.length + 20 := by
  rw [payload, List.length_append, List.length_append, length_fields, List.length_singleton]
  omega

theorem closed_payload (f : UdpFrame) : Closed f.payload := by
  rw [Closed, payload, List.dropLast_concat]

end UdpFrame

/-- The frames that are checksum-valid, start with `0xCFCF`, `0x00`, and declare the number of the
bytes between the header fields and the checksum. -/
theorem exists_udpFrame_iff (payload : List UInt8) :
    (∃ f : UdpFrame, f.payload = payload) ↔
      Closed payload ∧ 20 ≤ payload.length ∧ payload.take 3 = [0xCF, 0xCF, 0x00] ∧
        (Bytes.join (payload.getD 17 0) (payload.getD 18 0)).toNat = payload.length - 20 := by
  constructor
  · rintro ⟨f, rfl⟩
    refine ⟨f.closed_payload, by rw [f.length_payload]; omega, rfl, ?_⟩
    have hjoin : Bytes.join (f.payload.getD 17 0) (f.payload.getD 18 0) =
        UInt16.ofNat f.bytes.length := Bytes.join_split _
    rw [hjoin, UInt16.toNat_ofNat_of_lt' f.length_lt, f.length_payload, Nat.add_sub_cancel]
  · rintro ⟨hclosed, hlength, hheader, hdeclared⟩
    -- the first nineteen bytes are the fields, the last one is the checksum
    have hbody : 19 ≤ payload.dropLast.length := by
      rw [List.length_dropLast]
      omega
    have hsplit := List.take_append_drop 19 payload.dropLast
    have hfields : (payload.dropLast.take 19).length = 19 := by
      rw [List.length_take]
      omega
    match hl : payload.dropLast.take 19, hfields with
    | [h₀, h₁, h₂, b, m, r₀, r₁, r₂, r₃, p₀, p₁, l₀, l₁, l₂, l₃, q₀, q₁, n₀, n₁], _ =>
      rw [hl] at hsplit
      have hpayload : payload = [h₀, h₁, h₂, b, m, r₀, r₁, r₂, r₃, p₀, p₁, l₀, l₁, l₂, l₃, q₀,
          q₁, n₀, n₁] ++ (payload.dropLast.drop 19 ++ [Bytes.xorSum payload.dropLast]) := by
        rw [← List.append_assoc, hsplit]
        exact hclosed
      have hbytes : (payload.dropLast.drop 19).length = payload.length - 20 := by
        rw [List.length_drop, List.length_dropLast]
        omega
      rw [hpayload] at hheader
      obtain ⟨rfl, rfl, rfl⟩ : h₀ = 0xCF ∧ h₁ = 0xCF ∧ h₂ = 0x00 := by
        simpa using hheader
      have hjoin : Bytes.join (payload.getD 17 0) (payload.getD 18 0) = Bytes.join n₀ n₁ := by
        rw [hpayload]
        rfl
      have hlt := (Bytes.join n₀ n₁).toNat_lt
      rw [hjoin] at hdeclared
      refine ⟨⟨b, m, ⟨r₀, r₁, r₂, r₃⟩, Bytes.join p₀ p₁, ⟨l₀, l₁, l₂, l₃⟩, Bytes.join q₀ q₁,
        payload.dropLast.drop 19, by rw [hbytes, ← hdeclared]; exact hlt⟩, ?_⟩
      have hofNat : UInt16.ofNat (payload.dropLast.drop 19).length = Bytes.join n₀ n₁ := by
        rw [hbytes, ← hdeclared, UInt16.ofNat_toNat]
      have hf : (UdpFrame.mk b m ⟨r₀, r₁, r₂, r₃⟩ (Bytes.join p₀ p₁) ⟨l₀, l₁, l₂, l₃⟩
          (Bytes.join q₀ q₁) (payload.dropLast.drop 19)
          (by rw [hbytes, ← hdeclared]; exact hlt)).fields ++ payload.dropLast.drop 19 =
          payload.dropLast := by
        rw [UdpFrame.fields, hofNat]
        simp only [halfBytes, Bytes.high_join, Bytes.low_join, IPAddress.octets]
        exact hsplit
      rw [UdpFrame.payload, hf]
      exact hclosed.symm

/-! ## Delivery -/

namespace UdpFrame

/-- `data` points to the frame. -/
def At (f : UdpFrame) (w : World) : Source → Prop
  | .uart payload => payload = f.payload
  | .row address => w.queue.cabuf.load address f.payload.length = f.payload

/-- The members of `AsyncUDPPacket` are those of the frame: `length()`, the first `length()` bytes
of `data()`, the addresses, the ports and the flags. -/
structure Shown (f : UdpFrame) (p : Packet) : Prop where
  isBroadcast : p.isBroadcast = decide (f.broadcast ≠ 0)
  isMulticast : p.isMulticast = decide (f.multicast ≠ 0)
  remoteIP : p.remoteIP = f.remoteIP
  remotePort : p.remotePort = f.remotePort
  localIP : p.localIP = f.localIP
  localPort : p.localPort = f.localPort
  length : p.length.toNat = f.bytes.length
  data : p.data.load 0 f.bytes.length = f.bytes

/-- The switch, entered in `w`, calls the handler once and does nothing behind it; the handler
finds the datagram in the packet, and no cell behind the 256 of `_data` was written. -/
def Delivered (f : UdpFrame) (src : Source) (w : World) : Prop :=
  ∃ w', (∀ handler : Prog Unit,
      (switchHeader handler src f.payload.length).run w = handler.run w') ∧
    w'.trace = w.trace ++ [.dispatched src.queued f.payload, .handler .udpHandler []] ∧
    f.Shown w'.packet ∧ ∀ i, 256 ≤ i → w'.packet.data i = w.packet.data i

variable {f : UdpFrame} {src : Source} {w : World}

theorem At.load (h : f.At w src) : (w.dataAt src).load 0 f.payload.length = f.payload := by
  cases src with
  | uart payload =>
    cases h
    refine List.ext_getElem (by rw [Memory.length_load]) fun i h₁ h₂ => ?_
    rw [Memory.getElem_load, Nat.zero_add]
    exact congrArg (Option.getD · _) (List.getElem?_eq_getElem h₂)
  | row address =>
    refine Eq.trans (List.ext_getElem (by simp) fun i h₁ h₂ => ?_) h
    rw [Memory.getElem_load, Memory.getElem_load, Nat.zero_add]
    rfl

/-- Each byte behind `data` is the byte of the frame. -/
theorem At.dataAt (h : f.At w src) {i : ℕ} (hi : i < f.payload.length) :
    w.dataAt src i = f.payload[i] := by
  have hload := Memory.getElem_load (w.dataAt src) 0 f.payload.length i (by
    rwa [Memory.length_load])
  rw [Nat.zero_add] at hload
  rw [← hload]
  simp only [h.load]

theorem At.header? (h : f.At w src) : w.header? src = some 0xCFCF := by
  cases src with
  | uart payload =>
    cases h
    rfl
  | row address =>
    have h₀ : w.queue.cabuf address = 0xCF := h.dataAt (i := 0) (by simp)
    have h₁ : w.queue.cabuf (address + 1) = 0xCF := h.dataAt (i := 1) (by simp)
    rw [World.header?, h₀, h₁]
    rfl

/-- The bytes behind the header fields are those of the datagram. -/
theorem At.load_bytes (h : f.At w src) :
    (w.dataAt src).load 19 f.bytes.length = f.bytes := by
  refine List.ext_getElem (by simp) fun i h₁ h₂ => ?_
  rw [Memory.getElem_load, h.dataAt (by rw [f.length_payload]; omega)]
  simp only [payload, List.append_assoc]
  -- nineteen bytes stand before the datagram, the checksum behind it
  rw [List.getElem_append_right (by rw [length_fields]; omega), List.getElem_append_left (by
    rw [length_fields]; omega)]
  congr 1
  rw [length_fields]
  omega

/-- The declared length is that of the datagram. -/
theorem At.half (h : f.At w src) :
    (Decode.half (w.dataAt src) 17).toNat = f.bytes.length := by
  rw [Decode.half, h.dataAt (by rw [f.length_payload]; omega),
    h.dataAt (by rw [f.length_payload]; omega)]
  have hjoin : Bytes.join f.payload[17] f.payload[18] = UInt16.ofNat f.bytes.length :=
    Bytes.join_split _
  rw [hjoin, UInt16.toNat_ofNat_of_lt' f.length_lt]

/-- The packet that the switch fills shows the frame. -/
theorem At.shown (h : f.At w src) (p : Packet) : f.Shown (packetOf (w.dataAt src) p) where
  isBroadcast := congrArg (fun b : UInt8 => decide (b ≠ 0)) (h.dataAt (i := 3) (by simp))
  isMulticast := congrArg (fun b : UInt8 => decide (b ≠ 0)) (h.dataAt (i := 4) (by simp))
  remoteIP := by
    simp only [packetOf, h.dataAt (i := 5) (by simp), h.dataAt (i := 6) (by simp),
      h.dataAt (i := 7) (by simp), h.dataAt (i := 8) (by simp)]
    rfl
  remotePort := by
    simp only [packetOf, Decode.half, h.dataAt (i := 9) (by simp), h.dataAt (i := 10) (by simp)]
    exact Bytes.join_split f.remotePort
  localIP := by
    simp only [packetOf, h.dataAt (i := 11) (by simp), h.dataAt (i := 12) (by simp),
      h.dataAt (i := 13) (by simp), h.dataAt (i := 14) (by simp)]
    rfl
  localPort := by
    simp only [packetOf, Decode.half, h.dataAt (i := 15) (by simp), h.dataAt (i := 16) (by simp)]
    exact Bytes.join_split f.localPort
  length := h.half
  data := by
    rw [packetOf, h.half, h.load_bytes]
    exact Memory.load_store _ 0 f.bytes

/-- The state in which the switch reaches the case of its header. -/
def dispatching (f : UdpFrame) (src : Source) (w : World) : World :=
  { w with trace := w.trace ++ [.dispatched src.queued f.payload] }

/-- The state in which the handler is called. -/
def handling (src : Source) (w : World) : World :=
  { w with
    packet := packetOf (w.dataAt src) w.packet
    trace := w.trace ++ [.handler .udpHandler []] }

theorem At.dispatching (h : f.At w src) : f.At (f.dispatching src w) src := by
  cases src <;> exact h

/-- The switch dispatches the frame when no request is pending. -/
theorem At.switchHeader_run (h : f.At w src) (hpending : w.pendingData = false)
    (handler : Prog Unit) :
    (switchHeader handler src f.payload.length).run w =
      (dispatchUdp handler src).run (f.dispatching src w) := by
  have hread : (readHeader src).run w = .ok 0xCFCF w := by
    rw [readHeader, EStateM.run_bind, EStateM.run_get]
    simp only [h.header?]
    rfl
  have hheader : headerOf (w.dataAt src) = 0xCFCF := by
    rw [headerOf, h.dataAt (i := 0) (by simp), h.dataAt (i := 1) (by simp)]
    exact Bytes.join_split 0xCFCF
  rw [switchHeader, EStateM.run_bind, hread]
  -- neither a reply nor a probe
  change (asyncFrame handler src f.payload.length).run w = _
  rw [asyncFrame, EStateM.run_bind, EStateM.run_get]
  simp only [hpending, Bool.false_eq_true, if_false]
  rw [dispatch, EStateM.run_bind, EStateM.run_get]
  simp only [hheader, if_true, h.load]
  rfl

/-- A datagram longer than `_data` is copied over its end. -/
theorem At.dispatchUdp_run_of_lt (h : f.At w src) (handler : Prog Unit)
    (hlong : 256 < f.bytes.length) : (dispatchUdp handler src).run w = .error .undefined w := by
  have hcode : w.dataAt src 2 = 0 := h.dataAt (i := 2) (by simp)
  rw [dispatchUdp, EStateM.run_bind, EStateM.run_get]
  simp only [hcode, h.half, if_true, if_pos hlong]
  rfl

/-- A datagram that `_data` has room for is handed to the handler. -/
theorem At.dispatchUdp_run_of_le (h : f.At w src) (handler : Prog Unit)
    (hset : w.handlers.present .udpHandler = true) (hle : f.bytes.length ≤ 256) :
    (dispatchUdp handler src).run w = handler.run (handling src w) := by
  have hcode : w.dataAt src 2 = 0 := h.dataAt (i := 2) (by simp)
  rw [dispatchUdp, EStateM.run_bind, EStateM.run_get]
  simp only [hcode, h.half, if_true, if_neg (Nat.not_lt.mpr hle)]
  -- the packet is filled, then the handler is called
  rw [EStateM.run_bind, EStateM.run_modify, invoke]
  simp only [EStateM.run_bind, EStateM.run_get, hset, if_true]
  rfl

/-- **A datagram is delivered** exactly when `_data` has room for its bytes. -/
theorem delivered_iff {user : Prog Unit} {w₀ : World}
    (henter : (entrance user src f.payload.length).run w₀ = .ok () w) (h : f.At w src)
    (hpending : w.pendingData = false) (hset : w.handlers.present .udpHandler = true) :
    (processingData user src f.payload.length).run w₀ =
      (switchHeader user src f.payload.length).run w ∧
    (f.Delivered src w ↔ f.bytes.length ≤ 256) := by
  -- the switch is entered in `w`, where the frame still is
  refine ⟨by rw [processingData_eq, EStateM.run_bind, henter], ?_, fun hle => ?_⟩
  · rintro ⟨w', hrun, -⟩
    -- a handler that does nothing does not stop, so the copy must not
    by_contra hlong
    have hreturn := hrun (pure ())
    rw [h.switchHeader_run hpending,
      h.dispatching.dispatchUdp_run_of_lt _ (Nat.lt_of_not_le hlong)] at hreturn
    cases hreturn
  · refine ⟨handling src (f.dispatching src w), fun handler => ?_, ?_, ?_, fun i hi => ?_⟩
    · rw [h.switchHeader_run hpending, h.dispatching.dispatchUdp_run_of_le handler hset hle]
    · exact List.append_assoc _ _ _
    · exact h.dispatching.shown _
    · -- the copy ends within `_data`
      change w.packet.data.store 0 (((f.dispatching src w).dataAt src).load 19
        (Decode.half ((f.dispatching src w).dataAt src) 17).toNat) i = _
      rw [Memory.store_of_ge]
      rw [Memory.length_load, h.dispatching.half]
      omega

end UdpFrame

/-- A datagram of `n` zeros from port 53 of 10.0.0.1. -/
def zeroDatagram (n : ℕ) (h : n < 2 ^ 16) : UdpFrame where
  broadcast := 0
  multicast := 0
  remoteIP := ⟨10, 0, 0, 1⟩
  remotePort := 53
  localIP := ⟨10, 0, 0, 2⟩
  localPort := 5353
  bytes := List.replicate n 0
  length_lt := by rwa [List.length_replicate]

/-- A state with a handler for datagrams, in which the clock can be read once. -/
def listening : World :=
  { World.powerUp [⟨5, []⟩] [] fun _ _ => 0 with
    handlers := Handlers.initial.set .udpHandler true }

/-- Any frame of a datagram is processed at once. -/
theorem entrance_listening (f : UdpFrame) :
    ∃ w, (entrance (pure ()) (.uart f.payload) f.payload.length).run listening = .ok () w ∧
      f.At w (.uart f.payload) ∧ w.pendingData = false ∧
        w.handlers.present .udpHandler = true :=
  ⟨_, rfl, rfl, rfl, rfl⟩

theorem UdpFrame.delivered_iff_three :
    ∃ w, (zeroDatagram 3 (by decide)).Delivered (.uart (zeroDatagram 3 (by decide)).payload) w := by
  obtain ⟨w, hrun, hat, hpending, hset⟩ := entrance_listening (zeroDatagram 3 (by decide))
  exact ⟨w, (UdpFrame.delivered_iff hrun hat hpending hset).2.mpr (by decide)⟩

/-- A datagram of 257 bytes, which a UDP packet may have, is not delivered. -/
theorem datagram_overruns : ¬∀ (f : UdpFrame) (user : Prog Unit) (src : Source) (w₀ w : World),
    (entrance user src f.payload.length).run w₀ = .ok () w → f.At w src →
    w.pendingData = false → w.handlers.present .udpHandler = true → f.Delivered src w := by
  intro hall
  have hlong : 256 < (zeroDatagram 257 (by decide)).bytes.length := by
    rw [zeroDatagram, List.length_replicate]
    decide
  obtain ⟨w, hrun, hat, hpending, hset⟩ := entrance_listening (zeroDatagram 257 (by decide))
  obtain ⟨w', hreturn, -⟩ := hall _ _ _ listening w hrun hat hpending hset
  have hstop := hreturn (pure ())
  rw [hat.switchHeader_run hpending, hat.dispatching.dispatchUdp_run_of_lt _ hlong] at hstop
  cases hstop

end Teensquitto
