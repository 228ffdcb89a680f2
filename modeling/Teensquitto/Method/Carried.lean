import Mathlib.Data.List.Forall2
import Teensquitto.Method.Frames
import Teensquitto.Wire.Wrapping

/-!
# Arguments of fixed width

The `bool`, port and address arguments of a method are written by hand, field by field.  Two calls
that differ in one of them write different frames when the field is written at all and is not
overwritten by a string that makes `data_pos` go round.

## Main definitions

* `Call.arguments`: the arguments of fixed width, each with the calls that differ in it
* `Call.Carries`: calls that differ in one of them write different frames
* `Call.ArgumentsFit`: when they do

## Main results

* `Command.emit_ne`: commands that differ in one field write different frames
* `Call.carries_iff`: the fixed-width arguments of a call are carried exactly when they fit
-/

namespace Teensquitto

/-! ## Fields of a frame -/

namespace Command

/-- All but the argument bytes. -/
def frame (c : Command) : ℕ × ℕ × (UInt8 × UInt8) × UInt8 × List CString × List UInt8 :=
  (c.size, c.indexBits, c.header, c.opcode, c.text, c.body)

/-- The argument bytes as they are stored. -/
def fields (c : Command) : List UInt8 := c.args.map Arg.value

/-- The strings and raw bytes. -/
def area (c : Command) : List UInt8 := c.text.flatMap CString.bytes ++ c.body

variable {c c' : Command} {garbage garbage' : Memory UInt8}

theorem payload_eq (c : Command) :
    c.payload = [c.header.1, c.header.2, c.opcode] ++ (c.fields ++ c.area) := by
  simp only [payload, fields, area, List.append_assoc]

/-- Six bytes stand before the fields. -/
theorem drop_written (c : Command) (n : ℕ) (hn : n ≤ c.fields.length) :
    c.written.drop (6 + n) = c.fields.drop n ++ (c.area ++ [Bytes.xorSum c.payload]) := by
  have hwritten : c.written = (c.framing ++ [c.header.1, c.header.2, c.opcode]) ++
      (c.fields ++ (c.area ++ [Bytes.xorSum c.payload])) := by
    rw [written]
    -- the payload occurs twice: its bytes are written, and their sum behind them
    nth_rewrite 1 [payload_eq]
    simp only [List.append_assoc]
  rw [hwritten, ← List.drop_drop, List.drop_left' (by rfl), List.drop_append_of_le_length hn]

theorem getElem?_written (c : Command) {n : ℕ} (hn : n < c.fields.length) :
    c.written[6 + n]? = c.fields[n]? := by
  have hdrop := c.drop_written 0 (Nat.zero_le _)
  rw [Nat.add_zero, List.drop_zero] at hdrop
  rw [← List.getElem?_drop, hdrop, List.getElem?_append_left hn]

/-- Frames that are equal have the same sum of fields, when they differ in no other place. -/
theorem xorSum_fields_eq (hframe : c.frame = c'.frame)
    (h : c.emit garbage = c'.emit garbage') : Bytes.xorSum c.fields = Bytes.xorSum c'.fields := by
  simp only [frame, Prod.mk.injEq] at hframe
  obtain ⟨hsize, hbits, hheader, hopcode, htext, hbody⟩ := hframe
  have hsum := xorSum_eq_of_emit_eq hsize.symm hbits.symm h
  have harea : c.area = c'.area := by rw [area, area, htext, hbody]
  rw [payload_eq, payload_eq, hheader, hopcode, harea] at hsum
  simp only [Bytes.xorSum_append] at hsum
  -- what stands around the fields is the same in both sums
  have hcancel : ∀ x y z s : UInt8, s ^^^ (x ^^^ z) = s ^^^ (y ^^^ z) → x = y := by
    intro x y z s hxy
    have hxy := congrArg (fun b => s ^^^ b) hxy
    simp only [← UInt8.xor_assoc, UInt8.xor_self, UInt8.zero_xor] at hxy
    have hxy := congrArg (fun b => b ^^^ z) hxy
    simpa only [UInt8.xor_assoc, UInt8.xor_self, UInt8.xor_zero] using hxy
  exact hcancel _ _ _ _ hsum

/-- **Commands that differ in one field write different frames**: a field of one byte always, a
longer field at `n` when at most its first byte is overwritten. -/
theorem emit_ne (n k : ℕ) (hframe : c.frame = c'.frame)
    (htake : c.fields.take n = c'.fields.take n)
    (hdrop : c.fields.drop (n + k) = c'.fields.drop (n + k))
    (hlength : c.fields.length = c'.fields.length) (hne : c.fields ≠ c'.fields)
    (hfits : k ≤ 1 ∨ c.size ≤ n + 7 + 2 ^ c.indexBits) : c.emit garbage ≠ c'.emit garbage' := by
  intro h
  have hsum := xorSum_fields_eq hframe h
  simp only [frame, Prod.mk.injEq] at hframe
  obtain ⟨hsize, hbits, -⟩ := hframe
  have hfields := c.length_written
  -- every byte but the first of the field is the same in both
  have hrest : ∀ j, j ≠ n → c.fields[j]? = c'.fields[j]? := by
    intro j hj
    rcases Nat.lt_or_gt_of_ne hj with hlt | hgt
    · rw [← List.getElem?_take_of_lt hlt, htake, List.getElem?_take_of_lt hlt]
    rcases Nat.lt_or_ge j (n + k) with hin | hout
    · rcases Nat.lt_or_ge j c.fields.length with hj' | hj'
      · have hsmall : c.size ≤ n + 7 + 2 ^ c.indexBits := hfits.resolve_left (by omega)
        have hplace : 6 + j < c.size := by
          rw [← hfields]
          by_contra hge
          have hnone := List.getElem?_eq_none (Nat.le_of_not_lt hge)
          rw [c.getElem?_written hj', List.getElem?_eq_getElem hj'] at hnone
          cases hnone
        have hj'' : j < c'.fields.length := hlength ▸ hj'
        rw [← c.getElem?_written hj', ← c'.getElem?_written hj'']
        exact written_eq_of_emit_eq hsize.symm hbits.symm h hplace (by omega)
      · rw [List.getElem?_eq_none hj', List.getElem?_eq_none (hlength ▸ hj')]
    · obtain ⟨d, rfl⟩ := Nat.exists_eq_add_of_le hout
      rw [← List.getElem?_drop, hdrop, List.getElem?_drop]
  -- so the checksum decides about the first one
  apply hne
  rcases Nat.lt_or_ge n c.fields.length with hn | hn
  · have hn' : n < c'.fields.length := hlength ▸ hn
    have hset : c'.fields = c.fields.set n c'.fields[n] := by
      refine List.ext_getElem? fun j => ?_
      by_cases hj : j = n
      · subst hj
        rw [List.getElem?_set_self hn, List.getElem?_eq_getElem hn']
      · rw [List.getElem?_set_ne (Ne.symm hj), hrest j hj]
    rw [hset, Bytes.xorSum_set hn, UInt8.xor_assoc] at hsum
    have hzero := congrArg (fun b => Bytes.xorSum c.fields ^^^ b) hsum
    simp only [← UInt8.xor_assoc, UInt8.xor_self, UInt8.zero_xor] at hzero
    have hbyte : c.fields[n] = c'.fields[n] := by
      have hxor := congrArg (fun b => c.fields[n] ^^^ b) hzero
      simpa only [← UInt8.xor_assoc, UInt8.xor_self, UInt8.zero_xor, UInt8.xor_zero] using hxor
    rw [hset, ← hbyte, List.set_getElem_self]
  · refine List.ext_getElem? fun j => ?_
    by_cases hj : j = n
    · rw [hj, List.getElem?_eq_none hn, List.getElem?_eq_none (hlength ▸ hn)]
    · exact hrest j hj

/-- The commands differ in the arguments from the `n`-th on: `X` in one, `X'` in the other. -/
structure Replaced (c c' : Command) (n : ℕ) (X X' : List Arg) : Prop where
  frame : c.frame = c'.frame
  args : c.args = c.args.take n ++ X ++ c.args.drop (n + X.length)
  args' : c'.args = c.args.take n ++ X' ++ c.args.drop (n + X.length)

namespace Replaced

variable {n : ℕ} {X X' : List Arg}

theorem fields (h : Replaced c c' n X X') :
    c.fields = c.fields.take n ++ X.map Arg.value ++ c.fields.drop (n + X.length) := by
  rw [Command.fields, ← List.map_take, ← List.map_drop, ← List.map_append, ← List.map_append,
    ← h.args]

theorem fields' (h : Replaced c c' n X X') :
    c'.fields = c.fields.take n ++ X'.map Arg.value ++ c.fields.drop (n + X.length) := by
  rw [Command.fields, Command.fields, ← List.map_take, ← List.map_drop, ← List.map_append,
    ← List.map_append, ← h.args']

theorem take_drop (h : Replaced c c' n X X') (hX : X'.length = X.length) (hpos : 0 < X.length) :
    c.fields.take n = c'.fields.take n ∧
      c.fields.drop (n + X.length) = c'.fields.drop (n + X.length) := by
  -- there are arguments behind the `n`-th, or nothing could be replaced
  have htake : (c.fields.take n).length = n := by
    have hlength := congrArg List.length h.fields
    simp only [List.length_append, List.length_map, List.length_take, List.length_drop]
      at hlength ⊢
    omega
  rw [h.fields', List.append_assoc, List.take_left' htake]
  refine ⟨rfl, ?_⟩
  rw [← List.append_assoc, List.drop_left' (by
    rw [List.length_append, htake, List.length_map, hX])]

/-- A field of one byte is always found in the frame, and so is a longer one of which no more than
the first byte is overwritten. -/
theorem emit_ne (h : Replaced c c' n X X') (hX : X'.length = X.length) (hpos : 0 < X.length)
    (hne : X.map Arg.value ≠ X'.map Arg.value)
    (hfits : X.length ≤ 1 ∨ c.size ≤ n + 7 + 2 ^ c.indexBits) :
    c.emit garbage ≠ c'.emit garbage' := by
  obtain ⟨htake, hdrop⟩ := h.take_drop hX hpos
  refine Command.emit_ne n X.length h.frame htake hdrop ?_ (fun hfields => hne ?_) hfits
  · have hlength := congrArg List.length h.fields
    have hlength' := congrArg List.length h.fields'
    simp only [List.length_append, List.length_map, hX] at hlength hlength'
    rw [hlength, hlength']
  · have hboth := h.fields.symm.trans (hfields.trans h.fields')
    exact List.append_cancel_left (List.append_cancel_right hboth)

end Replaced

theorem emit_ne_flag {b b' : Bool} (n : ℕ)
    (h : Replaced c c' n [.byte b.toUInt8] [.byte b'.toUInt8]) (hne : b' ≠ b) :
    c.emit garbage ≠ c'.emit garbage' := by
  refine h.emit_ne rfl Nat.one_pos (fun hX => hne ?_) (.inl Nat.le.refl)
  cases b <;> cases b' <;> first | rfl | exact absurd hX (by decide)

theorem emit_ne_half {x x' : UInt16} (n : ℕ) (h : Replaced c c' n (Arg.half x) (Arg.half x'))
    (hne : x' ≠ x) (hfits : c.size ≤ n + 7 + 2 ^ c.indexBits) :
    c.emit garbage ≠ c'.emit garbage' := by
  refine h.emit_ne rfl (Nat.succ_pos _) (fun hX => hne ?_) (.inr hfits)
  obtain ⟨hhigh, hlow⟩ : Bytes.high x = Bytes.high x' ∧ Bytes.low x = Bytes.low x' := by
    simpa [Arg.half, Arg.value] using hX
  rw [← Bytes.join_split x, ← Bytes.join_split x', hhigh, hlow]

theorem emit_ne_address {a a' : IPAddress} (n : ℕ)
    (h : Replaced c c' n (Arg.address a) (Arg.address a')) (hne : a' ≠ a)
    (hfits : c.size ≤ n + 7 + 2 ^ c.indexBits) :
    c.emit garbage ≠ c'.emit garbage' := by
  refine h.emit_ne rfl (Nat.succ_pos _) (fun hX => hne ?_) (.inr hfits)
  cases a
  cases a'
  simpa [Arg.address, Arg.value, eq_comm] using hX

/-- An array of at most 256 bytes is not longer than the range of the index. -/
theorem fits_of_small {n : ℕ} (h : (Nat.ble 8 c.indexBits && Nat.ble c.size 256) = true) :
    c.size ≤ n + 7 + 2 ^ c.indexBits := by
  obtain ⟨hbits, hsize⟩ := (Bool.and_eq_true _ _).mp h
  have hpow := Nat.pow_le_pow_right (Nat.zero_lt_two) (Nat.le_of_ble_eq_true hbits)
  have := Nat.le_of_ble_eq_true hsize
  omega

/-- Two overwritten bytes with the same exclusive or leave no trace. -/
theorem emit_eq_of_overwritten (n : ℕ) (hframe : c.frame = c'.frame)
    (hdrop : c.fields.drop (n + 2) = c'.fields.drop (n + 2))
    (hn : n + 2 ≤ c.fields.length) (hn' : n + 2 ≤ c'.fields.length)
    (hsum : Bytes.xorSum c.fields = Bytes.xorSum c'.fields)
    (hlong : n + 8 + 2 ^ c.indexBits ≤ c.size) : c.emit garbage = c'.emit garbage := by
  simp only [frame, Prod.mk.injEq] at hframe
  obtain ⟨hsize, hbits, hheader, hopcode, htext, hbody⟩ := hframe
  have harea : c.area = c'.area := by rw [area, area, htext, hbody]
  have hpayload : Bytes.xorSum c.payload = Bytes.xorSum c'.payload := by
    rw [payload_eq, payload_eq, hheader, hopcode, harea]
    simp only [Bytes.xorSum_append, hsum]
  -- only the bytes behind the second of the field have to be the same
  refine emit_eq_of_written hsize.symm hbits.symm fun i hi hlast => ?_
  obtain ⟨d, rfl⟩ := Nat.exists_eq_add_of_le (show 6 + (n + 2) ≤ i by omega)
  rw [← List.getElem?_drop, ← List.getElem?_drop, c.drop_written _ hn, c'.drop_written _ hn',
    hdrop, harea, hpayload]

/-- When the index comes round to the second byte of a field, flipping a bit in both of its first
bytes leaves no trace. -/
theorem Replaced.emit_eq {n : ℕ} {u v : UInt8} {R : List Arg}
    (h : Replaced c c' n (.byte u :: .byte v :: R) (.byte (u ^^^ 1) :: .byte (v ^^^ 1) :: R))
    (hlong : n + 8 + 2 ^ c.indexBits ≤ c.size) : c.emit garbage = c'.emit garbage := by
  have hfields := h.fields
  have hfields' := h.fields'
  have hlength := congrArg List.length hfields
  have hlength' := congrArg List.length hfields'
  simp only [List.length_append, List.length_map, List.length_take, List.length_drop,
    List.length_cons] at hlength hlength'
  have htake : (c.fields.take n).length = n := by
    rw [List.length_take]
    omega
  -- the bytes behind the field are the same, and the two flips cancel in the sum
  refine emit_eq_of_overwritten n h.frame ?_ (by omega) (by omega) ?_ hlong
  · have hdrop : ∀ (a b : UInt8) (T Z : List UInt8), T.length = n →
        (T ++ (a :: b :: Z)).drop (n + 2) = Z := by
      rintro a b T Z rfl
      rw [← List.drop_drop, List.drop_left' rfl]
      rfl
    rw [hfields, hfields', List.append_assoc, List.append_assoc]
    exact (hdrop _ _ _ _ htake).trans (hdrop _ _ _ _ htake).symm
  · have hflip : ∀ x : UInt8, (u ^^^ 1) ^^^ ((v ^^^ 1) ^^^ x) = u ^^^ (v ^^^ x) := by
      intro x
      calc (u ^^^ 1) ^^^ ((v ^^^ 1) ^^^ x) = (1 ^^^ 1) ^^^ (u ^^^ (v ^^^ x)) := by ac_rfl
        _ = u ^^^ (v ^^^ x) := by rw [UInt8.xor_self, UInt8.zero_xor]
    refine (congrArg Bytes.xorSum hfields).trans (Eq.trans ?_ (congrArg Bytes.xorSum hfields').symm)
    simp only [Bytes.xorSum_append, List.map_cons, Bytes.xorSum_cons, Arg.value, hflip,
      List.length_cons]

end Command

/-! ## The arguments of the calls -/

/-- An argument of fixed width: its value, and the calls that have another value in its place. -/
inductive Argument
  | flag (value : Bool) (put : Bool → Call)
  | port (value : UInt16) (put : UInt16 → Call)
  | address (value : IPAddress) (put : IPAddress → Call)

/-- The call differs in this argument. -/
def Argument.Changes : Argument → Call → Prop
  | flag value put, c => ∃ value' ≠ value, c = put value'
  | port value put, c => ∃ value' ≠ value, c = put value'
  | address value put, c => ∃ value' ≠ value, c = put value'

namespace Call

/-- The `bool`, port and address arguments of a call. -/
def arguments : Call → List Argument
  | stream o (.disconnect wifioff) => [.flag wifioff fun b => stream o (.disconnect b)]
  | stream o (.connectHost host port) => [.port port fun p => stream o (.connectHost host p)]
  | stream o (.connectAddress ip port) =>
    [.address ip fun a => stream o (.connectAddress a port),
     .port port fun p => stream o (.connectAddress ip p)]
  | udp o (.beginPacketHost host port) => [.port port fun p => udp o (.beginPacketHost host p)]
  | udp o (.beginPacketAddress ip port) =>
    [.address ip fun a => udp o (.beginPacketAddress a port),
     .port port fun p => udp o (.beginPacketAddress ip p)]
  | udp o (.beginPacketMulticast multicast port interface ttl) =>
    [.address multicast fun a => udp o (.beginPacketMulticast a port interface ttl),
     .port port fun p => udp o (.beginPacketMulticast multicast p interface ttl),
     .address interface fun a => udp o (.beginPacketMulticast multicast port a ttl)]
  | udp o (.beginMulticast interface multicast port) =>
    [.address interface fun a => udp o (.beginMulticast a multicast port),
     .address multicast fun a => udp o (.beginMulticast interface a port),
     .port port fun p => udp o (.beginMulticast interface multicast p)]
  | client o (.setNoDelay nodelay) => [.flag nodelay fun b => client o (.setNoDelay b)]
  | client o (.setLocalPortStart port) => [.port port fun p => client o (.setLocalPortStart p)]
  | mqtt o (.publish topic qos retain payload length dup id) =>
    [.flag retain fun b => mqtt o (.publish topic qos b payload length dup id),
     .flag dup fun b => mqtt o (.publish topic qos retain payload length b id)]
  | mqtt o (.setCleanSession clean) => [.flag clean fun b => mqtt o (.setCleanSession b)]
  | mqtt o (.setServerHost host port) => [.port port fun p => mqtt o (.setServerHost host p)]
  | mqtt o (.setServerAddress ip port) =>
    [.address ip fun a => mqtt o (.setServerAddress a port),
     .port port fun p => mqtt o (.setServerAddress ip p)]
  | mqtt o (.setWill topic qos retain payload length) =>
    [.flag retain fun b => mqtt o (.setWill topic qos b payload length)]
  | webSocket o (.beginSocket host port url protocol) =>
    [.port port fun p => webSocket o (.beginSocket host p url protocol)]
  | webSocket o (.beginSSL host port url fingerprint protocol) =>
    [.port port fun p => webSocket o (.beginSSL host p url fingerprint protocol)]
  | webSocket o (WebSocketCall.beginSocketIO host port url protocol) =>
    [.port port fun p => webSocket o (WebSocketCall.beginSocketIO host p url protocol)]
  | webSocket o (.beginSocketIOSSL host port url protocol) =>
    [.port port fun p => webSocket o (.beginSocketIOSSL host p url protocol)]
  | webSocket o (.sendBIN payload header) =>
    [.flag header fun b => webSocket o (.sendBIN payload b)]
  | webSocket o (.sendTXT payload header) =>
    [.flag header fun b => webSocket o (.sendTXT payload b)]
  | webSocket o (.sendTXTTo num payload header) =>
    [.flag header fun b => webSocket o (.sendTXTTo num payload b)]
  | webSocket o (.sendBINTo num payload header) =>
    [.flag header fun b => webSocket o (.sendBINTo num payload b)]
  | webSocket o (.broadcastTXT payload header) =>
    [.flag header fun b => webSocket o (.broadcastTXT payload b)]
  | webSocket o (.broadcastBIN payload header) =>
    [.flag header fun b => webSocket o (.broadcastBIN payload b)]
  | wifi o (.beginNetwork ssid passphrase channel bssid connect) =>
    [.flag connect fun b => wifi o (.beginNetwork ssid passphrase channel bssid b)]
  | wifi o (.config ip gateway subnet dns1 dns2) =>
    [.address ip fun a => wifi o (.config a gateway subnet dns1 dns2),
     .address gateway fun a => wifi o (.config ip a subnet dns1 dns2),
     .address subnet fun a => wifi o (.config ip gateway a dns1 dns2),
     .address dns1 fun a => wifi o (.config ip gateway subnet a dns2),
     .address dns2 fun a => wifi o (.config ip gateway subnet dns1 a)]
  | wifi o (.setAutoConnect auto) => [.flag auto fun b => wifi o (.setAutoConnect b)]
  | wifi o (.setAutoReconnect auto) => [.flag auto fun b => wifi o (.setAutoReconnect b)]
  | wifi o (.persistent p) => [.flag p fun b => wifi o (.persistent b)]
  | wifi o (.enableSTA enable) => [.flag enable fun b => wifi o (.enableSTA b)]
  | wifi o (.enableAP enable) => [.flag enable fun b => wifi o (.enableAP b)]
  | accessPoint o (.softAPConfig ip gateway subnet) =>
    [.address ip fun a => accessPoint o (.softAPConfig a gateway subnet),
     .address gateway fun a => accessPoint o (.softAPConfig ip a subnet),
     .address subnet fun a => accessPoint o (.softAPConfig ip gateway a)]
  | accessPoint o (.softAPdisconnect wifioff) =>
    [.flag wifioff fun b => accessPoint o (.softAPdisconnect b)]
  | accessPoint o (.scanNetworks async hidden) =>
    [.flag async fun b => accessPoint o (.scanNetworks b hidden),
     .flag hidden fun b => accessPoint o (.scanNetworks async b)]
  | accessPoint o (.scanNetworksAsync handler hidden) =>
    [.flag hidden fun b => accessPoint o (.scanNetworksAsync handler b)]
  | esp o (.checkFlashConfig equals) => [.flag equals fun b => esp o (.checkFlashConfig b)]
  | asyncUdp (.listenAddress addr port) =>
    [.address addr fun a => asyncUdp (.listenAddress a port),
     .port port fun p => asyncUdp (.listenAddress addr p)]
  | asyncUdp (.listenPort port) => [.port port fun p => asyncUdp (.listenPort p)]
  | asyncUdp (.listenMulticast addr port ttl) =>
    [.address addr fun a => asyncUdp (.listenMulticast a port ttl),
     .port port fun p => asyncUdp (.listenMulticast addr p ttl)]
  | asyncUdp (.connect addr port) =>
    [.address addr fun a => asyncUdp (.connect a port),
     .port port fun p => asyncUdp (.connect addr p)]
  | asyncUdp (.writeTo data addr port) =>
    [.address addr fun a => asyncUdp (.writeTo data a port),
     .port port fun p => asyncUdp (.writeTo data addr p)]
  | asyncUdp (.broadcastTo data port) => [.port port fun p => asyncUdp (.broadcastTo data p)]
  | _ => []

end Call

/-- Whatever the handlers and the arrays, the two blocks write different frames. -/
def Stage.Differ (s s' : Stage) : Prop :=
  ∀ h h' cmd cmd', s.command? h = some cmd → s'.command? h' = some cmd' →
    ∀ garbage garbage', cmd.emit garbage ≠ cmd'.emit garbage'

/-- Block by block, the two calls write different frames. -/
def Call.FramesDiffer (c c' : Call) : Prop :=
  List.Forall₂ Stage.Differ c.method.stages c'.method.stages

/-- Calls that differ in one argument of fixed width write different frames. -/
def Call.Carries (c : Call) : Prop :=
  ∀ argument ∈ c.arguments, ∀ c', argument.Changes c' → c.FramesDiffer c'

/-- The methods that write no frame without a field for the argument are not reached, and no
frame is so long that the index comes round to the second byte of a port or an address. -/
def Call.ArgumentsFit : Call → Prop
  -- frames without a field for the argument
  | .client o (.setNoDelay _) => o.wificlient = 255
  | .stream o (.disconnect _) => o.websocketclient = 255
  | .mqtt o (.publish _ _ _ none _ _ _) => o.mqttSupport = false
  | .wifi o (.beginNetwork _ none _ _ _) => o.wifi = 255
  | .wifi o (.beginNetwork _ (some _) _ none _) => o.wifi = 255
  -- frames with strings or data behind the argument, where `data_pos` must not come round to it
  | .stream o (.connectHost host _) =>
    o.wificlient ≠ 255 ∨ o.wificlientsecure ≠ 255 → host.strlen ≤ 65534
  | .udp o (.beginPacketHost host _) => o.wifiudp ≠ 255 → host.strlen ≤ 65534
  | .mqtt o (.setServerHost host _) => o.mqttSupport = true → host.strlen ≤ 65534
  | .webSocket o (.beginSocket host _ url protocol) =>
    o.websocketclient ≠ 255 → host.strlen + url.strlen + protocol.strlen ≤ 65534
  | .webSocket o (.beginSSL host _ url fingerprint protocol) =>
    o.websocketclient ≠ 255 →
      host.strlen + url.strlen + fingerprint.strlen + protocol.strlen ≤ 65534
  | .webSocket o (WebSocketCall.beginSocketIO host _ url protocol) =>
    o.websocketclient ≠ 255 → host.strlen + url.strlen + protocol.strlen ≤ 65534
  | .webSocket o (.beginSocketIOSSL host _ url protocol) =>
    o.websocketclient ≠ 255 → host.strlen + url.strlen + protocol.strlen ≤ 65534
  | .asyncUdp (.writeTo data _ _) => data.length ≤ 65530
  | .asyncUdp (.broadcastTo data _) => data.length ≤ 65534
  | _ => True

/-! ## Carried arguments -/

section Carried

variable {c c' : Call}

theorem Stage.differ_of_command {s s' : Stage} {active : Bool} {cmd cmd' : Command}
    (hs : ∀ h, s.command? h = if active then some cmd else none)
    (hs' : ∀ h, s'.command? h = if active then some cmd' else none)
    (h : active = true → ∀ garbage garbage', cmd.emit garbage ≠ cmd'.emit garbage') :
    s.Differ s' := by
  intro _ _ d d' hd hd'
  rw [hs, Option.ite_none_right_eq_some] at hd
  rw [hs', Option.ite_none_right_eq_some] at hd'
  obtain ⟨hactive, hd⟩ := hd
  rw [← Option.some.inj hd, ← Option.some.inj hd'.2]
  exact h hactive

theorem Stage.differ_ask {active : Bool} {limit limit' : ℕ} {v v' : Value}
    {decode decode' : Memory UInt8 → Value} {cmd cmd' : Command}
    (h : active = true → ∀ garbage garbage', cmd.emit garbage ≠ cmd'.emit garbage') :
    (Stage.ask active limit v decode cmd).Differ (Stage.ask active limit' v' decode' cmd') :=
  Stage.differ_of_command (fun _ => rfl) (fun _ => rfl) h

theorem Stage.differ_send {active : Bool} {v v' : Option Value} {cmd cmd' : Command}
    (h : active = true → ∀ garbage garbage', cmd.emit garbage ≠ cmd'.emit garbage') :
    (Stage.send active cmd v).Differ (Stage.send active cmd' v') :=
  Stage.differ_of_command (fun _ => rfl) (fun _ => rfl) h

theorem Stage.differ_update {active : Bool} {change change' : Handlers → Handlers}
    {cmd cmd' : Command}
    (h : active = true → ∀ garbage garbage', cmd.emit garbage ≠ cmd'.emit garbage') :
    (Stage.update active change fun _ => cmd).Differ
      (Stage.update active change' fun _ => cmd') :=
  Stage.differ_of_command (fun _ => rfl) (fun _ => rfl) h

section Block

variable {active : Bool} {limit limit' : ℕ} {v v' : Value} {decode decode' : Memory UInt8 → Value}
  {cmd cmd' : Command}

/-- A method of one block with a field for the flag. -/
theorem Stage.differ_flag {b b' : Bool} (n : ℕ)
    (h : cmd.Replaced cmd' n [.byte b.toUInt8] [.byte b'.toUInt8]) (hne : b' ≠ b) :
    List.Forall₂ Stage.Differ [.ask active limit v decode cmd]
      [.ask active limit' v' decode' cmd'] :=
  .cons (Stage.differ_ask fun _ _ _ => Command.emit_ne_flag n h hne) .nil

theorem Stage.differ_half {x x' : UInt16} (n : ℕ)
    (h : cmd.Replaced cmd' n (Arg.half x) (Arg.half x')) (hne : x' ≠ x)
    (hfits : active = true → cmd.size ≤ n + 7 + 2 ^ cmd.indexBits) :
    List.Forall₂ Stage.Differ [.ask active limit v decode cmd]
      [.ask active limit' v' decode' cmd'] :=
  .cons (Stage.differ_ask fun hactive _ _ => Command.emit_ne_half n h hne (hfits hactive)) .nil

theorem Stage.differ_address {a a' : IPAddress} (n : ℕ)
    (h : cmd.Replaced cmd' n (Arg.address a) (Arg.address a')) (hne : a' ≠ a)
    (hfits : active = true → cmd.size ≤ n + 7 + 2 ^ cmd.indexBits) :
    List.Forall₂ Stage.Differ [.ask active limit v decode cmd]
      [.ask active limit' v' decode' cmd'] :=
  .cons (Stage.differ_ask fun hactive _ _ => Command.emit_ne_address n h hne (hfits hactive)) .nil

end Block

namespace Call

theorem carries_of_nil (h : c.arguments = []) : c.Carries := by
  intro argument hmem
  rw [h] at hmem
  cases hmem

end Call

theorem ClientCall.carries (o : Object) (c : ClientCall) (h : (Call.client o c).ArgumentsFit) :
    (Call.client o c).Carries := by
  cases c with
  | setNoDelay nodelay =>
    refine List.forall_mem_singleton.mpr ?_
    rintro _ ⟨b, hne, rfl⟩
    refine .cons (Stage.differ_ask fun hactive => ?_) .nil
    have hrole : o.wificlient = 255 := h
    rw [hrole] at hactive
    exact absurd hactive (by decide)
  | setLocalPortStart port =>
    refine List.forall_mem_singleton.mpr ?_
    rintro _ ⟨p, hne, rfl⟩
    exact .cons (Stage.differ_send fun _ _ _ =>
      Command.emit_ne_half 1 ⟨rfl, rfl, rfl⟩ hne (Command.fits_of_small rfl)) .nil
  | _ => exact Call.carries_of_nil rfl

theorem StreamCall.carries (o : Object) (c : StreamCall) (h : (Call.stream o c).ArgumentsFit) :
    (Call.stream o c).Carries := by
  cases c with
  | disconnect wifioff =>
    refine List.forall_mem_singleton.mpr ?_
    rintro _ ⟨b, hne, rfl⟩
    refine .cons (Stage.differ_ask fun _ _ _ => ?_) (.cons (Stage.differ_ask fun _ _ _ => ?_)
      (.cons (Stage.differ_send fun hactive => ?_)
        (.cons (Stage.differ_send fun _ _ _ => ?_) .nil)))
    · exact Command.emit_ne_flag 0 ⟨rfl, rfl, rfl⟩ hne
    · exact Command.emit_ne_flag 0 ⟨rfl, rfl, rfl⟩ hne
    · -- the frame of a web socket client has no field for `wifioff`
      have hrole : o.websocketclient = 255 := h
      rw [hrole] at hactive
      exact absurd hactive (by decide)
    · exact Command.emit_ne_flag 0 ⟨rfl, rfl, rfl⟩ hne
  | connectHost host port =>
    refine List.forall_mem_singleton.mpr ?_
    rintro _ ⟨p, hne, rfl⟩
    have hfits : o.wificlient ≠ 255 ∨ o.wificlientsecure ≠ 255 → host.strlen ≤ 65534 := h
    refine .cons (Stage.differ_ask fun hactive _ _ => ?_)
      (.cons (Stage.differ_ask fun hactive _ _ => ?_) .nil)
    · refine Command.emit_ne_half 2 ⟨rfl, rfl, rfl⟩ hne ?_
      have := hfits (.inl (bne_iff_ne.mp hactive))
      change host.strlen + 11 ≤ 2 + 7 + 65536
      omega
    · refine Command.emit_ne_half 1 ⟨rfl, rfl, rfl⟩ hne ?_
      have := hfits (.inr (bne_iff_ne.mp hactive))
      change host.strlen + 10 ≤ 1 + 7 + 65536
      omega
  | connectAddress ip port =>
    refine List.forall_mem_cons.mpr ⟨?_, List.forall_mem_singleton.mpr ?_⟩
    · rintro _ ⟨a, hne, rfl⟩
      exact .cons (Stage.differ_ask fun _ _ _ =>
          Command.emit_ne_address 1 ⟨rfl, rfl, rfl⟩ hne (Command.fits_of_small rfl))
        (.cons (Stage.differ_ask fun _ _ _ =>
          Command.emit_ne_address 0 ⟨rfl, rfl, rfl⟩ hne (Command.fits_of_small rfl)) .nil)
    · rintro _ ⟨p, hne, rfl⟩
      exact .cons (Stage.differ_ask fun _ _ _ =>
          Command.emit_ne_half 5 ⟨rfl, rfl, rfl⟩ hne (Command.fits_of_small rfl))
        (.cons (Stage.differ_ask fun _ _ _ =>
          Command.emit_ne_half 4 ⟨rfl, rfl, rfl⟩ hne (Command.fits_of_small rfl)) .nil)
  | _ => exact Call.carries_of_nil rfl

theorem UdpCall.carries (o : Object) (c : UdpCall) (h : (Call.udp o c).ArgumentsFit) :
    (Call.udp o c).Carries := by
  cases c with
  | beginPacketHost host port =>
    refine List.forall_mem_singleton.mpr ?_
    rintro _ ⟨p, hne, rfl⟩
    have hfits : o.wifiudp ≠ 255 → host.strlen ≤ 65534 := h
    refine Stage.differ_half 1 ⟨rfl, rfl, rfl⟩ hne fun hactive => ?_
    have := hfits (bne_iff_ne.mp hactive)
    change host.strlen + 10 ≤ 1 + 7 + 65536
    omega
  | beginPacketAddress ip port =>
    refine List.forall_mem_cons.mpr ⟨?_, List.forall_mem_singleton.mpr ?_⟩
    · rintro _ ⟨a, hne, rfl⟩
      exact Stage.differ_address 0 ⟨rfl, rfl, rfl⟩ hne fun _ => Command.fits_of_small rfl
    · rintro _ ⟨p, hne, rfl⟩
      exact Stage.differ_half 4 ⟨rfl, rfl, rfl⟩ hne fun _ => Command.fits_of_small rfl
  | beginPacketMulticast multicast port interface ttl =>
    refine List.forall_mem_cons.mpr ⟨?_, List.forall_mem_cons.mpr
      ⟨?_, List.forall_mem_singleton.mpr ?_⟩⟩
    · rintro _ ⟨a, hne, rfl⟩
      exact Stage.differ_address 0 ⟨rfl, rfl, rfl⟩ hne fun _ => Command.fits_of_small rfl
    · rintro _ ⟨p, hne, rfl⟩
      exact Stage.differ_half 4 ⟨rfl, rfl, rfl⟩ hne fun _ => Command.fits_of_small rfl
    · rintro _ ⟨a, hne, rfl⟩
      exact Stage.differ_address 6 ⟨rfl, rfl, rfl⟩ hne fun _ => Command.fits_of_small rfl
  | beginMulticast interface multicast port =>
    refine List.forall_mem_cons.mpr ⟨?_, List.forall_mem_cons.mpr
      ⟨?_, List.forall_mem_singleton.mpr ?_⟩⟩
    · rintro _ ⟨a, hne, rfl⟩
      exact Stage.differ_address 6 ⟨rfl, rfl, rfl⟩ hne fun _ => Command.fits_of_small rfl
    · rintro _ ⟨a, hne, rfl⟩
      exact Stage.differ_address 0 ⟨rfl, rfl, rfl⟩ hne fun _ => Command.fits_of_small rfl
    · rintro _ ⟨p, hne, rfl⟩
      exact Stage.differ_half 4 ⟨rfl, rfl, rfl⟩ hne fun _ => Command.fits_of_small rfl
  | _ => exact Call.carries_of_nil rfl

theorem MqttCall.carries (o : Object) (c : MqttCall) (h : (Call.mqtt o c).ArgumentsFit) :
    (Call.mqtt o c).Carries := by
  cases c with
  | publish topic qos retain payload length dup id =>
    cases payload with
    | none =>
      -- without a payload the frame has no field for `dup`
      have hrole : o.mqttSupport = false := h
      refine List.forall_mem_cons.mpr ⟨?_, List.forall_mem_singleton.mpr ?_⟩
      · rintro _ ⟨b, hne, rfl⟩
        exact .cons (Stage.differ_ask fun hactive => by cases hactive.symm.trans hrole) .nil
      · rintro _ ⟨b, hne, rfl⟩
        exact .cons (Stage.differ_ask fun hactive => by cases hactive.symm.trans hrole) .nil
    | some payload =>
      refine List.forall_mem_cons.mpr ⟨?_, List.forall_mem_singleton.mpr ?_⟩
      · rintro _ ⟨b, hne, rfl⟩
        exact Stage.differ_flag 3 ⟨rfl, rfl, rfl⟩ hne
      · rintro _ ⟨b, hne, rfl⟩
        exact Stage.differ_flag 8 ⟨rfl, rfl, rfl⟩ hne
  | setCleanSession clean =>
    refine List.forall_mem_singleton.mpr ?_
    rintro _ ⟨b, hne, rfl⟩
    exact Stage.differ_flag 0 ⟨rfl, rfl, rfl⟩ hne
  | setServerHost host port =>
    refine List.forall_mem_singleton.mpr ?_
    rintro _ ⟨p, hne, rfl⟩
    have hfits : o.mqttSupport = true → host.strlen ≤ 65534 := h
    refine Stage.differ_half 1 ⟨rfl, rfl, rfl⟩ hne fun hactive => ?_
    have := hfits hactive
    change host.strlen + 10 ≤ 1 + 7 + 65536
    omega
  | setServerAddress ip port =>
    refine List.forall_mem_cons.mpr ⟨?_, List.forall_mem_singleton.mpr ?_⟩
    · rintro _ ⟨a, hne, rfl⟩
      exact Stage.differ_address 0 ⟨rfl, rfl, rfl⟩ hne fun _ => Command.fits_of_small rfl
    · rintro _ ⟨p, hne, rfl⟩
      exact Stage.differ_half 4 ⟨rfl, rfl, rfl⟩ hne fun _ => Command.fits_of_small rfl
  | setWill topic qos retain payload length =>
    refine List.forall_mem_singleton.mpr ?_
    rintro _ ⟨b, hne, rfl⟩
    cases payload with
    | none =>
      exact Stage.differ_flag 2 ⟨rfl, rfl, rfl⟩ hne
    | some payload =>
      exact Stage.differ_flag 3 ⟨rfl, rfl, rfl⟩ hne
  | _ => exact Call.carries_of_nil rfl

theorem WebSocketCall.carries (o : Object) (c : WebSocketCall)
    (h : (Call.webSocket o c).ArgumentsFit) : (Call.webSocket o c).Carries := by
  cases c with
  | beginSocket host port url protocol =>
    refine List.forall_mem_singleton.mpr ?_
    rintro _ ⟨p, hne, rfl⟩
    have hfits : o.websocketclient ≠ 255 → host.strlen + url.strlen + protocol.strlen ≤ 65534 := h
    refine .cons (Stage.differ_send fun hactive _ _ => ?_) .nil
    refine Command.emit_ne_half 3 ⟨rfl, rfl, rfl⟩ hne ?_
    have := hfits (bne_iff_ne.mp hactive)
    change 12 + host.strlen + url.strlen + protocol.strlen ≤ 3 + 7 + 65536
    omega
  | beginSSL host port url fingerprint protocol =>
    refine List.forall_mem_singleton.mpr ?_
    rintro _ ⟨p, hne, rfl⟩
    have hfits : o.websocketclient ≠ 255 →
        host.strlen + url.strlen + fingerprint.strlen + protocol.strlen ≤ 65534 := h
    refine .cons (Stage.differ_send fun hactive _ _ => ?_) .nil
    refine Command.emit_ne_half 4 ⟨rfl, rfl, rfl⟩ hne ?_
    have := hfits (bne_iff_ne.mp hactive)
    change 13 + host.strlen + url.strlen + fingerprint.strlen + protocol.strlen ≤ 4 + 7 + 65536
    omega
  | beginSocketIO host port url protocol =>
    refine List.forall_mem_singleton.mpr ?_
    rintro _ ⟨p, hne, rfl⟩
    have hfits : o.websocketclient ≠ 255 → host.strlen + url.strlen + protocol.strlen ≤ 65534 := h
    refine .cons (Stage.differ_send fun hactive _ _ => ?_) .nil
    refine Command.emit_ne_half 3 ⟨rfl, rfl, rfl⟩ hne ?_
    have := hfits (bne_iff_ne.mp hactive)
    change 12 + host.strlen + url.strlen + protocol.strlen ≤ 3 + 7 + 65536
    omega
  | beginSocketIOSSL host port url protocol =>
    refine List.forall_mem_singleton.mpr ?_
    rintro _ ⟨p, hne, rfl⟩
    have hfits : o.websocketclient ≠ 255 → host.strlen + url.strlen + protocol.strlen ≤ 65534 := h
    refine .cons (Stage.differ_send fun hactive _ _ => ?_) .nil
    refine Command.emit_ne_half 3 ⟨rfl, rfl, rfl⟩ hne ?_
    have := hfits (bne_iff_ne.mp hactive)
    change 12 + host.strlen + url.strlen + protocol.strlen ≤ 3 + 7 + 65536
    omega
  | sendBIN payload header =>
    refine List.forall_mem_singleton.mpr ?_
    rintro _ ⟨b, hne, rfl⟩
    exact Stage.differ_flag 4 ⟨rfl, rfl, rfl⟩ hne
  | sendTXT payload header =>
    refine List.forall_mem_singleton.mpr ?_
    rintro _ ⟨b, hne, rfl⟩
    exact Stage.differ_flag 4 ⟨rfl, rfl, rfl⟩ hne
  | sendTXTTo num payload header =>
    refine List.forall_mem_singleton.mpr ?_
    rintro _ ⟨b, hne, rfl⟩
    exact Stage.differ_flag 4 ⟨rfl, rfl, rfl⟩ hne
  | sendBINTo num payload header =>
    refine List.forall_mem_singleton.mpr ?_
    rintro _ ⟨b, hne, rfl⟩
    exact Stage.differ_flag 4 ⟨rfl, rfl, rfl⟩ hne
  | broadcastTXT payload header =>
    refine List.forall_mem_singleton.mpr ?_
    rintro _ ⟨b, hne, rfl⟩
    exact Stage.differ_flag 4 ⟨rfl, rfl, rfl⟩ hne
  | broadcastBIN payload header =>
    refine List.forall_mem_singleton.mpr ?_
    rintro _ ⟨b, hne, rfl⟩
    exact Stage.differ_flag 4 ⟨rfl, rfl, rfl⟩ hne
  | _ => exact Call.carries_of_nil rfl

theorem WiFiCall.carries (o : Object) (c : WiFiCall) (h : (Call.wifi o c).ArgumentsFit) :
    (Call.wifi o c).Carries := by
  cases c with
  | beginNetwork ssid passphrase channel bssid connect =>
    refine List.forall_mem_singleton.mpr ?_
    rintro _ ⟨b, hne, rfl⟩
    -- the connect flag has a field in the longest of the three frames alone
    cases passphrase with
    | none =>
      have hrole : o.wifi = 255 := h
      refine .cons (Stage.differ_ask fun hactive => ?_) .nil
      rw [hrole] at hactive
      exact absurd hactive (by decide)
    | some passphrase =>
      cases bssid with
      | none =>
        have hrole : o.wifi = 255 := h
        refine .cons (Stage.differ_ask fun hactive => ?_) .nil
        rw [hrole] at hactive
        exact absurd hactive (by decide)
      | some bssid =>
        exact Stage.differ_flag 12 ⟨rfl, rfl, rfl⟩ hne
  | config ip gateway subnet dns1 dns2 =>
    refine List.forall_mem_cons.mpr ⟨?_, List.forall_mem_cons.mpr ⟨?_, List.forall_mem_cons.mpr
      ⟨?_, List.forall_mem_cons.mpr ⟨?_, List.forall_mem_singleton.mpr ?_⟩⟩⟩⟩
    · rintro _ ⟨a, hne, rfl⟩
      exact Stage.differ_address 0 ⟨rfl, rfl, rfl⟩ hne fun _ => Command.fits_of_small rfl
    · rintro _ ⟨a, hne, rfl⟩
      exact Stage.differ_address 4 ⟨rfl, rfl, rfl⟩ hne fun _ => Command.fits_of_small rfl
    · rintro _ ⟨a, hne, rfl⟩
      exact Stage.differ_address 8 ⟨rfl, rfl, rfl⟩ hne fun _ => Command.fits_of_small rfl
    · rintro _ ⟨a, hne, rfl⟩
      exact Stage.differ_address 12 ⟨rfl, rfl, rfl⟩ hne fun _ => Command.fits_of_small rfl
    · rintro _ ⟨a, hne, rfl⟩
      exact Stage.differ_address 16 ⟨rfl, rfl, rfl⟩ hne fun _ => Command.fits_of_small rfl
  | setAutoConnect auto =>
    refine List.forall_mem_singleton.mpr ?_
    rintro _ ⟨b, hne, rfl⟩
    exact Stage.differ_flag 0 ⟨rfl, rfl, rfl⟩ hne
  | setAutoReconnect auto =>
    refine List.forall_mem_singleton.mpr ?_
    rintro _ ⟨b, hne, rfl⟩
    exact Stage.differ_flag 0 ⟨rfl, rfl, rfl⟩ hne
  | persistent p =>
    refine List.forall_mem_singleton.mpr ?_
    rintro _ ⟨b, hne, rfl⟩
    exact .cons (Stage.differ_send fun _ _ _ => Command.emit_ne_flag 0 ⟨rfl, rfl, rfl⟩ hne) .nil
  | enableSTA enable =>
    refine List.forall_mem_singleton.mpr ?_
    rintro _ ⟨b, hne, rfl⟩
    exact Stage.differ_flag 0 ⟨rfl, rfl, rfl⟩ hne
  | enableAP enable =>
    refine List.forall_mem_singleton.mpr ?_
    rintro _ ⟨b, hne, rfl⟩
    exact Stage.differ_flag 0 ⟨rfl, rfl, rfl⟩ hne
  | _ => exact Call.carries_of_nil rfl

theorem AccessPointCall.carries (o : Object) (c : AccessPointCall) :
    (Call.accessPoint o c).Carries := by
  cases c with
  | softAPConfig ip gateway subnet =>
    refine List.forall_mem_cons.mpr ⟨?_, List.forall_mem_cons.mpr
      ⟨?_, List.forall_mem_singleton.mpr ?_⟩⟩
    · rintro _ ⟨a, hne, rfl⟩
      exact Stage.differ_address 0 ⟨rfl, rfl, rfl⟩ hne fun _ => Command.fits_of_small rfl
    · rintro _ ⟨a, hne, rfl⟩
      exact Stage.differ_address 4 ⟨rfl, rfl, rfl⟩ hne fun _ => Command.fits_of_small rfl
    · rintro _ ⟨a, hne, rfl⟩
      exact Stage.differ_address 8 ⟨rfl, rfl, rfl⟩ hne fun _ => Command.fits_of_small rfl
  | softAPdisconnect wifioff =>
    refine List.forall_mem_singleton.mpr ?_
    rintro _ ⟨b, hne, rfl⟩
    exact Stage.differ_flag 0 ⟨rfl, rfl, rfl⟩ hne
  | scanNetworks async hidden =>
    refine List.forall_mem_cons.mpr ⟨?_, List.forall_mem_singleton.mpr ?_⟩
    · rintro _ ⟨b, hne, rfl⟩
      exact Stage.differ_flag 0 ⟨rfl, rfl, rfl⟩ hne
    · rintro _ ⟨b, hne, rfl⟩
      exact Stage.differ_flag 1 ⟨rfl, rfl, rfl⟩ hne
  | scanNetworksAsync handler hidden =>
    refine List.forall_mem_singleton.mpr ?_
    rintro _ ⟨b, hne, rfl⟩
    exact .cons (Stage.differ_update fun _ _ _ => Command.emit_ne_flag 0 ⟨rfl, rfl, rfl⟩ hne) .nil
  | _ => exact Call.carries_of_nil rfl

theorem EspCall.carries (o : Object) (c : EspCall) : (Call.esp o c).Carries := by
  cases c with
  | checkFlashConfig equals =>
    refine List.forall_mem_singleton.mpr ?_
    rintro _ ⟨b, hne, rfl⟩
    exact Stage.differ_flag 0 ⟨rfl, rfl, rfl⟩ hne
  | _ => exact Call.carries_of_nil rfl

theorem AsyncUdpCall.carries (c : AsyncUdpCall) (h : (Call.asyncUdp c).ArgumentsFit) :
    (Call.asyncUdp c).Carries := by
  cases c with
  | listenAddress addr port =>
    refine List.forall_mem_cons.mpr ⟨?_, List.forall_mem_singleton.mpr ?_⟩
    · rintro _ ⟨a, hne, rfl⟩
      exact Stage.differ_address 0 ⟨rfl, rfl, rfl⟩ hne fun _ => Command.fits_of_small rfl
    · rintro _ ⟨p, hne, rfl⟩
      exact Stage.differ_half 4 ⟨rfl, rfl, rfl⟩ hne fun _ => Command.fits_of_small rfl
  | listenMulticast addr port ttl =>
    refine List.forall_mem_cons.mpr ⟨?_, List.forall_mem_singleton.mpr ?_⟩
    · rintro _ ⟨a, hne, rfl⟩
      exact Stage.differ_address 0 ⟨rfl, rfl, rfl⟩ hne fun _ => Command.fits_of_small rfl
    · rintro _ ⟨p, hne, rfl⟩
      exact Stage.differ_half 4 ⟨rfl, rfl, rfl⟩ hne fun _ => Command.fits_of_small rfl
  | connect addr port =>
    refine List.forall_mem_cons.mpr ⟨?_, List.forall_mem_singleton.mpr ?_⟩
    · rintro _ ⟨a, hne, rfl⟩
      exact Stage.differ_address 0 ⟨rfl, rfl, rfl⟩ hne fun _ => Command.fits_of_small rfl
    · rintro _ ⟨p, hne, rfl⟩
      exact Stage.differ_half 4 ⟨rfl, rfl, rfl⟩ hne fun _ => Command.fits_of_small rfl
  | listenPort port =>
    refine List.forall_mem_singleton.mpr ?_
    rintro _ ⟨p, hne, rfl⟩
    exact Stage.differ_half 0 ⟨rfl, rfl, rfl⟩ hne fun _ => Command.fits_of_small rfl
  | writeTo data addr port =>
    have hfits : data.length ≤ 65530 := h
    refine List.forall_mem_cons.mpr ⟨?_, List.forall_mem_singleton.mpr ?_⟩
    · rintro _ ⟨a, hne, rfl⟩
      refine Stage.differ_address 4 ⟨rfl, rfl, rfl⟩ hne fun _ => ?_
      change 17 + data.length ≤ 4 + 7 + 65536
      omega
    · rintro _ ⟨p, hne, rfl⟩
      refine Stage.differ_half 8 ⟨rfl, rfl, rfl⟩ hne fun _ => ?_
      change 17 + data.length ≤ 8 + 7 + 65536
      omega
  | broadcastTo data port =>
    have hfits : data.length ≤ 65534 := h
    refine List.forall_mem_singleton.mpr ?_
    rintro _ ⟨p, hne, rfl⟩
    refine Stage.differ_half 4 ⟨rfl, rfl, rfl⟩ hne fun _ => ?_
    change 13 + data.length ≤ 4 + 7 + 65536
    omega
  | _ => exact Call.carries_of_nil rfl

end Carried

/-! ## Arguments that are not carried -/

section NotCarried

variable {c c' : Call}

theorem Stage.not_differ {s s' : Stage} {cmd cmd' : Command} (hs : s.command? .initial = some cmd)
    (hs' : s'.command? .initial = some cmd')
    (h : cmd.emit (Memory.fill 0) = cmd'.emit (Memory.fill 0)) : ¬s.Differ s' :=
  fun hdiff => hdiff _ _ cmd cmd' hs hs' _ _ h

/-- A call that writes the same frame in its `n`-th block. -/
theorem Call.FramesDiffer.elim (hdiff : c.FramesDiffer c') (n : ℕ) {s s' : Stage}
    {cmd cmd' : Command} (hn : c.method.stages[n]? = some s)
    (hn' : c'.method.stages[n]? = some s') (hs : s.command? .initial = some cmd)
    (hs' : s'.command? .initial = some cmd')
    (h : cmd.emit (Memory.fill 0) = cmd'.emit (Memory.fill 0)) : False := by
  -- the blocks of the two calls stand in pairs
  have hstages : ∀ {l l' : List Stage} {n : ℕ}, List.Forall₂ Stage.Differ l l' →
      l[n]? = some s → l'[n]? = some s' → s.Differ s' := by
    intro l l' n hl
    induction hl generalizing n with
    | nil => exact fun h => by cases h
    | cons hd _ ih =>
      cases n with
      | zero => exact fun h h' => Option.some.inj h ▸ Option.some.inj h' ▸ hd
      | succ n => exact ih
  exact Stage.not_differ hs hs' h (hstages hdiff hn hn')

/-- Another port, with a bit of both bytes flipped. -/
def flipPort (p : UInt16) : UInt16 := Bytes.join (Bytes.high p ^^^ 1) (Bytes.low p ^^^ 1)

theorem flipPort_ne (p : UInt16) : flipPort p ≠ p := by
  intro h
  have hhigh : Bytes.high p ^^^ 1 = Bytes.high p := by
    conv_rhs => rw [← h]
    exact (Bytes.high_join _ _).symm
  have hone := congrArg (fun b => Bytes.high p ^^^ b) hhigh
  simp only [← UInt8.xor_assoc, UInt8.xor_self, UInt8.zero_xor] at hone
  exact absurd hone (by decide)

theorem half_flipPort (p : UInt16) :
    Arg.half (flipPort p) = [.byte (Bytes.high p ^^^ 1), .byte (Bytes.low p ^^^ 1)] := by
  rw [Arg.half, flipPort, Bytes.high_join, Bytes.low_join]

/-- Another address, with a bit of its first two bytes flipped. -/
def flipAddress (ip : IPAddress) : IPAddress := ⟨ip.a ^^^ 1, ip.b ^^^ 1, ip.c, ip.d⟩

theorem flipAddress_ne (ip : IPAddress) : flipAddress ip ≠ ip := by
  intro h
  have hone := congrArg (fun a : IPAddress => ip.a ^^^ a.a) h
  simp only [flipAddress, ← UInt8.xor_assoc, UInt8.xor_self, UInt8.zero_xor] at hone
  exact absurd hone (by decide)

theorem Command.Replaced.emit_eq_half {c c' : Command} {garbage : Memory UInt8} {n : ℕ} {p : UInt16}
    (h : c.Replaced c' n (Arg.half p) (Arg.half (flipPort p)))
    (hlong : n + 8 + 2 ^ c.indexBits ≤ c.size) : c.emit garbage = c'.emit garbage := by
  rw [half_flipPort] at h
  exact h.emit_eq hlong

theorem Command.Replaced.emit_eq_address {c c' : Command} {garbage : Memory UInt8} {n : ℕ}
    {a : IPAddress} (h : c.Replaced c' n (Arg.address a) (Arg.address (flipAddress a)))
    (hlong : n + 8 + 2 ^ c.indexBits ≤ c.size) : c.emit garbage = c'.emit garbage :=
  h.emit_eq hlong

namespace Call.Carries

/-- A `bool` without a field in the `i`-th block. -/
theorem false_of_flag (h : c.Carries) {b : Bool} {put : Bool → Call}
    (hmem : .flag b put ∈ c.arguments) (i : ℕ) {s s' : Stage} {cmd : Command}
    (hi : c.method.stages[i]? = some s) (hi' : (put !b).method.stages[i]? = some s')
    (hs : s.command? .initial = some cmd) (hs' : s'.command? .initial = some cmd) : False := by
  have hne : (!b) ≠ b := by cases b <;> decide
  exact (h _ hmem _ ⟨_, hne, rfl⟩).elim i hi hi' hs hs' rfl

/-- A port of which both bytes are overwritten in the `i`-th block. -/
theorem false_of_port (h : c.Carries) {port : UInt16} {put : UInt16 → Call}
    (hmem : .port port put ∈ c.arguments) (i n : ℕ) {s s' : Stage} {cmd cmd' : Command}
    (hi : c.method.stages[i]? = some s) (hi' : (put (flipPort port)).method.stages[i]? = some s')
    (hs : s.command? .initial = some cmd) (hs' : s'.command? .initial = some cmd')
    (hreplaced : cmd.Replaced cmd' n (Arg.half port) (Arg.half (flipPort port)))
    (hlong : n + 8 + 2 ^ cmd.indexBits ≤ cmd.size) : False :=
  (h _ hmem _ ⟨_, flipPort_ne port, rfl⟩).elim i hi hi' hs hs' (hreplaced.emit_eq_half hlong)

/-- An address of which the first two bytes are overwritten in the `i`-th block. -/
theorem false_of_address (h : c.Carries) {ip : IPAddress} {put : IPAddress → Call}
    (hmem : .address ip put ∈ c.arguments) (i n : ℕ) {s s' : Stage} {cmd cmd' : Command}
    (hi : c.method.stages[i]? = some s) (hi' : (put (flipAddress ip)).method.stages[i]? = some s')
    (hs : s.command? .initial = some cmd) (hs' : s'.command? .initial = some cmd')
    (hreplaced : cmd.Replaced cmd' n (Arg.address ip) (Arg.address (flipAddress ip)))
    (hlong : n + 8 + 2 ^ cmd.indexBits ≤ cmd.size) : False :=
  (h _ hmem _ ⟨_, flipAddress_ne ip, rfl⟩).elim i hi hi' hs hs' (hreplaced.emit_eq_address hlong)

end Call.Carries

/-- A call whose arguments are carried fits. -/
theorem Call.argumentsFit (h : c.Carries) : c.ArgumentsFit := by
  unfold Call.ArgumentsFit
  split
  -- the frames without a field for the flag
  · next o nodelay =>
    by_contra hrole
    have hactive : (o.wificlient != 255) = true := bne_iff_ne.mpr hrole
    exact h.false_of_flag (List.mem_singleton_self _) 0 rfl rfl (if_pos hactive) (if_pos hactive)
  · next o wifioff =>
    by_contra hrole
    have hactive : (o.websocketclient != 255) = true := bne_iff_ne.mpr hrole
    exact h.false_of_flag (List.mem_singleton_self _) 2 rfl rfl (if_pos hactive) (if_pos hactive)
  · next o topic qos retain length dup id =>
    by_contra hrole
    have hactive : o.mqttSupport = true := Bool.eq_true_of_not_eq_false hrole
    exact h.false_of_flag (List.mem_cons_of_mem _ (List.mem_singleton_self _)) 0 rfl rfl
      (if_pos hactive) (if_pos hactive)
  · next o ssid channel bssid connect =>
    by_contra hrole
    have hactive : (o.wifi != 255) = true := bne_iff_ne.mpr hrole
    exact h.false_of_flag (List.mem_singleton_self _) 0 rfl rfl (if_pos hactive) (if_pos hactive)
  · next o ssid passphrase channel connect =>
    by_contra hrole
    have hactive : (o.wifi != 255) = true := bne_iff_ne.mpr hrole
    exact h.false_of_flag (List.mem_singleton_self _) 0 rfl rfl (if_pos hactive) (if_pos hactive)
  -- the frames so long that the index comes round
  · next o host port =>
    intro hrole
    by_contra hlong
    rcases hrole with hrole | hrole
    · have hactive : (o.wificlient != 255) = true := bne_iff_ne.mpr hrole
      refine h.false_of_port (List.mem_singleton_self _) 0 2 rfl rfl (if_pos hactive)
        (if_pos hactive) ⟨rfl, rfl, rfl⟩ ?_
      change 2 + 8 + 65536 ≤ host.strlen + 11
      omega
    · have hactive : (o.wificlientsecure != 255) = true := bne_iff_ne.mpr hrole
      refine h.false_of_port (List.mem_singleton_self _) 1 1 rfl rfl (if_pos hactive)
        (if_pos hactive) ⟨rfl, rfl, rfl⟩ ?_
      change 1 + 8 + 65536 ≤ host.strlen + 10
      omega
  · next o host port =>
    intro hrole
    by_contra hlong
    have hactive : (o.wifiudp != 255) = true := bne_iff_ne.mpr hrole
    refine h.false_of_port (List.mem_singleton_self _) 0 1 rfl rfl (if_pos hactive)
      (if_pos hactive) ⟨rfl, rfl, rfl⟩ ?_
    change 1 + 8 + 65536 ≤ host.strlen + 10
    omega
  · next o host port =>
    intro hactive
    by_contra hlong
    refine h.false_of_port (List.mem_singleton_self _) 0 1 rfl rfl (if_pos hactive)
      (if_pos hactive) ⟨rfl, rfl, rfl⟩ ?_
    change 1 + 8 + 65536 ≤ host.strlen + 10
    omega
  · next o host port url protocol =>
    intro hrole
    by_contra hlong
    have hactive : (o.websocketclient != 255) = true := bne_iff_ne.mpr hrole
    refine h.false_of_port (List.mem_singleton_self _) 0 3 rfl rfl (if_pos hactive)
      (if_pos hactive) ⟨rfl, rfl, rfl⟩ ?_
    change 3 + 8 + 65536 ≤ 12 + host.strlen + url.strlen + protocol.strlen
    omega
  · next o host port url fingerprint protocol =>
    intro hrole
    by_contra hlong
    have hactive : (o.websocketclient != 255) = true := bne_iff_ne.mpr hrole
    refine h.false_of_port (List.mem_singleton_self _) 0 4 rfl rfl (if_pos hactive)
      (if_pos hactive) ⟨rfl, rfl, rfl⟩ ?_
    change 4 + 8 + 65536 ≤ 13 + host.strlen + url.strlen + fingerprint.strlen + protocol.strlen
    omega
  · next o host port url protocol =>
    intro hrole
    by_contra hlong
    have hactive : (o.websocketclient != 255) = true := bne_iff_ne.mpr hrole
    refine h.false_of_port (List.mem_singleton_self _) 0 3 rfl rfl (if_pos hactive)
      (if_pos hactive) ⟨rfl, rfl, rfl⟩ ?_
    change 3 + 8 + 65536 ≤ 12 + host.strlen + url.strlen + protocol.strlen
    omega
  · next o host port url protocol =>
    intro hrole
    by_contra hlong
    have hactive : (o.websocketclient != 255) = true := bne_iff_ne.mpr hrole
    refine h.false_of_port (List.mem_singleton_self _) 0 3 rfl rfl (if_pos hactive)
      (if_pos hactive) ⟨rfl, rfl, rfl⟩ ?_
    change 3 + 8 + 65536 ≤ 12 + host.strlen + url.strlen + protocol.strlen
    omega
  · next data addr port =>
    by_contra hlong
    refine h.false_of_address List.mem_cons_self 0 4 rfl rfl rfl rfl ⟨rfl, rfl, rfl⟩ ?_
    change 4 + 8 + 65536 ≤ 17 + data.length
    omega
  · next data port =>
    by_contra hlong
    refine h.false_of_port (List.mem_singleton_self _) 0 4 rfl rfl rfl rfl ⟨rfl, rfl, rfl⟩ ?_
    change 4 + 8 + 65536 ≤ 13 + data.length
    omega
  · trivial

end NotCarried

/-- **The `bool`, port and address arguments of a call are carried** exactly when they fit. -/
theorem Call.carries_iff (c : Call) : c.Carries ↔ c.ArgumentsFit := by
  refine ⟨Call.argumentsFit, fun h => ?_⟩
  cases c with
  | spiffs o call => exact Call.carries_of_nil rfl
  | stream o call => exact call.carries o h
  | udp o call => exact call.carries o h
  | client o call => exact call.carries o h
  | mqtt o call => exact call.carries o h
  | webSocket o call => exact call.carries o h
  | wifi o call => exact call.carries o h
  | accessPoint o call => exact call.carries o
  | esp o call => exact call.carries o
  | asyncUdp call => exact call.carries h

/-- `setNoDelay(true)` and `setNoDelay(false)` write the same frame. -/
theorem setNoDelay_not_carries : ¬∀ c : Call, c.Carries := by
  intro hall
  have hdiff := hall (.client { Object.initial with wificlient := 0 } (.setNoDelay true)) _
    (List.mem_singleton_self _) _ ⟨false, by decide, rfl⟩
  exact hdiff.elim 0 rfl rfl rfl rfl rfl

end Teensquitto
