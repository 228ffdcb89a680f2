import Mathlib.Data.List.GetD
import Teensquitto.Device.Events
import Teensquitto.Receiver.Schedule

/-!
# Programs that leave the receiver alone

Apart from the receiver, the parts of `events()` read the clock but take no byte, send no
NAK and store no acknowledgement.  `Takes` bounds the readings of such a program and says
what it keeps; its rules follow the program text.

## Main definitions

* `Moves`: readings that take no byte
* `Silent`, `Calm`: the members that are kept
* `Takes`: a program that takes at most `k` readings
* `AtRest`: no handler, no request and no queued frame
* `Harmless`: a payload that `processing_data` handles without undefined behaviour

## Main results

* `idles_syncController`, `idles_offlineCheck`: the checks at the top of `events()`
* `returns_processingData`: `processing_data` on a harmless payload
-/

namespace Teensquitto

/-! ## What a run shows -/

/-- The payloads that were handed to `processing_data` by the receiver. -/
def World.received (w : World) : List (List UInt8) :=
  w.trace.filterMap fun
    | .received payload => some payload
    | _ => none

/-- The payload with which the receiver enters `processing_data`. -/
def Event.handled? : Event → Option (List UInt8)
  | .processing false payload _ _ _ _ => some payload
  | _ => none

/-- The payloads with which the receiver entered `processing_data`. -/
def World.handled (w : World) : List (List UInt8) := w.trace.filterMap Event.handled?

/-- The NAKs that were sent. -/
def World.naks (w : World) : List (List UInt8) :=
  w.sent.filter fun block => block.head? = some 0x21

/-- The members that the checks and the receiver do not touch. -/
def World.own (w : World) : World :=
  { w with
    clock := 0, ticks := [], rx := [], sent := [], ackNakBuf := fun _ => 0
    espDetected := false, espSyncInterval := 0, espCheckLatency := 0, trace := []
    syncs := [] }

theorem received_snoc (w : World) {e : Event} (he : ∀ payload, e ≠ .received payload) :
    World.received { w with trace := w.trace ++ [e] } = w.received := by
  simp only [World.received, List.filterMap_append]
  cases e <;> simp_all

theorem handled_snoc (w : World) (e : Event) :
    World.handled { w with trace := w.trace ++ [e] } = w.handled ++ e.handled?.toList := by
  rw [World.handled, List.filterMap_append]
  cases h : e.handled? <;> simp [World.handled, h]

theorem handled_snoc_of_none (w : World) {e : Event} (he : e.handled? = none) :
    World.handled { w with trace := w.trace ++ [e] } = w.handled := by
  rw [handled_snoc, he]
  exact List.append_nil _

/-- At most `k` readings, none of which takes a byte. -/
def Moves (k : ℕ) (w w' : World) : Prop :=
  ∃ used, w.ticks = used ++ w'.ticks ∧ w'.rx = w.rx ++ arrivals used ∧ used.length ≤ k

/-- Nothing was received, refused or acknowledged. -/
structure Silent (w w' : World) : Prop where
  naks : w'.naks = w.naks
  received : w'.received = w.received
  ack : w'.ackNakBuf = w.ackNakBuf

/-- Nor was `processing_data` entered. -/
structure Uncalled (w w' : World) : Prop extends Silent w w' where
  handled : w'.handled = w.handled

/-- And the untouched members are kept. -/
structure Calm (w w' : World) : Prop extends Uncalled w w' where
  own : w'.own = w.own

instance : IsPreorder World Silent where
  refl _ := ⟨rfl, rfl, rfl⟩
  trans _ _ _ h h' := ⟨h'.naks.trans h.naks, h'.received.trans h.received, h'.ack.trans h.ack⟩

instance : IsPreorder World Uncalled where
  refl _ := ⟨⟨rfl, rfl, rfl⟩, rfl⟩
  trans _ _ _ h h' := ⟨trans_of Silent h.toSilent h'.toSilent, h'.handled.trans h.handled⟩

instance : IsPreorder World Calm where
  refl _ := ⟨⟨⟨rfl, rfl, rfl⟩, rfl⟩, rfl⟩
  trans _ _ _ h h' := ⟨trans_of Uncalled h.toUncalled h'.toUncalled, h'.own.trans h.own⟩

namespace Moves

variable {k k' n : ℕ} {w w' w'' : World}

theorem zero (hticks : w'.ticks = w.ticks) (hrx : w'.rx = w.rx) : Moves 0 w w' :=
  ⟨[], hticks.symm, by simp [hrx], Nat.le_refl 0⟩

theorem mono (h : Moves k w w') (hk : k ≤ k') : Moves k' w w' := by
  obtain ⟨used, hticks, hrx, hused⟩ := h
  exact ⟨used, hticks, hrx, hused.trans hk⟩

theorem trans (h : Moves k w w') (h' : Moves k' w' w'') : Moves (k' + k) w w'' := by
  obtain ⟨used, hticks, hrx, hused⟩ := h
  obtain ⟨used', hticks', hrx', hused'⟩ := h'
  refine ⟨used ++ used', ?_, ?_, ?_⟩
  · rw [hticks, hticks', List.append_assoc]
  · rw [hrx', hrx, arrivals_append, List.append_assoc]
  · rw [List.length_append]
    omega

theorem length_le (h : Moves k w w') : w.ticks.length ≤ w'.ticks.length + k := by
  obtain ⟨used, hticks, -, hused⟩ := h
  rw [hticks, List.length_append]
  omega

/-- Readings that take no byte leave the stream, and cost spare readings. -/
theorem delivers {sched : List Tick} {bytes : List UInt8} {window : List Tick}
    (h : Moves k w w') (hd : Delivers sched bytes window w.rx w.ticks (n + k)) :
    Delivers sched bytes [] w'.rx w'.ticks n := by
  obtain ⟨used, hticks, hrx, hused⟩ := h
  refine ⟨?_, ?_, ?_⟩
  · rw [← hd.stream, hticks, hrx, arrivals_append, List.append_assoc]
  · have hsuffix := hd.suffix
    rw [hticks, ← List.append_assoc] at hsuffix
    exact (List.suffix_append _ w'.ticks).trans hsuffix
  · have := hd.spare_le
    have := spare_append_le used w'.ticks
    rw [← hticks] at this
    omega

/-- When the port is still empty, they cost nothing. -/
theorem delivers_of_nil {sched : List Tick} {bytes : List UInt8}
    (h : Moves k w w') (hd : Delivers sched bytes [] w.rx w.ticks n) (hrx : w'.rx = [])
    (hne : bytes ≠ []) : Delivers sched bytes [] w'.rx w'.ticks n := by
  have hd₀ : Delivers sched bytes [] w.rx w.ticks (spare w.ticks) :=
    ⟨hd.stream, hd.suffix, Nat.le_refl _⟩
  obtain ⟨used, hticks, hrx', -⟩ := h
  rw [hticks] at hd
  refine hd.waited (m := 0) used ⟨?_, ?_, Nat.zero_le _⟩ ?_
  · rw [← hd.stream, hrx', arrivals_append, List.append_assoc]
  · exact (List.suffix_append used w'.ticks).trans hd.suffix
  · rw [hrx, List.length_nil]
    exact List.length_pos_iff.mpr hne

end Moves

/-! ## Programs with a bound on their readings -/

/-- Started within `P`, the program takes at most `k` readings and no byte, moves the state
along `R`, and stays within `P`. -/
def Takes {α : Type} (P : World → Prop) (R : World → World → Prop) (k : ℕ) (m : Prog α) : Prop :=
  ∀ s, P s → k ≤ s.ticks.length → m.Returns s fun _ s' => Moves k s s' ∧ R s s' ∧ P s'

namespace Takes

variable {α β : Type} {P : World → Prop} {R : World → World → Prop} [IsPreorder World R]
  {k k' : ℕ}

omit [IsPreorder World R] in
theorem mono {m : Prog α} (h : Takes P R k m) (hk : k ≤ k') : Takes P R k' m :=
  fun s hs hlen => (h s hs (hk.trans hlen)).mono fun _ _ h' => ⟨h'.1.mono hk, h'.2⟩

theorem pure (a : α) : Takes P R 0 (pure a : Prog α) :=
  fun s hs _ => ⟨Moves.zero rfl rfl, refl_of R s, hs⟩

theorem bind {m : Prog α} {f : α → Prog β} (h : Takes P R k m) (hf : ∀ a, Takes P R k' (f a)) :
    Takes P R (k' + k) (m >>= f) := by
  intro s hs hlen
  rw [EStateM.Returns, EStateM.ends_bind]
  refine EStateM.Returns.mono (h s hs (by omega)) ?_
  rintro a s' ⟨hm, hr, hs'⟩
  have hlen' := hm.length_le
  exact (hf a s' hs' (by omega)).mono fun _ s'' h' =>
    ⟨hm.trans h'.1, trans_of R hr h'.2.1, h'.2.2⟩

omit [IsPreorder World R] in
theorem get_bind {f : World → Prog β} (h : ∀ w, P w → Takes P R k (f w)) :
    Takes P R k (MonadState.get >>= f) :=
  fun s hs hlen => h s hs s hs hlen

omit [IsPreorder World R] in
theorem ite {c : Prop} [Decidable c] {m m' : Prog α} (h : c → Takes P R k m)
    (h' : ¬ c → Takes P R k m') : Takes P R k (if c then m else m') := by
  split
  · next hc => exact h hc
  · next hc => exact h' hc

omit [IsPreorder World R] in
theorem modify {f : World → World}
    (h : ∀ w, P w → (f w).ticks = w.ticks ∧ (f w).rx = w.rx ∧ R w (f w) ∧ P (f w)) :
    Takes P R 0 (modify f : Prog PUnit) := by
  intro s hs _
  obtain ⟨hticks, hrx, hr, hs'⟩ := h s hs
  exact ⟨Moves.zero hticks hrx, hr, hs'⟩

omit [IsPreorder World R] in
theorem tick (h : ∀ w c ticks rx, P w → R w (w.withPort c ticks rx) ∧ P (w.withPort c ticks rx)) :
    Takes P R 1 tick := by
  intro s hs hlen
  obtain ⟨t, ts, hticks⟩ := List.exists_cons_of_length_pos (Nat.lt_of_lt_of_le Nat.zero_lt_one hlen)
  unfold Teensquitto.tick
  rw [EStateM.Returns, EStateM.ends_bind, EStateM.ends_get, hticks]
  exact ⟨⟨[t], hticks, by simp [World.advance], Nat.le_refl 1⟩,
    h s (s.clock + t.elapsed) ts (s.rx ++ t.arrived) hs⟩

theorem millis (h : ∀ w c ticks rx, P w →
    R w (w.withPort c ticks rx) ∧ P (w.withPort c ticks rx)) : Takes P R 1 millis :=
  (tick h).bind fun _ => get_bind fun _ _ => pure _

end Takes

/-! ## The checks at the top of `events()` -/

section Checks

/-- Programs that are calm from every state. -/
abbrev Idles {α : Type} (k : ℕ) (m : Prog α) : Prop := Takes (fun _ => True) Calm k m

theorem idles_millis : Idles 1 millis :=
  Takes.millis fun _ _ _ _ _ => ⟨⟨⟨⟨rfl, rfl, rfl⟩, rfl⟩, rfl⟩, trivial⟩

theorem idles_log {e : Event} (he : ∀ payload, e ≠ .received payload)
    (hnone : e.handled? = none) : Idles 0 (log e) :=
  Takes.modify fun w _ => ⟨rfl, rfl,
    ⟨⟨⟨rfl, received_snoc w he, rfl⟩, handled_snoc_of_none w hnone⟩, rfl⟩, trivial⟩

theorem idles_send {block : List UInt8} (h : block.head? ≠ some 0x21) : Idles 0 (send block) := by
  refine Takes.modify fun w _ => ⟨rfl, rfl, ⟨⟨⟨?_, rfl, rfl⟩, rfl⟩, rfl⟩, trivial⟩
  simp [World.naks, h]

theorem idles_pure (k : ℕ) : Idles k (pure () : Prog Unit) := (Takes.pure ()).mono (Nat.zero_le k)

theorem idles_probe : Idles 2 probe := by
  refine idles_millis.bind fun interval => ?_
  refine Takes.bind (k := 0) ?interval fun _ => ?_
  · exact Takes.modify fun w _ => ⟨rfl, rfl, ⟨⟨⟨rfl, rfl, rfl⟩, rfl⟩, rfl⟩, trivial⟩
  refine Takes.bind (idles_send (by decide)) fun _ => Takes.get_bind fun w _ => ?_
  refine idles_millis.bind fun check => Takes.bind (k := 0) ?check fun _ => ?_
  · exact Takes.modify fun w _ => ⟨rfl, rfl, ⟨⟨⟨rfl, rfl, rfl⟩, rfl⟩, rfl⟩, trivial⟩
  · exact Takes.modify fun w _ => ⟨rfl, rfl, ⟨⟨⟨rfl, rfl, rfl⟩, rfl⟩, rfl⟩, trivial⟩

theorem idles_syncController : Idles 3 syncController := by
  refine Takes.get_bind fun w _ => Takes.ite (fun _ => idles_pure 3) fun _ => ?_
  refine idles_millis.bind fun now => ?_
  exact Takes.ite (fun _ => idles_probe) fun _ => idles_pure 2

theorem idles_goOffline : Idles 0 goOffline := by
  refine Takes.bind (k := 0) ?detected fun _ => idles_log (by simp) rfl
  exact Takes.modify fun w _ => ⟨rfl, rfl, ⟨⟨⟨rfl, rfl, rfl⟩, rfl⟩, rfl⟩, trivial⟩

theorem idles_timeoutCheck : Idles 1 timeoutCheck := by
  refine Takes.get_bind fun w _ => Takes.ite (fun _ => ?_) fun _ => idles_pure 1
  refine idles_millis.bind fun now => ?_
  exact Takes.ite (fun _ => idles_goOffline) fun _ => idles_pure 0

theorem idles_offlineCheck : Idles 1 offlineCheck := by
  refine Takes.bind idles_timeoutCheck fun _ => Takes.get_bind fun w _ => ?_
  exact idles_log (by simp) rfl

end Checks

/-! ## `processing_data` at rest -/

section AtRest

/-- No handler is registered, no request is pending, and no frame is queued. -/
structure AtRest (w : World) : Prop where
  handlers : ∀ slot, w.handlers.present slot = false
  pending : w.pendingData = false
  queue : w.queue.available = 0

/-- A payload that `processing_data` handles without undefined behaviour: a reply fits
`storage_buffer`, and the data of a UDP frame fits the packet. -/
structure Harmless (payload : List UInt8) : Prop where
  three_le : 3 ≤ payload.length
  reply : payload.take 2 = [0xAA, 0x55] → payload.length ≤ 512
  udp : payload.take 3 = [0xCF, 0xCF, 0x00] →
    19 ≤ payload.length ∧ (Bytes.join (payload.getD 17 0) (payload.getD 18 0)).toNat ≤ 256

variable {payload : List UInt8} {user : Prog Unit}

theorem dataAt_uart (w : World) {i : ℕ} (h : i < payload.length) :
    w.dataAt (.uart payload) i = payload[i] := by
  simp [World.dataAt, h]

theorem readHeader_uart (a b : UInt8) (rest : List UInt8) :
    readHeader (.uart (a :: b :: rest)) = pure (Bytes.join a b) := rfl

/-- A header fixes the two bytes it is made of. -/
theorem take_of_join {x y a b : UInt8} {rest : List UInt8}
    (h : Bytes.join x y = Bytes.join a b) : (x :: y :: rest).take 2 = [a, b] := by
  have hx : Bytes.high (Bytes.join x y) = Bytes.high (Bytes.join a b) := congrArg Bytes.high h
  have hy : Bytes.low (Bytes.join x y) = Bytes.low (Bytes.join a b) := congrArg Bytes.low h
  rw [Bytes.high_join, Bytes.high_join] at hx
  rw [Bytes.low_join, Bytes.low_join] at hy
  rw [hx, hy]
  rfl

theorem Harmless.eq_cons (h : Harmless payload) : ∃ a b rest, payload = a :: b :: rest := by
  match payload, h.three_le with
  | a :: b :: rest, _ => exact ⟨a, b, rest, rfl⟩

/-- Steps of `processing_data` at rest. -/
abbrev Rests (k : ℕ) (m : Prog Unit) : Prop := Takes AtRest Uncalled k m

theorem rests_log {e : Event} (he : ∀ payload, e ≠ .received payload)
    (hnone : e.handled? = none) : Rests 0 (log e) :=
  Takes.modify fun w hw =>
    ⟨rfl, rfl, ⟨⟨rfl, received_snoc w he, rfl⟩, handled_snoc_of_none w hnone⟩,
      ⟨hw.handlers, hw.pending, hw.queue⟩⟩

theorem rests_modify {f : World → World} (h : ∀ w, f w = { w with
      espDetected := (f w).espDetected, dataReadyFlag := (f w).dataReadyFlag
      mqttOnlineFlag := (f w).mqttOnlineFlag, mqttServerSync := (f w).mqttServerSync
      clientOnlineFlag := (f w).clientOnlineFlag, mqttClientSync := (f w).mqttClientSync
      wifiStatus := (f w).wifiStatus, espLatency := (f w).espLatency
      espSyncTimeout := (f w).espSyncTimeout, storageBuffer := (f w).storageBuffer
      clock := (f w).clock, packet := (f w).packet, syncs := (f w).syncs }) :
    Rests 0 (modify f) := by
  refine Takes.modify fun w hw => ?_
  rw [h w]
  exact ⟨rfl, rfl, ⟨⟨rfl, rfl, rfl⟩, rfl⟩, ⟨hw.handlers, hw.pending, hw.queue⟩⟩

theorem rests_pure (k : ℕ) : Rests k (pure ()) := (Takes.pure ()).mono (Nat.zero_le k)

theorem rests_millis_bind {k : ℕ} {f : UInt32 → Prog Unit} (hf : ∀ now, Rests k (f now)) :
    Rests (k + 1) (millis >>= f) := by
  refine Takes.bind (Takes.millis fun w c ticks rx hw => ?_) hf
  exact ⟨⟨⟨rfl, rfl, rfl⟩, rfl⟩, ⟨hw.handlers, hw.pending, hw.queue⟩⟩

/-- No handler is registered, so none is called. -/
theorem rests_invoke (slot : Slot) (args : List Datum) : Rests 0 (invoke user slot args) := by
  refine Takes.get_bind fun w hw => Takes.ite (fun h => ?_) fun _ => Takes.pure ()
  exact absurd h (by rw [hw.handlers slot]; exact Bool.false_ne_true)

/-- The timer is refreshed, and the payload logged. -/
theorem returns_refresh {w : World} (hrest : AtRest w) (hlen : 1 ≤ w.ticks.length) :
    (refresh (.uart payload) payload.length).Returns w fun _ w' =>
      Moves 1 w w' ∧ Silent w w' ∧ AtRest w' ∧ w'.handled = w.handled ++ [payload] := by
  have hmillis : Takes AtRest Uncalled 1 millis := Takes.millis fun w c ticks rx hw =>
    ⟨⟨⟨rfl, rfl, rfl⟩, rfl⟩, ⟨hw.handlers, hw.pending, hw.queue⟩⟩
  rw [refresh, EStateM.Returns, EStateM.ends_bind]
  refine EStateM.Returns.mono (hmillis w hrest hlen) ?_
  rintro now w₁ ⟨hmoves, huncalled, hrest₁⟩
  rw [EStateM.ends_bind, EStateM.ends_get, EStateM.ends_bind, log, EStateM.ends_modify,
    EStateM.ends_modify, w₁.load_dataAt_uart]
  refine ⟨hmoves, ⟨huncalled.naks, ?_, huncalled.ack⟩,
    ⟨hrest₁.handlers, hrest₁.pending, hrest₁.queue⟩, ?_⟩
  · exact (received_snoc w₁ (by simp)).trans huncalled.received
  · exact (handled_snoc w₁ _).trans (congrArg (· ++ [payload]) huncalled.handled)

theorem rests_delay (ms : ℕ) : Rests 1 (delay ms) := by
  refine Takes.bind (k := 1) (Takes.tick fun w c ticks rx hw => ?_) fun _ => ?_
  · exact ⟨⟨⟨rfl, rfl, rfl⟩, rfl⟩, ⟨hw.handlers, hw.pending, hw.queue⟩⟩
  · exact rests_modify fun w => rfl

theorem rests_bringOnline : Rests 1 (bringOnline user) := by
  refine Takes.bind (k := 0) (rests_log (by simp) rfl) fun _ => ?_
  refine Takes.bind (k := 0) (rests_modify fun w => rfl) fun _ => ?_
  exact Takes.bind (rests_delay 1000) fun _ => rests_invoke _ _

theorem rests_detection (hpayload : Harmless payload) :
    Rests 1 (detection user (.uart payload)) := by
  obtain ⟨a, b, rest, rfl⟩ := hpayload.eq_cons
  refine Takes.get_bind fun w _ => Takes.ite (fun _ => ?_) fun _ => rests_bringOnline
  rw [readHeader_uart, pure_bind]
  exact Takes.ite (fun _ => rests_bringOnline) fun _ => rests_pure 1

theorem rests_storeReply (src : Source) {len : ℕ} (hpos : 0 < len) (hlen : len ≤ 512) :
    Rests 0 (storeReply src len) := by
  refine Takes.get_bind fun w _ => Takes.ite (fun h => ?_) fun _ => ?_
  · omega
  · exact Takes.bind (k := 0) (rests_log (by simp) rfl) fun _ => rests_modify fun w => rfl

theorem rests_latencyFrame (header : UInt16) : Rests 1 (latencyFrame header) :=
  rests_millis_bind fun _ => Takes.get_bind fun _ _ =>
    Takes.bind (k := 0) (rests_modify fun _ => rfl) fun _ => rests_modify fun _ => rfl

theorem rests_dispatchUdp (h : payload.take 2 = [0xCF, 0xCF]) (hpayload : Harmless payload) :
    Rests 0 (dispatchUdp user (.uart payload)) := by
  refine Takes.get_bind fun w _ => Takes.ite (fun hop => ?_) fun _ => Takes.pure ()
  obtain ⟨a, b, c, rest, rfl⟩ : ∃ a b c rest, payload = a :: b :: c :: rest := by
    match payload, hpayload.three_le with
    | a :: b :: c :: rest, _ => exact ⟨a, b, c, rest, rfl⟩
  obtain rfl : c = 0 := hop
  have hab : a = 0xCF ∧ b = 0xCF := by simpa using h
  obtain ⟨hlen, hle⟩ := hpayload.udp (by simp [hab])
  refine Takes.ite (fun hbig => ?_) fun _ => ?_
  · rw [Decode.half, dataAt_uart w (by omega), dataAt_uart w (by omega)] at hbig
    rw [List.getD_eq_getElem _ _ (by omega), List.getD_eq_getElem _ _ (by omega)] at hle
    exact absurd hle (Nat.not_le_of_gt hbig)
  · exact Takes.bind (k := 0) (rests_modify fun w => rfl) fun _ => rests_invoke _ _

theorem rests_dispatch (len : ℕ) (hpayload : Harmless payload) :
    Rests 0 (dispatch user (.uart payload) len) := by
  refine Takes.get_bind fun w _ => Takes.bind (k := 0) (rests_log (by simp) rfl) fun _ => ?_
  refine Takes.ite (fun h => ?_) fun _ => ?_
  · obtain ⟨a, b, rest, rfl⟩ := hpayload.eq_cons
    exact rests_dispatchUdp (take_of_join h) hpayload
  · dsimp only
    split
    · exact rests_invoke _ _
    · exact Takes.pure ()

theorem rests_asyncFrame (len : ℕ) (hpayload : Harmless payload) :
    Rests 0 (asyncFrame user (.uart payload) len) := by
  refine Takes.get_bind fun w hw => Takes.ite (fun h => ?_) fun _ => rests_dispatch len hpayload
  exact absurd h (by rw [hw.pending]; exact Bool.false_ne_true)

theorem rests_switchHeader (hpayload : Harmless payload) :
    Rests 1 (switchHeader user (.uart payload) payload.length) := by
  obtain ⟨a, b, rest, rfl⟩ := hpayload.eq_cons
  rw [switchHeader, readHeader_uart, pure_bind]
  refine Takes.ite (fun h => ?_) fun _ => ?_
  · have hlen := hpayload.reply (take_of_join h)
    exact (rests_storeReply _ (Nat.lt_of_lt_of_le (by decide) hpayload.three_le) hlen).mono
      (Nat.zero_le 1)
  refine Takes.ite (fun _ => rests_latencyFrame _) fun _ => ?_
  refine Takes.ite (fun _ => (rests_asyncFrame _ hpayload).mono (Nat.zero_le 1)) fun _ => ?_
  refine Takes.ite (fun _ => ?_) fun _ => Takes.ite (fun hzero => ?_) fun _ => rests_pure 1
  · refine (rests_modify fun w => ?_).mono (Nat.zero_le 1)
    unfold statusFrame
    dsimp only
    split <;> (try split) <;> rfl
  · exact absurd hzero (Nat.ne_of_gt (Nat.lt_of_lt_of_le (by decide) hpayload.three_le))

/-- **On a harmless payload, at rest, `processing_data` leaves the receiver alone.** -/
theorem returns_processingData (hpayload : Harmless payload) {w : World} (hrest : AtRest w)
    (hlen : 3 ≤ w.ticks.length) :
    (processingData user (.uart payload) payload.length).Returns w fun _ w' =>
      Moves 3 w w' ∧ Silent w w' ∧ AtRest w' ∧ w'.handled = w.handled ++ [payload] := by
  have hbehind : Rests 2 (do
      detection user (.uart payload)
      switchHeader user (.uart payload) payload.length) :=
    (rests_detection hpayload).bind fun _ => rests_switchHeader hpayload
  rw [processingData, EStateM.Returns, EStateM.ends_bind]
  refine EStateM.Returns.mono (returns_refresh hrest (by omega)) ?_
  rintro ⟨⟩ w₁ ⟨hmoves, hsilent, hrest₁, hhandled⟩
  have hlength := hmoves.length_le
  refine EStateM.Returns.mono (hbehind w₁ hrest₁ (by omega)) ?_
  rintro ⟨⟩ w₂ ⟨hmoves₂, huncalled₂, hrest₂⟩
  exact ⟨hmoves.trans hmoves₂, trans_of Silent hsilent huncalled₂.toSilent, hrest₂,
    huncalled₂.handled.trans hhandled⟩

end AtRest

end Teensquitto
