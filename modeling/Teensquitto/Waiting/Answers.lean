import Teensquitto.CircularBuffer.Refinement
import Teensquitto.Receiver.StreamParsing
import Teensquitto.Reply.Values
import Teensquitto.Waiting.Durations
import Teensquitto.Waiting.Timeouts

/-!
# Requests that are answered

While a request waits, the library stays online and no handler runs.  The wait passes over whatever
the ESP sends before the reply, asynchronous frames and replies to other requests among it, so a
reply that comes in time is what the method returns.

## Main definitions

* `Ticked`: only the readings have taken time
* `Tame`: a payload that is handled during a wait without a handler
* `PassedOver`, `Answers`: the payloads before the reply, and the reply
* `World.InTime`: the readings up to the reply come within the limit

## Main results

* `returns_events_awaiting`: one call of `events()` during a wait
* `returns_waitLoop`: the wait ends with the reply
* `call_returns_reply`: the method returns what the reply says
-/

namespace Teensquitto

/-! ## Time -/

/-- Only the readings have taken time, and the ESP has neither come nor gone. -/
structure Ticked (w w' : World) : Prop where
  used : ∃ used, w.ticks = used ++ w'.ticks ∧ w'.clock = w.clock + elapsed used
  online : w'.espDetected = w.espDetected

namespace Ticked

variable {w w' w'' : World}

theorem of_eq (hticks : w'.ticks = w.ticks) (hclock : w'.clock = w.clock)
    (honline : w'.espDetected = w.espDetected) : Ticked w w' :=
  ⟨⟨[], hticks.symm, hclock⟩, honline⟩

theorem trans (h : Ticked w w') (h' : Ticked w' w'') : Ticked w w'' := by
  obtain ⟨⟨used, hticks, hclock⟩, honline⟩ := h
  obtain ⟨⟨used', hticks', hclock'⟩, honline'⟩ := h'
  refine ⟨⟨used ++ used', ?_, ?_⟩, honline'.trans honline⟩
  · rw [hticks, hticks', List.append_assoc]
  · rw [hclock', hclock, elapsed_append, Nat.add_assoc]

theorem length_le (h : Ticked w w') : w'.ticks.length ≤ w.ticks.length := by
  obtain ⟨⟨used, hticks, -⟩, -⟩ := h
  rw [hticks, List.length_append]
  exact Nat.le_add_left _ _

theorem advance {t : Tick} {ticks : List Tick} (hticks : w.ticks = t :: ticks) :
    Ticked w (w.advance t ticks) :=
  ⟨⟨[t], hticks, rfl⟩, rfl⟩

end Ticked

instance : IsPreorder World Ticked where
  refl _ := .of_eq rfl rfl rfl
  trans _ _ _ := Ticked.trans

theorem ticked_bearsTicks : BearsTicks Ticked where
  tick w := ends_tick_of (fun _ _ hticks => .advance hticks) (refl_of Ticked w)
  take _ := .of_eq rfl rfl rfl
  ackNak _ _ := .of_eq rfl rfl rfl
  sendNak _ _ _ := .of_eq rfl rfl rfl

/-! ## Frames during a wait -/

/-- A request is pending, and the ESP is detected. -/
structure World.Awaits (w : World) : Prop where
  online : w.espDetected = true
  pending : w.pendingData = true

/-- Only the readings have taken time, and the reply that is held is the one before. -/
structure Bides (w w' : World) : Prop extends Ticked w w' where
  ready : w'.dataReadyFlag = w.dataReadyFlag
  storage : w'.storageBuffer = w.storageBuffer

instance : IsPreorder World Bides where
  refl _ := ⟨.of_eq rfl rfl rfl, rfl, rfl⟩
  trans _ _ _ h h' := ⟨h.toTicked.trans h'.toTicked, h'.ready.trans h.ready,
    h'.storage.trans h.storage⟩

/-- The header of a payload. -/
def payloadHeader (payload : List UInt8) : UInt16 :=
  Bytes.join (payload.getD 0 0) (payload.getD 1 0)

/-- A payload that is handled during a wait without a handler and inside the arrays: it does not
tell of a restarted ESP, a reply fits `storage_buffer`, and an asynchronous frame a row of the
queue. -/
structure Tame (payload : List UInt8) : Prop where
  restart : payloadHeader payload ≠ 0x8080
  reply : payloadHeader payload = 0xAA55 → payload.length ≤ 512
  queued : payloadHeader payload ∈ asyncHeaders → payload.length ≤ 300

section Processing

variable {payload : List UInt8} {user : Prog Unit} {w : World}

/-- Steps of `processing_data` during a wait. -/
abbrev BidesFor (k : ℕ) (m : Prog Unit) : Prop := Takes World.Awaits Bides k m

theorem bides_modify {f : World → World} (h : ∀ w, f w = { w with
      mqttOnlineFlag := (f w).mqttOnlineFlag, mqttServerSync := (f w).mqttServerSync
      clientOnlineFlag := (f w).clientOnlineFlag, mqttClientSync := (f w).mqttClientSync
      wifiStatus := (f w).wifiStatus, espLatency := (f w).espLatency
      espSyncTimeout := (f w).espSyncTimeout, queue := (f w).queue, trace := (f w).trace
      syncs := (f w).syncs }) :
    BidesFor 0 (modify f) := by
  refine Takes.modify fun w hw => ?_
  rw [h w]
  exact ⟨rfl, rfl, ⟨.of_eq rfl rfl rfl, rfl, rfl⟩, ⟨hw.online, hw.pending⟩⟩

theorem bides_log (event : Event) : BidesFor 0 (log event) := bides_modify fun _ => rfl

theorem bides_pure (k : ℕ) : BidesFor k (pure ()) := (Takes.pure ()).mono (Nat.zero_le k)

theorem bides_millis_bind {k : ℕ} {f : UInt32 → Prog Unit} (hf : ∀ now, BidesFor k (f now)) :
    BidesFor (k + 1) (millis >>= f) := by
  have hmillis : Takes World.Awaits Bides 1 millis := by
    intro w hw hlen
    obtain ⟨t, ticks, hticks⟩ := List.exists_cons_of_length_pos hlen
    refine (ends_millis_cons hticks).mpr ⟨⟨[t], hticks, ?_, Nat.le_refl 1⟩, ?_, ?_⟩
    · simp [World.advance]
    · exact ⟨.advance hticks, rfl, rfl⟩
    · exact ⟨hw.online, hw.pending⟩
  exact hmillis.bind hf

theorem bides_refresh (src : Source) (len : ℕ) : BidesFor 1 (refresh src len) := by
  refine bides_millis_bind fun now => Takes.get_bind fun w _ => ?_
  exact Takes.bind (k := 0) (bides_log _) fun _ => bides_modify fun _ => rfl

theorem readHeader_payload (h : 2 ≤ payload.length) :
    readHeader (.uart payload) = pure (payloadHeader payload) := by
  obtain ⟨a, payload, rfl⟩ := List.exists_cons_of_length_pos (by omega : 0 < payload.length)
  rw [List.length_cons] at h
  obtain ⟨b, payload, rfl⟩ := List.exists_cons_of_length_pos (by omega : 0 < payload.length)
  rfl

theorem bides_detection (h : 2 ≤ payload.length) (htame : Tame payload) :
    BidesFor 0 (detection user (.uart payload)) := by
  refine Takes.get_bind fun w hw => Takes.ite (fun _ => ?_) fun hoffline => ?_
  · rw [readHeader_payload h, pure_bind]
    exact Takes.ite (fun hrestart => absurd hrestart htame.restart) fun _ => bides_pure 0
  · exact absurd hw.online hoffline

/-- A row of the queue has room for a frame that fits it. -/
theorem bides_queueFrame (src : Source) {len : ℕ} (h : len ≤ 300) :
    BidesFor 0 (queueFrame src len) := by
  refine Takes.get_bind fun w _ => Takes.ite (fun hfull => ?_) fun _ => ?_
  · have hrow := CircularBuffer.row_eq (k := 4) rfl w.queue w.queue.tail
    have hmod : w.queue.tail.toNat % (16 : UInt16).toNat < 16 := Nat.mod_lt _ (by decide)
    have hwidth : (300 : UInt16).toNat + 2 = 302 := rfl
    rw [hrow, hwidth] at hfull
    omega
  · exact Takes.bind (k := 0) (bides_log _) fun _ => bides_modify fun _ => rfl

theorem bides_statusFrame (src : Source) : BidesFor 0 (modify (statusFrame src)) := by
  refine bides_modify fun w => ?_
  obtain ⟨_, _, _, _, _, heq⟩ := exists_statusFrame_eq src w
  rw [heq]

theorem bides_latencyFrame (header : UInt16) : BidesFor 1 (latencyFrame header) := by
  refine bides_millis_bind fun _ => Takes.get_bind fun _ _ => ?_
  exact Takes.bind (k := 0) (bides_modify fun _ => rfl) fun _ => bides_modify fun _ => rfl

/-- A frame that is no reply leaves the reply that is held. -/
theorem bides_switchHeader (h : 3 ≤ payload.length) (htame : Tame payload)
    (hreply : payloadHeader payload ≠ 0xAA55) :
    BidesFor 1 (switchHeader user (.uart payload) payload.length) := by
  rw [switchHeader, readHeader_payload (by omega), pure_bind]
  refine Takes.ite (fun h => absurd h hreply) fun _ => ?_
  refine Takes.ite (fun _ => bides_latencyFrame _) fun _ => ?_
  refine Takes.ite (fun hasync => ?_) fun _ => ?_
  · refine Takes.get_bind fun w hw => Takes.ite (fun _ => ?_) fun hidle => ?_
    · exact (bides_queueFrame _ (htame.queued hasync)).mono (Nat.zero_le 1)
    · exact absurd hw.pending hidle
  refine Takes.ite (fun _ => (bides_statusFrame _).mono (Nat.zero_le 1)) fun _ => ?_
  exact Takes.ite (fun hzero => absurd hzero (by omega)) fun _ => bides_pure 1

/-- The bytes of a reply, as they are stored. -/
theorem store_eq_stored (hlength : 3 ≤ payload.length) (w : World) :
    w.storageBuffer.store 0 ((w.dataAt (.uart payload)).load 0 (payload.length - 1) ++ [0]) =
      stored w.storageBuffer payload := by
  have hload : (w.dataAt (.uart payload)).load 0 (payload.length - 1) = payload.dropLast := by
    refine List.ext_getElem (by simp) fun i hi hi' => ?_
    rw [Memory.length_load] at hi
    rw [Memory.getElem_load, Nat.zero_add, dataAt_uart w (by omega), List.getElem_dropLast]
  rw [hload, stored]

/-- What becomes of the reply that is held: another reply takes its place. -/
def Holding (payload : List UInt8) (w w' : World) : Prop :=
  if payloadHeader payload = 0xAA55 then
    w'.dataReadyFlag = true ∧ w'.storageBuffer = stored w.storageBuffer payload
  else w'.dataReadyFlag = w.dataReadyFlag

/-- **`processing_data` during a wait** stores a reply, and calls no handler. -/
theorem returns_processing (hlength : 3 ≤ payload.length) (htame : Tame payload)
    (hw : w.Awaits) (hticks : 2 ≤ w.ticks.length) :
    (processingData user (.uart payload) payload.length).Returns w fun _ w' =>
      Moves 2 w w' ∧ Ticked w w' ∧ w'.Awaits ∧ Holding payload w w' := by
  have hbefore : BidesFor 1 (do
      refresh (.uart payload) payload.length
      detection user (.uart payload)) :=
    (bides_refresh _ _).bind fun _ => bides_detection (by omega) htame
  rw [processingData, ← bind_assoc, EStateM.Returns, EStateM.ends_bind]
  refine EStateM.Returns.mono (hbefore w hw (by omega)) ?_
  rintro ⟨⟩ w₁ ⟨hm₁, hb₁, hw₁⟩
  by_cases hreply : payloadHeader payload = 0xAA55
  · rw [switchHeader, readHeader_payload (by omega), pure_bind, EStateM.ends_ite, if_pos hreply,
      storeReply, EStateM.ends_bind, EStateM.ends_get, EStateM.ends_ite,
      if_neg (by have := htame.reply hreply; omega), EStateM.ends_bind, log, EStateM.ends_modify,
      EStateM.ends_modify, if_neg (by omega)]
    refine ⟨?_, ?_, ⟨hw₁.online, hw₁.pending⟩, ?_⟩
    · exact ((Moves.zero rfl rfl).trans hm₁).mono (by omega)
    · exact hb₁.toTicked.trans (.of_eq rfl rfl rfl)
    · rw [Holding, if_pos hreply, ← hb₁.storage]
      exact ⟨rfl, store_eq_stored hlength w₁⟩
  · have hlen₁ := hm₁.length_le
    refine EStateM.Returns.mono (bides_switchHeader hlength htame hreply w₁ hw₁ (by omega)) ?_
    rintro ⟨⟩ w₂ ⟨hm₂, hb₂, hw₂⟩
    refine ⟨hm₁.trans hm₂, hb₁.toTicked.trans hb₂.toTicked, hw₂, ?_⟩
    rw [Holding, if_neg hreply]
    exact hb₂.ready.trans hb₁.ready

end Processing

/-! ## A call of `events()` -/

section Events

variable {sched : List Tick} {seg : Segment} {rest : List UInt8} {n : ℕ} {w : World}

/-- The checks neither probe nor go offline during a wait. -/
theorem checks_run_of_awaits (hw : w.Awaits) :
    checks.run w = .ok () { w with trace := w.trace ++ [.poll true true w.clock] } := by
  rw [checks, EStateM.run_bind, syncController, EStateM.run_bind, EStateM.run_get]
  simp only [hw.online, if_true, EStateM.run_pure]
  rw [offlineCheck, EStateM.run_bind, timeoutCheck, EStateM.run_bind, EStateM.run_get]
  simp only [hw.pending, Bool.not_true, Bool.false_and, Bool.false_eq_true, if_false,
    EStateM.run_pure, EStateM.run_bind, EStateM.run_get, hw.online, run_log]

/-- A frame in the queue has to wait. -/
theorem ends_drainQueue_of_awaits (hw : w.Awaits) {process : Source → ℕ → Prog Unit}
    {Q : Unit → World → Prop} {E : Halt → World → Prop} :
    (drainQueue process).Ends w Q E ↔ Q () w := by
  rw [drainQueue, EStateM.ends_bind, EStateM.ends_get, EStateM.ends_ite, if_neg]
  · exact Iff.rfl
  · rw [hw.pending]
    exact Bool.false_ne_true

/-- The receiver changes nothing that a wait depends on. -/
theorem awaits_of_own {w' : World} (hw : w.Awaits) (hown : w'.own = w.own) (ht : Ticked w w') :
    w'.dataReadyFlag = w.dataReadyFlag ∧ w'.storageBuffer = w.storageBuffer ∧ w'.Awaits := by
  have hready : w'.own.dataReadyFlag = w.own.dataReadyFlag := congrArg World.dataReadyFlag hown
  have hstorage : w'.own.storageBuffer = w.own.storageBuffer := congrArg World.storageBuffer hown
  have hpending : w'.own.pendingData = w.own.pendingData := congrArg World.pendingData hown
  exact ⟨hready, hstorage, ht.online.trans hw.online, hpending.trans hw.pending⟩

/-- What a segment does to the reply that is held. -/
def Segment.Changes (seg : Segment) (w w' : World) : Prop :=
  seg.payload?.elim (w'.dataReadyFlag = w.dataReadyFlag) (Holding · w w')

/-- **A call of `events()` during a wait** finds an empty port, or takes the first segment. -/
theorem returns_events_awaiting {user : Prog Unit} (htame : ∀ p ∈ seg.payload?, Tame p)
    (htimely : Timely sched) (hprompt : seg.Prompt rest sched) (hw : w.Awaits)
    (hd : Delivers sched (seg.bytes ++ rest) [] w.rx w.ticks (4 * seg.bytes.length + n + 11)) :
    (events user).Returns w fun _ w' => Ticked w w' ∧ w'.Awaits ∧
      ((w'.rx = [] ∧ w'.dataReadyFlag = w.dataReadyFlag ∧ Moves 1 w w' ∧
          w'.ticks.length < w.ticks.length) ∨
        (seg.Changes w w' ∧ Delivers sched rest [] w'.rx w'.ticks n)) := by
  rw [events, eventsWith_eq_code, EStateM.Returns, EStateM.ends_map, receive, EStateM.ends_bind,
    EStateM.ends_of_ok (checks_run_of_awaits hw), EStateM.ends_bind]
  have huart := @returns_uart sched seg rest (n + 2)
    { w with trace := w.trace ++ [.poll true true w.clock] } htimely hprompt (hd.mono (by omega))
  refine (huart.and (ticked_bearsTicks.along_uart _)).mono ?_ fun _ _ h => h.1
  rintro r w₁ ⟨⟨rfl, hrx, hcalm, hmoves, hlt⟩ | ⟨hreads, htaken, hd₁⟩, hticked⟩ <;>
    replace hticked : Ticked w w₁ := ⟨hticked.used, hticked.online⟩
  · -- no byte was there, and the queue has to wait
    obtain ⟨hready, -, hw₁⟩ := awaits_of_own hw hcalm.own hticked
    rw [EStateM.ends_bind, handle, ends_drainQueue_of_awaits hw₁]
    exact ⟨hticked, hw₁, .inl ⟨hrx, hready, hmoves, hlt⟩⟩
  · obtain ⟨hready, hstorage, hw₁⟩ := awaits_of_own hw htaken.own hticked
    have hlen := hd₁.spare_le.trans (spare_le_length _)
    cases seg with
    | command payload hsize closed =>
      obtain rfl : r = .frame payload := hreads
      rw [EStateM.ends_bind, handle, EStateM.ends_bind, log, EStateM.ends_modify]
      refine EStateM.Returns.mono (returns_processing hsize.1 (htame payload rfl) (w := _)
        ⟨hw₁.online, hw₁.pending⟩ (Nat.le_trans (by omega) hlen)) ?_
      rintro ⟨⟩ w₂ ⟨hmoves, hticked₂, hw₂, hholding⟩
      refine ⟨hticked.trans ⟨hticked₂.used, hticked₂.online⟩, hw₂, .inr ⟨?_, ?_⟩⟩
      · change Holding payload w w₂
        unfold Holding at hholding ⊢
        rw [← hready, ← hstorage]
        exact hholding
      · exact hmoves.delivers (w := w₁) hd₁
    | group a b c d =>
      obtain ⟨x, rfl⟩ := hreads
      exact ⟨hticked, hw₁, .inr ⟨hready, hd₁.mono (by omega)⟩⟩
    | noise x h =>
      obtain rfl : r = .flushed := hreads
      rw [EStateM.ends_bind, handle, ends_drainQueue_of_awaits hw₁]
      exact ⟨hticked, hw₁, .inr ⟨hready, hd₁.mono (by omega)⟩⟩

end Events

/-! ## The wait -/

/-- The reply to a request repeats the key of its frame, and fits `storage_buffer`. -/
structure Answers (key : Key) (payload : List UInt8) : Prop where
  six_le : 6 ≤ payload.length
  fits : payload.length ≤ 512
  echoes : accepts (stored (.fill 0) payload) key = true

/-- The wait for a reply passes over this payload: a reply to another request differs from it in
the header and in the opcode. -/
structure PassedOver (key : Key) (payload : List UInt8) : Prop extends Tame payload where
  foreign : payloadHeader payload = 0xAA55 →
    6 ≤ payload.length ∧ Teensquitto.foreign (stored (.fill 0) payload) key = true

/-- All readings but the last `n` come within the limits of the request; only readings behind the
last arrival are left out. -/
def World.InTime (e : Exchange) (n : ℕ) (w : World) : Prop :=
  ∀ used left, w.ticks = used ++ left → n ≤ spare left →
    elapsed used < e.limit ∧ elapsed used ≤ e.checkLimit

/-- The spare readings that a wait needs for these segments. -/
def waitBudget (segs : List Segment) : ℕ :=
  (segs.map fun seg => 4 * seg.bytes.length + 12).sum

section Keys

variable {key : Key} {payload : List UInt8}

/-- The five bytes that are compared belong to the reply. -/
theorem stored_eq_fill (h : 6 ≤ payload.length) (storage : Memory UInt8) {i : ℕ} (hi : i < 5) :
    stored storage payload i = stored (.fill 0) payload i :=
  (stored_eq (by omega)).trans (stored_eq (by omega)).symm

theorem foreign_stored (h : 6 ≤ payload.length) (storage : Memory UInt8) :
    foreign (stored storage payload) key = foreign (stored (.fill 0) payload) key := by
  simp only [foreign, stored_eq_fill h storage (by decide : 2 < 5),
    stored_eq_fill h storage (by decide : 3 < 5), stored_eq_fill h storage (by decide : 4 < 5)]

theorem Answers.accepts_stored (h : Answers key payload) (storage : Memory UInt8) :
    accepts (stored storage payload) key = true := by
  have hsame {i : ℕ} (hi : i < 5) := stored_eq_fill h.six_le storage hi
  rw [← h.echoes]
  simp only [accepts, hsame (by decide : 0 < 5), hsame (by decide : 1 < 5),
    hsame (by decide : 2 < 5), hsame (by decide : 3 < 5), hsame (by decide : 4 < 5)]

theorem Answers.header_eq (h : Answers key payload) : payloadHeader payload = 0xAA55 := by
  have hlength := h.six_le
  have hechoes := h.echoes
  simp only [accepts, Bool.and_eq_true, decide_eq_true_eq] at hechoes
  have hfirst : stored (.fill 0) payload 0 = payload.getD 0 0 := stored_of_lt (by omega)
  have hsecond : stored (.fill 0) payload 1 = payload.getD 1 0 := stored_of_lt (by omega)
  rw [payloadHeader, ← hfirst, ← hsecond]
  exact hechoes.1.1

theorem Answers.tame (h : Answers key payload) : Tame payload where
  restart := by
    rw [h.header_eq]
    decide
  reply _ := h.fits
  queued hasync := by
    rw [h.header_eq] at hasync
    exact absurd hasync (by decide)

end Keys

section Wait

variable {sched : List Tick} {key : Key} {n limit : ℕ} {w₀ w : World} {user : Prog Unit}

theorem le_waitLimit (hlimit : limit ≤ 35000) (w : World) : limit ≤ (w.waitLimit limit).toNat := by
  have hlatency : w.espLatency.toUInt32.toNat < 2 ^ 16 := w.espLatency.toNat_lt
  rw [World.waitLimit, UInt32.toNat_add, UInt32.toNat_ofNat_of_lt' (by omega : limit < 2 ^ 32)]
  omega

/-- The time that has passed is that of the readings. -/
theorem Ticked.since (h : Ticked w₀ w) : ∃ used, w₀.ticks = used ++ w.ticks ∧
    (UInt32.ofNat w.clock - UInt32.ofNat w₀.clock).toNat ≤ elapsed used := by
  obtain ⟨⟨used, hticks, hclock⟩, -⟩ := h
  refine ⟨used, hticks, ?_⟩
  rw [hclock, ofNat_add_sub, UInt32.toNat_ofNat']
  exact Nat.mod_le _ _

/-- A round of the wait, with `seg` at the front of the stream. -/
theorem ends_waitBody {seg : Segment} {segs : List Segment} {m : ℕ}
    {Q : Unit ⊕ Unit → World → Prop} (htame : ∀ p ∈ seg.payload?, Tame p)
    (hsched : Punctual (seg :: segs) sched) (honline : w.espDetected = true)
    (hready : w.dataReadyFlag = false)
    (hd : Delivers sched (streamBytes (seg :: segs)) [] w.rx w.ticks
      (4 * seg.bytes.length + 12 + m))
    (hlimit : ∀ w₁, Ticked w w₁ → m ≤ spare w₁.ticks →
      UInt32.ofNat w₁.clock - UInt32.ofNat w₀.clock < w₁.waitLimit limit)
    (hQ : ∀ w', Ticked w w' → w'.ticks.length < w.ticks.length →
      ((w'.dataReadyFlag = false ∧ Delivers sched (streamBytes (seg :: segs)) [] w'.rx w'.ticks
          (4 * seg.bytes.length + 12 + m)) ∨
        (seg.Changes w w' ∧ Delivers sched (streamBytes segs) [] w'.rx w'.ticks m)) →
      if w'.dataReadyFlag then
        if foreign w'.storageBuffer key then Q (.inl ()) { w' with dataReadyFlag := false }
        else Q (.inr ()) w'
      else Q (.inl ()) w') :
    (waitBody (do let _ ← events user) key limit (UInt32.ofNat w₀.clock) ()).Returns w Q := by
  obtain ⟨t, ticks, hticks⟩ := List.exists_cons_of_length_pos
    (Nat.lt_of_lt_of_le (by omega) (hd.spare_le.trans (spare_le_length _)) : 0 < w.ticks.length)
  have hmoves : Moves 1 w (w.advance t ticks) :=
    ⟨[t], hticks, by simp [World.advance], Nat.le_refl 1⟩
  have hd₁ : Delivers sched (seg.bytes ++ streamBytes segs) [] (w.rx ++ t.arrived) ticks
      (4 * seg.bytes.length + m + 11) := hmoves.delivers (hd.mono (by omega))
  have hnow : UInt32.ofNat (w.clock + t.elapsed) - UInt32.ofNat w₀.clock <
      (w.advance t ticks).waitLimit limit :=
    hlimit _ (.advance hticks) (Nat.le_trans (by omega) hd₁.spare_le)
  rw [waitBody, EStateM.Returns, EStateM.ends_bind, EStateM.ends_get, EStateM.ends_ite, if_neg
    (by rw [hready]; exact Bool.false_ne_true), EStateM.ends_bind, ends_millis_cons hticks,
    EStateM.ends_bind, EStateM.ends_get, EStateM.ends_ite, if_pos hnow, waitRound,
    EStateM.ends_bind, EStateM.ends_modify, EStateM.ends_bind, EStateM.ends_bind]
  refine EStateM.Returns.mono (returns_events_awaiting (n := m) htame hsched.timely
    (hsched.prompt [] seg segs rfl) (w := { w.advance t ticks with pendingData := true })
    ⟨honline, rfl⟩ hd₁) ?_
  rintro _ w' ⟨hticked, -, hround⟩
  have hlonger : w'.ticks.length < w.ticks.length := by
    rw [hticks, List.length_cons]
    exact Nat.lt_succ_of_le hticked.length_le
  have htaken : Ticked w w' := (Ticked.advance hticks).trans ⟨hticked.used, hticked.online⟩
  have hafter := hQ w' htaken hlonger (hround.imp (fun hidle => ⟨?_, ?_⟩) fun htaken => htaken)
  · rw [EStateM.ends_pure, EStateM.ends_bind, EStateM.ends_get, EStateM.ends_ite]
    split
    · next hw' =>
      rw [if_pos hw'] at hafter
      rw [EStateM.ends_ite]
      split
      · next hforeign =>
        rwa [if_pos hforeign] at hafter
      · next hforeign =>
        rwa [if_neg hforeign] at hafter
    · next hw' =>
      rwa [if_neg hw'] at hafter
  · exact hidle.2.1.trans hready
  · obtain ⟨used, hused, hrx, hone⟩ := hidle.2.2.1
    refine Moves.delivers_of_nil (k := 2) (w := w) ⟨t :: used, ?_, ?_, ?_⟩ hd hidle.1 ?_
    · rw [hticks, List.cons_append]
      exact congrArg _ hused
    · rw [hrx, arrivals_cons, ← List.append_assoc]
      rfl
    · exact Nat.succ_le_succ hone
    · rw [streamBytes_cons]
      exact List.append_ne_nil_of_left_ne_nil seg.bytes_ne_nil _

/-- The reply is to come, behind segments that the wait passes over. -/
structure Expecting (sched : List Tick) (key : Key) (reply : Segment) (later : List Segment) (n : ℕ)
    (w₀ w : World) : Prop where
  ticked : Ticked w₀ w
  online : w.espDetected = true
  ready : w.dataReadyFlag = false
  coming : ∃ segs, (∀ seg ∈ segs, ∀ p ∈ seg.payload?, PassedOver key p) ∧
    Punctual (segs ++ reply :: later) sched ∧
      Delivers sched (streamBytes (segs ++ reply :: later)) [] w.rx w.ticks
        (waitBudget (segs ++ [reply]) + n)

/-- The reply has come. -/
structure Replied (sched : List Tick) (payload : List UInt8) (later : List Segment) (n : ℕ)
    (w₀ w : World) : Prop where
  ticked : Ticked w₀ w
  ready : w.dataReadyFlag = true
  storage : ∃ storage, w.storageBuffer = stored storage payload
  delivers : Delivers sched (streamBytes later) [] w.rx w.ticks n

variable {payload : List UInt8} {hsize : 3 ≤ payload.length ∧ payload.length ≤ 65535}
  {closed : Closed payload} {later : List Segment}

/-- A segment that the wait passes over leaves no reply, or one at which it goes on. -/
theorem passed_over {seg : Segment} (h : ∀ p ∈ seg.payload?, PassedOver key p) {w' : World}
    (hready : w.dataReadyFlag = false) (hchanges : seg.Changes w w') :
    w'.dataReadyFlag = true → foreign w'.storageBuffer key = true := by
  intro hready'
  cases seg with
  | command p _ _ =>
    change Holding p w w' at hchanges
    unfold Holding at hchanges
    split at hchanges
    · next hheader =>
      obtain ⟨hlength, hforeign⟩ := (h p rfl).foreign hheader
      rw [hchanges.2, foreign_stored hlength, hforeign]
    · rw [hchanges, hready] at hready'
      cases hready'
  | group a b c d | noise x hx =>
    have hsame : w'.dataReadyFlag = w.dataReadyFlag := hchanges
    rw [hsame, hready] at hready'
    cases hready'

/-- **The wait ends with its reply**, however many other segments come before. -/
theorem returns_waitLoop {segs : List Segment}
    (hpassed : ∀ seg ∈ segs, ∀ p ∈ seg.payload?, PassedOver key p) (hanswers : Answers key payload)
    (hsched : Punctual (segs ++ .command payload hsize closed :: later) sched)
    (honline : w₀.espDetected = true) (hready : w₀.dataReadyFlag = false)
    (hd : Delivers sched (streamBytes (segs ++ .command payload hsize closed :: later)) [] w₀.rx
      w₀.ticks (waitBudget (segs ++ [.command payload hsize closed]) + n))
    (hlimit : limit ≤ 35000)
    (htime : ∀ used left, w₀.ticks = used ++ left → n ≤ spare left → elapsed used < limit) :
    (waitLoop (do let _ ← events user) key limit (UInt32.ofNat w₀.clock)).Returns w₀
      fun _ w => Replied sched payload later n w₀ w := by
  rw [waitLoop_eq]
  refine returns_loop
    (fun _ w => Expecting sched key (.command payload hsize closed) later n w₀ w) ?_
    ⟨refl_of Ticked w₀, honline, hready, segs, hpassed, hsched, hd⟩
  rintro ⟨⟩ w ⟨hticked, honline, hready, segs, hpassed, hsched, hd⟩
  have hchecks (m : ℕ) (w₁ : World) (h : Ticked w w₁) (hm : m + n ≤ spare w₁.ticks) :
      UInt32.ofNat w₁.clock - UInt32.ofNat w₀.clock < w₁.waitLimit limit := by
    obtain ⟨used, hused, hsince⟩ := (hticked.trans h).since
    have hbefore := htime used w₁.ticks hused ((Nat.le_add_left n m).trans hm)
    have hlater := le_waitLimit hlimit w₁
    rw [UInt32.lt_iff_toNat_lt]
    omega
  have honline' {w' : World} (h : Ticked w w') : w'.espDetected = true := h.online.trans honline
  cases segs with
  | nil =>
    -- The reply is at the front of the stream.
    have hd' : Delivers sched (streamBytes (.command payload hsize closed :: later)) [] w.rx w.ticks
        (4 * (Segment.command payload hsize closed).bytes.length + 12 + n) := hd
    refine ends_waitBody (fun p hp => ?_) hsched honline hready hd' ?_ ?_
    · obtain rfl : payload = p := Option.some.inj hp
      exact hanswers.tame
    · exact fun w₁ h hm => hchecks 0 w₁ h (by omega)
    · rintro w' h hlt (⟨hready', hdelivers⟩ | ⟨hchanges, hdelivers⟩)
      · rw [if_neg (by rw [hready']; exact Bool.false_ne_true)]
        exact ⟨⟨hticked.trans h, honline' h, hready', [], hpassed, hsched, hdelivers⟩, hlt⟩
      · change Holding payload w w' at hchanges
        rw [Holding, if_pos hanswers.header_eq] at hchanges
        have haccepts : accepts w'.storageBuffer key = true := by
          rw [hchanges.2]
          exact hanswers.accepts_stored _
        rw [if_pos hchanges.1, foreign_of_accepts haccepts, if_neg Bool.false_ne_true]
        exact ⟨hticked.trans h, hchanges.1, ⟨_, hchanges.2⟩, hdelivers⟩
  | cons seg segs =>
    have hfirst := hpassed seg List.mem_cons_self
    have hothers := fun s hs => hpassed s (List.mem_cons_of_mem seg hs)
    have hbudget : waitBudget (seg :: segs ++ [.command payload hsize closed]) + n =
        4 * seg.bytes.length + 12 + (waitBudget (segs ++ [.command payload hsize closed]) + n) :=
      Nat.add_assoc _ _ _
    rw [hbudget] at hd
    refine ends_waitBody (fun p hp => (hfirst p hp).toTame) hsched honline hready hd
      (hchecks _) ?_
    rintro w' h hlt (⟨hready', hdelivers⟩ | ⟨hchanges, hdelivers⟩)
    · rw [if_neg (by rw [hready']; exact Bool.false_ne_true)]
      rw [← hbudget] at hdelivers
      exact ⟨⟨hticked.trans h, honline' h, hready', seg :: segs, hpassed, hsched, hdelivers⟩, hlt⟩
    · have hgone := hticked.trans h
      have honline₂ := honline' h
      split
      · next hready' =>
        rw [if_pos (passed_over hfirst hready hchanges hready')]
        exact ⟨⟨⟨hgone.used, hgone.online⟩, honline₂, rfl, segs, hothers, hsched.tail, hdelivers⟩,
          hlt⟩
      · next hnone =>
        exact ⟨⟨hgone, honline₂, Bool.not_eq_true _ ▸ hnone, segs, hothers, hsched.tail,
          hdelivers⟩, hlt⟩

end Wait

/-! ## Requests -/

section Requests

variable {e : Exchange} {n : ℕ} {w : World} {user : Prog Unit} {segs later : List Segment}
  {payload : List UInt8} {hsize : 3 ≤ payload.length ∧ payload.length ≤ 65535}
  {closed : Closed payload}

/-- The reply to a request comes in time, behind segments that the wait passes over. -/
structure Prompted (e : Exchange) (segs : List Segment) (reply : Segment) (later : List Segment)
    (n : ℕ) (w : World) : Prop where
  stream : w.stream = streamBytes (segs ++ reply :: later)
  punctual : Punctual (segs ++ reply :: later) w.ticks
  spare : waitBudget (segs ++ [reply]) + n + 2 ≤ spare w.ticks
  inTime : w.InTime e n
  passed : ∀ seg ∈ segs, ∀ p ∈ seg.payload?, PassedOver (e.key w) p
  answers : ∀ p ∈ reply.payload?, Answers (e.key w) p

/-- The state in which the wait loop begins, behind a reading of the clock. -/
def World.asking (w : World) (e : Exchange) (t : Tick) (ticks : List Tick) : World :=
  { w.advance t ticks with
    sent := w.sent ++ [e.command.emit (w.stray w.clock)]
    trace := w.trace ++ [.request (e.key w)]
    dataReadyFlag := false }

/-- The frame is written, and the time taken. -/
theorem ends_wait {events : Prog Unit} {t : Tick} {ticks : List Tick}
    {Q : Key × UInt32 → World → Prop} {E : Halt → World → Prop} (e : Exchange)
    (hticks : w.ticks = t :: ticks) :
    (e.wait events).Ends w Q E ↔
      (waitLoop events (e.key w) e.limit (UInt32.ofNat (w.asking e t ticks).clock)).Ends
        (w.asking e t ticks)
        (fun _ w' => Q (e.key w, UInt32.ofNat (w.asking e t ticks).clock)
          { w' with trace := w'.trace ++ [.waitEnd], pendingData := false }) E := by
  rw [Exchange.wait, EStateM.ends_bind, writeCommand, EStateM.ends_bind, EStateM.ends_get,
    EStateM.ends_bind, send, EStateM.ends_modify, EStateM.ends_pure, EStateM.ends_bind, log,
    EStateM.ends_modify, EStateM.ends_bind]
  refine (ends_millis_cons (w := { w with
    sent := w.sent ++ [e.command.emit (w.stray w.clock)]
    trace := w.trace ++ [.request (e.key w)] }) hticks).trans ?_
  rw [EStateM.ends_bind, EStateM.ends_modify, EStateM.ends_bind]
  exact Iff.rfl

/-- **A request is answered.** -/
theorem returns_answer (hlimit : e.limit ≤ 35000) (hcheck : e.checkLimit ≤ 35000)
    (honline : w.espDetected = true)
    (h : Prompted e segs (.command payload hsize closed) later n w) :
    (e.answer (do let _ ← events user)).Returns w fun result w' =>
      (∃ storage, result = .accepted (stored storage payload)) ∧ Ticked w w' ∧
        w'.pendingData = false ∧ Delivers w.ticks (streamBytes later) [] w'.rx w'.ticks n := by
  have hd : Delivers w.ticks (streamBytes (segs ++ .command payload hsize closed :: later)) [] w.rx
      w.ticks (waitBudget (segs ++ [.command payload hsize closed]) + (n + 1) + 1) :=
    ⟨h.stream, List.suffix_rfl, h.spare⟩
  obtain ⟨t, ticks, hticks⟩ := hd.exists_tick
  have hmoves : Moves 1 w (w.advance t ticks) :=
    ⟨[t], hticks, by simp [World.advance], Nat.le_refl 1⟩
  have htime (used left : List Tick) (hsplit : ticks = used ++ left) (hle : n + 1 ≤ spare left) :
      elapsed used < e.limit := by
    have hall := (h.inTime (t :: used) left (by rw [hticks, hsplit]; rfl) (by omega)).1
    have hcons : elapsed (t :: used) = t.elapsed + elapsed used := rfl
    omega
  rw [Exchange.answer_eq, EStateM.Returns, EStateM.ends_bind, ends_wait e hticks]
  refine EStateM.Returns.mono (returns_waitLoop (n := n + 1) h.passed (h.answers payload rfl)
    h.punctual honline rfl (hmoves.delivers hd) hlimit htime) ?_
  rintro ⟨⟩ w' ⟨hticked, hready, ⟨storage, hstorage⟩, hdelivers⟩
  have hgone : Ticked w w' := (Ticked.advance hticks).trans ⟨hticked.used, hticked.online⟩
  -- One more reading, at which the reply is looked at.
  obtain ⟨t', ticks', hticks'⟩ := hdelivers.exists_tick
  have haccepts : accepts w'.storageBuffer (e.key w) = true := by
    rw [hstorage]
    exact (h.answers payload rfl).accepts_stored _
  have hmoves' : Moves 1 w' (w'.advance t' ticks') :=
    ⟨[t'], hticks', by simp [World.advance], Nat.le_refl 1⟩
  have hd' := hmoves'.delivers hdelivers
  have hlast : Ticked (w.asking e t ticks) (w'.advance t' ticks') :=
    hticked.trans (.advance hticks')
  have hintime : World.inTime { w' with trace := w'.trace ++ [.waitEnd], pendingData := false } t'
      (UInt32.ofNat (w.asking e t ticks).clock) e.checkLimit = true := by
    obtain ⟨used, hused, hsince⟩ := hlast.since
    have hsplit : w.ticks = (t :: used) ++ ticks' := by
      rw [hticks, List.cons_append]
      exact congrArg _ hused
    have hall := (h.inTime _ _ hsplit hd'.spare_le).2
    have hcons : elapsed (t :: used) = t.elapsed + elapsed used := rfl
    have hlater := le_waitLimit hcheck { w' with
      trace := w'.trace ++ [.waitEnd], pendingData := false }
    rw [World.inTime, decide_eq_true_iff, UInt32.le_iff_toNat_le]
    exact Nat.le_trans (hsince.trans (by omega)) hlater
  have hrun := (@conclude_run_of_accepts
    { w' with trace := w'.trace ++ [.waitEnd], pendingData := false } (e.key w) _ t' ticks'
    hready haccepts hticks' e.checkLimit).trans (if_pos hintime)
  refine (EStateM.ends_of_ok hrun).mpr ⟨⟨storage, by rw [← hstorage]⟩, ?_, rfl, hd'⟩
  exact hgone.trans ⟨⟨[t'], hticks', rfl⟩, rfl⟩

end Requests

/-! ## Methods -/

/-- The block is entered. -/
def Stage.active : Stage → Bool
  | request active _ => active
  | send active _ _ => active
  | update active _ _ => active
  | undefined active => active

/-- A block that is not entered does nothing. -/
theorem Stage.run_of_not_active {events : Prog Unit} {stage : Stage} (h : ¬stage.active = true) :
    stage.run events = pure none := by
  cases stage <;> exact if_neg h

section Methods

variable {e : Exchange} {n : ℕ} {w : World} {user : Prog Unit} {segs later : List Segment}
  {payload : List UInt8} {hsize : 3 ≤ payload.length ∧ payload.length ≤ 65535}
  {closed : Closed payload}

/-- A method whose first block is a request begins with it. -/
theorem runStages_of_find {events : Prog Unit} {otherwise : Value} {stages : List Stage}
    (h : stages.find? Stage.active = some (.request true e)) : ∃ later,
    runStages events otherwise stages = runStages events otherwise (.request true e :: later) := by
  induction stages with
  | nil => cases h
  | cons stage stages ih =>
    by_cases hactive : stage.active = true
    · rw [List.find?_cons_of_pos hactive] at h
      exact ⟨stages, by rw [Option.some.inj h]⟩
    · rw [List.find?_cons_of_neg hactive] at h
      obtain ⟨later, hlater⟩ := ih h
      refine ⟨later, ?_⟩
      rw [runStages, Stage.run_of_not_active hactive, pure_bind]
      exact hlater

/-- **A method returns what the reply says.**  Let its first block be a request whose reply comes
within the limits, behind frames of whatever kind that do not concern it.  Then the method returns
the value decoded from that reply, the library stays online, and the segments behind the reply are
left in the stream; which handlers are set does not matter.  A reply that has all bytes that are
read decides the value alone. -/
theorem call_returns_reply {c : Call}
    (hfirst : c.method.stages.find? Stage.active = some (.request true e))
    (honline : w.espDetected = true)
    (h : Prompted e segs (.command payload hsize closed) later n w) :
    ∃ d : Decoder, e.decode = d.decode ∧
      (c.run (do let _ ← events user)).Returns w fun v w' =>
        (∃ storage, v = d.decode (stored storage payload)) ∧
        (d.Covered payload →
          v.Determinate ∧ ∀ storage, v = d.decode (stored storage payload)) ∧
        w'.espDetected = true ∧ w'.pendingData = false ∧ w'.stream = streamBytes later := by
  have hmem : .request true e ∈ c.method.stages := List.mem_of_find?_eq_some hfirst
  have hlimits : max e.limit e.checkLimit ≤ 35000 := c.brief.limits _ hmem
  obtain ⟨d, hdecode⟩ : ∃ d : Decoder, e.decode = d.decode := c.decodes _ hmem
  refine ⟨d, hdecode, ?_⟩
  have hcalled : Prompted e segs (.command payload hsize closed) later n
      { w with trace := w.trace ++ [.call c w.espDetected] } :=
    ⟨h.stream, h.punctual, h.spare, h.inTime, h.passed, h.answers⟩
  have hanswer : (e.answer (do let _ ← events user)).Returns
      { w with trace := w.trace ++ [.call c w.espDetected] } _ :=
    returns_answer ((Nat.le_max_left _ _).trans hlimits) ((Nat.le_max_right _ _).trans hlimits)
      (w := { w with trace := w.trace ++ [.call c w.espDetected] }) honline hcalled
  obtain ⟨_, w', hrun, ⟨storage, rfl⟩, hticked, hpending, hdelivers⟩ := hanswer.exists_ok
  obtain ⟨stages, hstages⟩ := @runStages_of_find _ (do let _ ← events user) c.method.otherwise _
    hfirst
  have hreturns : (runStages (do let _ ← events user) c.method.otherwise c.method.stages).Returns
      { w with trace := w.trace ++ [.call c w.espDetected] } fun v w' =>
        (∃ storage, v = d.decode (stored storage payload)) ∧
        (d.Covered payload →
          v.Determinate ∧ ∀ storage, v = d.decode (stored storage payload)) ∧
        w'.espDetected = true ∧ w'.pendingData = false ∧ w'.stream = streamBytes later := by
    rw [hstages]
    refine (EStateM.ends_of_ok (runStages_of_accepted hrun _ _)).mpr ?_
    rw [hdecode]
    refine ⟨⟨storage, rfl⟩, fun hcovered => ⟨Decoder.determinate_of_covered hcovered storage,
      fun storage' => ?_⟩, hticked.online.trans honline, hpending,
      hdelivers.stream⟩
    exact Decoder.decode_congr (h.answers payload rfl).six_le hcovered storage storage'
  -- The guard, if there is one, is passed.
  rw [Call.run, EStateM.Returns, EStateM.ends_bind, EStateM.ends_get, EStateM.ends_bind, log,
    EStateM.ends_modify, Method.run, EStateM.ends_bind, EStateM.ends_get]
  split
  · rw [EStateM.ends_ite, if_pos honline]
    exact hreturns
  · exact hreturns

end Methods

/-! ## A reply among other frames -/

/-- A stray byte, a reply to another request, an MQTT event and an acknowledgement. -/
def beforeFormat : List Segment :=
  [.noise 0x0A (by decide),
    .command [0xAA, 0x55, 0x32, 0x32, 0x02, 0x00, 0xFD] (by decide) (by decide),
    .command [0xAF, 0xAF, 0x00, 0x01, 0x01] (by decide) (by decide), .group 6 1 2 3]

/-- The reply to `format()`. -/
def formatReply : List UInt8 := [0xAA, 0x55, 0x34, 0x34, 0x03, 0x01, 0xFD]

/-- An MQTT event. -/
def behindFormat : List Segment :=
  [.command [0xAF, 0xAF, 0x00, 0x01, 0x01] (by decide) (by decide)]

/-- The reply comes in the middle of the last delivery, and an event behind it. -/
def formatSchedule : List Tick :=
  [⟨5, [0x0A, 0x24, 0x00, 0x07, 0xAA, 0x55, 0x32, 0x32, 0x02]⟩,
    ⟨60, [0x00, 0xFD, 0x24, 0x00, 0x05, 0xAF, 0xAF, 0x00, 0x01, 0x01, 0x21, 6, 1, 2, 3, 0x24, 0x00,
      0x07, 0xAA, 0x55, 0x34, 0x34, 0x03, 0x01, 0xFD, 0x24, 0x00, 0x05, 0xAF, 0xAF, 0x00, 0x01,
      0x01]⟩] ++ quiet 200

theorem elapsed_formatSchedule : elapsed formatSchedule = 65 := by
  rw [formatSchedule, elapsed_append, elapsed_quiet]
  rfl

theorem prompted_formatSchedule : Prompted formatExchange beforeFormat
    (.command formatReply (by decide) (by decide)) behindFormat 0
    (World.powerUp formatSchedule [] fun _ _ => 0) where
  stream := by
    change arrivals formatSchedule = _
    rw [formatSchedule, arrivals_append, arrivals_quiet]
    rfl
  punctual := by
    refine punctual_of_elapsed_lt ?_
    change elapsed formatSchedule < 100
    rw [elapsed_formatSchedule]
    decide
  spare := by
    change _ ≤ spare formatSchedule
    refine Nat.le_trans ?_ (length_le_spare_append _ (arrivals_quiet 200))
    rw [length_quiet]
    decide
  inTime used left hsplit _ := by
    have hall : elapsed used + elapsed left = 65 := by
      rw [← elapsed_append, ← hsplit]
      exact elapsed_formatSchedule
    have hlimit : formatExchange.limit = 35000 := rfl
    have hcheck : formatExchange.checkLimit = 35000 := rfl
    omega
  passed := by
    simp only [beforeFormat, List.forall_mem_cons, Segment.payload?, Option.mem_some_iff,
      forall_eq', Option.not_mem_none]
    refine ⟨by simp, ⟨⟨by decide, by decide, by decide⟩, fun _ => by decide⟩,
      ⟨⟨by decide, by decide, by decide⟩, fun h => absurd h (by decide)⟩, by simp, by simp⟩
  answers p hp := by
    obtain rfl : formatReply = p := Option.some.inj hp
    exact ⟨by decide, by decide, by decide⟩

theorem call_returns_reply_format : ∃ d : Decoder, formatExchange.decode = d.decode ∧
    (Call.run (do let _ ← events (userCode 1))
      (.spiffs { Object.initial with spiffs := true } .format)).Returns
        (World.powerUp formatSchedule [] fun _ _ => 0) fun v w' =>
          (∃ storage, v = d.decode (stored storage formatReply)) ∧
          (d.Covered formatReply →
            v.Determinate ∧ ∀ storage, v = d.decode (stored storage formatReply)) ∧
          w'.espDetected = true ∧ w'.pendingData = false ∧
            w'.stream = streamBytes behindFormat := by
  have honline : (World.powerUp formatSchedule [] fun _ _ => 0).espDetected = true := rfl
  exact call_returns_reply rfl honline prompted_formatSchedule

end Teensquitto
