import Teensquitto.Device.Events
import Teensquitto.Receiver.Arrival
import Teensquitto.Receiver.StreamParsing

/-!
# Corrupted frames

A frame of which one payload byte was changed fails the comparison with its checksum, wherever
the byte lies.  The receiver then answers with a NAK and changes nothing else, and the stream
behind the frame is left as it is.

## Main definitions

* `checks`, `Keeps`: the checks at the top of `events()`, and what they leave as it is
* `HandsOn`: the next frame is handed to `processing_data`

## Main results

* `not_closed_set`: one changed byte is detected
* `eventsWith_run_of_closed`: a frame with its checksum is handed on
* `corrupted_frame_rejected`: a corrupted frame has no effect but its NAK
-/

namespace Teensquitto

/-! ## The checksum -/

/-- The bytes of a valid payload sum up to zero. -/
theorem closed_iff {payload : List UInt8} (hne : payload ≠ []) :
    Closed payload ↔ Bytes.xorSum payload = 0 := by
  have hsplit : Bytes.xorSum payload =
      Bytes.xorSum payload.dropLast ^^^ payload.getLast hne := by
    conv_lhs => rw [← List.dropLast_append_getLast hne]
    rw [Bytes.xorSum_append, Bytes.xorSum_singleton]
  rw [← getLast_eq_iff_closed hne, hsplit, UInt8.xor_eq_zero_iff]
  exact eq_comm

/-- **One changed byte is detected**, the checksum byte included. -/
theorem not_closed_set {payload : List UInt8} (h : Closed payload) {i : ℕ}
    (hi : i < payload.length) {x : UInt8} (hx : x ≠ payload[i]) : ¬Closed (payload.set i x) := by
  have hne : payload.set i x ≠ [] := by
    rw [Ne, ← List.length_eq_zero_iff, List.length_set]
    omega
  rw [closed_iff hne, Bytes.xorSum_set hi, (closed_iff h.ne_nil).mp h, UInt8.zero_xor]
  exact fun hxor => hx (UInt8.xor_eq_zero_iff.mp hxor).symm

/-! ## The call of `events()` -/

/-- The checks at the top of `events()`. -/
def checks : Prog Unit := do
  syncController
  offlineCheck

theorem eventsWith_eq (process : Source → ℕ → Prog Unit) : eventsWith process = (do
    checks
    match ← uart with
    | .frame payload =>
      log (.received payload)
      process (.uart payload) payload.length
      return 0x24
    | .rejected => return 0x24
    | .expired => return 0x15
    | .ack b => return b
    | .nothing | .flushed =>
      drainQueue process
      return 0) :=
  (bind_assoc syncController (fun _ => offlineCheck) _).symm

/-- What the detection check leaves as it is: only clock, port and trace, `_esp_detected` and the
two times and the log of the probe change. -/
structure Keeps (w w' : World) : Prop where
  own : w' = { w with
    clock := w'.clock, ticks := w'.ticks, rx := w'.rx, sent := w'.sent
    espDetected := w'.espDetected, espSyncInterval := w'.espSyncInterval
    espCheckLatency := w'.espCheckLatency, trace := w'.trace, syncs := w'.syncs }
  stream : w'.stream = w.stream

theorem Drifts.keeps {w w' : World} (h : Drifts w w') : Keeps w w' where
  own := by
    rw [h.own]
    rfl
  stream := h.stream

theorem Keeps.trans {w w' w'' : World} (h : Keeps w w') (h' : Keeps w' w'') : Keeps w w'' where
  own := by
    rw [h'.own, h.own]
  stream := h'.stream.trans h.stream

theorem ensures_syncController (w : World) : syncController.Ensures w fun _ w' => Keeps w w' := by
  unfold syncController
  rw [EStateM.Ensures, EStateM.ends_bind, EStateM.ends_get, EStateM.ends_ite]
  split
  · exact (Drifts.refl w).keeps
  · refine (ensures_millis w).bind fun now w₁ h₁ => ?_
    rw [EStateM.Ensures, EStateM.ends_ite]
    split
    · unfold probe
      refine (ensures_millis w₁).bind fun interval w₂ h₂ => ?_
      rw [EStateM.Ensures, EStateM.ends_bind, EStateM.ends_modify, EStateM.ends_bind, send,
        EStateM.ends_modify, EStateM.ends_bind, EStateM.ends_get]
      refine (ensures_millis _).bind fun check w₃ h₃ => ?_
      have hprobe : Keeps w₂ { { w₂ with espSyncInterval := interval } with
          sent := w₂.sent ++ [[0x24, 0x00, 0x03, 0x7E, 0x7E, 0x00]] } := ⟨rfl, rfl⟩
      have hcheck : Keeps w₃ { { w₃ with espCheckLatency := check } with
          syncs := .probe w₂.clock :: w₃.syncs } := ⟨rfl, rfl⟩
      exact (((h₁.trans h₂).keeps.trans hprobe).trans h₃.keeps).trans hcheck
    · exact h₁.keeps

theorem ensures_offlineCheck (w : World) : offlineCheck.Ensures w fun _ w' => Keeps w w' := by
  have htimeout : timeoutCheck.Ensures w fun _ w' => Keeps w w' := by
    unfold timeoutCheck
    rw [EStateM.Ensures, EStateM.ends_bind, EStateM.ends_get, EStateM.ends_ite]
    split
    · refine (ensures_millis w).bind fun now w₁ h₁ => ?_
      rw [EStateM.Ensures, EStateM.ends_ite]
      split
      · exact h₁.keeps.trans ⟨rfl, rfl⟩
      · exact h₁.keeps
    · exact (Drifts.refl w).keeps
  exact htimeout.bind fun _ w₁ h₁ => h₁.trans ⟨rfl, rfl⟩

theorem ensures_checks (w : World) : checks.Ensures w fun _ w' => Keeps w w' :=
  (ensures_syncController w).bind fun _ w₁ h₁ =>
    (ensures_offlineCheck w₁).mono fun _ _ h₂ => h₁.trans h₂

/-- With the readings they need, the checks come to an end. -/
theorem exists_checks {w : World} (h : 4 ≤ w.ticks.length) :
    ∃ w₁, checks.run w = .ok () w₁ ∧ Keeps w w₁ := by
  have hidles : Idles 4 checks := idles_syncController.bind fun _ => idles_offlineCheck
  obtain ⟨_, w₁, hrun, -⟩ := (hidles w trivial h).exists_ok
  exact ⟨w₁, hrun, (ensures_checks w).of_ok hrun⟩

section Events

variable {payload rest : List UInt8} {w w₁ : World}

/-- A frame with its checksum is handed to `processing_data`. -/
theorem eventsWith_run_of_closed (hclosed : Closed payload) (hlen : payload.length ≤ 65535)
    (hchecks : checks.run w = .ok () w₁) (hstream : w₁.stream = commandBytes payload ++ rest)
    (harrives : Arrives payload.length w₁.rx w₁.ticks) :
    ∃ clock ticks rx, (w₁.withPort clock ticks rx).stream = rest ∧ ∀ process,
      (eventsWith process).run w = (do
        log (.received payload)
        process (.uart payload) payload.length
        return 0x24).run (w₁.withPort clock ticks rx) := by
  obtain ⟨clock, ticks, rx, hrest, huart⟩ := harrives.uart_run hclosed.ne_nil hlen hstream
  refine ⟨clock, ticks, rx, hrest, fun process => ?_⟩
  have hpos := List.length_pos_iff.mpr hclosed.ne_nil
  have hverdict := (getD_eq_iff_closed hclosed.ne_nil).mpr hclosed
  rw [Buffer.of, verdict, if_neg (by omega), if_neg (not_not_intro hverdict)] at huart
  rw [eventsWith_eq, EStateM.run_bind, hchecks]
  simp only
  rw [EStateM.run_bind, huart]
  rfl

/-- A frame with another checksum is answered with a NAK. -/
theorem eventsWith_run_of_not_closed (hopen : ¬Closed payload)
    (hlen : 2 ≤ payload.length ∧ payload.length ≤ 65535)
    (hchecks : checks.run w = .ok () w₁) (hstream : w₁.stream = commandBytes payload ++ rest)
    (harrives : Arrives payload.length w₁.rx w₁.ticks) :
    ∃ clock ticks rx, (w₁.withPort clock ticks rx).stream = rest ∧ ∀ process,
      (eventsWith process).run w =
        .ok 0x24 ((w₁.withPort clock ticks rx).naked (payload.getD 0 0) (payload.getD 1 0)) := by
  have hne : payload ≠ [] := List.ne_nil_of_length_pos (by omega)
  obtain ⟨clock, ticks, rx, hrest, huart⟩ := harrives.uart_run hne hlen.2 hstream
  refine ⟨clock, ticks, rx, hrest, fun process => ?_⟩
  have hverdict := fun h => hopen ((getD_eq_iff_closed hne).mp h)
  rw [Buffer.of, verdict, if_neg (by omega), if_pos hverdict] at huart
  have hsecond (x : UInt8) : payload.getD 1 x = payload.getD 1 0 := by
    rw [List.getD_eq_getElem _ _ (by omega), List.getD_eq_getElem _ _ (by omega)]
  rw [eventsWith_eq, EStateM.run_bind, hchecks]
  simp only
  rw [EStateM.run_bind, huart]
  simp only [EStateM.run_bind, EStateM.run_get, sendNak, hsecond]
  rfl

/-- A frame at the front of the stream is handed to `processing_data` by the next call, when it
arrives in time, and the stream behind it is left as it is. -/
def HandsOn (w : World) : Prop :=
  ∀ next rest, Closed next → next.length ≤ 65535 → w.stream = commandBytes next ++ rest →
    4 ≤ w.ticks.length → ∃ w₁, checks.run w = .ok () w₁ ∧ Keeps w w₁ ∧
      (Arrives next.length w₁.rx w₁.ticks →
        ∃ clock ticks rx, (w₁.withPort clock ticks rx).stream = rest ∧ ∀ process,
          (eventsWith process).run w = (do
            log (.received next)
            process (.uart next) next.length
            return 0x24).run (w₁.withPort clock ticks rx))

theorem handsOn (w : World) : HandsOn w := by
  intro next rest hclosed hlen hstream hticks
  obtain ⟨w₁, hchecks, hkeeps⟩ := exists_checks hticks
  refine ⟨w₁, hchecks, hkeeps, fun harrives => ?_⟩
  exact eventsWith_run_of_closed hclosed hlen hchecks (hkeeps.stream.trans hstream) harrives

/-- **A corrupted frame is rejected without side effects.**  The call that receives a frame of
which one payload byte was changed does not reach `processing_data`, whatever this is; its NAK
and the readings of the port are all it leaves behind the checks at the top.  The stream behind
the frame is untouched, and a frame there is handed to `processing_data` by the next call.  When
the bytes come in decides alone whether the call receives the frame. -/
theorem corrupted_frame_rejected {i : ℕ} {x : UInt8} (hclosed : Closed payload)
    (hlen : 2 ≤ payload.length ∧ payload.length ≤ 65535) (hi : i < payload.length)
    (hx : x ≠ payload[i]) (hstream : w.stream = commandBytes (payload.set i x) ++ rest)
    (hticks : 4 ≤ w.ticks.length) :
    ∃ w₁, checks.run w = .ok () w₁ ∧ Keeps w w₁ ∧
      (Arrives payload.length w₁.rx w₁.ticks → ∃ clock ticks rx w₂,
        w₂ = (w₁.withPort clock ticks rx).naked ((payload.set i x).getD 0 0)
          ((payload.set i x).getD 1 0) ∧
        w₂.stream = rest ∧ (∀ process, (eventsWith process).run w = .ok 0x24 w₂) ∧
        HandsOn w₂) := by
  obtain ⟨w₁, hchecks, hkeeps⟩ := exists_checks hticks
  refine ⟨w₁, hchecks, hkeeps, fun harrives => ?_⟩
  have hopen := not_closed_set hclosed hi hx
  rw [← List.length_set (i := i) (a := x)] at hlen harrives
  obtain ⟨clock, ticks, rx, hrest, hrun⟩ :=
    eventsWith_run_of_not_closed hopen hlen hchecks (hkeeps.stream.trans hstream) harrives
  exact ⟨clock, ticks, rx, _, rfl, hrest, hrun, handsOn _⟩

end Events

/-- A status frame of which the status was changed on the way, and another status frame.
Irreducible, so that runs over it are evaluated only where this is asked for. -/
@[irreducible] def corruptedSchedule : List Tick :=
  [⟨3, commandBytes [0x72, 0x72, 0x07, 0x03]⟩, ⟨2, commandBytes [0x72, 0x72, 0x06, 0x06]⟩] ++
    quiet 60

theorem corrupted_frame_rejected_status : ∃ w₂ w₃ clock ticks rx,
    (∀ process, (eventsWith process).run (.powerUp corruptedSchedule [] fun _ _ => 0) =
      .ok 0x24 w₂) ∧ checks.run w₂ = .ok () w₃ ∧
    ∀ process, (eventsWith process).run w₂ = (do
      log (.received [0x72, 0x72, 0x06, 0x06])
      process (.uart [0x72, 0x72, 0x06, 0x06]) 4
      return 0x24).run (w₃.withPort clock ticks rx) := by
  have hfirst : checks.Returns (.powerUp corruptedSchedule [] fun _ _ => 0) fun _ w =>
      Arrives 4 w.rx w.ticks := by decide +kernel
  have hsecond : (eventsWith fun _ _ => pure ()).Returns
      (.powerUp corruptedSchedule [] fun _ _ => 0) fun _ w => 4 ≤ w.ticks.length ∧
        checks.Returns w fun _ w => Arrives 4 w.rx w.ticks := by decide +kernel
  obtain ⟨w₁, hchecks, -, hreject⟩ :=
    @corrupted_frame_rejected [0x72, 0x72, 0x03, 0x03] (commandBytes [0x72, 0x72, 0x06, 0x06])
      (.powerUp corruptedSchedule [] fun _ _ => 0) 2 0x07 (by decide) (by decide) (by decide)
      (by decide) (by decide +kernel) (by decide +kernel)
  obtain ⟨_, _, _, w₂, -, hrest, hrun, hnext⟩ := hreject (hfirst.of_ok hchecks)
  obtain ⟨hticks, harrives⟩ := hsecond.of_ok (hrun _)
  obtain ⟨w₃, hchecks', -, hhand⟩ := hnext [0x72, 0x72, 0x06, 0x06] [] (by decide) (by decide)
    hrest hticks
  obtain ⟨clock, ticks, rx, -, hrun'⟩ := hhand (harrives.of_ok hchecks')
  exact ⟨w₂, w₃, clock, ticks, rx, hrun, hchecks', hrun'⟩

end Teensquitto
