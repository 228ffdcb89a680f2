import Teensquitto.Receiver.StreamParsing
import Teensquitto.Waiting.Durations

/-!
# Back in step

Between two calls of `events()` the receiver remembers nothing of a packet.  Whatever bytes are in
the port, a call takes one of them at least, and does not wait for long.  So after a silence the
port is empty, and the frames that come then are received.

## Main definitions

* `StaysAtRest`: no handler is set, no request pending and no frame queued by a program
* `Setting.shut`: no bytes arrive
* `recoveryTime`: how long the silence takes

## Main results

* `ends_uart_shut`, `ends_events_shut`: a byte in the port is taken
* `listen_after_silence`: calls before the first byte do no harm
* `listen_recovers`: the receiver is back in step after a silence
-/

namespace Teensquitto

open EStateM

/-! ## Rest -/

section Rest

/-- Where the library is at rest, it stays so. -/
def StaysAtRest (w w' : World) : Prop := AtRest w → AtRest w'

instance : IsPreorder World StaysAtRest where
  refl _ h := h
  trans _ _ _ h h' hw := h' (h hw)

theorem bearsReceiver_staysAtRest : BearsReceiver StaysAtRest where
  advance _ _ _ h := ⟨h.handlers, h.pending, h.queue⟩
  take _ h := ⟨h.handlers, h.pending, h.queue⟩
  interval _ _ h := ⟨h.handlers, h.pending, h.queue⟩
  latency _ _ h := ⟨h.handlers, h.pending, h.queue⟩
  sync _ _ h := ⟨h.handlers, h.pending, h.queue⟩
  ackNak _ _ h := ⟨h.handlers, h.pending, h.queue⟩
  sendProbe _ h := ⟨h.handlers, h.pending, h.queue⟩
  sendNak _ _ _ h := ⟨h.handlers, h.pending, h.queue⟩

theorem rest_modify {f : World → World} (hf : ∀ w, (f w).handlers = w.handlers ∧
    (f w).pendingData = w.pendingData ∧ (f w).queue = w.queue) :
    (modify f : Prog PUnit).Along StaysAtRest := by
  refine Along.modify fun w h => ?_
  obtain ⟨hhandlers, hpending, hqueue⟩ := hf w
  exact ⟨fun slot => hhandlers ▸ h.handlers slot, hpending ▸ h.pending, hqueue ▸ h.queue⟩

theorem rest_log (event : Event) : (log event).Along StaysAtRest :=
  rest_modify fun _ => ⟨rfl, rfl, rfl⟩

theorem rest_millis : millis.Along StaysAtRest := bearsReceiver_staysAtRest.along_millis

/-- A program that runs only where the library is not at rest. -/
theorem ends_of_not_atRest {α : Type} {w : World} (h : ¬AtRest w) (m : Prog α) :
    m.Ends w (fun _ => StaysAtRest w) fun _ => StaysAtRest w := by
  unfold Ends
  split
  · exact fun hw => absurd hw h
  · exact fun hw => absurd hw h

theorem rest_offlineCheck : offlineCheck.Along StaysAtRest := by
  have hoffline : goOffline.Along StaysAtRest :=
    Along.bind (rest_modify fun _ => ⟨rfl, rfl, rfl⟩) fun _ => rest_log _
  have htimeout : timeoutCheck.Along StaysAtRest := by
    refine along_get_bind fun w => Along.ite ?_ (Along.pure ())
    exact rest_millis.bind fun now => Along.ite hoffline (Along.pure ())
  exact htimeout.bind fun _ => along_get_bind fun w => rest_log _

theorem rest_invoke (slot : Slot) (args : List Datum) :
    (invoke (pure ()) slot args).Along StaysAtRest := by
  refine along_get_bind fun _ => Along.ite ?_ (Along.pure ())
  exact Along.ite (Along.throw _) ((rest_log _).bind fun _ => Along.pure ())

variable (src : Source) (len : ℕ)

theorem rest_readHeader : (readHeader src).Along StaysAtRest := by
  refine along_get_bind fun w => ?_
  split
  · exact Along.pure _
  · exact Along.throw _

theorem rest_detection : (detection (pure ()) src).Along StaysAtRest := by
  have honline : (bringOnline (pure ())).Along StaysAtRest := by
    refine (rest_log _).bind fun _ => Along.bind (rest_modify fun _ => ⟨rfl, rfl, rfl⟩) fun _ => ?_
    refine Along.bind ?_ fun _ => rest_invoke _ _
    refine (along_tick bearsReceiver_staysAtRest.advance).bind fun _ => ?_
    exact rest_modify fun _ => ⟨rfl, rfl, rfl⟩
  refine along_get_bind fun w => Along.ite ?_ honline
  exact (rest_readHeader src).bind fun _ => Along.ite honline (Along.pure ())

theorem rest_dispatch : (dispatch (pure ()) src len).Along StaysAtRest := by
  refine along_get_bind fun w => (rest_log _).bind fun _ => Along.ite ?_ ?_
  · refine along_get_bind fun w => Along.ite (Along.ite (Along.throw _) ?_) (Along.pure ())
    exact Along.bind (rest_modify fun _ => ⟨rfl, rfl, rfl⟩) fun _ => rest_invoke _ _
  · dsimp only
    split
    · exact rest_invoke _ _
    · exact Along.pure ()

/-- An asynchronous frame is not queued, since no request is pending. -/
theorem rest_asyncFrame : (asyncFrame (pure ()) src len).Along StaysAtRest := by
  refine Along.get_bind fun w => ?_
  rw [ends_ite]
  split
  · next hpending =>
    exact ends_of_not_atRest (fun h => absurd (h.pending.symm.trans hpending) Bool.false_ne_true) _
  · exact rest_dispatch src len w

theorem rest_switchHeader : (switchHeader (pure ()) src len).Along StaysAtRest := by
  refine (rest_readHeader src).bind fun header => Along.ite ?_ (Along.ite ?_ (Along.ite ?_ ?_))
  · refine along_get_bind fun w => Along.ite (Along.throw _) ((rest_log _).bind fun _ => ?_)
    exact rest_modify fun _ => ⟨rfl, rfl, rfl⟩
  · exact rest_millis.bind fun _ => rest_modify fun _ => ⟨rfl, rfl, rfl⟩
  · exact rest_asyncFrame src len
  · refine Along.ite (rest_modify fun w => ?_) (Along.ite (Along.throw _) (Along.pure ()))
    obtain ⟨_, _, _, _, _, heq⟩ := exists_statusFrame_eq src w
    rw [heq]
    exact ⟨rfl, rfl, rfl⟩

theorem rest_processingData : (processingData (pure ()) src len).Along StaysAtRest := by
  refine Along.bind ?_ fun _ => (rest_detection src).bind fun _ => rest_switchHeader src len
  refine rest_millis.bind fun _ => along_get_bind fun _ => (rest_log _).bind fun _ => ?_
  exact rest_modify fun _ => ⟨rfl, rfl, rfl⟩

/-- The queue is empty, so that no frame is processed. -/
theorem ends_drainQueue_of_atRest {process : Source → ℕ → Prog Unit} {w : World} (h : AtRest w)
    {Q : Unit → World → Prop} {E : Halt → World → Prop} :
    (drainQueue process).Ends w Q E ↔ Q () w := by
  have hempty : ¬(!w.pendingData && decide (w.queue.available > 0)) = true := by
    rw [h.queue, Bool.and_eq_true, decide_eq_true_eq]
    exact fun hqueued => absurd hqueued.2 (by decide)
  rw [drainQueue, ends_bind, ends_get, ends_ite, if_neg hempty]
  exact Iff.rfl

theorem rest_drainQueue (process : Source → ℕ → Prog Unit) :
    (drainQueue process).Along StaysAtRest := by
  intro w
  by_cases h : AtRest w
  · exact (ends_drainQueue_of_atRest h).mpr fun h => h
  · exact ends_of_not_atRest h _

theorem rest_handle (r : Reception) :
    (handle (processingData (pure ())) r).Along StaysAtRest := by
  cases r with
  | frame payload => exact (rest_log _).bind fun _ => rest_processingData _ _
  | nothing | flushed => exact rest_drainQueue _
  | rejected | expired | ack b => exact Along.pure _

theorem rest_checks : checks.Along StaysAtRest :=
  bearsReceiver_staysAtRest.along_syncController.bind fun _ => rest_offlineCheck

/-- **A call of `events()`** leaves the library at rest. -/
theorem rest_events : (events (pure ())).Along StaysAtRest := by
  rw [events, eventsWith_eq_code]
  exact Along.map _ (rest_checks.bind fun _ => bearsReceiver_staysAtRest.along_uart.bind fun r =>
    (rest_handle r).bind fun _ => Along.pure _)

end Rest

/-! ## The port in a silence -/

section Shut

variable {e : Setting} {d : Window} {w : World} {k m n : ℕ}

/-- The setting in which no bytes arrive, and at most `k` are in the port. -/
abbrev Setting.shut (e : Setting) (k : ℕ) : Setting := { e with still := some k }

namespace World.Affords

theorem shut (h : w.Affords (e.shut m) d n) (hrx : w.rx.length ≤ k) : w.Affords (e.shut k) d n where
  lasts := by
    obtain ⟨ahead, hticks, hallows, hlasts⟩ := h.lasts
    have harrived (t : Tick) (ht : t ∈ ahead) := (hallows t ht).2 (Option.some_ne_none m)
    exact ⟨ahead, hticks, fun t ht => ⟨(hallows t ht).1, fun _ => harrived t ht⟩, hlasts⟩
  still bytes hbytes := by
    obtain rfl : k = bytes := Option.some.inj hbytes
    exact hrx
  calls := h.calls
  scripts := h.scripts
  start := h.start
  left := h.left
  finish := h.finish
  count := h.count

/-- The readings to come bring bytes only behind the silence. -/
theorem exists_silence (h : w.Affords (e.shut k) d n) :
    ∃ ahead, w.ticks = ahead ++ e.rest ∧ arrivals ahead = [] := by
  obtain ⟨ahead, hticks, hallows, -⟩ := h.lasts
  refine ⟨ahead, hticks, List.flatMap_eq_nil_iff.mpr fun t ht => ?_⟩
  exact (hallows t ht).2 (Option.some_ne_none k)

theorem stream_eq (h : w.Affords (e.shut k) d n) : w.stream = w.rx ++ arrivals e.rest := by
  obtain ⟨ahead, hticks, hsilence⟩ := h.exists_silence
  rw [World.stream, hticks, arrivals_append, hsilence, List.nil_append]

/-- What takes no byte leaves the port as it is. -/
theorem rx_eq (h : w.Affords (e.shut k) d n) {w' : World} (h' : w'.Affords (e.shut k) d m)
    (hstream : w'.stream = w.stream) : w'.rx = w.rx := by
  rw [h.stream_eq, h'.stream_eq] at hstream
  exact List.append_cancel_right hstream

end World.Affords

/-- The wait for the header takes no byte, and finds one that is in the port. -/
theorem ensures_awaitHeader (w : World) : awaitHeader.Ensures w fun b w' =>
    w'.stream = w.stream ∧ (w.rx ≠ [] → ∃ first, b = some first) := by
  unfold awaitHeader
  refine (ensures_available w).bind ?_
  rintro count w₁ ⟨h₁, rfl⟩
  rw [EStateM.Ensures, ends_ite]
  split
  · refine (ensures_peek w₁).bind ?_
    rintro b w₂ ⟨h₂, -⟩
    have h := h₁.trans h₂
    rw [EStateM.Ensures, ends_ite]
    split
    · refine (ensures_millis w₂).bind fun timeout w₃ h₃ => ?_
      refine (ensures_headerWait timeout w₃).bind fun _ w₄ h₄ => ?_
      exact ⟨((h.trans h₃).trans h₄).stream, fun _ => ⟨b, rfl⟩⟩
    · exact ⟨h.stream, fun _ => ⟨b, rfl⟩⟩
  · next hempty =>
    refine ⟨h₁.stream, fun hne => absurd ?_ hne⟩
    have hnil : w₁.rx = [] := List.length_eq_zero_iff.mp (by omega)
    exact List.prefix_nil.mp (hnil ▸ h₁.rx)

/-- **The receiver takes a byte** that is in the port. -/
theorem ends_uart_shut (hfit : byteTime e.pace < 2 ^ 32) (hne : w.rx ≠ [])
    (h : w.Affords (e.shut (k + 1)) d (n + (2 * e.pace + packetTime e.pace (k + 1)))) :
    uart.Ends w (fun _ w' => w'.Affords (e.shut k) d n) e.Stops := by
  have hbudget : w.Affords (e.shut (k + 1)) d
      (n + (3 * e.pace + (k + 1) * byteTime e.pace) + e.pace + (100 + 5 * e.pace)) := by
    refine EStateM.IsBudget.le h ?_
    unfold packetTime
    rw [Nat.succ_mul (k + 1)]
    omega
  rw [uart_eq, ends_bind]
  have hwait := lasts_awaitHeader (e := e.shut (k + 1)) hfit d _ w hbudget
  refine (hwait.and (ensures_awaitHeader w)).mono ?_ fun _ _ h => h.1
  rintro b w₁ ⟨h₁, hstream, hfirst⟩
  obtain ⟨first, rfl⟩ := hfirst hne
  obtain ⟨t, ticks, hticks, -, harrived, h₂⟩ := h₁.exists_tick
  rw [receiveBody_some, ends_bind, ends_read_cons hticks]
  have htaken : (w₁.rx ++ t.arrived).tail.length ≤ k := by
    have hle := h.still _ rfl
    rw [harrived (Option.some_ne_none _), List.append_nil, List.length_tail, h.rx_eq h₁ hstream]
    omega
  exact lasts_packetRest (e := e.shut k) hfit first d n _ (h₂.tail.shut htaken)

/-- What was received is not forgotten. -/
theorem exists_received (w : World) : (events (pure ())).Ends w
    (fun _ w' => ∃ found, w'.received = w.received ++ found)
    fun _ w' => ∃ found, w'.received = w.received ++ found := by
  refine (along_events (Along.pure ())).keeps (fun w₁ w₂ h hfound => ?_)
    ⟨[], (List.append_nil _).symm⟩
  obtain ⟨found, hfound⟩ := hfound
  obtain ⟨l, htrace⟩ := h.trace
  unfold World.received at hfound ⊢
  rw [htrace, List.filterMap_append, hfound, List.append_assoc]
  exact ⟨_, rfl⟩

/-- What was received is handled, and nothing is in the queue: no empty frame is processed. -/
theorem ends_handle_of_atRest (hrest : AtRest w) (r : Reception)
    (h : w.Affords e d (n + processingTime e.pace 0)) :
    (handle (processingData (pure ())) r).Ends w (fun _ w' => w'.Affords e d n) e.Stops := by
  have hleft : w.Affords e d n := EStateM.IsBudget.le h (Nat.le_add_right _ _)
  cases r with
  | frame payload =>
    have hprocess : Lasts e (processingData (pure ()) (.uart payload) payload.length)
        (processingTime e.pace 0) :=
      lasts_processingData (.pure () 0) (Along.pure ()) (.uart payload) fun hqueued =>
        absurd hqueued Bool.false_ne_true
    exact ((lasts_log _).free_bind fun _ => hprocess) d n w h
  | nothing | flushed => exact (ends_drainQueue_of_atRest hrest).mpr hleft
  | rejected | expired | ack b => exact hleft

/-- **A call of `events()` takes a byte** that is in the port. -/
theorem ends_events_shut (hfit : byteTime e.pace < 2 ^ 32) (hrest : AtRest w) (hne : w.rx ≠ [])
    (h : w.Affords (e.shut (k + 1)) d (n + eventsTime e.pace (k + 1) 0)) :
    (events (pure ())).Ends w (fun _ w' => w'.Affords (e.shut k) d n ∧ AtRest w' ∧
      ∃ found, w'.received = w.received ++ found) e.Stops := by
  have htakes : (events (pure ())).Ends w (fun _ w' => w'.Affords (e.shut k) d n) e.Stops := by
    have hbudget : w.Affords (e.shut (k + 1)) d (n + processingTime e.pace 0 +
        (2 * e.pace + packetTime e.pace (k + 1)) + 4 * e.pace) := by
      refine EStateM.IsBudget.le h ?_
      unfold eventsTime
      omega
    rw [events, eventsWith_eq_code, ends_map, receive, ends_bind]
    have hchecks := lasts_checks (e := e.shut (k + 1)) d _ w hbudget
    refine ((hchecks.and (ensures_checks w)).and (rest_checks w)).mono ?_ fun _ _ h => h.1.1
    rintro _ w₁ ⟨⟨h₁, hkeeps⟩, hrest₁⟩
    have hne₁ : w₁.rx ≠ [] := by
      rw [h.rx_eq h₁ hkeeps.stream]
      exact hne
    have huart := (ends_uart_shut hfit hne₁ h₁).and (bearsReceiver_staysAtRest.along_uart w₁)
    rw [ends_bind]
    refine huart.mono ?_ fun _ _ h => h.1
    rintro r w₂ ⟨h₂, hrest₂⟩
    exact (ends_handle_of_atRest (hrest₂ (hrest₁ hrest)) r h₂).bind fun _ _ h₃ => h₃
  refine ((htakes.and (rest_events w)).and (exists_received w)).mono ?_ fun _ _ h => h.1.1
  rintro _ w' ⟨⟨haffords, hstays⟩, hfound⟩
  exact ⟨haffords, hstays hrest, hfound⟩

end Shut

/-! ## The frames behind a silence -/

section Recovery

variable {segs : List Segment} {silence sched : List Tick} {w : World}

/-- A stream of frames that comes with its own schedule, behind four readings at least that bring
nothing. -/
structure Resumes (segs : List Segment) (sched : List Tick) : Prop where
  stream : arrivals sched = streamBytes segs
  lead : arrivals (sched.take 4) = []
  punctual : Punctual segs sched
  spare : budget 3 segs + 3 ≤ spare sched
  harmless : ∀ payload ∈ segs.filterMap Segment.payload?, Harmless payload

/-- The frames were received, behind what was found before. -/
def Recovered (segs : List Segment) (w w' : World) : Prop :=
  w'.stream = [] ∧ ∃ found, w'.received = w.received ++ found ++ segs.filterMap Segment.payload?

/-- The first readings of a lead bring nothing. -/
theorem arrivals_of_lead {ticks used rest : List Tick} {n : ℕ} (h : ticks = used ++ rest)
    (hle : used.length ≤ n) (hlead : arrivals (ticks.take n) = []) : arrivals used = [] := by
  rw [h, List.take_append, List.take_of_length_le hle, arrivals_append] at hlead
  exact (List.append_eq_nil_iff.mp hlead).1

/-- A call of `events()` before the first byte. -/
theorem returns_idle (hrest : AtRest w) (hrx : w.rx = []) (hlen : 5 ≤ w.ticks.length)
    (hlead : arrivals (w.ticks.take 5) = []) :
    (events (pure ())).Returns w fun _ w' => ∃ used, w.ticks = used ++ w'.ticks ∧ used ≠ [] ∧
      used.length ≤ 5 ∧ w'.rx = [] ∧ AtRest w' ∧ w'.received = w.received := by
  have hchecks : Idles 4 checks := idles_syncController.bind fun _ => idles_offlineCheck
  rw [events, eventsWith_eq_code, Returns, ends_map, receive, ends_bind]
  refine Returns.mono (hchecks w trivial (by omega)) ?_
  rintro _ w₁ ⟨⟨used, hused, hport, hle⟩, hcalm, -⟩
  have hcount := congrArg List.length hused
  rw [List.length_append] at hcount
  obtain ⟨t, ticks, hticks⟩ := List.exists_cons_of_length_pos (by omega : 0 < w₁.ticks.length)
  rw [hticks, List.append_cons] at hused
  have hfive : (used ++ [t]).length ≤ 5 := by
    rw [List.length_append]
    exact Nat.succ_le_succ hle
  have hnothing := arrivals_of_lead hused hfive hlead
  have hrx₂ : (w₁.advance t ticks).rx = [] := by
    rw [arrivals_append, arrivals_cons, arrivals_nil, List.append_nil] at hnothing
    change w₁.rx ++ t.arrived = []
    rw [hport, hrx, List.nil_append, hnothing]
  have hempty : ¬(w₁.rx ++ t.arrived).length > 0 := Nat.not_lt.mpr (congrArg List.length hrx₂).le
  have hopaque := @opaque_processingData (pure ()) [] fun _ h => absurd h List.not_mem_nil
  have hrest₂ : AtRest (w₁.advance t ticks) := hopaque.stable w _ hcalm.own hrest
  rw [ends_bind, uart, ends_bind, ends_available_cons hticks, ends_ite, if_neg hempty, ends_pure,
    ends_bind, handle, ends_drainQueue_of_atRest hrest₂]
  exact ⟨used ++ [t], hused, List.append_ne_nil_of_right_ne_nil used (List.cons_ne_nil t []), hfive,
    hrx₂, hrest₂, hcalm.received⟩

/-- Some readings of the lead have been used up. -/
theorem Resumes.delivers (h : Resumes segs sched) (hne : streamBytes segs ≠ [])
    {lead rest : List Tick} (hsched : sched = lead ++ rest) (hle : lead.length ≤ 4) :
    Delivers sched (streamBytes segs) [] [] rest (budget 3 segs + 3) := by
  have hnothing := arrivals_of_lead hsched hle h.lead
  have hstream : arrivals rest = streamBytes segs := by
    rw [← h.stream, hsched, arrivals_append, hnothing, List.nil_append]
  refine ⟨hstream, ⟨lead, hsched.symm⟩, ?_⟩
  rw [← spare_append_of_arrivals (hstream ▸ hne) lead, ← hsched]
  exact h.spare

/-- Calls before the first byte, and then the frames. -/
theorem listen_after_silence (hresumes : Resumes segs sched) (hrest : AtRest w) (hrx : w.rx = [])
    (hticks : w.ticks = silence ++ sched) (hsilence : arrivals silence = []) :
    ∃ n, (listen (processingData (pure ())) n).Returns w fun _ w' => w'.stream = [] ∧
      w'.received = w.received ++ segs.filterMap Segment.payload? := by
  have hstream {w : World} {silence : List Tick} (hrx : w.rx = [])
      (hticks : w.ticks = silence ++ sched) (hsilence : arrivals silence = []) :
      w.stream = streamBytes segs := by
    rw [World.stream, hrx, hticks, arrivals_append, hsilence]
    exact hresumes.stream
  by_cases hne : streamBytes segs = []
  · refine ⟨0, (hstream hrx hticks hsilence).trans hne, ?_⟩
    rw [streamBytes_eq_nil hne]
    exact (List.append_nil _).symm
  -- In the lead of the schedule, the stream is parsed into its frames.
  have hframes {w : World} {lead : List Tick} (hrest : AtRest w) (hrx : w.rx = [])
      (hsched : sched = lead ++ w.ticks) (hle : lead.length ≤ 4) :
      ∃ n, (listen (processingData (pure ())) n).Returns w fun _ w' => w'.stream = [] ∧
        w'.received = w.received ++ segs.filterMap Segment.payload? := by
    obtain ⟨n, hn⟩ := listen_of_delivers (opaque_processingData hresumes.harmless) hrest
      hresumes.punctual (hrx ▸ hresumes.delivers hne hsched hle)
    exact ⟨n, hn.mono fun _ _ h => ⟨h.1, h.2.2.1⟩⟩
  have hlong : 5 ≤ sched.length := by
    have hspare := hresumes.spare.trans (spare_le_length sched)
    cases segs with
    | nil => exact absurd rfl hne
    | cons seg segs =>
      rw [budget_cons] at hspare
      omega
  induction hlen : silence.length using Nat.strong_induction_on generalizing w silence with
  | h k ih =>
    subst hlen
    cases silence with
    | nil => exact @hframes w [] hrest hrx hticks.symm (Nat.zero_le 4)
    | cons t silence =>
      have hticks₅ : 5 ≤ w.ticks.length := by
        rw [hticks, List.length_append]
        omega
      have hlead : arrivals (w.ticks.take 5) = [] := by
        obtain ⟨rest, hrest⟩ : sched.take (5 - (t :: silence).length) <+: sched.take 4 :=
          List.take_prefix_take_left (by rw [List.length_cons]; omega)
        have hsplit := hresumes.lead
        rw [← hrest, arrivals_append, List.append_eq_nil_iff] at hsplit
        obtain ⟨after, hafter⟩ := List.take_prefix 5 (t :: silence)
        rw [← hafter, arrivals_append, List.append_eq_nil_iff] at hsilence
        rw [hticks, List.take_append, arrivals_append, hsplit.1, hsilence.1, List.append_nil]
      refine listen_of_returns (by rwa [hstream hrx hticks hsilence])
        (returns_idle hrest hrx hticks₅ hlead) ?_
      rintro _ w' ⟨used, hused, hsome, hle, hrx', hrest', hreceived⟩
      have hpos := List.length_pos_iff.mpr hsome
      rw [← hreceived]
      rw [hticks] at hused
      obtain ⟨lead, hlead, hsched⟩ | ⟨later, hlater, hticks'⟩ :=
        List.append_eq_append_iff.mp hused
      · refine hframes hrest' hrx' hsched ?_
        rw [hlead, List.length_append, List.length_cons] at hle
        omega
      · rw [hlater, arrivals_append, List.append_eq_nil_iff] at hsilence
        refine ih later.length ?_ hrest' hrx' hticks' hsilence.2 rfl
        rw [hlater, List.length_append]
        omega

/-- How long the receiver takes at most to take `n` bytes. -/
def recoveryTime (pace n : ℕ) : ℕ := n * eventsTime pace n 0

theorem recoveryTime_succ (pace n : ℕ) :
    recoveryTime pace n + eventsTime pace (n + 1) 0 ≤ recoveryTime pace (n + 1) := by
  have hmore : eventsTime pace n 0 ≤ eventsTime pace (n + 1) 0 := by
    unfold eventsTime packetTime
    rw [Nat.succ_mul (n + 1)]
    omega
  have hmul := Nat.mul_le_mul_left n hmore
  unfold recoveryTime
  rw [Nat.succ_mul]
  omega

/-- A call that ends within `P`, and more calls from there. -/
theorem listen_of_ends {process : Source → ℕ → Prog Unit} (hne : w.stream ≠ [])
    {Q : Unit → World → Prop} {P : UInt8 → World → Prop} {E : Halt → World → Prop}
    (hcall : (eventsWith process).Ends w P E)
    (hrest : ∀ b w', P b w' → ∃ n, (listen process n).Ends w' Q E) :
    ∃ n, (listen process n).Ends w Q E := by
  have hlisten (n : ℕ) : (listen process (n + 1)).Ends w Q E ↔
      (eventsWith process).Ends w (fun _ w' => (listen process n).Ends w' Q E) E := by
    rw [listen, ends_bind, ends_get, ends_ite, if_neg hne, ends_bind]
  cases hrun : (eventsWith process).run w with
  | ok b w' =>
    obtain ⟨n, hn⟩ := hrest b w' (hcall.of_ok hrun)
    exact ⟨n + 1, (hlisten n).mpr ((ends_of_ok hrun).mpr hn)⟩
  | error e w' => exact ⟨1, (hlisten 0).mpr ((ends_of_error hrun).mpr (hcall.of_error hrun))⟩

/-- Each call takes a byte, until the port is empty. -/
theorem listen_of_affords {e : Setting} {d : Window} {k : ℕ} (hresumes : Resumes segs e.rest)
    (hfit : byteTime e.pace < 2 ^ 32) (hrest : AtRest w)
    (h : w.Affords (e.shut k) d (recoveryTime e.pace k)) :
    ∃ n, (listen (processingData (pure ())) n).Ends w (fun _ => Recovered segs w) e.Stops := by
  induction k generalizing w with
  | zero =>
    have hrx : w.rx = [] := List.length_eq_zero_iff.mp (Nat.le_zero.mp (h.still 0 rfl))
    obtain ⟨silence, hticks, hsilence⟩ := h.exists_silence
    obtain ⟨n, hn⟩ := listen_after_silence hresumes hrest hrx hticks hsilence
    refine ⟨n, Ends.mono hn (fun _ w' hw' => ⟨hw'.1, [], ?_⟩) fun _ _ h => h.elim⟩
    rw [hw'.2, List.append_nil]
  | succ k ih =>
    by_cases hrx : w.rx = []
    · refine ih hrest ((EStateM.IsBudget.le h ?_).shut ?_)
      · exact (Nat.le_add_right _ _).trans (recoveryTime_succ e.pace k)
      · rw [hrx]
        exact Nat.zero_le k
    · have hcall := ends_events_shut (d := d) hfit hrest hrx
        (EStateM.IsBudget.le h (recoveryTime_succ e.pace k))
      refine listen_of_ends (List.append_ne_nil_of_left_ne_nil hrx _) hcall ?_
      rintro _ w' ⟨haffords, hrest', found, hfound⟩
      obtain ⟨n, hn⟩ := ih hrest' haffords
      refine ⟨n, hn.mono ?_ fun _ _ h => h⟩
      rintro _ w'' ⟨hstream, found', hreceived⟩
      refine ⟨hstream, found ++ found', ?_⟩
      rw [hreceived, hfound, List.append_assoc w.received]

/-- **The receiver is back in step** after a silence that is longer than its recovery takes,
whatever bytes are in the port: the frames that come then are all received, in their order and
behind what it made of these bytes.  It does not wait forever, and stops before only if it took some
of these bytes for a frame whose processing is undefined. -/
theorem listen_recovers {pace : ℕ} (hresumes : Resumes segs sched) (hrest : AtRest w)
    (hticks : w.ticks = silence ++ sched)
    (hsilence : ∀ t ∈ silence, t.elapsed ≤ pace ∧ t.arrived = [])
    (hfit : byteTime pace < 2 ^ 32) (hlasts : recoveryTime pace w.rx.length < elapsed silence) :
    ∃ n, (listen (processingData (pure ())) n).Ends w (fun _ => Recovered segs w)
      fun h _ => h = .undefined := by
  -- An empty queue stalls nothing.
  let e : Setting :=
    ⟨pace, (w.scripts.map List.length).sum, w.scripts.length, sched, none, fun _ => False⟩
  have hstart : w.Affords (e.shut w.rx.length) ⟨0, w.clock + recoveryTime pace w.rx.length,
      w.clock + elapsed silence, w.ticks.length⟩ (recoveryTime e.pace w.rx.length) := {
    lasts := ⟨silence, hticks, fun t ht => ⟨(hsilence t ht).1, fun _ => (hsilence t ht).2⟩,
      Nat.le_refl _⟩
    still := fun bytes hbytes => (Option.some.inj hbytes).le
    calls := fun script hscript =>
      List.le_sum_of_mem (List.mem_map_of_mem hscript)
    scripts := Nat.le_refl _
    start := Nat.zero_le _
    left := Nat.le_refl _
    finish := Nat.add_lt_add_left hlasts _
    count := Nat.le_refl _ }
  obtain ⟨n, hn⟩ := listen_of_affords (e := e) hresumes hfit hrest hstart
  exact ⟨n, hn.mono (fun _ _ h => h) fun _ _ h => h.resolve_right And.right⟩

/-- A frame that lost its end is in the port, and then comes a silence of 10 s. -/
def afterNoise : World :=
  { World.powerUp (evenly 1000 ++ (quiet 4 ++ splitSchedule)) [] fun _ _ => 0 with
    rx := [0x24, 0x00, 0x09, 0xAF] }

theorem resumes_splitSchedule : Resumes splitSegments (quiet 4 ++ splitSchedule) where
  stream := by
    rw [arrivals_append, arrivals_quiet, splitSchedule, arrivals_append, arrivals_quiet]
    rfl
  lead := by
    have hlen := length_quiet 4
    rw [List.take_append_of_le_length hlen.ge, List.take_of_length_le hlen.le]
    exact arrivals_quiet 4
  punctual := by
    refine punctual_of_elapsed_lt ?_
    rw [elapsed_append, elapsed_quiet, splitSchedule, elapsed_append, elapsed_quiet]
    decide
  spare := by
    rw [splitSchedule, ← List.append_assoc]
    refine Nat.le_trans ?_ (length_le_spare_append _ (arrivals_quiet 160))
    rw [length_quiet]
    decide
  harmless payload hmem := by
    obtain rfl : payload = [0x72, 0x72, 0x24, 0x24] := List.mem_singleton.mp hmem
    exact ⟨by decide, by decide, by decide⟩

theorem listen_recovers_afterNoise :
    ∃ n, (listen (processingData (pure ())) n).Ends afterNoise
      (fun _ => Recovered splitSegments afterNoise) fun h _ => h = .undefined := by
  refine @listen_recovers _ (evenly 1000) _ afterNoise 10 resumes_splitSchedule
    ⟨fun _ => rfl, rfl, rfl⟩ rfl (fun t ht => ?_) (by decide) ?_
  · unfold evenly at ht
    rw [List.eq_of_mem_replicate ht]
    exact ⟨Nat.le_refl _, rfl⟩
  · rw [elapsed_evenly]
    decide

end Recovery

end Teensquitto
