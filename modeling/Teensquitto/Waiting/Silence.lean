import Teensquitto.Data.Timer
import Teensquitto.Protocol.Probing
import Teensquitto.Waiting.Durations

/-!
# Silence

When the ESP sends nothing more, calls of `events()` find this out by two timers: the library goes
offline after 5000 ms, and from then on it writes a probe every 250 ms, whatever the timers showed
before.

## Main definitions

* `World.Hushed`: no request is pending, no frame queued, and no byte comes
* `World.Watches`: what a call of `events()` does in a silence
* `polls`: a number of calls of `events()`

## Main results

* `returns_events_hushed`: one call of `events()` in a silence
* `World.Watched.next`, `World.Probing.next`: what it keeps of the timers
* `silence_detected`: the library goes offline, and writes probes at a rate
-/

namespace Teensquitto

open EStateM

variable {pace k n : ℕ} {rest : List Tick} {w w' : World} {user : Prog Unit}

/-- No request is pending, no frame is queued, no byte is in the port, and none comes with the next
`k` readings. -/
structure World.Hushed (pace : ℕ) (rest : List Tick) (k : ℕ) (w : World) : Prop where
  pending : w.pendingData = false
  queue : w.queue.available = 0
  rx : w.rx = []
  silence : ∃ ahead, w.ticks = ahead ++ rest ∧ k ≤ ahead.length ∧
    ∀ t ∈ ahead, t.elapsed ≤ pace ∧ t.arrived = []

namespace World.Hushed

theorem exists_tick (h : w.Hushed pace rest (k + 1)) : ∃ t ticks, w.ticks = t :: ticks ∧
    t.elapsed ≤ pace ∧ (w.advance t ticks).Hushed pace rest k := by
  obtain ⟨ahead, hticks, hlen, hsilent⟩ := h.silence
  obtain ⟨t, ahead, rfl⟩ := List.exists_cons_of_length_pos (by omega : 0 < ahead.length)
  obtain ⟨hpace, harrived⟩ := hsilent t List.mem_cons_self
  refine ⟨t, ahead ++ rest, hticks, hpace, h.pending, h.queue, ?_, ahead, rfl, ?_, ?_⟩
  · change w.rx ++ t.arrived = []
    rw [h.rx, harrived, List.append_nil]
  · rw [List.length_cons] at hlen
    exact Nat.le_of_succ_le_succ hlen
  · exact fun s hs => hsilent s (List.mem_cons_of_mem t hs)

theorem mono (h : w.Hushed pace rest n) (hle : k ≤ n) : w.Hushed pace rest k := by
  obtain ⟨ahead, hticks, hlen, hsilent⟩ := h.silence
  exact ⟨h.pending, h.queue, h.rx, ahead, hticks, hle.trans hlen, hsilent⟩

/-- Other members do not matter. -/
theorem congr (h : w.Hushed pace rest k) (hpending : w'.pendingData = w.pendingData)
    (hqueue : w'.queue = w.queue) (hrx : w'.rx = w.rx) (hticks : w'.ticks = w.ticks) :
    w'.Hushed pace rest k :=
  ⟨hpending.trans h.pending, hqueue ▸ h.queue, hrx.trans h.rx, hticks ▸ h.silence⟩

end World.Hushed

/-! ## A call of `events()` in a silence -/

/-- What a call of `events()` does in a silence. -/
inductive World.Watches (pace : ℕ) (w w' : World) : Prop
  /-- The library stays online. -/
  | online (ms ms' : ℕ) (hms : ms ≤ pace) (hms' : ms' ≤ pace) (hbefore : w.espDetected = true)
    (hafter : w'.espDetected = true) (hage : Timer.age (w.clock + ms) w.espSyncTimeout ≤ 5000)
    (hclock : w'.clock = w.clock + ms + ms') (hsync : w'.espSyncTimeout = w.espSyncTimeout)
    (hprobes : w'.probes = w.probes)
  /-- The library goes offline. -/
  | expires (ms ms' : ℕ) (hms : ms ≤ pace) (hms' : ms' ≤ pace) (hbefore : w.espDetected = true)
    (hafter : w'.espDetected = false) (hclock : w'.clock = w.clock + ms + ms')
    (hprobes : w'.probes = w.probes)
  /-- The library stays offline. -/
  | offline (ms ms' : ℕ) (hms : ms ≤ pace) (hms' : ms' ≤ pace) (hbefore : w.espDetected = false)
    (hafter : w'.espDetected = false) (hage : Timer.age (w.clock + ms) w.espSyncInterval ≤ 250)
    (hclock : w'.clock = w.clock + ms + ms') (hinterval : w'.espSyncInterval = w.espSyncInterval)
    (hprobes : w'.probes = w.probes)
  /-- The library stays offline and writes a probe. -/
  | probe (ms ms' : ℕ) (hms : ms ≤ pace) (hms' : ms' ≤ 3 * pace) (hbefore : w.espDetected = false)
    (hafter : w'.espDetected = false) (hclock : w'.clock = w.clock + ms + ms')
    (hprobes : w'.probes = w.probes + 1)

/-- The receiver finds nothing, and the queue is empty. -/
theorem returns_uart_hushed (h : w.Hushed pace rest (k + 1)) {Q : World → Prop}
    (hQ : ∀ t ticks, t.elapsed ≤ pace → (w.advance t ticks).Hushed pace rest k →
      Q (w.advance t ticks)) :
    (do
      let r ← uart
      handle (processingData user) r
      return r : Prog Reception).Returns w fun _ => Q := by
  obtain ⟨t, ticks, hticks, hpace, hnow⟩ := h.exists_tick
  have hempty : ¬(w.rx ++ t.arrived).length > 0 := by
    rw [show w.rx ++ t.arrived = [] from hnow.rx]
    exact Nat.lt_irrefl 0
  have hidle : ¬(!(w.advance t ticks).pendingData &&
      decide ((w.advance t ticks).queue.available > 0)) = true := by
    rw [hnow.queue, Bool.and_eq_true, decide_eq_true_eq]
    exact fun hqueued => absurd hqueued.2 (by decide)
  rw [Returns, ends_bind, uart, ends_bind, ends_available_cons hticks, ends_ite, if_neg hempty,
    ends_pure, ends_bind, handle, drainQueue, ends_bind, ends_get, ends_ite, if_neg hidle]
  exact hQ t ticks hpace hnow

/-- **A call of `events()` in a silence.** -/
theorem returns_events_hushed (h : w.Hushed pace rest (k + 4)) :
    (events user).Returns w fun _ w' => w'.Hushed pace rest k ∧ w.Watches pace w' := by
  rw [events, eventsWith_eq_code, Returns, ends_map, receive, ends_bind, checks, ends_bind,
    syncController, ends_bind, ends_get, ends_ite]
  split
  · next honline =>
    -- Online, the detection timer is looked at.
    obtain ⟨t, ticks, hticks, hpace, hnow⟩ := h.exists_tick
    have hactive : (!w.pendingData && w.espDetected) = true := by
      rw [h.pending, honline]
      rfl
    rw [ends_pure, offlineCheck, ends_bind, timeoutCheck, ends_bind, ends_get, ends_ite,
      if_pos hactive, ends_bind, ends_millis_cons hticks, ends_ite]
    split
    · rw [goOffline, ends_bind, ends_modify, log, ends_modify, ends_bind, ends_get, log,
        ends_modify]
      apply returns_uart_hushed (k := k)
      · exact (hnow.mono (by omega)).congr rfl rfl rfl rfl
      intro t' ticks' hpace' hlast
      exact ⟨hlast, .expires t.elapsed t'.elapsed hpace hpace' honline rfl rfl rfl⟩
    · next hage =>
      rw [ends_pure, ends_bind, ends_get, log, ends_modify]
      apply returns_uart_hushed (k := k)
      · exact (hnow.mono (by omega)).congr rfl rfl rfl rfl
      intro t' ticks' hpace' hlast
      exact ⟨hlast, .online t.elapsed t'.elapsed hpace hpace' honline honline
        (Nat.le_of_not_lt hage) rfl rfl rfl⟩
  · next hoffline =>
    have honline : w.espDetected = false := Bool.not_eq_true _ ▸ hoffline
    obtain ⟨t, ticks, hticks, hpace, hnow⟩ := h.exists_tick
    have hinactive (w' : World) (hw' : w'.espDetected = w.espDetected) :
        ¬(!w'.pendingData && w'.espDetected) = true := by
      rw [hw', honline, Bool.and_false]
      exact Bool.false_ne_true
    rw [ends_bind, ends_millis_cons hticks, ends_ite]
    split
    · rw [probe, ends_bind]
      obtain ⟨t₂, ticks₂, hticks₂, hpace₂, hnow₂⟩ := hnow.exists_tick
      rw [ends_millis_cons hticks₂, ends_bind, ends_modify, ends_bind, send, ends_modify, ends_bind,
        ends_get, ends_bind]
      obtain ⟨t₃, ticks₃, hticks₃, hpace₃, hnow₃⟩ := hnow₂.exists_tick
      refine (ends_millis_cons (w := w.probed t t₂ ticks ticks₂) hticks₃).mpr ?_
      rw [ends_bind, ends_modify, logSync, ends_modify, offlineCheck, ends_bind, timeoutCheck,
        ends_bind, ends_get, ends_ite,
        if_neg (by exact hinactive (w.probed t t₂ ticks ticks₂) rfl), ends_pure, ends_bind,
        ends_get, log, ends_modify]
      apply returns_uart_hushed (k := k)
      · exact hnow₃.congr rfl rfl rfl rfl
      intro t' ticks' hpace' hlast
      refine ⟨hlast, .probe t.elapsed (t₂.elapsed + t₃.elapsed + t'.elapsed) hpace (by omega)
        honline honline ?_ ?_⟩
      · change w.clock + t.elapsed + t₂.elapsed + t₃.elapsed + t'.elapsed = _
        omega
      · exact (List.count_append ..).trans (congrArg _ List.count_singleton_self)
    · next hage =>
      rw [ends_pure, offlineCheck, ends_bind, timeoutCheck, ends_bind, ends_get, ends_ite,
        if_neg (hinactive (w.advance t ticks) rfl), ends_pure, ends_bind, ends_get, log,
        ends_modify]
      apply returns_uart_hushed (k := k)
      · exact (hnow.mono (by omega)).congr rfl rfl rfl rfl
      intro t' ticks' hpace' hlast
      exact ⟨hlast, .offline t.elapsed t'.elapsed hpace hpace' honline honline
        (Nat.le_of_not_lt hage) rfl rfl rfl⟩

/-! ## The timers in a silence -/

/-- How long the library takes at most to go offline. -/
def detectionTime (pace : ℕ) : ℕ := 5000 + 4 * pace

/-- How long it takes at most from one probe to the next. -/
def probeTime (pace : ℕ) : ℕ := 250 + 6 * pace

/-- The library is offline, and since the time `b`, up to which there were `p` probes, the timer of
the probes runs. -/
def World.Probing (pace b p : ℕ) (w : World) : Prop :=
  w.espDetected = false ∧ ∃ k, w.probes = p + k ∧
    Timer.Runs 250 pace (b + k * probeTime pace) w.espSyncInterval w.clock

/-- The timers in a silence since the time `c`, up to which there were `p` probes. -/
def World.Watched (pace c p : ℕ) (w : World) : Prop :=
  (w.espDetected = true ∧ w.probes = p ∧ Timer.Runs 5000 pace c w.espSyncTimeout w.clock) ∨
    w.Probing pace (c + detectionTime pace) p

/-- The timer may show anything to begin with. -/
theorem probing_self (h : w.espDetected = false) : w.Probing pace w.clock w.probes :=
  ⟨h, 0, rfl, .inl (by rw [Nat.zero_mul]; exact le_rfl)⟩

/-- Offline, a call of `events()` looks at the timer of the probes. -/
theorem World.Probing.next {b p : ℕ} (hfit : 5000 + 2 * pace < 2 ^ 32) (h : w.Probing pace b p)
    (hnext : w.Watches pace w') : w'.Probing pace b p := by
  obtain ⟨hoffline, k, hcount, hruns⟩ := h
  cases hnext with
  | online ms ms' hms hms' hbefore =>
    exact absurd (hoffline.symm.trans hbefore) Bool.false_ne_true
  | expires ms ms' hms hms' hbefore =>
    exact absurd (hoffline.symm.trans hbefore) Bool.false_ne_true
  | offline ms ms' hms hms' hbefore hafter hage hclock hinterval hprobes =>
    refine ⟨hafter, k, hprobes.trans hcount, ?_⟩
    rw [hinterval, hclock]
    exact hruns.goes_on (by omega) hms hms' hage
  | probe ms ms' hms hms' hbefore hafter hclock hprobes =>
    refine ⟨hafter, k + 1, by rw [hprobes, hcount, Nat.add_assoc], .inl ?_⟩
    have hlast := hruns.le_of_expired hms
    rw [hclock, Nat.succ_mul]
    unfold probeTime at hlast ⊢
    omega

/-- For each probe, and once more, at most so much time has passed. -/
theorem World.Probing.clock_le {b p : ℕ} (h : w.Probing pace b p) :
    ∃ k, w.probes = p + k ∧ w.clock ≤ b + (k + 1) * probeTime pace := by
  obtain ⟨-, k, hcount, hruns⟩ := h
  have hle := hruns.le
  refine ⟨k, hcount, ?_⟩
  rw [Nat.succ_mul]
  unfold probeTime at hle ⊢
  omega

/-- A call of `events()` looks at the timer that runs. -/
theorem World.Watched.next {c p : ℕ} (hfit : 5000 + 2 * pace < 2 ^ 32) (h : w.Watched pace c p)
    (hnext : w.Watches pace w') : w'.Watched pace c p := by
  rcases h with ⟨honline, hcount, hruns⟩ | hprobing
  · cases hnext with
    | online ms ms' hms hms' hbefore hafter hage hclock hsync hprobes =>
      refine .inl ⟨hafter, hprobes.trans hcount, ?_⟩
      rw [hsync, hclock]
      exact hruns.goes_on hfit hms hms' hage
    | expires ms ms' hms hms' hbefore hafter hclock hprobes =>
      refine .inr ⟨hafter, 0, hprobes.trans hcount, .inl ?_⟩
      have hlast := hruns.le_of_expired hms
      unfold detectionTime
      omega
    | offline ms ms' hms hms' hbefore =>
      exact absurd (hbefore.symm.trans honline) Bool.false_ne_true
    | probe ms ms' hms hms' hbefore =>
      exact absurd (hbefore.symm.trans honline) Bool.false_ne_true
  · exact .inr (hprobing.next hfit hnext)

/-- At most so much time has passed. -/
theorem World.Watched.clock_le {c p : ℕ} (h : w.Watched pace c p) :
    (c + detectionTime pace < w.clock → w.espDetected = false) ∧
      ∃ k, w.probes = p + k ∧ w.clock ≤ c + detectionTime pace + (k + 1) * probeTime pace := by
  rcases h with ⟨honline, hcount, hruns⟩ | hprobing
  · have hle := hruns.le
    unfold detectionTime probeTime
    exact ⟨fun hlate => absurd hlate (by omega), 0, hcount, by omega⟩
  · exact ⟨fun _ => hprobing.1, hprobing.clock_le⟩

/-! ## Calls in a silence -/

/-- So many calls of `events()`. -/
def polls (user : Prog Unit) : ℕ → Prog Unit
  | 0 => return
  | n + 1 => do
    let _ ← events user
    polls user n

/-- What each call keeps, all of them keep. -/
theorem returns_polls {I : World → Prop} (hI : ∀ w w', I w → w.Watches pace w' → I w')
    (h : w.Hushed pace rest (k + 4 * n)) (hw : I w) :
    (polls user n).Returns w fun _ w' => w'.Hushed pace rest k ∧ I w' := by
  induction n generalizing w with
  | zero => exact ⟨h, hw⟩
  | succ n ih =>
    rw [polls, Returns, ends_bind]
    refine Returns.mono (returns_events_hushed (k := k + 4 * n) h) ?_
    rintro _ w₁ ⟨hhushed, hwatches⟩
    exact ih hhushed (hI w w₁ hw hwatches)

/-- **A silence is detected**, from any state in which no request is pending and no frame is queued,
whatever the two timers and the clock show, and whatever handlers are set: when the ESP sends
nothing more, the library is offline after 5000 ms and four readings.  From then on it stays offline
and writes a probe at least every 250 ms and six readings, as long as `events()` is called: between
any two calls there is no more time than that for each probe, and once more. -/
theorem silence_detected {m : ℕ} {silence : List Tick} (hpending : w.pendingData = false)
    (hqueue : w.queue.available = 0) (hrx : w.rx = []) (hticks : w.ticks = silence ++ rest)
    (hsilence : ∀ t ∈ silence, t.elapsed ≤ pace ∧ t.arrived = [])
    (hfit : 5000 + 2 * pace < 2 ^ 32) (hn : 4 * (n + m) ≤ silence.length) :
    (polls user n).Returns w fun _ w₁ =>
      (w.clock + detectionTime pace < w₁.clock → w₁.espDetected = false) ∧
        (∃ k, w₁.probes = w.probes + k ∧
          w₁.clock ≤ w.clock + detectionTime pace + (k + 1) * probeTime pace) ∧
        (w₁.espDetected = false → (polls user m).Returns w₁ fun _ w₂ => w₂.espDetected = false ∧
          ∃ k, w₂.probes = w₁.probes + k ∧ w₂.clock ≤ w₁.clock + (k + 1) * probeTime pace) := by
  have hhushed : w.Hushed pace rest (0 + 4 * m + 4 * n) :=
    ⟨hpending, hqueue, hrx, silence, hticks, by omega, hsilence⟩
  have hstart : w.Watched pace w.clock w.probes := by
    cases honline : w.espDetected with
    | true => exact .inl ⟨honline, rfl, .inl le_rfl⟩
    | false => exact .inr ⟨honline, 0, rfl, .inl (by omega)⟩
  refine Returns.mono (returns_polls (fun _ _ h => h.next hfit) hhushed hstart) ?_
  rintro _ w₁ ⟨hhushed₁, hwatched⟩
  refine ⟨hwatched.clock_le.1, hwatched.clock_le.2, fun hoffline => ?_⟩
  refine Returns.mono (returns_polls (I := World.Probing pace w₁.clock w₁.probes)
    (fun _ _ h => h.next hfit) hhushed₁ (probing_self hoffline)) ?_
  exact fun _ w₂ h => ⟨h.2.1, h.2.clock_le⟩

theorem silence_detected_evenly :
    (polls (userCode 1) 600).Returns (.powerUp (evenly 4000) [] fun _ _ => 0) fun _ w₁ =>
      (0 + detectionTime 10 < w₁.clock → w₁.espDetected = false) ∧
        (∃ k, w₁.probes = 0 + k ∧ w₁.clock ≤ 0 + detectionTime 10 + (k + 1) * probeTime 10) ∧
        (w₁.espDetected = false →
          (polls (userCode 1) 400).Returns w₁ fun _ w₂ => w₂.espDetected = false ∧
            ∃ k, w₂.probes = w₁.probes + k ∧ w₂.clock ≤ w₁.clock + (k + 1) * probeTime 10) := by
  refine @silence_detected 10 600 [] (.powerUp (evenly 4000) [] fun _ _ => 0) _ 400 (evenly 4000)
    rfl rfl rfl (List.append_nil _).symm (fun t ht => ?_) (by decide) ?_
  · unfold evenly at ht
    rw [List.eq_of_mem_replicate ht]
    exact ⟨Nat.le_refl _, rfl⟩
  · unfold evenly
    rw [List.length_replicate]

end Teensquitto
