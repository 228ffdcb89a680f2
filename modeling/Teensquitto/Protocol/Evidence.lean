import Teensquitto.Protocol.Shape

/-!
# The library is online on evidence

The detection timer is refreshed, and the library brought online, by `processing_data`.  As long
as no frame of the ring is processed this happens only behind a frame that was received in the
same call of `events()`.  The check at the top of `events()` then keeps the library online for at
most 5000 ms behind the last frame.

## Main definitions

* `evidence`: a refresh, a detection and its handler come right behind a received frame
* `frameAt`: when the last received frame was processed
* `direct`: no frame of the ring is processed, and the clock does not run once around

## Main results

* `World.Reachable.online_on_evidence`: in direct runs the library is online on evidence only
* `online_without_frame`: a frame of the ring brings the library online
-/

namespace Teensquitto

/-- The frame was received. -/
def Event.receives (data : List UInt8) : Event → Bool
  | received payload => payload = data
  | _ => false

/-- `processing_data` is entered. -/
def Event.isProcessing : Event → Bool
  | processing .. => true
  | _ => false

/-- The library is brought online. -/
def Event.isDetected : Event → Bool
  | detected => true
  | _ => false

/-- The timer is refreshed right behind a received frame, the library is brought online right
behind that, and the `onDetect` handler called right behind that. -/
def evidence (before : List Event) : Event → Bool
  | .processing _ data .. => before.getLast?.any (Event.receives data)
  | .detected => before.getLast?.any Event.isProcessing
  | .handler slot _ => slot = .espDetectHandler → before.getLast?.any Event.isDetected
  | _ => true

/-- `_esp_detected` after a trace. -/
def onlineAfter (trace : List Event) : Bool :=
  trace.foldl (fun online e =>
    match e with
    | .detected => true
    | .offline => false
    | _ => online) true

/-- When the last received frame was processed; at first, the start of the program. -/
def frameAt (trace : List Event) : ℕ :=
  trace.foldl (fun last e =>
    match e with
    | .processing false _ _ _ _ time => time
    | _ => last) 0

/-- No frame of the ring is processed, and a check of the timer comes less than 2^32 ms behind
the last frame. -/
def direct (before : List Event) : Event → Bool
  | .processing queued .. => !queued
  | .poll false true time => time - frameAt before < 2 ^ 32
  | _ => true

/-- An online library was checked. -/
def checked (before : List Event) : Event → Bool
  | .poll pending online time =>
    online = onlineAfter before ∧ (pending = false → online = true → time ≤ frameAt before + 5000)
  | _ => true

theorem onlineAfter_concat (trace : List Event) (e : Event) :
    onlineAfter (trace ++ [e]) = match e with
      | .detected => true
      | .offline => false
      | _ => onlineAfter trace := by
  rw [onlineAfter, List.foldl_append]
  rfl

theorem frameAt_concat (trace : List Event) (e : Event) :
    frameAt (trace ++ [e]) = match e with
      | .processing false _ _ _ _ time => time
      | _ => frameAt trace := by
  rw [frameAt, List.foldl_append]
  rfl

/-- What the last event was, at a frame in progress. -/
def Activity.evident (trace : List Event) : Activity → Bool
  | holding (.uart payload) => trace.getLast?.any (Event.receives payload)
  | processing _ => trace.getLast?.any Event.isProcessing
  | detected _ => trace.getLast?.any Event.isDetected
  | _ => true

/-- The invariant of direct runs. -/
structure Heard (k : Config) : Prop where
  flag : k.2.espDetected = onlineAfter k.2.trace
  timer : k.2.espSyncTimeout = UInt32.ofNat (frameAt k.2.trace)
  past : frameAt k.2.trace ≤ k.2.clock
  evidence : Throughout (fun before e => evidence before e = true) k.2.trace
  checked : Throughout (fun before e => checked before e = true) k.2.trace
  last : ∀ a ∈ k.1.head?, a.evident k.2.trace = true
  nested : Nested k.1

/-- The difference of two readings of the clock. -/
theorem toNat_ofNat_sub {t u : ℕ} (h : u ≤ t) :
    (UInt32.ofNat t - UInt32.ofNat u).toNat = (t - u) % 2 ^ 32 := by
  simp only [UInt32.toNat_sub, UInt32.toNat_ofNat']
  omega

section Steps

variable {k k' : Config}

theorem Heard.flag_step (h : Step k k') (hk : Heard k) :
    k'.2.espDetected = onlineAfter k'.2.trace := by
  have hflag := hk.flag
  cases h with
  | detect | expire => simp [onlineAfter_concat]
  | _ =>
    first
    | rw [Core.log_trace, onlineAfter_concat]; exact hflag
    | exact hflag

theorem Heard.timer_step (h : Step k k') (hk : Heard k)
    (hC : Throughout (fun before e => direct before e = true) k'.2.trace) :
    k'.2.espSyncTimeout = UInt32.ofNat (frameAt k'.2.trace) := by
  have htimer := hk.timer
  cases h with
  | refresh item =>
    have hdirect := (throughout_concat.mp hC).2
    cases item with
    | uart payload => simp [frameAt_concat, Core.processing, Item.queued]
    | row address length => cases hdirect
  | _ =>
    first
    | rw [Core.log_trace, frameAt_concat]; exact htimer
    | exact htimer

theorem Heard.past_step (h : Step k k') (hk : Heard k)
    (hC : Throughout (fun before e => direct before e = true) k'.2.trace) :
    frameAt k'.2.trace ≤ k'.2.clock := by
  have hpast := hk.past
  cases h with
  | idle n => exact hpast.trans (Nat.le_add_right _ _)
  | refresh item =>
    have hdirect := (throughout_concat.mp hC).2
    cases item with
    | uart payload => simp [frameAt_concat, Core.processing, Item.queued]
    | row address length => cases hdirect
  | _ =>
    first
    | rw [Core.log_trace, frameAt_concat]; exact hpast
    | exact hpast

theorem Heard.evidence_step (h : Step k k') (hk : Heard k)
    (hC : Throughout (fun before e => direct before e = true) k'.2.trace) :
    Throughout (fun before e => Teensquitto.evidence before e = true) k'.2.trace := by
  have hevidence := hk.evidence
  have hlast := hk.last
  cases h with
  | refresh item =>
    have hdirect := (throughout_concat.mp hC).2
    cases item with
    | uart payload => exact throughout_concat.mpr ⟨hevidence, hlast _ rfl⟩
    | row address length => cases hdirect
  | detect item => exact throughout_concat.mpr ⟨hevidence, hlast _ rfl⟩
  | callDetect item =>
    exact throughout_concat.mpr ⟨hevidence, decide_eq_true fun _ => hlast _ rfl⟩
  | callHandler slot args hslot =>
    exact throughout_concat.mpr ⟨hevidence, decide_eq_true fun h => absurd h hslot⟩
  | _ =>
    first
    | exact throughout_concat.mpr ⟨hevidence, rfl⟩
    | exact hevidence

theorem Heard.checked_step (h : Step k k') (hk : Heard k)
    (hC : Throughout (fun before e => direct before e = true) k'.2.trace) :
    Throughout (fun before e => Teensquitto.checked before e = true) k'.2.trace := by
  have hchecked := hk.checked
  cases h with
  | @poll s c hexpired =>
    refine throughout_concat.mpr ⟨hchecked, decide_eq_true ⟨hk.flag, ?_⟩⟩
    intro hpending honline
    -- the difference does not wrap, so the comparison is one of times
    have hdirect : c.clock - frameAt c.trace < 2 ^ 32 := by
      have := (throughout_concat.mp hC).2
      rw [hpending, honline] at this
      exact of_decide_eq_true this
    have hpast : frameAt c.trace ≤ c.clock := hk.past
    have htimer : c.espSyncTimeout = UInt32.ofNat (frameAt c.trace) := hk.timer
    have hdiff : ¬UInt32.ofNat c.clock - c.espSyncTimeout > 5000 := fun h =>
      hexpired ⟨hpending, honline, h⟩
    rw [htimer, gt_iff_lt, UInt32.lt_iff_toNat_lt, toNat_ofNat_sub hpast,
      Nat.mod_eq_of_lt hdirect] at hdiff
    simp only [UInt32.reduceToNat] at hdiff
    omega
  | _ =>
    first
    | exact throughout_concat.mpr ⟨hchecked, rfl⟩
    | exact hchecked

theorem Heard.last_step (h : Step k k') (hk : Heard k) :
    ∀ a ∈ k'.1.head?, a.evident k'.2.trace = true := by
  have hlast := hk.last
  -- beneath the innermost activity no frame is on its way to the switch
  have hbeneath {a : Activity} {s : List Activity} {trace : List Event} (hs : Nested (a :: s)) :
      ∀ b ∈ s.head?, b.evident trace = true := by
    intro b hb
    have := hs b (List.mem_of_mem_head? hb)
    cases b with
    | holding item | processing item | detected item => cases this
    | _ => rfl
  cases h with
  | idle n => exact hlast
  | leave | reply | ignore | queue | skipHandler | pop | handlerReturns | accept | giveUp
  | methodReturns => exact hbeneath hk.nested
  | onDetect ha | refuse ha =>
    rintro a ⟨⟩
    rcases ha.eq with rfl | rfl
    · rfl
    · rfl
  | _ =>
    rintro a ⟨⟩
    simp [Activity.evident, Event.receives, Event.isProcessing, Event.isDetected,
      Core.processing]

theorem heard_step (h : Step k k') (_ : Shape k)
    (hC : Throughout (fun before e => direct before e = true) k'.2.trace) (hk : Heard k) :
    Heard k' where
  flag := hk.flag_step h
  timer := hk.timer_step h hC
  past := hk.past_step h hC
  evidence := hk.evidence_step h hC
  checked := hk.checked_step h hC
  last := hk.last_step h
  nested := nested_step h hk.nested

end Steps

theorem heard_powerUp : Heard ([.main], .powerUp) where
  flag := rfl
  timer := rfl
  past := Nat.le_refl 0
  evidence := throughout_nil
  checked := throughout_nil
  last := by
    rintro a ⟨⟩
    rfl
  nested := by
    rintro a ha
    cases ha

/-! ## The runs -/

/-- The last entry satisfies a test that an earlier one does not. -/
theorem exists_of_getLast? {α : Type} {p : α → Bool} {before after : List α} {e : α}
    (h : (before ++ e :: after).getLast?.any p = true) (he : p e = false) :
    ∃ after' x, after = after' ++ [x] ∧ p x = true := by
  rcases List.eq_nil_or_concat after with rfl | ⟨after', x, rfl⟩
  · rw [List.getLast?_concat, Option.any_some, he] at h
    cases h
  · rw [List.concat_eq_append, ← List.cons_append, ← List.append_assoc, List.getLast?_concat] at h
    exact ⟨after', x, List.concat_eq_append, h⟩

/-- What brings the library online behind a check is a frame received behind the check. -/
theorem received_of_online {before after : List Event} {pending online : Bool} {time : ℕ}
    (h : Throughout (fun before e => evidence before e = true)
      (before ++ .poll pending online time :: after))
    (hbefore : onlineAfter before = false)
    (hafter : onlineAfter (before ++ .poll pending online time :: after) = true) :
    ∃ payload, .received payload ∈ after := by
  -- Induction on the events behind the check: the library comes online by a detection.
  induction after using List.reverseRecOn with
  | nil =>
    rw [onlineAfter_concat, hbefore] at hafter
    cases hafter
  | append_singleton after e ih =>
    rw [← List.cons_append, ← List.append_assoc] at h hafter
    obtain ⟨hrest, hlast⟩ := throughout_concat.mp h
    rw [onlineAfter_concat] at hafter
    by_cases hdetected : e.isDetected = true
    · cases e with
      | detected =>
        -- a detection stands right behind a processing, and this behind a reception
        obtain ⟨after', x, rfl, hx⟩ := exists_of_getLast? hlast rfl
        rw [← List.cons_append, ← List.append_assoc] at hrest
        cases x with
        | processing queued data p o b t =>
          obtain ⟨after'', y, rfl, hy⟩ := exists_of_getLast? (throughout_concat.mp hrest).2 rfl
          cases y with
          | received payload => exact ⟨payload, by simp⟩
          | _ => cases hy
        | _ => cases hx
      | _ => cases hdetected
    · have honline : onlineAfter (before ++ .poll pending online time :: after) = true := by
        cases e with
        | detected => exact absurd rfl hdetected
        | offline => cases hafter
        | _ => exact hafter
      obtain ⟨payload, hmem⟩ := ih hrest honline
      exact ⟨payload, List.mem_append_left _ hmem⟩

/-- **The library is online on evidence.**  In a run in which no frame of the ring is processed,
and every check of the timer comes less than 2^32 ms behind the last frame, the timer is
refreshed, the library brought online and the `onDetect` handler called only right behind a
received frame; and behind every check that was made without a request pending the library is
online only if a frame was received behind the check, or at most 5000 ms before it. -/
theorem World.Reachable.online_on_evidence {w : World} (h : w.Reachable)
    (hdirect : Throughout (fun before e => direct before e = true) w.trace) :
    Throughout (fun before e => evidence before e = true) w.trace ∧
      w.espDetected = onlineAfter w.trace ∧
      w.espSyncTimeout = UInt32.ofNat (frameAt w.trace) ∧
      ∀ before online time after, w.trace = before ++ .poll false online time :: after →
        w.espDetected = true →
        (∃ payload, .received payload ∈ after) ∨ time ≤ frameAt before + 5000 := by
  obtain ⟨s, -, hheard⟩ := h.invariant heard_powerUp (fun _ _ => heard_step) hdirect
  refine ⟨hheard.evidence, hheard.flag, hheard.timer, ?_⟩
  intro before online time after htrace hdetected
  have hevidence : Throughout (fun before e => evidence before e = true) w.trace :=
    hheard.evidence
  have honline : onlineAfter w.trace = true := hheard.flag.symm.trans hdetected
  have hchecked := hheard.checked before _ after htrace
  obtain ⟨hflag, htime⟩ : online = onlineAfter before ∧
      (false = false → online = true → time ≤ frameAt before + 5000) :=
    of_decide_eq_true hchecked
  -- online at the check, by its timer, or brought online behind it
  by_cases hbefore : online = true
  · exact .inr (htime rfl hbefore)
  · rw [htrace] at hevidence honline
    exact .inl (received_of_online hevidence
      (hflag.symm.trans (Bool.eq_false_of_not_eq_true hbefore)) honline)

/-- An MQTT frame arrives 6000 ms after the library went offline.  Irreducible, so that runs over
it are evaluated only where this is asked for. -/
@[irreducible] def silentSchedule : List Tick :=
  [⟨6000, []⟩, ⟨0, []⟩, ⟨6000, []⟩, ⟨0, []⟩, ⟨0, []⟩,
    ⟨0, [0x24, 0x00, 0x05, 0xAF, 0xAF, 0x00, 0x01, 0x01]⟩] ++ List.replicate 40 ⟨0, []⟩

theorem online_on_evidence_silentSchedule : ∃ w : World, w.Reachable ∧
    (w.espDetected = true ∧ w.trace.any Event.isDetected = true) ∧
    Throughout (fun before e => evidence before e = true) w.trace ∧
      w.espDetected = onlineAfter w.trace ∧
      w.espSyncTimeout = UInt32.ofNat (frameAt w.trace) ∧
      ∀ before online time after, w.trace = before ++ .poll false online time :: after →
        w.espDetected = true →
        (∃ payload, .received payload ∈ after) ∨ time ≤ frameAt before + 5000 := by
  obtain ⟨w, hw, honline, hdirect⟩ := @exists_reachable silentSchedule [] (fun _ _ => 0) 1
    [.events, .events]
    (fun w => (w.espDetected = true ∧ w.trace.any Event.isDetected = true) ∧
      Throughout (fun before e => direct before e = true) w.trace)
    (by decide +kernel)
  exact ⟨w, hw, honline, World.Reachable.online_on_evidence hw hdirect⟩

/-! ## The frame of the ring -/

/-- An MQTT frame arrives while a request waits, then the reply, then nothing for 6000 ms.
Irreducible, so that runs over it are evaluated only where this is asked for. -/
@[irreducible] def staleSchedule : List Tick :=
  [⟨0, [0x24, 0x00, 0x05, 0xAF, 0xAF, 0x00, 0x01, 0x01,
    0x24, 0x00, 0x07, 0xAA, 0x55, 0x34, 0x34, 0x03, 0x01, 0xFD]⟩] ++
    List.replicate 71 ⟨0, []⟩ ++ [⟨6000, []⟩] ++ List.replicate 10 ⟨0, []⟩

/-- The frame that was queued brings the library online in a call of `events()` that received
nothing. -/
theorem online_without_frame : ¬∀ w : World, w.Reachable → w.clock < 2 ^ 32 →
    Throughout (fun before e => evidence before e = true) w.trace ∧
      ∀ before online time after, w.trace = before ++ .poll false online time :: after →
        w.espDetected = true →
        (∃ payload, .received payload ∈ after) ∨ time ≤ frameAt before + 5000 := by
  intro h
  obtain ⟨w, hw, hclock, hevidence⟩ := @exists_reachable staleSchedule [] (fun _ _ => 0) 1
    [.user (.call (.spiffs anyObject .format)), .events]
    (fun w => w.clock < 2 ^ 32 ∧
      ¬Throughout (fun before e => evidence before e = true) w.trace)
    (by decide +kernel)
  exact hevidence (h w hw hclock).1

end Teensquitto
