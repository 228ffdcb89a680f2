import Teensquitto.Protocol.Probing

/-!
# The estimate of the latency

`_esp_latency` is the mean of the time since the last probe and the estimate before, whichever probe
the ESP has answered.  The last probe was sent after the one that is answered, so that the time
since then is no longer than the round trip; arithmetic modulo powers of two only makes it shorter.

A round trip lasts from the writing of a probe to the place in the processing of its answer at which
the time is taken.  An answer that brings the library online has waited a second there, and the
handler of `onDetect` has run.

## Main definitions

* `Timing`: the clock and the times of the probe, with `Timing.History` for what may happen to them
* `Answered`: the round trips of a log in which every answer is one to an earlier probe
* `World.Bounded`: the estimate is bounded by the round trips of the run so far

## Main results

* `Timing.latency_le`: it is in every history
* `chronicles_run`: a run of the library makes a history, the one that it logs
* `latency_bounded`: the estimate is bounded in every run
-/

namespace Teensquitto

open EStateM

/-- What the estimate depends on. -/
structure Timing where
  clock : ℕ
  /-- `_esp_check_latency`. -/
  check : UInt32
  /-- `_esp_latency`. -/
  latency : UInt16

/-- A probe was written. -/
def SyncEvent.isProbe : SyncEvent → Bool
  | .probe _ => true
  | .answer _ _ => false

namespace Timing

/-- Time passes. -/
def elapse (t : Timing) (ms : ℕ) : Timing := { t with clock := t.clock + ms }

/-- The time is taken at which a probe was written. -/
def stamp (t : Timing) : Timing := { t with check := UInt32.ofNat t.clock }

/-- The estimate behind an answer. -/
def answered (t : Timing) : Timing :=
  { t with latency := (((UInt32.ofNat t.clock - t.check) + t.latency.toUInt32) / 2).toUInt16 }

/-- What may happen between two states, the last frame first.  The time of a probe is taken some
milliseconds after it was written. -/
inductive History (t : Timing) : List SyncEvent → Timing → Prop
  | nil : History t [] t
  | elapse {l t'} (ms : ℕ) (h : History t l t') : History t l (t'.elapse ms)
  | probe {l t'} (ms : ℕ) (h : History t l t') :
    History t (.probe t'.clock :: l) (t'.elapse ms).stamp
  | answer {l t'} (h : History t l t') : History t (.answer 0x7F7F t'.clock :: l) t'.answered

theorem History.trans {t t' t'' : Timing} {l l' : List SyncEvent} (h : History t l t')
    (h' : History t' l' t'') : History t (l' ++ l) t'' := by
  induction h' with
  | nil => exact h
  | elapse ms _ ih => exact .elapse ms ih
  | probe ms _ ih => exact .probe ms ih
  | answer _ ih => exact .answer ih

/-- Only frames `0x7F7F` update the estimate. -/
theorem History.answer_mem {t t' : Timing} {l : List SyncEvent} (h : History t l t')
    {header : UInt16} {time : ℕ} (hmem : .answer header time ∈ l) : header = 0x7F7F := by
  induction h with
  | nil => cases hmem
  | elapse ms _ ih => exact ih hmem
  | probe ms _ ih =>
    rcases List.mem_cons.mp hmem with heq | hmem
    · cases heq
    · exact ih hmem
  | answer _ ih =>
    rcases List.mem_cons.mp hmem with heq | hmem
    · cases heq
      rfl
    · exact ih hmem

/-- The values at power-up. -/
def powerUp : Timing := ⟨0, 0, 0⟩

end Timing

/-- The times at which probes were sent, and the round trips: every answer is a frame `0x7F7F`, and
one to a probe that was sent before.  That a probe is answered at most once, and probes in their
order, is allowed and not needed. -/
inductive Answered : List SyncEvent → List ℕ → List ℕ → Prop
  | nil : Answered [] [] []
  | probe {l sent trips} (time : ℕ) (h : Answered l sent trips) :
    Answered (.probe time :: l) (time :: sent) trips
  | answer {l sent trips} (time : ℕ) {start : ℕ} (h : Answered l sent trips)
    (hstart : start ∈ sent) : Answered (.answer 0x7F7F time :: l) sent ((time - start) :: trips)

/-- The largest one, or zero. -/
def largest (l : List ℕ) : ℕ := l.foldr max 0

namespace Timing

/-! ## Histories -/

/-- The mean of the time since the last probe and the old estimate. -/
theorem latency_answered_le {t : Timing} {time : ℕ} (hcheck : t.check = UInt32.ofNat time)
    (hle : time ≤ t.clock) :
    t.answered.latency.toNat ≤ max t.latency.toNat (t.clock - time) := by
  have hsub : (UInt32.ofNat t.clock - t.check).toNat ≤ t.clock - time := by
    rw [hcheck, UInt32.toNat_sub, UInt32.toNat_ofNat', UInt32.toNat_ofNat']
    omega
  have hsum : ((UInt32.ofNat t.clock - t.check) + t.latency.toUInt32).toNat ≤
      (t.clock - time) + t.latency.toNat := by
    rw [UInt32.toNat_add, UInt16.toNat_toUInt32]
    exact (Nat.mod_le _ _).trans (Nat.add_le_add_right hsub _)
  have hhalf : t.answered.latency.toNat ≤ ((t.clock - time) + t.latency.toNat) / 2 := by
    rw [answered, UInt32.toNat_toUInt16, UInt32.toNat_div]
    exact (Nat.mod_le _ _).trans (Nat.div_le_div_right hsum)
  omega

/-- The time of the last probe was taken, and no probe was sent later. -/
def Stamped (t : Timing) (l : List SyncEvent) : Prop :=
  ∃ time, t.check = UInt32.ofNat time ∧ time ≤ t.clock ∧
    ∀ sent trips, Answered l sent trips → ∀ start ∈ sent, start ≤ time

theorem stamped_of_history {l : List SyncEvent} {t : Timing} (h : History powerUp l t) :
    t.Stamped l := by
  induction h with
  | nil =>
    refine ⟨0, rfl, Nat.le_refl 0, ?_⟩
    rintro _ _ ⟨⟩
    exact List.forall_mem_nil _
  | elapse ms _ ih =>
    obtain ⟨time, hcheck, hle, hsent⟩ := ih
    exact ⟨time, hcheck, hle.trans (Nat.le_add_right _ ms), hsent⟩
  | @probe l t ms _ ih =>
    obtain ⟨time, -, hle, hsent⟩ := ih
    refine ⟨t.clock + ms, rfl, Nat.le_refl _, ?_⟩
    rintro _ trips (_ | ⟨_, hanswered⟩)
    rw [List.forall_mem_cons]
    refine ⟨Nat.le_add_right _ ms, fun start hstart => ?_⟩
    exact ((hsent _ _ hanswered start hstart).trans hle).trans (Nat.le_add_right _ ms)
  | answer _ ih =>
    obtain ⟨time, hcheck, hle, hsent⟩ := ih
    refine ⟨time, hcheck, hle, ?_⟩
    rintro sent _ (_ | _ | ⟨_, hanswered, -⟩)
    exact hsent sent _ hanswered

/-- **The estimate is bounded** by the largest round trip so far, whatever happens. -/
theorem latency_le {l : List SyncEvent} {t : Timing} (h : History powerUp l t) {sent trips : List ℕ}
    (hanswered : Answered l sent trips) : t.latency.toNat ≤ largest trips := by
  induction h generalizing sent trips with
  | nil => exact Nat.zero_le _
  | elapse ms _ ih => exact ih hanswered
  | probe ms _ ih =>
    cases hanswered with
    | probe _ hanswered => exact ih hanswered
  | answer hhistory ih =>
    cases hanswered with
    | @answer _ _ trips time' start hanswered hstart =>
      obtain ⟨time, hcheck, hle, hsent⟩ := stamped_of_history hhistory
      -- the last probe was sent after the one that is answered
      have hstart := hsent sent trips hanswered start hstart
      have hmean := latency_answered_le hcheck hle
      rw [largest, List.foldr_cons, ← largest, Nat.max_comm]
      exact hmean.trans (max_le_max (ih hanswered) (Nat.sub_le_sub_left hstart _))

end Timing

/-! ## Runs -/

/-- The part of the state that the estimate depends on. -/
def World.timing (w : World) : Timing := ⟨w.clock, w.espCheckLatency, w.espLatency⟩

/-- The run between two states makes a history, which is the one logged: its probes were written. -/
def Chronicles (w w' : World) : Prop :=
  ∃ l, w.timing.History l w'.timing ∧ w'.syncs = l ++ w.syncs ∧
    l.countP SyncEvent.isProbe + w.probes ≤ w'.probes

instance : IsPreorder World Chronicles where
  refl w := ⟨[], .nil, rfl, (Nat.zero_add _).le⟩
  trans := by
    rintro w w' w'' ⟨l, h, hsyncs, hprobes⟩ ⟨l', h', hsyncs', hprobes'⟩
    refine ⟨l' ++ l, h.trans h', ?_, ?_⟩
    · rw [hsyncs', hsyncs, List.append_assoc]
    · rw [List.countP_append]
      omega

section Chronicles

variable {w w' : World}

theorem chronicles_of_eq (h : w'.timing = w.timing) (hsyncs : w'.syncs = w.syncs)
    (hprobes : w.probes ≤ w'.probes) : Chronicles w w' :=
  ⟨[], h ▸ .nil, hsyncs, (Nat.zero_add _).le.trans hprobes⟩

theorem chronicles_advance (w : World) (t : Tick) (ticks : List Tick) :
    Chronicles w (w.advance t ticks) := ⟨[], .elapse t.elapsed .nil, rfl, (Nat.zero_add _).le⟩

theorem chronicles_requests : BearsRequests Chronicles where
  internal w w' h := by
    refine chronicles_of_eq ?_ h.syncs ?_
    · rw [World.timing, World.timing, h.clock, h.espCheckLatency, h.espLatency]
    · rw [World.probes, World.probes, h.sent]
  advance := chronicles_advance

theorem probes_append (w : World) (block : List UInt8) :
    w.probes ≤ World.probes { w with sent := w.sent ++ [block] } := by
  rw [World.probes, World.probes, List.count_append]
  exact Nat.le_add_right _ _

/-- Writing a block that is no probe. -/
theorem chronicles_send (w : World) (block : List UInt8) :
    Chronicles w { w with sent := w.sent ++ [block] } :=
  chronicles_of_eq rfl rfl (probes_append w block)

/-- A value of the clock is read and stored, or there is no reading left. -/
theorem ends_millis_then {m : UInt32 → Prog PUnit} {P : World → Prop} (hstop : P w)
    (hf : ∀ t ticks, (m (UInt32.ofNat (w.clock + t.elapsed))).Ends (w.advance t ticks)
      (fun _ => P) fun _ => P) :
    (millis >>= m).Ends w (fun _ => P) fun _ => P := by
  rw [ends_bind]
  cases hticks : w.ticks with
  | nil => exact (ends_millis_nil hticks).mpr hstop
  | cons t ticks => exact (ends_millis_cons hticks).mpr (hf t ticks)

theorem chronicles_probe : probe.Along Chronicles := by
  refine chronicles_requests.along_millis.bind fun interval => ?_
  refine Along.bind ?_ fun _ => ?_
  · exact chronicles_requests.along_modify fun _ => ⟨rfl, rfl, rfl, rfl, rfl⟩
  intro w
  rw [send, ends_bind, ends_modify, ends_bind, ends_get]
  refine ends_millis_then (chronicles_send w _) fun t ticks => ?_
  rw [ends_bind, ends_modify, logSync, ends_modify]
  refine ⟨[.probe w.clock], .probe t.elapsed .nil, rfl, ?_⟩
  refine Nat.le_of_eq ((Nat.add_comm _ _).trans ?_)
  exact ((List.count_append ..).trans (congrArg _ List.count_singleton_self)).symm

theorem chronicles_latencyFrame : (latencyFrame 0x7F7F).Along Chronicles := by
  intro w
  refine ends_millis_then (refl_of Chronicles w) fun t ticks => ?_
  rw [ends_bind, ends_get, ends_bind, logSync, ends_modify, ends_modify]
  exact ⟨[.answer 0x7F7F (w.clock + t.elapsed)], .answer (.elapse t.elapsed .nil), rfl,
    (Nat.zero_add _).le⟩

theorem chronicles_run : BearsRun Chronicles where
  toBearsRequests := chronicles_requests
  delay _ ms := ⟨[], .elapse ms .nil, rfl, (Nat.zero_add _).le⟩
  sendNak w _ _ := chronicles_send w _
  sendFrame w _ block _ := chronicles_send w block
  probe := chronicles_probe
  latencyFrame := chronicles_latencyFrame

/-- The estimate is bounded by the round trips so far, and so is what every request adds to its
limit.  A round trip ends where the processing of the frame `0x7F7F` takes the time; a frame that
brings the library online comes there behind the second of delay and the handler. -/
structure World.Bounded (w : World) : Prop where
  /-- The probes of the log were written. -/
  probes : w.syncs.countP SyncEvent.isProbe ≤ w.probes
  /-- No other frame updates the estimate. -/
  answers : ∀ header time, .answer header time ∈ w.syncs → header = 0x7F7F
  latency_le : ∀ sent trips, Answered w.syncs sent trips → w.espLatency.toNat ≤ largest trips
  waitLimit_le : ∀ sent trips, Answered w.syncs sent trips →
    ∀ limit, (w.waitLimit limit).toNat ≤ limit + largest trips

theorem toNat_waitLimit_le (w : World) (limit : ℕ) :
    (w.waitLimit limit).toNat ≤ limit + w.espLatency.toNat := by
  rw [World.waitLimit, UInt32.toNat_add, UInt16.toNat_toUInt32, UInt32.toNat_ofNat']
  omega

theorem bounded_of_chronicles {ticks : List Tick} {scripts : List (List UserOp)}
    {stray : ℕ → Memory UInt8} (h : Chronicles (.powerUp ticks scripts stray) w) : w.Bounded := by
  obtain ⟨l, hhistory, hsyncs, hprobes⟩ := h
  obtain rfl : w.syncs = l := hsyncs.trans (List.append_nil l)
  exact {
    probes := hprobes
    answers := fun _ _ => hhistory.answer_mem
    latency_le := fun _ _ hanswered => Timing.latency_le hhistory hanswered
    waitLimit_le := fun _ _ hanswered limit => (toNat_waitLimit_le w limit).trans
      (Nat.add_le_add_left (Timing.latency_le hhistory hanswered) limit) }

/-- **The estimate is bounded in every run**, at every moment: the readings of clock and port may
end anywhere. -/
theorem latency_bounded (depth : ℕ) (ops : List LibraryOp) (ticks : List Tick)
    (scripts : List (List UserOp)) (stray : ℕ → Memory UInt8) :
    (library depth ops).Ends (.powerUp ticks scripts stray) (fun _ w => w.Bounded)
      fun _ w => w.Bounded :=
  (chronicles_run.along_library depth ops _).mono (fun _ _ h => bounded_of_chronicles h)
    fun _ _ h => bounded_of_chronicles h

end Chronicles

-- The answer arrives 41 ms behind the probe; it brings the library online, which takes a second.
example : (library 0 [.events, .events]).Returns
    (.powerUp ([⟨6000, []⟩, ⟨0, []⟩, ⟨1, []⟩, ⟨1, []⟩, ⟨1, []⟩,
      ⟨40, commandBytes [0x7F, 0x7F, 0x00]⟩] ++ quiet 60) [] fun _ _ => 0)
    fun _ w => w.syncs = [.answer 0x7F7F 7043, .probe 6002] ∧ w.espLatency = 520 := by
  decide +kernel

end Teensquitto
