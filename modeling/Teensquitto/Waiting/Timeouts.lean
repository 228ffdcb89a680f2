import Teensquitto.Waiting.Replies

/-!
# Accepted replies and the check behind the wait

A wait loop is left when its reply is there.  The check behind the loop reads the clock once
more, and gives up when the limit has passed by then; `waitForConnectResult` waits longer than
this check allows.

## Main definitions

* `Exchange.wait`: a request up to the end of its wait loop
* `World.inTime`: the clock behind the loop is within the limit of the check

## Main results

* `Exchange.answer_run_of_accepts`: what becomes of an awaited reply
* `accepted_reply_returned_iff`: it is returned when the clock is within the limit
-/

namespace Teensquitto

/-- A request up to the end of its wait loop: its key and its time stamp. -/
def Exchange.wait (events : Prog Unit) (e : Exchange) : Prog (Key × UInt32) := do
  let frame ← writeCommand e.command
  log (.request (keyOf frame))
  let timeout ← millis
  modify fun w => { w with dataReadyFlag := false }
  waitLoop events (keyOf frame) e.limit timeout
  log .waitEnd
  modify fun w => { w with pendingData := false }
  return (keyOf frame, timeout)

/-- The checks follow. -/
theorem Exchange.answer_eq (events : Prog Unit) (e : Exchange) :
    e.answer events = (do
      let (key, timeout) ← e.wait events
      conclude key e.checkLimit timeout) := by
  simp only [Exchange.answer, awaitReply, Exchange.wait, bind_assoc, pure_bind]

/-- The reading of the clock behind the wait loop is within the limit of the check. -/
def World.inTime (w : World) (t : Tick) (timeout : UInt32) (checkLimit : ℕ) : Bool :=
  UInt32.ofNat (w.clock + t.elapsed) - timeout ≤ w.waitLimit checkLimit

section

variable {e : Exchange} {events : Prog Unit} {w₀ w : World} {key : Key} {timeout : UInt32}
  {t : Tick} {ticks : List Tick}

/-- The checks at an awaited reply: only the clock decides. -/
theorem conclude_run_of_accepts (hready : w.dataReadyFlag = true)
    (haccepts : accepts w.storageBuffer key = true) (hticks : w.ticks = t :: ticks)
    (checkLimit : ℕ) :
    (conclude key checkLimit timeout).run w =
      if w.inTime t timeout checkLimit then
        .ok (.accepted w.storageBuffer)
          { w.advance t ticks with trace := w.trace ++ [.accepted key] }
      else .ok .timedOut (w.advance t ticks) := by
  have hmillis : millis.run w = .ok (UInt32.ofNat (w.clock + t.elapsed)) (w.advance t ticks) := by
    unfold millis tick
    rw [EStateM.run_bind, EStateM.run_bind, EStateM.run_get]
    simp only [hticks]
    rfl
  have hlimit : UInt32.ofNat (w.clock + t.elapsed) - timeout > w.waitLimit checkLimit ↔
      ¬w.inTime t timeout checkLimit = true := by
    rw [World.inTime, decide_eq_true_iff, UInt32.not_le]
  unfold conclude
  rw [EStateM.run_bind, hmillis]
  simp only
  rw [EStateM.run_bind, EStateM.run_get]
  simp only
  -- The clock is compared before the reply: a late reply is not looked at.
  by_cases htime : w.inTime t timeout checkLimit = true
  · have hopen : ¬UInt32.ofNat (w.clock + t.elapsed) - timeout >
        (w.advance t ticks).waitLimit checkLimit := fun h => hlimit.mp h htime
    have hfound : ((w.advance t ticks).dataReadyFlag &&
        accepts (w.advance t ticks).storageBuffer key) = true := by
      rw [Bool.and_eq_true]
      exact ⟨hready, haccepts⟩
    rw [if_neg hopen, if_pos hfound, if_pos htime]
    rfl
  · have hlate : UInt32.ofNat (w.clock + t.elapsed) - timeout >
        (w.advance t ticks).waitLimit checkLimit := hlimit.mpr htime
    rw [if_pos hlate, if_neg htime]
    rfl

/-- What becomes of an awaited reply. -/
theorem Exchange.answer_run_of_accepts (h : (e.wait events).run w₀ = .ok (key, timeout) w)
    (hready : w.dataReadyFlag = true) (haccepts : accepts w.storageBuffer key = true)
    (hticks : w.ticks = t :: ticks) :
    (e.answer events).run w₀ =
      if w.inTime t timeout e.checkLimit then
        .ok (.accepted w.storageBuffer)
          { w.advance t ticks with trace := w.trace ++ [.accepted key] }
      else .ok .timedOut (w.advance t ticks) := by
  rw [Exchange.answer_eq, EStateM.run_bind, h]
  exact conclude_run_of_accepts hready haccepts hticks e.checkLimit

/-- **An awaited reply is returned** exactly when the first reading of the clock behind the wait
loop is within the limit of the check: then the method returns the value decoded from it, and its
timeout default otherwise. -/
theorem accepted_reply_returned_iff (h : (e.wait events).run w₀ = .ok (key, timeout) w)
    (hready : w.dataReadyFlag = true) (haccepts : accepts w.storageBuffer key = true)
    (hticks : w.ticks = t :: ticks) :
    ((e.answer events).Returns w₀ (fun result _ => result = .accepted w.storageBuffer) ↔
      w.inTime t timeout e.checkLimit = true) ∧
    ∀ otherwise stages,
      (runStages events otherwise (.request true e :: stages)).Returns w₀ fun v _ =>
        v = if w.inTime t timeout e.checkLimit then e.decode w.storageBuffer else e.onTimeout := by
  have hrun := Exchange.answer_run_of_accepts h hready haccepts hticks
  by_cases htime : w.inTime t timeout e.checkLimit = true
  · rw [if_pos htime] at hrun
    refine ⟨iff_of_true ?_ htime, fun otherwise stages => ?_⟩
    · unfold EStateM.Returns EStateM.Ends
      rw [hrun]
    · unfold EStateM.Returns EStateM.Ends
      rw [runStages_of_accepted hrun otherwise stages, if_pos htime]
  · rw [if_neg htime] at hrun
    refine ⟨iff_of_false ?_ htime, fun otherwise stages => ?_⟩
    · unfold EStateM.Returns EStateM.Ends
      rw [hrun]
      exact Result.noConfusion
    · have hvalue : (runStages events otherwise (.request true e :: stages)).run w₀ =
          .ok e.onTimeout (w.advance t ticks) := by
        simp only [runStages, Stage.run, if_true, Exchange.run, EStateM.run_bind, hrun,
          EStateM.run_pure, Exchange.value]
      unfold EStateM.Returns EStateM.Ends
      rw [hvalue, if_neg htime]

end

/-! ## A reply after two seconds -/

/-- The only block of `waitForConnectResult()`. -/
theorem connectResultExchange_stages : (Call.wifi { Object.initial with wifi := 0 }
    .waitForConnectResult).method.stages = [.request true connectResultExchange] := rfl

/-- The status 3 arrives a given time after the request.  Irreducible, so that runs from this state
are evaluated only where this is asked for. -/
@[irreducible] def statusAfter (ms : ℕ) : World :=
  .powerUp (List.replicate 3 ⟨0, []⟩ ++
    ⟨ms, [0x24, 0x00, 0x07, 0xAA, 0x55, 0xA2, 0xA2, 0x10, 0x03, 0xEC]⟩ ::
    List.replicate 40 ⟨0, []⟩) [] fun _ _ => 0

/-- The awaited reply is there at the end of the wait, and the clock is read once more. -/
theorem exists_wait {e : Exchange} {w₀ : World} {inTime : Bool}
    (h : (e.wait bareEvents).Ends w₀ (fun r w =>
      w.dataReadyFlag = true ∧ accepts w.storageBuffer r.1 = true ∧
        w.ticks.head?.any (fun t => w.inTime t r.2 e.checkLimit = inTime) = true ∧
        e.decode w.storageBuffer ≠ e.onTimeout) fun _ _ => False) :
    ∃ key timeout w t ticks, (e.wait bareEvents).run w₀ = .ok (key, timeout) w ∧
      w.dataReadyFlag = true ∧ accepts w.storageBuffer key = true ∧ w.ticks = t :: ticks ∧
      w.inTime t timeout e.checkLimit = inTime ∧ e.decode w.storageBuffer ≠ e.onTimeout := by
  unfold EStateM.Ends at h
  cases hrun : (e.wait bareEvents).run w₀ with
  | error halt w =>
    rw [hrun] at h
    exact h.elim
  | ok r w =>
    rw [hrun] at h
    obtain ⟨hready, haccepts, htime, hvalue⟩ := h
    cases hticks : w.ticks with
    | nil => simp [hticks] at htime
    | cons t ticks =>
      rw [hticks] at htime
      exact ⟨r.1, r.2, w, t, ticks, rfl, hready, haccepts, hticks,
        by simpa using htime, hvalue⟩

theorem accepted_reply_returned_iff_prompt : ∃ w, (connectResultExchange.answer bareEvents).Returns
    (statusAfter 900) fun result _ => result = .accepted w := by
  obtain ⟨key, timeout, w, t, ticks, h, hready, haccepts, hticks, htime, -⟩ :=
    @exists_wait connectResultExchange (statusAfter 900) true (by decide +kernel)
  exact ⟨_, (accepted_reply_returned_iff h hready haccepts hticks).1.mpr htime⟩

/-- `waitForConnectResult()` accepts a status after two seconds and returns its timeout default. -/
theorem late_status_times_out : ¬∀ (call : Call) (e : Exchange) (events : Prog Unit) (w₀ w : World)
    (key : Key) (timeout : UInt32) (t : Tick) (ticks : List Tick),
    call.method.stages = [.request true e] → (e.wait events).run w₀ = .ok (key, timeout) w →
    w.dataReadyFlag = true → accepts w.storageBuffer key = true → w.ticks = t :: ticks →
    (runStages events call.method.otherwise call.method.stages).Returns w₀ fun v _ =>
      v = e.decode w.storageBuffer := by
  intro hall
  obtain ⟨key, timeout, w, t, ticks, h, hready, haccepts, hticks, htime, hvalue⟩ :=
    @exists_wait connectResultExchange (statusAfter 2000) false (by decide +kernel)
  have hreturns := hall _ _ bareEvents _ w key timeout t ticks connectResultExchange_stages h hready
    haccepts hticks
  have hrun := Exchange.answer_run_of_accepts h hready haccepts hticks
  rw [htime, if_neg Bool.false_ne_true] at hrun
  have hdefault : (runStages bareEvents .zero [.request true connectResultExchange]).run
      (statusAfter 2000) = .ok .zero (w.advance t ticks) := by
    simp only [runStages, Stage.run, if_true, Exchange.run, EStateM.run_bind, hrun,
      EStateM.run_pure, Exchange.value]
    rfl
  rw [connectResultExchange_stages] at hreturns
  unfold EStateM.Returns EStateM.Ends at hreturns
  have hotherwise : (Call.wifi { Object.initial with wifi := 0 }
    .waitForConnectResult).method.otherwise = .zero := rfl
  rw [hotherwise, hdefault] at hreturns
  exact hvalue hreturns.symm

end Teensquitto
