import Teensquitto.Device.Library
import Teensquitto.Device.Passing
import Teensquitto.Method.Frames

/-!
# Relations along a whole run

What holds along the steps that are seen from outside, and along those that concern the times of the
probe, holds along every run of the library: all other steps change neither the clock nor what was
written nor these times.

## Main definitions

* `Internal`: a step of the other kind
* `BearsRequests`: the relation holds along the steps of a request
* `BearsRun`: it holds along the steps of a run

## Main results

* `BearsRequests.along_call`: it holds along a call
* `BearsRun.along_library`: it holds along a run
-/

namespace Teensquitto

open EStateM

/-- Neither the clock nor the blocks written nor the times and the log of the probe change. -/
structure Internal (w w' : World) : Prop where
  clock : w'.clock = w.clock
  sent : w'.sent = w.sent
  espCheckLatency : w'.espCheckLatency = w.espCheckLatency
  espLatency : w'.espLatency = w.espLatency
  syncs : w'.syncs = w.syncs

/-- The relation holds along the steps of a request, but for the blocks it writes. -/
structure BearsRequests (R : World → World → Prop) : Prop where
  internal : ∀ w w', Internal w w' → R w w'
  advance : ∀ w t ticks, R w (w.advance t ticks)

/-- The frames of a call. -/
def Call.Frame (c : Call) (block : List UInt8) : Prop :=
  ∃ h cmd garbage, c.method.Writes h cmd ∧ block = cmd.emit garbage

/-- The relation holds along the steps of `events()`, but for those of handlers. -/
structure BearsEvents (R : World → World → Prop) : Prop extends BearsRequests R where
  delay : ∀ (w : World) (ms : ℕ), R w { w with clock := w.clock + ms }
  sendNak : ∀ (w : World) (a b : UInt8), R w { w with sent := w.sent ++ [[0x21, 0x15, 0x00, a, b]] }
  probe : probe.Along R
  latencyFrame : (latencyFrame 0x7F7F).Along R

/-- The relation holds along the steps of a run. -/
structure BearsRun (R : World → World → Prop) : Prop extends BearsEvents R where
  sendFrame : ∀ (w : World) (c : Call) (block : List UInt8), c.Frame block →
    R w { w with sent := w.sent ++ [block] }

/-! ## Requests -/

namespace BearsRequests

variable {R : World → World → Prop} [IsPreorder World R] (h : BearsRequests R)

include h

omit [IsPreorder World R] in
theorem along_modify {f : World → World} (hf : ∀ w, Internal w (f w)) :
    (modify f : Prog PUnit).Along R :=
  Along.modify fun w => h.internal w (f w) (hf w)

omit [IsPreorder World R] in
theorem along_log (e : Event) : (log e).Along R := h.along_modify fun _ => ⟨rfl, rfl, rfl, rfl, rfl⟩

theorem along_millis : millis.Along R := Teensquitto.along_millis h.advance

variable {events : Prog Unit} (hevents : events.Along R)

include hevents

theorem along_waitRound (key : Key) : (waitRound events key).Along R := by
  refine Along.bind (h.along_modify fun _ => ⟨rfl, rfl, rfl, rfl, rfl⟩) fun _ => ?_
  refine hevents.bind fun _ => along_get_bind fun w => ?_
  refine Along.ite (Along.ite ?_ (Along.pure _)) (Along.pure _)
  exact Along.bind (h.along_modify fun _ => ⟨rfl, rfl, rfl, rfl, rfl⟩) fun _ => Along.pure _

theorem along_waitLoop (key : Key) (limit : ℕ) (timeout : UInt32) :
    (waitLoop events key limit timeout).Along R := by
  refine along_loop (fun _ => along_get_bind fun w => ?_) ()
  refine Along.ite (Along.pure _) (h.along_millis.bind fun now => ?_)
  exact along_get_bind fun w => Along.ite (h.along_waitRound hevents key) (Along.pure _)

omit hevents in
theorem along_conclude (key : Key) (checkLimit : ℕ) (timeout : UInt32) :
    (conclude key checkLimit timeout).Along R := by
  refine h.along_millis.bind fun now => along_get_bind fun w => ?_
  refine Along.ite (Along.pure _) (Along.ite ?_ (Along.pure _))
  exact (h.along_log _).bind fun _ => Along.pure _

theorem along_awaitReply (key : Key) (limit checkLimit : ℕ) :
    (awaitReply events key limit checkLimit).Along R := by
  refine (h.along_log _).bind fun _ => h.along_millis.bind fun timeout => ?_
  refine Along.bind (h.along_modify fun _ => ⟨rfl, rfl, rfl, rfl, rfl⟩) fun _ => ?_
  refine (h.along_waitLoop hevents key limit timeout).bind fun _ => (h.along_log _).bind fun _ => ?_
  exact Along.bind (h.along_modify fun _ => ⟨rfl, rfl, rfl, rfl, rfl⟩) fun _ =>
    h.along_conclude key checkLimit timeout

omit h hevents in
theorem along_writeCommand {c : Command}
    (hc : ∀ (w : World) garbage, R w { w with sent := w.sent ++ [c.emit garbage] }) :
    (writeCommand c).Along R :=
  along_get_bind fun _ => Along.bind (Along.modify fun w => hc w _) fun _ => Along.pure _

/-- A block: its command is written, and a request waits. -/
theorem along_stage {stage : Stage} (hstage : ∀ hs c garbage, stage.command? hs = some c →
      ∀ w : World, R w { w with sent := w.sent ++ [c.emit garbage] }) :
    (stage.run events).Along R := by
  cases stage with
  | request active e =>
    rw [Stage.run]
    split
    · next hactive =>
      refine Along.bind ?_ fun _ => Along.pure _
      refine (along_writeCommand fun w garbage => ?_).bind fun frame => ?_
      · exact hstage .initial _ garbage (by rw [Stage.command?, if_pos hactive]) w
      · exact h.along_awaitReply hevents _ _ _
    · exact Along.pure _
  | send active c result =>
    rw [Stage.run]
    split
    · next hactive =>
      refine (along_writeCommand fun w garbage => ?_).bind fun _ => Along.pure _
      exact hstage .initial _ garbage (by rw [Stage.command?, if_pos hactive]) w
    · exact Along.pure _
  | update active change command =>
    rw [Stage.run]
    split
    · next hactive =>
      -- the command depends on the handlers as the block has just changed them
      intro w
      rw [EStateM.ends_bind, EStateM.ends_modify, EStateM.ends_bind, EStateM.ends_get]
      have hupdate : R w { w with handlers := change w.handlers } :=
        h.internal _ _ ⟨rfl, rfl, rfl, rfl, rfl⟩
      have hwrite : (do
          let _ ← writeCommand (command (change w.handlers))
          return none : Prog (Option Value)).Along R :=
        (along_writeCommand fun w' garbage => hstage w.handlers _ garbage (by
          rw [Stage.command?, if_pos hactive]) w').bind fun _ => Along.pure _
      exact (hwrite { w with handlers := change w.handlers }).mono
        (fun _ _ hR => trans_of R hupdate hR) fun _ _ hR => trans_of R hupdate hR
    · exact Along.pure _
  | undefined active =>
    rw [Stage.run]
    exact Along.ite (Along.throw _) (Along.pure _)

theorem along_runStages (otherwise : Value) {stages : List Stage}
    (hstages : ∀ stage ∈ stages, ∀ hs c garbage, stage.command? hs = some c →
      ∀ w : World, R w { w with sent := w.sent ++ [c.emit garbage] }) :
    (runStages events otherwise stages).Along R := by
  induction stages with
  | nil => exact Along.pure _
  | cons stage stages ih =>
    refine (h.along_stage hevents (hstages stage List.mem_cons_self)).bind fun v => ?_
    cases v with
    | some v => exact Along.pure v
    | none => exact ih fun stage' hmem => hstages stage' (List.mem_cons_of_mem stage hmem)

/-- **The relation holds along a call** if it holds when a frame of the call is written. -/
theorem along_call (c : Call)
    (hc : ∀ (w : World) block, c.Frame block → R w { w with sent := w.sent ++ [block] }) :
    (c.run events).Along R := by
  have hstages : (runStages events c.method.otherwise c.method.stages).Along R :=
    h.along_runStages hevents c.method.otherwise fun stage hmem hs cmd garbage hcommand w =>
      hc w _ ⟨hs, cmd, garbage, ⟨stage, hmem, hcommand⟩, rfl⟩
  refine along_get_bind fun w => (h.along_log _).bind fun _ => along_get_bind fun w => ?_
  cases c.method.guard with
  | none => exact hstages
  | some v => exact Along.ite hstages (Along.pure v)

end BearsRequests

namespace BearsEvents

variable {R : World → World → Prop} [IsPreorder World R] (h : BearsEvents R)

include h

/-! ## The receiver -/

omit [IsPreorder World R] in
theorem bearsUart : BearsUart R where
  advance := h.advance
  take w := h.internal w _ ⟨rfl, rfl, rfl, rfl, rfl⟩
  ackNak w _ := h.internal w _ ⟨rfl, rfl, rfl, rfl, rfl⟩
  sendNak := h.sendNak

theorem along_delay (ms : ℕ) : (Teensquitto.delay ms).Along R :=
  (along_tick h.advance).bind fun _ => Along.modify fun w => h.delay w ms

theorem along_syncController : syncController.Along R := by
  refine along_get_bind fun w => Along.ite (Along.pure ()) (h.along_millis.bind fun now => ?_)
  exact Along.ite h.probe (Along.pure ())

theorem along_offlineCheck : offlineCheck.Along R := by
  refine Along.bind ?_ fun _ => along_get_bind fun w => h.along_log _
  refine along_get_bind fun w => Along.ite (h.along_millis.bind fun now => ?_) (Along.pure ())
  refine Along.ite (Along.bind ?_ fun _ => h.along_log _) (Along.pure ())
  exact h.along_modify fun _ => ⟨rfl, rfl, rfl, rfl, rfl⟩

/-! ## Processing a frame -/

omit h in
theorem along_readHeader (src : Source) : (readHeader src).Along R := by
  refine along_get_bind fun w => ?_
  split
  · exact Along.pure _
  · exact Along.throw _

theorem along_refresh (src : Source) (len : ℕ) : (refresh src len).Along R :=
  h.along_millis.bind fun _ => along_get_bind fun _ => (h.along_log _).bind fun _ =>
    h.along_modify fun _ => ⟨rfl, rfl, rfl, rfl, rfl⟩

theorem along_storeReply (src : Source) (len : ℕ) : (storeReply src len).Along R := by
  refine along_get_bind fun w => Along.ite (Along.throw _) ?_
  exact (h.along_log _).bind fun _ => h.along_modify fun _ => ⟨rfl, rfl, rfl, rfl, rfl⟩

theorem along_queueFrame (src : Source) (len : ℕ) : (queueFrame src len).Along R := by
  refine along_get_bind fun w => Along.ite (Along.throw _) ?_
  exact (h.along_log _).bind fun _ => h.along_modify fun _ => ⟨rfl, rfl, rfl, rfl, rfl⟩

omit h [IsPreorder World R] in
theorem internal_statusFrame (src : Source) (w : World) : Internal w (statusFrame src w) := by
  unfold statusFrame
  dsimp only
  split
  · split
    · exact ⟨rfl, rfl, rfl, rfl, rfl⟩
    · exact ⟨rfl, rfl, rfl, rfl, rfl⟩
  all_goals exact ⟨rfl, rfl, rfl, rfl, rfl⟩

variable {user : Prog Unit} (huser : user.Along R)

include huser

theorem along_invoke (slot : Slot) (args : List Datum) : (invoke user slot args).Along R := by
  refine along_get_bind fun _ => Along.ite ?_ (Along.pure ())
  exact Along.ite (Along.throw _) ((h.along_log _).bind fun _ => huser)

theorem along_bringOnline : (bringOnline user).Along R := by
  refine (h.along_log _).bind fun _ => ?_
  refine Along.bind (h.along_modify fun _ => ⟨rfl, rfl, rfl, rfl, rfl⟩) fun _ => ?_
  exact (h.along_delay 1000).bind fun _ => h.along_invoke huser _ _

theorem along_detection (src : Source) : (detection user src).Along R := by
  refine along_get_bind fun w => Along.ite ?_ (h.along_bringOnline huser)
  refine (along_readHeader src).bind fun _ => ?_
  exact Along.ite (h.along_bringOnline huser) (Along.pure ())

theorem along_dispatch (src : Source) (len : ℕ) : (dispatch user src len).Along R := by
  refine along_get_bind fun w => (h.along_log _).bind fun _ => Along.ite ?_ ?_
  · refine along_get_bind fun w => Along.ite (Along.ite (Along.throw _) ?_) (Along.pure ())
    refine Along.bind (h.along_modify fun _ => ⟨rfl, rfl, rfl, rfl, rfl⟩) fun _ => ?_
    exact h.along_invoke huser _ _
  · dsimp only
    split
    · exact h.along_invoke huser _ _
    · exact Along.pure ()

theorem along_switchHeader (src : Source) (len : ℕ) : (switchHeader user src len).Along R := by
  refine (along_readHeader src).bind fun header => Along.ite (h.along_storeReply src len) ?_
  split
  · next hlatency =>
    rw [hlatency]
    exact h.latencyFrame
  refine Along.ite ?_ (Along.ite (h.along_modify (internal_statusFrame src)) ?_)
  · refine along_get_bind fun w => Along.ite (h.along_queueFrame src len) ?_
    exact h.along_dispatch huser src len
  · exact Along.ite (Along.throw _) (Along.pure ())

theorem along_processingData (src : Source) (len : ℕ) : (processingData user src len).Along R :=
  (h.along_refresh src len).bind fun _ => (h.along_detection huser src).bind fun _ =>
    h.along_switchHeader huser src len

theorem along_drainQueue : (drainQueue (processingData user)).Along R := by
  refine along_get_bind fun w => Along.ite ?_ (Along.pure ())
  refine (h.along_processingData huser _ _).bind fun _ => (h.along_log _).bind fun _ => ?_
  exact h.along_modify fun _ => ⟨rfl, rfl, rfl, rfl, rfl⟩

theorem along_events : (events user).Along R := by
  refine h.along_syncController.bind fun _ => h.along_offlineCheck.bind fun _ => ?_
  refine h.bearsUart.along_uart.bind fun r => ?_
  cases r with
  | frame payload =>
    refine (h.along_log _).bind fun _ => ?_
    exact (h.along_processingData huser _ _).bind fun _ => Along.pure _
  | rejected | expired | ack b => exact Along.pure _
  | nothing | flushed => exact (h.along_drainQueue huser).bind fun _ => Along.pure _

end BearsEvents

/-! ## Runs -/

namespace BearsRun

variable {R : World → World → Prop} [IsPreorder World R] (h : BearsRun R) {user : Prog Unit}
  (huser : user.Along R)

include h huser

omit huser in
theorem along_call {events : Prog Unit} (hevents : events.Along R) (c : Call) :
    (c.run events).Along R :=
  h.toBearsRequests.along_call hevents c fun w block hblock => h.sendFrame w c block hblock

theorem along_onDetect (o : Object) (handler : Bool) : (runOnDetect user o handler).Along R := by
  refine Along.ite (along_get_bind fun w => (h.along_log _).bind fun _ => ?_) (Along.pure ())
  refine Along.bind (h.along_modify fun _ => ⟨rfl, rfl, rfl, rfl, rfl⟩) fun _ => ?_
  exact Along.ite huser (Along.pure ())

theorem along_userOp (op : UserOp) : (op.run user).Along R := by
  cases op with
  | call c =>
    refine (h.along_call ?_ c).bind fun _ => Along.pure ()
    exact (h.along_events huser).bind fun _ => Along.pure ()
  | onDetect o handler => exact h.along_onDetect huser o handler

omit huser in
/-- The code of a handler, however deep handlers nest. -/
theorem along_userCode (depth : ℕ) : (userCode depth).Along R := by
  induction depth with
  | zero => exact Along.throw _
  | succ depth ih =>
    have hscript : nextScript.Along R := fun w => h.internal w _ ⟨rfl, rfl, rfl, rfl, rfl⟩
    refine hscript.bind fun script => ?_
    induction script with
    | nil => exact Along.pure ()
    | cons op script ihs => exact (h.along_userOp ih op).bind fun _ => ihs

omit huser in
theorem along_wfan {events : Prog UInt8} (hevents : events.Along R) (remote : UInt8)
    (val timeoutMs : UInt16) : (wfan events remote val timeoutMs).Along R := by
  refine h.along_millis.bind fun timeout => along_loop (fun _ => ?_) ()
  refine h.along_millis.bind fun now => Along.ite (hevents.bind fun event => ?_) (Along.pure _)
  refine along_get_bind fun w => Along.ite (Along.pure _) ?_
  exact Along.ite (Along.pure _) (Along.pure _)

omit huser in
/-- **The relation holds along every run** of the library. -/
theorem along_library (depth : ℕ) (ops : List LibraryOp) : (library depth ops).Along R := by
  have hevents := h.along_events (h.along_userCode depth)
  have hop (op : LibraryOp) : (op.run depth).Along R := by
    cases op with
    | events => exact hevents.bind fun _ => Along.pure _
    | wfan remote val timeoutMs =>
      exact (h.along_wfan hevents remote val timeoutMs).bind fun _ => Along.pure _
    | call c =>
      refine (h.along_call ?_ c).bind fun _ => Along.pure _
      exact hevents.bind fun _ => Along.pure ()
    | onDetect o handler =>
      exact (h.along_onDetect (h.along_userCode depth) o handler).bind fun _ => Along.pure _
  induction ops with
  | nil => exact Along.pure _
  | cons op ops ih =>
    rw [library, List.mapM_cons]
    exact (hop op).bind fun _ => ih.bind fun _ => Along.pure _

end BearsRun

end Teensquitto
