import Teensquitto.Device.Library
import Teensquitto.Program.Mirroring

/-!
# Translation of the clock

Every comparison of times is a comparison of differences modulo 2^32.  A run with a clock that is
`c` milliseconds ahead, and with members that hold times ahead as well, is the same run.

## Main definitions

* `World.shift`: the state with its clock, and the times it holds, ahead
* `Later`: a reading of the shifted clock beside one of the clock
* `World.Alike`: the states show the same to the outside

## Main results

* `mirrors_millis`: the readings are ahead
* `shifts_events`, `shifts_call`, `shifts_wfan`: the operations do the same in the shifted state
* `clock_translation`: every sequence of operations returns the same and shows the same
-/

namespace Teensquitto

open EStateM

/-- The event at its time on the shifted clock. -/
def Event.shift (c : ℕ) : Event → Event
  | .poll pending online time => .poll pending online (time + c)
  | .processing fromQueue data pending online backlog time =>
    .processing fromQueue data pending online backlog (time + c)
  | e => e

/-- The frame at its time on the shifted clock. -/
def SyncEvent.shift (c : ℕ) : SyncEvent → SyncEvent
  | .probe time => .probe (time + c)
  | .answer header time => .answer header (time + c)

/-- The clock, and the members that hold times, are `c` milliseconds ahead.  What uninitialised
memory holds goes with the clock. -/
def World.shift (c : ℕ) (w : World) : World :=
  { w with
    clock := w.clock + c
    stray := fun t => w.stray (t - c)
    espSyncTimeout := w.espSyncTimeout + UInt32.ofNat c
    espSyncInterval := w.espSyncInterval + UInt32.ofNat c
    espCheckLatency := w.espCheckLatency + UInt32.ofNat c
    trace := w.trace.map (Event.shift c)
    syncs := w.syncs.map (SyncEvent.shift c) }

/-- The program does the same in the shifted state. -/
abbrev Shifts (c : ℕ) {α : Type} (p : Prog α) : Prop := Mirrors (World.shift c) Eq p p

/-- A reading of the shifted clock beside one of the clock. -/
def Later (c : ℕ) (t t' : UInt32) : Prop := t' = t + UInt32.ofNat c

variable {c : ℕ}

/-- Differences of times are the same. -/
theorem Later.sub {t t' u u' : UInt32} (h : Later c t t') (h' : Later c u u') :
    t' - u' = t - u := by
  rw [h, h']
  exact add_sub_add_right_eq_sub t u _

/-! ## Readings -/

section Readings

theorem shift_advance (w : World) (t : Tick) (ticks : List Tick) :
    (w.shift c).advance t ticks = (w.advance t ticks).shift c := by
  unfold World.shift World.advance
  congr 1
  exact Nat.add_right_comm _ _ _

theorem shifts_tick : Shifts c tick := by
  refine .get_bind fun w => ?_
  have hticks : (w.shift c).ticks = w.ticks := rfl
  rw [hticks]
  cases w.ticks with
  | nil => exact .throw _
  | cons t ticks => exact .set (shift_advance w t ticks)

/-- The shifted clock is ahead. -/
theorem mirrors_millis : Mirrors (World.shift c) (Later c) millis millis := by
  refine shifts_tick.bind_eq fun _ => .get_bind fun w => .pure ?_
  exact UInt32.ofNat_add w.clock c

theorem shifts_available : Shifts c available :=
  shifts_tick.bind_eq fun _ => .get_bind fun _ => .pure rfl

theorem shifts_peek : Shifts c peek :=
  shifts_tick.bind_eq fun _ => .get_bind fun _ => .pure rfl

theorem shifts_read : Shifts c read := by
  refine shifts_tick.bind_eq fun _ => .get_bind fun w => ?_
  exact Mirrors.bind_eq (.set rfl) fun _ => .pure rfl

theorem mirrors_log (e : Event) : Mirrors (World.shift c) Eq (log e) (log (e.shift c)) := by
  refine .modify fun w => ?_
  unfold World.shift
  rw [List.map_append]
  rfl

theorem shifts_send (bytes : List UInt8) : Shifts c (send bytes) := .modify fun _ => rfl

end Readings

/-! ## The receiver -/

section Receiver

variable {β γ : Type}

theorem mirrors_loop {S : β → β → Prop} {T : γ → γ → Prop} {body body' : β → Prog (β ⊕ γ)}
    (hbody : ∀ b b', S b b' → Mirrors (World.shift c) (Sum.LiftRel S T) (body b) (body' b'))
    {b b' : β} (h : S b b') : Mirrors (World.shift c) T (loop body b) (loop body' b') :=
  .get_bind fun _ => .iterate (.throw _) hbody _ h

theorem shifts_probe : Shifts c probe := by
  refine mirrors_millis.bind fun interval interval' hinterval => ?_
  rw [hinterval]
  refine Mirrors.bind_eq (.modify fun _ => rfl) fun _ => (shifts_send _).bind_eq fun _ => ?_
  refine .get_bind fun w => mirrors_millis.bind fun check check' hcheck => ?_
  rw [hcheck]
  exact Mirrors.bind_eq (.modify fun _ => rfl) fun _ => .modify fun _ => rfl

theorem shifts_syncController : Shifts c syncController := by
  refine .get_bind fun w => .ite Iff.rfl (.pure rfl) ?_
  refine mirrors_millis.bind fun now now' hnow => .ite ?_ shifts_probe (.pure rfl)
  rw [hnow.sub (rfl : Later c w.espSyncInterval (w.shift c).espSyncInterval)]

theorem shifts_offlineCheck : Shifts c offlineCheck := by
  refine Mirrors.bind_eq ?_ fun _ => .get_bind fun w => mirrors_log _
  refine .get_bind fun w => .ite Iff.rfl ?_ (.pure rfl)
  refine mirrors_millis.bind fun now now' hnow => .ite ?_ ?_ (.pure rfl)
  · rw [hnow.sub (rfl : Later c w.espSyncTimeout (w.shift c).espSyncTimeout)]
  · exact Mirrors.bind_eq (.modify fun _ => rfl) fun _ => mirrors_log _

theorem mirrors_headerWait {timeout timeout' : UInt32} (h : Later c timeout timeout') :
    Mirrors (World.shift c) Eq (headerWait timeout) (headerWait timeout') := by
  refine mirrors_loop (S := Eq) (fun _ _ _ => ?_) rfl
  refine mirrors_millis.bind fun now now' hnow => .ite ?_ ?_ (.pure (.inr rfl))
  · rw [hnow.sub h]
  · refine shifts_available.bind_eq fun n => ?_
    exact .ite Iff.rfl (.pure (.inl rfl)) (.pure (.inr rfl))

/-- The local variables of a receive loop: the time stamp is ahead. -/
def LaterStamp (c : ℕ) (p p' : β × UInt32) : Prop := p'.1 = p.1 ∧ Later c p.2 p'.2

variable {take : β → UInt8 → Prog β} {full : β → Bool} {finish : β → Prog Reception}

theorem mirrors_nextByte (htake : ∀ b byte, Shifts c (take b byte)) (b : β)
    {timeout timeout' : UInt32} (h : Later c timeout timeout') :
    Mirrors (World.shift c) (LaterStamp c) (nextByte take b timeout)
      (nextByte take b timeout') := by
  refine shifts_available.bind_eq fun n => .ite Iff.rfl ?_ (.pure ⟨rfl, h⟩)
  refine mirrors_millis.bind fun stamp stamp' hstamp => shifts_read.bind_eq fun byte => ?_
  exact (htake b _).bind_eq fun b => .pure ⟨rfl, hstamp⟩

/-- Both kinds of packets are received alike. -/
theorem mirrors_byteLoop (htake : ∀ b byte, Shifts c (take b byte))
    (hfinish : ∀ b, Shifts c (finish b)) (b : β) {timeout timeout' : UInt32}
    (h : Later c timeout timeout') : Mirrors (World.shift c) Eq
      (byteLoop take full finish b timeout) (byteLoop take full finish b timeout') := by
  refine mirrors_loop (S := LaterStamp c) ?_ ⟨rfl, h⟩
  rintro ⟨b, timeout⟩ ⟨_, timeout'⟩ ⟨rfl, h⟩
  refine mirrors_millis.bind fun now now' hnow => .ite ?_ ?_ ?_
  · rw [hnow.sub h]
  · refine (mirrors_nextByte htake _ h).bind ?_
    rintro ⟨b, timeout⟩ ⟨_, timeout'⟩ ⟨rfl, h⟩
    refine .ite Iff.rfl ?_ (.pure (.inl ⟨rfl, h⟩))
    exact (hfinish _).bind_eq fun r => .pure (.inr rfl)
  · exact (shifts_send _).bind_eq fun _ => .pure (.inr rfl)

theorem shift_stray (w : World) (i : ℕ) :
    (w.shift c).stray (w.shift c).clock i = w.stray w.clock i := by
  change w.stray (w.clock + c - c) i = _
  rw [Nat.add_sub_cancel]

theorem shifts_verdict (size : ℕ) (b : Buffer) : Shifts c (verdict size b) := by
  refine .ite Iff.rfl (.throw _) (.ite Iff.rfl (.get_bind fun w => ?_) (.pure rfl))
  rw [shift_stray]
  exact (shifts_send _).bind_eq fun _ => .pure rfl

theorem shifts_commandPacket : Shifts c commandPacket := by
  refine mirrors_millis.bind fun timeout timeout' h => (mirrors_headerWait h).bind_eq fun _ => ?_
  refine shifts_read.bind_eq fun _ => shifts_read.bind_eq fun high =>
    shifts_read.bind_eq fun low => ?_
  refine mirrors_millis.bind fun stamp stamp' hstamp => ?_
  exact mirrors_byteLoop (fun b byte => .pure rfl) (shifts_verdict _) _ hstamp

theorem shifts_acknowledgement : Shifts c acknowledgement := by
  refine shifts_read.bind_eq fun _ => mirrors_millis.bind fun timeout timeout' h => ?_
  refine mirrors_byteLoop (fun pointer byte => ?_) (fun _ => ?_) 0 h
  · exact Mirrors.bind_eq (.modify fun _ => rfl) fun _ => .pure rfl
  · exact .get_bind fun w => .pure rfl

theorem shifts_uart : Shifts c uart := by
  refine shifts_available.bind_eq fun n => .ite Iff.rfl ?_ (.pure rfl)
  refine shifts_peek.bind_eq fun byte => ?_
  split
  · exact shifts_commandPacket
  · exact shifts_acknowledgement
  · exact shifts_read.bind_eq fun _ => .pure rfl

end Receiver

/-! ## `processing_data` -/

section Processing

variable {user : Prog Unit}

theorem shift_dataAt (w : World) (src : Source) : (w.shift c).dataAt src = w.dataAt src := by
  cases src with
  | uart payload =>
    funext i
    exact congrArg (payload[i]?).getD (shift_stray w i)
  | row address => rfl

theorem shifts_readHeader (src : Source) : Shifts c (readHeader src) := by
  refine .get_bind fun w => ?_
  have hheader : (w.shift c).header? src = w.header? src := by cases src <;> rfl
  rw [hheader]
  cases w.header? src with
  | some header => exact .pure rfl
  | none => exact .throw _

theorem shifts_invoke (huser : Shifts c user) (slot : Slot) (args : List Datum) :
    Shifts c (invoke user slot args) := by
  refine .get_bind fun _ => .ite Iff.rfl ?_ (.pure rfl)
  exact .ite Iff.rfl (.throw _) ((mirrors_log _).bind_eq fun _ => huser)

theorem shifts_refresh (src : Source) (len : ℕ) : Shifts c (refresh src len) := by
  refine mirrors_millis.bind fun now now' hnow => .get_bind fun w => ?_
  rw [shift_dataAt, hnow]
  exact (mirrors_log _).bind_eq fun _ => .modify fun _ => rfl

theorem shifts_delay (ms : ℕ) : Shifts c (delay ms) := by
  refine shifts_tick.bind_eq fun _ => .modify fun w => ?_
  unfold World.shift
  congr 1
  exact Nat.add_right_comm _ _ _

theorem shifts_bringOnline (huser : Shifts c user) : Shifts c (bringOnline user) := by
  refine (mirrors_log _).bind_eq fun _ => Mirrors.bind_eq (.modify fun _ => rfl) fun _ => ?_
  exact (shifts_delay 1000).bind_eq fun _ => shifts_invoke huser _ _

theorem shifts_detection (huser : Shifts c user) (src : Source) :
    Shifts c (detection user src) := by
  refine .get_bind fun w => .ite Iff.rfl ?_ (shifts_bringOnline huser)
  refine (shifts_readHeader src).bind_eq fun header => ?_
  exact .ite Iff.rfl (shifts_bringOnline huser) (.pure rfl)

theorem shifts_storeReply (src : Source) (len : ℕ) : Shifts c (storeReply src len) := by
  refine .get_bind fun w => .ite Iff.rfl (.throw _) ?_
  rw [shift_dataAt]
  exact (mirrors_log _).bind_eq fun _ => .modify fun _ => rfl

/-- The latency is the mean of a difference and of the estimate before. -/
theorem shifts_latencyFrame (header : UInt16) : Shifts c (latencyFrame header) := by
  refine mirrors_millis.bind fun now now' hnow => .get_bind fun w => ?_
  refine Mirrors.bind_eq (.modify fun _ => rfl) fun _ => .modify fun w => ?_
  have hsub := hnow.sub (rfl : Later c w.espCheckLatency (w.shift c).espCheckLatency)
  rw [hsub]
  rfl

theorem shifts_queueFrame (src : Source) (len : ℕ) : Shifts c (queueFrame src len) := by
  refine .get_bind fun w => .ite Iff.rfl (.throw _) ?_
  rw [shift_dataAt]
  exact (mirrors_log _).bind_eq fun _ => .modify fun _ => rfl

theorem shifts_dispatchUdp (huser : Shifts c user) (src : Source) :
    Shifts c (dispatchUdp user src) := by
  refine .get_bind fun w => ?_
  rw [shift_dataAt]
  refine .ite Iff.rfl (.ite Iff.rfl (.throw _) ?_) (.pure rfl)
  refine Mirrors.bind_eq (.modify fun w => ?_) fun _ => shifts_invoke huser _ _
  rw [shift_dataAt]
  rfl

theorem shifts_dispatch (huser : Shifts c user) (src : Source) (len : ℕ) :
    Shifts c (dispatch user src len) := by
  refine .get_bind fun w => ?_
  rw [shift_dataAt]
  refine (mirrors_log _).bind_eq fun _ => .ite Iff.rfl (shifts_dispatchUdp huser src) ?_
  dsimp only
  split
  · exact shifts_invoke huser _ _
  · exact .pure rfl

theorem shifts_switchHeader (huser : Shifts c user) (src : Source) (len : ℕ) :
    Shifts c (switchHeader user src len) := by
  refine (shifts_readHeader src).bind_eq fun header => ?_
  refine .ite Iff.rfl (shifts_storeReply src len) (.ite Iff.rfl (shifts_latencyFrame header) ?_)
  refine .ite Iff.rfl ?_ (.ite Iff.rfl ?_ (.ite Iff.rfl (.throw _) (.pure rfl)))
  · refine .get_bind fun w => .ite Iff.rfl (shifts_queueFrame src len) ?_
    exact shifts_dispatch huser src len
  · refine .modify fun w => ?_
    rw [statusFrame, statusFrame, shift_dataAt]
    split
    · by_cases hdown : w.dataAt src 2 = 6
      · rw [if_pos hdown, if_pos hdown]
        rfl
      · rw [if_neg hdown, if_neg hdown]
        rfl
    all_goals rfl

theorem shifts_processingData (huser : Shifts c user) (src : Source) (len : ℕ) :
    Shifts c (processingData user src len) :=
  (shifts_refresh src len).bind_eq fun _ => (shifts_detection huser src).bind_eq fun _ =>
    shifts_switchHeader huser src len

/-- A call of `events()`. -/
theorem shifts_events (huser : Shifts c user) : Shifts c (events user) := by
  refine shifts_syncController.bind_eq fun _ => shifts_offlineCheck.bind_eq fun _ => ?_
  refine shifts_uart.bind_eq fun r => ?_
  have hdrain : Shifts c (drainQueue (processingData user)) := by
    refine .get_bind fun w => .ite Iff.rfl ?_ (.pure rfl)
    refine (shifts_processingData huser _ _).bind_eq fun _ => (mirrors_log _).bind_eq fun _ => ?_
    exact .modify fun _ => rfl
  cases r with
  | frame payload =>
    refine (mirrors_log _).bind_eq fun _ => ?_
    exact (shifts_processingData huser _ _).bind_eq fun _ => .pure rfl
  | nothing => exact hdrain.bind_eq fun _ => .pure rfl
  | flushed => exact hdrain.bind_eq fun _ => .pure rfl
  | rejected => exact .pure rfl
  | expired => exact .pure rfl
  | ack b => exact .pure rfl

end Processing

/-! ## Requests -/

section Requests

variable {events : Prog Unit}

theorem mirrors_waitRound (hevents : Shifts c events) (key : Key) :
    Mirrors (World.shift c) (Sum.LiftRel Eq Eq) (waitRound events key) (waitRound events key) := by
  refine Mirrors.bind_eq (.modify fun _ => rfl) fun _ => hevents.bind_eq fun _ => ?_
  refine .get_bind fun w => .ite Iff.rfl (.ite Iff.rfl ?_ (.pure (.inr rfl))) (.pure (.inl rfl))
  exact Mirrors.bind_eq (.modify fun _ => rfl) fun _ => .pure (.inl rfl)

theorem mirrors_waitLoop (hevents : Shifts c events) (key : Key) (limit : ℕ)
    {timeout timeout' : UInt32} (h : Later c timeout timeout') : Mirrors (World.shift c) Eq
      (waitLoop events key limit timeout) (waitLoop events key limit timeout') := by
  refine mirrors_loop (S := Eq) (fun _ _ _ => .get_bind fun w => ?_) rfl
  refine .ite Iff.rfl (.pure (.inr rfl)) (mirrors_millis.bind fun now now' hnow => ?_)
  refine .get_bind fun w => .ite ?_ (mirrors_waitRound hevents key) (.pure (.inr rfl))
  rw [hnow.sub h]
  exact Iff.rfl

theorem mirrors_conclude (key : Key) (checkLimit : ℕ) {timeout timeout' : UInt32}
    (h : Later c timeout timeout') : Mirrors (World.shift c) Eq
      (conclude key checkLimit timeout) (conclude key checkLimit timeout') := by
  refine mirrors_millis.bind fun now now' hnow => .get_bind fun w => .ite ?_ (.pure rfl) ?_
  · rw [hnow.sub h]
    exact Iff.rfl
  · exact .ite Iff.rfl ((mirrors_log _).bind_eq fun _ => .pure rfl) (.pure rfl)

theorem shifts_awaitReply (hevents : Shifts c events) (key : Key) (limit checkLimit : ℕ) :
    Shifts c (awaitReply events key limit checkLimit) := by
  refine (mirrors_log _).bind_eq fun _ => mirrors_millis.bind fun timeout timeout' h => ?_
  refine Mirrors.bind_eq (.modify fun _ => rfl) fun _ => ?_
  refine (mirrors_waitLoop hevents key limit h).bind_eq fun _ => (mirrors_log _).bind_eq fun _ => ?_
  exact Mirrors.bind_eq (.modify fun _ => rfl) fun _ => mirrors_conclude key checkLimit h

theorem shifts_writeCommand (cmd : Command) : Shifts c (writeCommand cmd) := by
  refine .get_bind fun w => ?_
  have hstray : (w.shift c).stray (w.shift c).clock = w.stray w.clock := funext (shift_stray w)
  rw [hstray]
  exact (shifts_send _).bind_eq fun _ => .pure rfl

theorem shifts_stage (hevents : Shifts c events) (stage : Stage) :
    Shifts c (stage.run events) := by
  cases stage with
  | request active e =>
    refine .ite Iff.rfl ?_ (.pure rfl)
    refine Mirrors.bind_eq ?_ fun result => .pure rfl
    exact (shifts_writeCommand _).bind_eq fun frame => shifts_awaitReply hevents _ _ _
  | send active cmd result =>
    exact .ite Iff.rfl ((shifts_writeCommand cmd).bind_eq fun _ => .pure rfl) (.pure rfl)
  | update active change command =>
    refine .ite Iff.rfl (Mirrors.bind_eq (.modify fun _ => rfl) fun _ => ?_) (.pure rfl)
    exact .get_bind fun w => (shifts_writeCommand _).bind_eq fun _ => .pure rfl
  | undefined active => exact .ite Iff.rfl (.throw _) (.pure rfl)

theorem shifts_runStages (hevents : Shifts c events) (otherwise : Value) (stages : List Stage) :
    Shifts c (runStages events otherwise stages) := by
  induction stages with
  | nil => exact .pure rfl
  | cons stage stages ih =>
    refine (shifts_stage hevents stage).bind_eq fun v => ?_
    cases v with
    | some v => exact .pure rfl
    | none => exact ih

theorem shifts_call (hevents : Shifts c events) (call : Call) : Shifts c (call.run events) := by
  refine .get_bind fun w => (mirrors_log _).bind_eq fun _ => .get_bind fun w => ?_
  cases call.method.guard with
  | some v => exact .ite Iff.rfl (shifts_runStages hevents _ _) (.pure rfl)
  | none => exact shifts_runStages hevents _ _

/-- `WFAN` waits as long. -/
theorem shifts_wfan {events : Prog UInt8} (hevents : Shifts c events) (remote : UInt8)
    (val timeoutMs : UInt16) : Shifts c (wfan events remote val timeoutMs) := by
  refine mirrors_millis.bind fun timeout timeout' h => ?_
  refine mirrors_loop (S := Eq) (fun _ _ _ => ?_) rfl
  refine mirrors_millis.bind fun now now' hnow => .ite ?_ ?_ (.pure (.inr rfl))
  · rw [hnow.sub h]
  · refine hevents.bind_eq fun event => .get_bind fun w => .ite Iff.rfl (.pure (.inr rfl)) ?_
    exact .ite Iff.rfl (.pure (.inr rfl)) (.pure (.inl rfl))

end Requests

/-! ## User code -/

section User

variable {user : Prog Unit}

theorem shifts_onDetect (huser : Shifts c user) (o : Object) (handler : Bool) :
    Shifts c (runOnDetect user o handler) := by
  refine .ite Iff.rfl (.get_bind fun w => (mirrors_log _).bind_eq fun _ => ?_) (.pure rfl)
  refine Mirrors.bind_eq (.modify fun _ => rfl) fun _ => .ite Iff.rfl huser (.pure rfl)

theorem shifts_silentEvents (huser : Shifts c user) :
    Shifts c (do let _ ← events user : Prog Unit) :=
  (shifts_events huser).bind_eq fun _ => .pure rfl

theorem shifts_userOp (huser : Shifts c user) (op : UserOp) : Shifts c (op.run user) := by
  cases op with
  | call call => exact (shifts_call (shifts_silentEvents huser) call).bind_eq fun _ => .pure rfl
  | onDetect o handler => exact shifts_onDetect huser o handler

theorem shifts_userCode (depth : ℕ) : Shifts c (userCode depth) := by
  induction depth with
  | zero => exact .throw _
  | succ depth ih =>
    refine Mirrors.bind_eq ?_ fun script => .forM (shifts_userOp ih) script
    exact .get_bind fun w => Mirrors.bind_eq (.set rfl) fun _ => .pure rfl

theorem shifts_libraryOp (depth : ℕ) (op : LibraryOp) : Shifts c (op.run depth) := by
  have huser := @shifts_userCode c depth
  cases op with
  | events => exact (shifts_events huser).bind_eq fun _ => .pure rfl
  | wfan remote val timeoutMs =>
    exact (shifts_wfan (shifts_events huser) remote val timeoutMs).bind_eq fun _ => .pure rfl
  | call call => exact (shifts_call (shifts_silentEvents huser) call).bind_eq fun _ => .pure rfl
  | onDetect o handler => exact (shifts_onDetect huser o handler).bind_eq fun _ => .pure rfl

theorem shifts_library (depth : ℕ) (ops : List LibraryOp) : Shifts c (library depth ops) :=
  .mapM (shifts_libraryOp depth) ops

end User

/-! ## What a run shows -/

/-- An event without its time. -/
def Event.untimed : Event → Event
  | .poll pending online _ => .poll pending online 0
  | .processing fromQueue data pending online backlog _ =>
    .processing fromQueue data pending online backlog 0
  | e => e

/-- The states differ in their times at most: the bytes written and the flags are the same, and
up to their times so are the events, which include the handler calls. -/
structure World.Alike (w w' : World) : Prop where
  own : w' = { w with
    clock := w'.clock, stray := w'.stray, espSyncTimeout := w'.espSyncTimeout
    espSyncInterval := w'.espSyncInterval, espCheckLatency := w'.espCheckLatency
    trace := w'.trace, syncs := w'.syncs }
  events : w'.trace.map Event.untimed = w.trace.map Event.untimed

theorem alike_shift (c : ℕ) (w : World) : w.Alike (w.shift c) where
  own := rfl
  events := by
    change (w.trace.map (Event.shift c)).map Event.untimed = _
    rw [List.map_map]
    refine List.map_congr_left fun e _ => ?_
    cases e <;> rfl

/-- **Clock translation invariance.**  On a clock that is ahead, with the times held by the members
ahead as well, every sequence of operations returns the same and leaves a state that is alike. -/
theorem clock_translation (c depth : ℕ) (ops : List LibraryOp) (w : World) :
    (library depth ops).Ends w
      (fun outcomes w' => ∃ w'', (library depth ops).run (w.shift c) = .ok outcomes w'' ∧
        w'.Alike w'')
      fun e w' => ∃ w'', (library depth ops).run (w.shift c) = .error e w'' ∧ w'.Alike w'' := by
  refine (@shifts_library c depth ops w).mono ?_ ?_
  · rintro outcomes w' ⟨_, hrun, rfl⟩
    exact ⟨_, hrun, alike_shift c w'⟩
  · intro e w' hrun
    exact ⟨_, hrun, alike_shift c w'⟩

end Teensquitto
