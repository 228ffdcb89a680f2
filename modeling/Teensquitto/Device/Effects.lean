import Teensquitto.Device.Running
import Teensquitto.Program.Evolving
import Teensquitto.Receiver.Readings

/-!
# The single changes of the state

Whatever the main program and the handlers do, the state changes in a few ways only, and each of
them is bound to a condition: the library goes offline only when the time is up, a probe is written
only while it is offline, a frame only by the method that was called.  Every run is a sequence of
such changes, so that what each of them keeps holds at every moment of every run.

## Main definitions

* `Effect`: the single changes
* `World.Called`: a method was called
* `Always`: a property of all states that runs come to

## Main results

* `along_processingData`, `along_events`, `effects_call`: the functions of the library
* `effects_library`: every run is a sequence of single changes
* `always_of_preserves`: what each change keeps holds at every moment of every run
-/

namespace Teensquitto

open EStateM Relation

/-- The block of a probe. -/
def probeBlock : List UInt8 := [0x24, 0x00, 0x03, 0x7E, 0x7E, 0x00]

/-- The event is neither a dispatch nor the call of a handler. -/
def Event.isPlain : Event → Bool
  | .dispatched .. => false
  | .handler .. => false
  | _ => true

/-- The handler that a frame calls when it is set, with the arguments, where the code may call
it. -/
def World.invocation? (w : World) (src : Source) (len : ℕ) : Option (Slot × List Datum) :=
  let data := w.dataAt src
  if headerOf data = 0xCFCF then
    if data 2 = 0 ∧ (Decode.half data 17).toNat ≤ 256 then some (.udpHandler, []) else none
  else
    let invocation :=
      if headerOf data = 0xAFAF then mqttInvocation data len
      else if headerOf data = 0xABAB then wifiInvocation data
      else webSocketInvocation data
    invocation.filter fun i => i.1 ≠ .wifiOnSTAConnected

/-- The method was called. -/
def World.Called (w : World) (c : Call) : Prop := ∃ online, Event.call c online ∈ w.trace

/-- The frame was received, if it does not come from the queue. -/
def World.Received (w : World) : Source → Prop
  | .uart payload => Event.received payload ∈ w.trace
  | .row _ => True

/-- The block writes this command, whatever handlers are set. -/
inductive Stage.Tells : Stage → Command → Prop
  | request (e : Exchange) : Tells (.request true e) e.command
  | send (c : Command) (result : Option Value) : Tells (.send true c result) c

/-- A probe is written at the second of two readings of the clock. -/
def World.probed (w : World) (t t' : Tick) (ticks ticks' : List Tick) : World :=
  let w := (w.advance t ticks).advance t' ticks'
  { w with espSyncInterval := UInt32.ofNat w.clock, sent := w.sent ++ [probeBlock] }

/-- The dispatch of a frame is logged. -/
def World.dispatched (w : World) (src : Source) (len : ℕ) : World :=
  { w with trace := w.trace ++ [.dispatched src.queued ((w.dataAt src).load 0 len)] }

/-- The single changes of the state. -/
inductive Effect : World → World → Prop
  /-- Time passes and bytes arrive. -/
  | advance (w : World) (t : Tick) (ticks : List Tick) : Effect w (w.advance t ticks)
  /-- The library waits. -/
  | delay (w : World) (ms : ℕ) : Effect w { w with clock := w.clock + ms }
  /-- A byte is read. -/
  | take (w : World) : Effect w { w with rx := w.rx.tail }
  /-- A byte of an acknowledgement is stored. -/
  | ackNak (w : World) (x : Memory UInt8) : Effect w { w with ackNakBuf := x }
  /-- A NAK is written. -/
  | nak (w : World) (a b : UInt8) :
    Effect w { w with sent := w.sent ++ [[0x21, 0x15, 0x00, a, b]] }
  /-- A probe is written, more than 250 ms after the one before. -/
  | probe (w : World) (t t' : Tick) (ticks ticks' : List Tick) (hoffline : w.espDetected = false)
    (hlate : UInt32.ofNat (w.clock + t.elapsed) - w.espSyncInterval > 250) :
    Effect w (w.probed t t' ticks ticks')
  /-- The time of a probe is taken. -/
  | check (w : World) : Effect w { w with espCheckLatency := UInt32.ofNat w.clock }
  /-- A frame that concerns the latency is logged. -/
  | sync (w : World) (e : SyncEvent) : Effect w { w with syncs := e :: w.syncs }
  /-- The library goes offline. -/
  | expire (w : World) (hpending : w.pendingData = false) (honline : w.espDetected = true)
    (hlate : UInt32.ofNat w.clock - w.espSyncTimeout > 5000) :
    Effect w { w with espDetected := false }
  /-- An event is logged that is neither a dispatch nor the call of a handler. -/
  | log (w : World) (e : Event) (h : e.isPlain = true) :
    Effect w { w with trace := w.trace ++ [e] }
  /-- An asynchronous frame is dispatched to its handler, which is set and called at once. -/
  | dispatch (w : World) (src : Source) (len : ℕ) (slot : Slot) (args : List Datum) (p : Packet)
    (hinvocation : w.invocation? src len = some (slot, args))
    (hset : w.handlers.present slot = true) :
    Effect w { w.dispatched src len with
      packet := p
      trace := (w.dispatched src len).trace ++ [.handler slot args] }
  /-- An asynchronous frame is dispatched that has no handler, or none that is set. -/
  | pass (w : World) (src : Source) (len : ℕ)
    (hunset : ∀ slot args, w.invocation? src len = some (slot, args) →
      w.handlers.present slot = false) :
    Effect w (w.dispatched src len)
  /-- A handler that is set is called. -/
  | handler (w : World) (slot : Slot) (args : List Datum) (h : w.handlers.present slot = true) :
    Effect w { w with trace := w.trace ++ [.handler slot args] }
  /-- The timer is refreshed. -/
  | refresh (w : World) : Effect w { w with espSyncTimeout := UInt32.ofNat w.clock }
  /-- The library comes online. -/
  | detect (w : World) : Effect w { w with espDetected := true }
  /-- A reply is stored. -/
  | reply (w : World) (src : Source) (len : ℕ) (hlen : 0 < len ∧ len ≤ 512) :
    Effect w { w with
      storageBuffer :=
        if len = 1 then w.storageBuffer
        else w.storageBuffer.store 0 ((w.dataAt src).load 0 (len - 1) ++ [0])
      dataReadyFlag := true }
  /-- The answer to a probe is processed. -/
  | latency (w : World) : Effect w { w with
      espLatency :=
        (((UInt32.ofNat w.clock - w.espCheckLatency) + w.espLatency.toUInt32) / 2).toUInt16 }
  /-- An asynchronous frame is queued while a request is pending. -/
  | queue (w : World) (src : Source) (len : ℕ) {header : UInt16} (hsrc : w.Received src)
    (hheader : w.header? src = some header) (hasync : header ∈ asyncHeaders)
    (hpending : w.pendingData = true)
    (hroom : w.queue.row w.queue.tail + 2 + len ≤ 16 * 302) :
    Effect w { w with queue := w.queue.pushBack ((w.dataAt src).load 0 len) }
  /-- The packet of a UDP frame is stored. -/
  | packet (w : World) (src : Source)
    (hlen : (Decode.half (w.dataAt src) 17).toNat ≤ 256) :
    Effect w { w with packet := packetOf (w.dataAt src) w.packet }
  /-- A status frame sets a member. -/
  | status (w : World) (src : Source) {header : UInt16} (hsrc : w.Received src)
    (hheader : w.header? src = some header) (hstatus : header ∈ statusHeaders) :
    Effect w (statusFrame src w)
  /-- The frame that was processed is popped. -/
  | pop (w : World) : Effect w { w with queue := w.queue.popFront }
  /-- A wait loop claims the frames that come, and gives up the claim. -/
  | pending (w : World) (b : Bool) : Effect w { w with pendingData := b }
  /-- `data_ready_flag` is cleared. -/
  | disarm (w : World) : Effect w { w with dataReadyFlag := false }
  /-- The code of a handler begins. -/
  | script (w : World) : Effect w { w with scripts := w.scripts.tail }
  /-- The method that was called writes a command. -/
  | command (w : World) (c : Call) (cmd : Command) (garbage : Memory UInt8) (hcall : w.Called c)
    (hstage : ∃ stage ∈ c.method.stages, stage.Tells cmd) :
    Effect w { w with sent := w.sent ++ [cmd.emit garbage] }
  /-- The method that was called changes the handlers and writes a command about them. -/
  | update (w : World) (c : Call) (change : Handlers → Handlers) (command : Handlers → Command)
    (garbage : Memory UInt8) (hcall : w.Called c)
    (hstage : .update true change command ∈ c.method.stages) :
    Effect w { w with
      handlers := change w.handlers
      sent := w.sent ++ [(command (change w.handlers)).emit garbage] }
  /-- `onDetect` sets or clears its handler. -/
  | onDetect (w : World) (handler : Bool) (hcall : ∃ online, Event.onDetect online ∈ w.trace) :
    Effect w { w with handlers := w.handlers.set .espDetectHandler handler }

/-- Sequences of single changes. -/
abbrev Effects : World → World → Prop := ReflTransGen Effect

/-! ## What is never taken back -/

/-- A status frame sets none but its own members. -/
theorem exists_statusFrame_eq (src : Source) (w : World) : ∃ wifi mqtt client server sync,
    statusFrame src w = { w with
      wifiStatus := wifi, mqttOnlineFlag := mqtt, clientOnlineFlag := client
      mqttServerSync := server, mqttClientSync := sync } := by
  unfold statusFrame
  dsimp only
  split
  · split
    · exact ⟨_, _, _, _, _, rfl⟩
    · exact ⟨_, _, _, _, _, rfl⟩
  all_goals exact ⟨_, _, _, _, _, rfl⟩

theorem Effect.trace {w w' : World} (h : Effect w w') : ∃ l, w'.trace = w.trace ++ l := by
  cases h with
  | log e h => exact ⟨[e], rfl⟩
  | handler slot args h => exact ⟨[_], rfl⟩
  | dispatch src len slot args => exact ⟨[_, _], List.append_assoc _ _ _⟩
  | pass src len => exact ⟨[_], rfl⟩
  | status src hsrc hheader hstatus =>
    obtain ⟨_, _, _, _, _, heq⟩ := exists_statusFrame_eq src w
    exact ⟨[], by rw [heq, List.append_nil]⟩
  | _ => exact ⟨[], (List.append_nil _).symm⟩

/-- What was logged stays logged. -/
theorem preserves_mem_trace (e : Event) : Preserves Effect fun w => e ∈ w.trace := by
  intro w w' h hmem
  obtain ⟨l, htrace⟩ := h.trace
  rw [htrace]
  exact List.mem_append_left l hmem

/-- What was written stays written. -/
theorem Effect.sent_prefix {w w' : World} (h : Effect w w') : w.sent <+: w'.sent := by
  cases h with
  | status src hsrc hheader hstatus =>
    obtain ⟨_, _, _, _, _, heq⟩ := exists_statusFrame_eq src w
    rw [heq]
  | nak a b => exact List.prefix_append _ _
  | probe t t' ticks ticks' => exact List.prefix_append _ _
  | command c cmd garbage hcall hstage => exact List.prefix_append _ _
  | update c change command garbage hcall hstage => exact List.prefix_append _ _
  | _ => exact List.prefix_rfl

theorem preserves_called (c : Call) : Preserves Effect fun w => w.Called c := by
  rintro w w' h ⟨online, hmem⟩
  exact ⟨online, preserves_mem_trace _ w w' h hmem⟩

theorem preserves_received (src : Source) : Preserves Effect fun w => w.Received src := by
  cases src with
  | uart payload => exact preserves_mem_trace _
  | row address => exact fun _ _ _ _ => trivial

/-! ## Requests -/

section Requests

theorem along_effect {f : World → World} (hf : ∀ w, Effect w (f w)) :
    (modify f : Prog PUnit).Along Effects :=
  Along.modify fun w => .single (hf w)

theorem along_log_effect (e : Event) (h : e.isPlain = true) :
    (log e).Along Effects :=
  along_effect fun w => .log w e h

theorem along_millis_effects : millis.Along Effects :=
  along_millis fun w t ticks => .single (.advance w t ticks)

variable {events : Prog Unit} (hevents : events.Along Effects)

include hevents

theorem effects_waitRound (key : Key) : (waitRound events key).Along Effects := by
  refine Along.bind (along_effect fun w => .pending w true) fun _ => ?_
  refine hevents.bind fun _ => along_get_bind fun w => ?_
  refine Along.ite (Along.ite ?_ (Along.pure _)) (Along.pure _)
  exact Along.bind (along_effect .disarm) fun _ => Along.pure _

theorem effects_waitLoop (key : Key) (limit : ℕ) (timeout : UInt32) :
    (waitLoop events key limit timeout).Along Effects := by
  refine along_loop (fun _ => along_get_bind fun w => ?_) ()
  refine Along.ite (Along.pure _) (along_millis_effects.bind fun now => ?_)
  exact along_get_bind fun w => Along.ite (effects_waitRound hevents key) (Along.pure _)

omit hevents in
theorem effects_conclude (key : Key) (checkLimit : ℕ) (timeout : UInt32) :
    (conclude key checkLimit timeout).Along Effects := by
  refine along_millis_effects.bind fun now => along_get_bind fun w => ?_
  refine Along.ite (Along.pure _) (Along.ite ?_ (Along.pure _))
  exact (along_log_effect _ rfl).bind fun _ => Along.pure _

theorem effects_awaitReply (key : Key) (limit checkLimit : ℕ) :
    (awaitReply events key limit checkLimit).Along Effects := by
  refine (along_log_effect _ rfl).bind fun _ => ?_
  refine along_millis_effects.bind fun timeout => ?_
  refine Along.bind (along_effect .disarm) fun _ => ?_
  refine (effects_waitLoop hevents key limit timeout).bind fun _ => ?_
  refine (along_log_effect _ rfl).bind fun _ => ?_
  exact Along.bind (along_effect fun w => .pending w false) fun _ =>
    effects_conclude key checkLimit timeout

end Requests

/-! ## Calls -/

/-- The changes of a method that was called. -/
abbrev Call.Effects (c : Call) : World → World → Prop := Given (fun w => w.Called c) Effect

instance (c : Call) : IsPreorder World c.Effects := Given.isPreorder (preserves_called c)

section Calls

variable {events : Prog Unit} (hevents : events.Along Effects) (c : Call)

theorem effects_writeCommand {cmd : Command} (h : ∃ stage ∈ c.method.stages, stage.Tells cmd) :
    (writeCommand cmd).Along c.Effects :=
  along_get_bind fun _ => Along.bind
    (Along.modify fun w hcall => .single (.command w c cmd _ hcall h)) fun _ => Along.pure _

/-- The handlers are changed, and the command about them is written. -/
theorem effects_update {change : Handlers → Handlers} {command : Handlers → Command}
    (h : .update true change command ∈ c.method.stages) :
    (Stage.run events (.update true change command)).Along c.Effects := by
  intro w
  rw [Stage.run, if_pos rfl, ends_bind, ends_modify, ends_bind, ends_get]
  exact fun hcall => .single (.update w c change command _ hcall h)

include hevents

/-- A block of the method. -/
theorem effects_stage {stage : Stage} (hmem : stage ∈ c.method.stages) :
    (stage.run events).Along c.Effects := by
  cases stage with
  | request active e =>
    cases active with
    | false => exact Along.pure _
    | true =>
      refine Along.bind ?_ fun _ => Along.pure _
      refine (effects_writeCommand c ⟨_, hmem, .request e⟩).bind fun frame => ?_
      exact (effects_awaitReply hevents _ _ _).given
  | send active cmd result =>
    cases active with
    | false => exact Along.pure _
    | true =>
      exact (effects_writeCommand c ⟨_, hmem, .send cmd result⟩).bind fun _ => Along.pure _
  | update active change command =>
    cases active with
    | false => exact Along.pure _
    | true => exact effects_update c hmem
  | undefined active => exact Along.ite (Along.throw _) (Along.pure _)

theorem effects_runStages (otherwise : Value) {stages : List Stage}
    (hstages : ∀ stage ∈ stages, stage ∈ c.method.stages) :
    (runStages events otherwise stages).Along c.Effects := by
  induction stages with
  | nil => exact Along.pure _
  | cons stage stages ih =>
    refine (effects_stage hevents c (hstages stage List.mem_cons_self)).bind fun v => ?_
    cases v with
    | some v => exact Along.pure v
    | none => exact ih fun stage' hmem => hstages stage' (List.mem_cons_of_mem stage hmem)

theorem effects_method : (c.method.run events).Along c.Effects := by
  have hstages : (runStages events c.method.otherwise c.method.stages).Along c.Effects :=
    effects_runStages hevents c _ fun _ hmem => hmem
  refine along_get_bind fun w => ?_
  cases c.method.guard with
  | none => exact hstages
  | some v => exact Along.ite hstages (Along.pure v)

/-- A call is logged, and then makes the changes of its method. -/
theorem effects_call : (c.run events).Along Effects := by
  intro w
  rw [Call.run, ends_bind, ends_get, ends_bind]
  have hlog : Effect w { w with trace := w.trace ++ [.call c w.espDetected] } :=
    .log w _ rfl
  have hcalled : World.Called { w with trace := w.trace ++ [.call c w.espDetected] } c :=
    ⟨w.espDetected, List.mem_append_right _ List.mem_cons_self⟩
  exact ((effects_method hevents c).of_given hcalled).mono (fun _ _ h => .head hlog h)
    fun _ _ h => .head hlog h

end Calls

/-! ## The receiver -/

section Receiver

theorem effects_bearsUart : BearsUart Effects where
  advance w t ticks := .single (.advance w t ticks)
  take w := .single (.take w)
  ackNak w x := .single (.ackNak w x)
  sendNak w a b := .single (.nak w a b)

/-- A reading of the clock, and a change by the time read. -/
theorem ends_millis_effect {α : Type} {f : UInt32 → Prog α} {w : World}
    (hf : ∀ t ticks, (f (UInt32.ofNat (w.advance t ticks).clock)).Ends (w.advance t ticks)
      (fun _ w' => Effects w w') fun _ w' => Effects w w') :
    (millis >>= f).Ends w (fun _ w' => Effects w w') fun _ w' => Effects w w' := by
  rw [ends_bind]
  cases hticks : w.ticks with
  | nil => exact (ends_millis_nil hticks).mpr .refl
  | cons t ticks => exact (ends_millis_cons hticks).mpr (hf t ticks)

theorem effects_advance (w : World) (t : Tick) (ticks : List Tick) :
    Effects w (w.advance t ticks) := .single (.advance w t ticks)

/-- The check, the probe and its two times. -/
theorem effects_syncController : syncController.Along Effects := by
  refine Along.get_bind fun w => ?_
  rw [ends_ite]
  split
  · exact .refl
  · next hoffline =>
    refine ends_millis_effect fun t ticks => ?_
    rw [ends_ite]
    split
    · next hlate =>
      rw [probe, ends_bind]
      cases hticks : (w.advance t ticks).ticks with
      | nil => exact (ends_millis_nil hticks).mpr (effects_advance w t ticks)
      | cons t' ticks' =>
        -- the probe is written at the time of the second reading
        have hprobe : Effect w (w.probed t t' ticks ticks') :=
          .probe w t t' ticks ticks' (Bool.not_eq_true _ ▸ hoffline) hlate
        have hcheck (time : ℕ) : (do
            let check ← millis
            modify fun w => { w with espCheckLatency := check }
            logSync (.probe time) : Prog PUnit).Along Effects :=
          fun w => ends_millis_effect fun t ticks =>
            ((effects_advance w t ticks).tail (.check _)).tail (.sync _ _)
        refine (ends_millis_cons hticks).mpr ?_
        rw [ends_bind, ends_modify, ends_bind, send, ends_modify]
        exact (hcheck _ (w.probed t t' ticks ticks')).mono (fun _ _ h => .head hprobe h)
          fun _ _ h => .head hprobe h
    · exact effects_advance w t ticks

theorem effects_timeoutCheck : timeoutCheck.Along Effects := by
  refine Along.get_bind fun w => ?_
  rw [ends_ite]
  split
  · next hidle =>
    rw [Bool.and_eq_true, Bool.not_eq_true'] at hidle
    refine ends_millis_effect fun t ticks => ?_
    rw [ends_ite]
    split
    · next hlate =>
      rw [goOffline, ends_bind, ends_modify]
      exact ((effects_advance w t ticks).tail (.expire _ hidle.1 hidle.2 hlate)).tail
        (.log _ .offline rfl)
    · exact effects_advance w t ticks
  · exact .refl

theorem effects_offlineCheck : offlineCheck.Along Effects :=
  effects_timeoutCheck.bind fun _ => along_get_bind fun _ =>
    along_log_effect _ rfl

end Receiver

/-! ## Processing a frame -/

/-- The changes of a frame that was received. -/
abbrev Source.Effects (src : Source) : World → World → Prop :=
  Given (fun w => w.Received src) Effect

instance (src : Source) : IsPreorder World src.Effects := Given.isPreorder (preserves_received src)

section Processing

variable (src : Source) (len : ℕ)

theorem effects_readHeader : (readHeader src).Along Effects := by
  refine along_get_bind fun w => ?_
  split
  · exact Along.pure _
  · exact Along.throw _

theorem effects_refresh : (refresh src len).Along Effects := fun w =>
  ends_millis_effect fun t ticks =>
    ((effects_advance w t ticks).tail (.log _ (.processing ..) rfl)).tail (.refresh _)

theorem effects_storeReply : (storeReply src len).Along Effects := by
  refine Along.get_bind fun w => ?_
  rw [ends_ite]
  split
  · exact .refl
  · next hlen =>
    have hlog := Effect.log w (.reply ((w.dataAt src).load 0 (len - 1))) rfl
    have hreply := Effect.reply
      { w with trace := w.trace ++ [.reply ((w.dataAt src).load 0 (len - 1))] } src len (by omega)
    rw [ends_bind, log, ends_modify, ends_modify]
    refine .head hlog (.single ?_)
    cases src with
    | uart payload => exact hreply
    | row address => exact hreply

theorem effects_latencyFrame (header : UInt16) : (latencyFrame header).Along Effects := fun w =>
  ends_millis_effect fun t ticks =>
    ((effects_advance w t ticks).tail (.sync _ _)).tail (.latency _)

/-- A frame is queued in a state in which its header is read. -/
theorem effects_queueFrame {w : World} {header : UInt16} (hheader : w.header? src = some header)
    (hasync : header ∈ asyncHeaders) (hpending : w.pendingData = true) :
    (queueFrame src len).Ends w (fun _ => src.Effects w) fun _ => src.Effects w := by
  rw [queueFrame, ends_bind, ends_get, ends_ite]
  split
  · exact fun _ => .refl
  · next hroom =>
    have hlog := Effect.log w (.queued ((w.dataAt src).load 0 len) w.queue.available.toNat) rfl
    rw [ends_bind, log, ends_modify, ends_modify]
    intro hsrc
    refine .head hlog (.single ?_)
    cases src with
    | uart payload =>
      exact .queue _ (.uart payload) len (preserves_received _ _ _ hlog hsrc) hheader hasync
        hpending (Nat.not_lt.mp hroom)
    | row address =>
      exact .queue _ (.row address) len trivial hheader hasync hpending (Nat.not_lt.mp hroom)

theorem effects_statusFrame {w : World} {header : UInt16} (hheader : w.header? src = some header)
    (hstatus : header ∈ statusHeaders) : src.Effects w (statusFrame src w) :=
  fun hsrc => .single (.status w src hsrc hheader hstatus)

variable {user : Prog Unit} (huser : user.Along Effects)

include huser

theorem effects_invoke (slot : Slot) (args : List Datum) :
    (invoke user slot args).Along Effects := by
  refine Along.get_bind fun w => ?_
  rw [ends_ite]
  split
  · next hpresent =>
    rw [ends_ite]
    split
    · exact .refl
    · rw [ends_bind, log, ends_modify]
      exact (huser _).mono (fun _ _ h => .head (.handler w slot args hpresent) h)
        fun _ _ h => .head (.handler w slot args hpresent) h
  · exact .refl

theorem effects_bringOnline : (bringOnline user).Along Effects := by
  refine (along_log_effect _ rfl).bind fun _ => ?_
  refine Along.bind (along_effect .detect) fun _ => ?_
  have hdelay : (Teensquitto.delay 1000).Along Effects :=
    (along_tick effects_advance).bind fun _ => along_effect fun w => .delay w 1000
  exact hdelay.bind fun _ => effects_invoke huser _ _

theorem effects_detection : (detection user src).Along Effects := by
  refine along_get_bind fun w => Along.ite ?_ (effects_bringOnline huser)
  refine (effects_readHeader src).bind fun _ => ?_
  exact Along.ite (effects_bringOnline huser) (Along.pure ())

/-- The frame was logged, and its handler is called if it is set. -/
theorem ends_invoke_dispatched {w : World} (p : Packet) {slot : Slot} {args : List Datum}
    (hinvocation : w.invocation? src len =
      if slot = .wifiOnSTAConnected then none else some (slot, args))
    (hpacket : Effects (w.dispatched src len) { w.dispatched src len with packet := p }) :
    (invoke user slot args).Ends { w.dispatched src len with packet := p }
      (fun _ => Effects w) fun _ => Effects w := by
  have hpass (hunset : slot ≠ .wifiOnSTAConnected → w.handlers.present slot = false) :
      Effects w { w.dispatched src len with packet := p } := by
    refine .head (.pass w src len fun slot' args' h => ?_) hpacket
    rw [hinvocation] at h
    split at h
    · cases h
    · next hslot =>
      obtain ⟨rfl, rfl⟩ := Prod.mk.inj (Option.some.inj h)
      exact hunset hslot
  rw [invoke, ends_bind, ends_get, ends_ite]
  split
  · next hpresent =>
    rw [ends_ite]
    split
    · next hslot => exact hpass fun hne => absurd hslot hne
    · next hslot =>
      have hcall : Effect w _ :=
        .dispatch w src len slot args p (hinvocation.trans (if_neg hslot)) hpresent
      rw [ends_bind, log, ends_modify]
      exact (huser _).mono (fun _ _ h => .head hcall h) fun _ _ h => .head hcall h
  · next habsent => exact hpass fun _ => Bool.eq_false_of_not_eq_true habsent

theorem effects_dispatch : (dispatch user src len).Along Effects := by
  intro w
  have hdata : (w.dispatched src len).dataAt src = w.dataAt src := by
    cases src with
    | uart payload => rfl
    | row address => rfl
  have hpass (hnone : w.invocation? src len = none) : Effects w (w.dispatched src len) :=
    .single (.pass w src len fun slot args h => by rw [hnone] at h; cases h)
  rw [dispatch, ends_bind, ends_get, ends_bind, log, ends_modify, ← World.dispatched, ends_ite]
  split
  · next hudp =>
    rw [dispatchUdp, ends_bind, ends_get, ends_ite, hdata]
    split
    · next hkind =>
      rw [ends_ite]
      split
      · next hlen =>
        refine hpass ?_
        rw [World.invocation?, if_pos hudp, if_neg fun h => hlen.not_ge h.2]
      · next hlen =>
        rw [ends_bind, ends_modify, hdata]
        refine ends_invoke_dispatched (w := w) src len huser _ ?_ (.single ?_)
        · rw [World.invocation?, if_pos hudp, if_pos ⟨hkind, Nat.not_lt.mp hlen⟩]
          rfl
        · rw [← hdata]
          exact .packet _ src (hdata ▸ Nat.not_lt.mp hlen)
    · next hkind =>
      refine hpass ?_
      rw [World.invocation?, if_pos hudp, if_neg fun h => hkind h.1]
  · next hudp =>
    dsimp only
    split
    · next slot args hinvocation =>
      refine ends_invoke_dispatched (w := w) src len huser w.packet ?_ .refl
      rw [World.invocation?, if_neg hudp, hinvocation, Option.filter_some]
      by_cases hslot : slot = .wifiOnSTAConnected
      · rw [if_pos hslot, if_neg (by simpa using hslot)]
      · rw [if_neg hslot, if_pos (by simpa using hslot)]
    · next hinvocation =>
      refine hpass ?_
      rw [World.invocation?, if_neg hudp, hinvocation]
      rfl

theorem effects_switchHeader : (switchHeader user src len).Along src.Effects := by
  intro w
  rw [switchHeader, readHeader, bind_assoc, ends_bind, ends_get]
  cases hheader : w.header? src with
  | none => exact fun _ => .refl
  | some header =>
    rw [pure_bind, ends_ite]
    split
    · exact (effects_storeReply src len).given w
    rw [ends_ite]
    split
    · exact (effects_latencyFrame header).given w
    rw [ends_ite]
    split
    · next hasync =>
      rw [asyncFrame, ends_bind, ends_get, ends_ite]
      split
      · next hpending => exact effects_queueFrame src len hheader hasync hpending
      · exact (effects_dispatch src len huser).given w
    rw [ends_ite]
    split
    · next hstatus => exact effects_statusFrame src hheader hstatus
    rw [ends_ite]
    split
    · exact fun _ => .refl
    · exact fun _ => .refl

/-- `processing_data`, for a frame that was received. -/
theorem along_processingData : (processingData user src len).Along src.Effects :=
  (effects_refresh src len).given.bind fun _ => (effects_detection src huser).given.bind fun _ =>
    effects_switchHeader src len huser

end Processing

/-! ## `events()` -/

section Events

variable {user : Prog Unit} (huser : user.Along Effects)

include huser

theorem effects_drainQueue : (drainQueue (processingData user)).Along Effects := by
  refine along_get_bind fun w => Along.ite ?_ (Along.pure ())
  have hprocess (row len : ℕ) : (processingData user (.row row) len).Along Effects := fun w =>
    (along_processingData (.row row) len huser).of_given trivial
  refine (hprocess _ _).bind fun _ => (along_log_effect _ rfl).bind fun _ => ?_
  exact along_effect .pop

/-- A received frame is processed. -/
theorem effects_received (payload : List UInt8) : (do
    log (.received payload)
    processingData user (.uart payload) payload.length).Along Effects := by
  intro w
  have hlog : Effect w _ := .log w (.received payload) rfl
  rw [ends_bind, log, ends_modify]
  refine ((along_processingData (.uart payload) payload.length huser).of_given
    (List.mem_append_right w.trace List.mem_cons_self)).mono ?_ ?_
  · exact fun _ _ h => .head hlog h
  · exact fun _ _ h => .head hlog h

theorem along_events : (events user).Along Effects := by
  refine effects_syncController.bind fun _ => effects_offlineCheck.bind fun _ => ?_
  refine effects_bearsUart.along_uart.bind fun r => ?_
  cases r with
  | frame payload =>
    have h := (effects_received huser payload).bind fun _ =>
      (Along.pure 0x24 : (pure 0x24 : Prog UInt8).Along Effects)
    rwa [bind_assoc] at h
  | rejected | expired | ack b => exact Along.pure _
  | nothing | flushed => exact (effects_drainQueue huser).bind fun _ => Along.pure _

/-! ## Runs -/

theorem effects_onDetect (o : Object) (handler : Bool) :
    (runOnDetect user o handler).Along Effects := by
  refine Along.ite (Along.get_bind fun w => ?_) (Along.pure ())
  have hlog := Effect.log w (.onDetect w.espDetected) rfl
  have hset := Effect.onDetect { w with trace := w.trace ++ [.onDetect w.espDetected] } handler
    ⟨w.espDetected, List.mem_append_right _ List.mem_cons_self⟩
  rw [ends_bind, log, ends_modify, ends_bind, ends_modify, ends_ite]
  split
  · exact (huser _).mono (fun _ _ h => .head hlog (.head hset h))
      fun _ _ h => .head hlog (.head hset h)
  · exact .head hlog (.single hset)

theorem effects_userOp (op : UserOp) : (op.run user).Along Effects := by
  cases op with
  | call c =>
    refine (effects_call ?_ c).bind fun _ => Along.pure ()
    exact (along_events huser).bind fun _ => Along.pure ()
  | onDetect o handler => exact effects_onDetect huser o handler

omit huser in
/-- The code of a handler, however deep handlers nest. -/
theorem effects_userCode (depth : ℕ) : (userCode depth).Along Effects := by
  induction depth with
  | zero => exact Along.throw _
  | succ depth ih =>
    have hscript : nextScript.Along Effects := fun w => .single (.script w)
    refine hscript.bind fun script => ?_
    induction script with
    | nil => exact Along.pure ()
    | cons op script ihs => exact (effects_userOp ih op).bind fun _ => ihs

omit huser in
theorem effects_wfan {events : Prog UInt8} (hevents : events.Along Effects) (remote : UInt8)
    (val timeoutMs : UInt16) : (wfan events remote val timeoutMs).Along Effects := by
  refine along_millis_effects.bind fun timeout => along_loop (fun _ => ?_) ()
  refine along_millis_effects.bind fun now => Along.ite ?_ (Along.pure _)
  refine hevents.bind fun event => ?_
  refine along_get_bind fun w => Along.ite (Along.pure _) ?_
  exact Along.ite (Along.pure _) (Along.pure _)

omit huser in
theorem effects_libraryOp (depth : ℕ) (op : LibraryOp) : (op.run depth).Along Effects := by
  have hevents := along_events (effects_userCode depth)
  cases op with
  | events => exact hevents.bind fun _ => Along.pure _
  | wfan remote val timeoutMs =>
    exact (effects_wfan hevents remote val timeoutMs).bind fun _ => Along.pure _
  | call c =>
    refine (effects_call ?_ c).bind fun _ => Along.pure _
    exact hevents.bind fun _ => Along.pure ()
  | onDetect o handler =>
    exact (effects_onDetect (effects_userCode depth) o handler).bind fun _ => Along.pure _

omit huser in
/-- **Every run is a sequence of single changes.** -/
theorem effects_library (depth : ℕ) (ops : List LibraryOp) :
    (library depth ops).Along Effects := by
  induction ops with
  | nil => exact Along.pure _
  | cons op ops ih =>
    rw [library, List.mapM_cons]
    exact (effects_libraryOp depth op).bind fun _ => ih.bind fun _ => Along.pure _

end Events

/-- A property of all states that runs come to, whether the main program ends there or the readings
end. -/
def Always (P : World → Prop) : Prop :=
  ∀ ticks scripts stray depth ops, (library depth ops).Ends (World.powerUp ticks scripts stray)
    (fun _ w => P w) fun _ w => P w

/-- **What each change keeps holds at every moment of every run.** -/
theorem always_of_preserves {P : World → Prop}
    (hstart : ∀ ticks scripts stray, P (World.powerUp ticks scripts stray))
    (h : Preserves Effect P) : Always P := fun ticks scripts stray depth ops =>
  (effects_library depth ops).keeps h (hstart ticks scripts stray)

end Teensquitto
