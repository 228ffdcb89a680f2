import Teensquitto.Protocol.Overrun
import Teensquitto.Waiting.Acknowledgements
import Teensquitto.Waiting.Deadlines

/-!
# How long an operation takes

Whatever the ESP does, no operation of the library waits forever.  A call of `events()` handles one
packet and one frame, a request is over soon after its limit, and a handler makes as many requests
as its script has.  The one loop without end prints an empty frame.

## Main definitions

* `eventsTime`, `requestTime`, `callTime`, `userTime`: the bounds

## Main results

* `lasts_events`, `lasts_call`, `lasts_userCode`, `ends_library`: the functions of the library
* `library_returns_in_time`: every main program comes to its end
-/

namespace Teensquitto

/-! ## `events()` -/

section Events

variable {e : Setting} {user : Prog Unit} {handler : ℕ}

/-- The bound on `processing_data`, over handlers that last at most `handler` milliseconds. -/
def processingTime (pace handler : ℕ) : ℕ := 1000 + 3 * pace + 2 * handler

/-- The bound on `events()`. -/
def eventsTime (pace bytes handler : ℕ) : ℕ :=
  6 * pace + packetTime pace bytes + processingTime pace handler

theorem lasts_invoke (huser : Lasts e user handler) (slot : Slot) (args : List Datum) :
    Lasts e (invoke user slot args) handler := by
  refine lasts_get_bind fun w => .ite (fun _ => ?_) fun _ => .pure _ _
  refine .ite (fun _ => lasts_undefined _) fun _ => ?_
  exact (lasts_log _).free_bind fun _ => huser

theorem lasts_readHeader (src : Source) : Lasts e (readHeader src) 0 := by
  refine lasts_get_bind fun w => ?_
  split
  · exact .pure _ 0
  · exact lasts_undefined 0

theorem lasts_bringOnline (huser : Lasts e user handler) :
    Lasts e (bringOnline user) (e.pace + 1000 + handler) := by
  have hset : Lasts e (modify fun w => { w with espDetected := true }) 0 :=
    lasts_modify fun _ => ⟨rfl, rfl, rfl, rfl⟩
  refine (lasts_log _).free_bind fun _ => hset.free_bind fun _ => ?_
  exact (lasts_delay 1000).bind fun _ => lasts_invoke huser _ _

theorem lasts_detection (huser : Lasts e user handler) (src : Source) :
    Lasts e (detection user src) (e.pace + 1000 + handler) := by
  have honline := lasts_bringOnline huser
  refine lasts_get_bind fun w => .ite (fun _ => ?_) fun _ => honline
  refine (lasts_readHeader src).free_bind fun header => ?_
  exact .ite (fun _ => honline) fun _ => .pure _ _

theorem lasts_refresh (src : Source) (len : ℕ) : Lasts e (refresh src len) e.pace := by
  refine lasts_millis.bind_free fun now => lasts_get_bind fun w => ?_
  exact (lasts_log _).free_bind fun _ => lasts_modify fun _ => ⟨rfl, rfl, rfl, rfl⟩

theorem lasts_dispatch (huser : Lasts e user handler) (src : Source) (len : ℕ) :
    Lasts e (dispatch user src len) handler := by
  refine lasts_get_bind fun w => (lasts_log _).free_bind fun _ => ?_
  refine .ite (fun _ => ?_) fun _ => ?_
  · refine lasts_get_bind fun w => .ite (fun _ => ?_) fun _ => .pure _ _
    refine .ite (fun _ => lasts_undefined _) fun _ => ?_
    refine EStateM.Spends.free_bind ?_ fun _ => lasts_invoke huser _ _
    exact lasts_modify fun _ => ⟨rfl, rfl, rfl, rfl⟩
  · dsimp only
    split
    · exact lasts_invoke huser _ _
    · exact .pure _ _

theorem lasts_asyncFrame (huser : Lasts e user handler) (src : Source) (len : ℕ) :
    Lasts e (asyncFrame user src len) handler := by
  refine lasts_get_bind fun w => .ite (fun _ => ?_) fun _ => lasts_dispatch huser src len
  refine lasts_get_bind fun w => .ite (fun _ => lasts_undefined _) fun _ => ?_
  refine EStateM.Spends.mono ((lasts_log _).free_bind fun _ => ?_) (Nat.zero_le handler)
  exact lasts_modify fun _ => ⟨rfl, rfl, rfl, rfl⟩

theorem lasts_storeReply (src : Source) (len : ℕ) : Lasts e (storeReply src len) 0 := by
  refine lasts_get_bind fun w => .ite (fun _ => lasts_undefined _) fun _ => ?_
  exact (lasts_log _).free_bind fun _ => lasts_modify fun _ => ⟨rfl, rfl, rfl, rfl⟩

theorem lasts_latencyFrame (header : UInt16) : Lasts e (latencyFrame header) e.pace := by
  refine lasts_millis.bind_free fun now => .get_bind fun w => ?_
  refine EStateM.Spends.free_bind ?_ fun _ => ?_
  · exact lasts_modify fun _ => ⟨rfl, rfl, rfl, rfl⟩
  · exact lasts_modify fun _ => ⟨rfl, rfl, rfl, rfl⟩

theorem lasts_statusFrame (src : Source) : Lasts e (modify (statusFrame src)) 0 := by
  refine EStateM.Spends.modify fun d n w h => ?_
  obtain ⟨wifi, mqtt, client, server, sync, heq⟩ := exists_statusFrame_eq src w
  rw [heq]
  exact h.congr ⟨rfl, rfl, rfl, rfl⟩

/-- Only frames of the queue can be empty where their header was read. -/
theorem ends_readHeader (item : Item) (w : World) : (readHeader item.source).Ends w
    (fun _ w' => w' = w ∧ (item.length = 0 → item.queued = true)) e.Stops := by
  cases item with
  | row address length => exact ⟨rfl, fun _ => rfl⟩
  | uart payload =>
    match payload with
    | high :: low :: rest => exact ⟨rfl, fun h => absurd h (Nat.succ_ne_zero _)⟩
    | [] | [_] => exact .inl rfl

/-- An empty frame is printed without end. -/
theorem ends_switchHeader (huser : Lasts e user handler) (item : Item) {d : Window} {n : ℕ}
    {w : World} (hstalls : item.queued = true → item.length = 0 → e.stalls w)
    (h : w.Affords e d (n + (e.pace + handler))) :
    (switchHeader user item.source item.length).Ends w (fun _ => World.Affords e d n) e.Stops := by
  rw [switchHeader, EStateM.ends_bind]
  refine (ends_readHeader item w).mono ?_ fun _ _ h => h
  rintro header _ ⟨rfl, hqueued⟩
  have hlasts {m : Prog Unit} {b : ℕ} (hm : Lasts e m b) (hle : b ≤ e.pace + handler) :
      m.Ends _ (fun _ => World.Affords e d n) e.Stops := hm.mono hle d n _ h
  rw [EStateM.ends_ite, EStateM.ends_ite, EStateM.ends_ite, EStateM.ends_ite, EStateM.ends_ite]
  split
  · exact hlasts (lasts_storeReply _ _) (Nat.zero_le _)
  split
  · exact hlasts (lasts_latencyFrame header) (Nat.le_add_right _ _)
  split
  · exact hlasts (lasts_asyncFrame huser _ _) (Nat.le_add_left _ _)
  split
  · exact hlasts (lasts_statusFrame _) (Nat.zero_le _)
  split
  · next hempty => exact .inr ⟨rfl, hstalls (hqueued hempty) hempty⟩
  · exact hlasts (.pure () 0) (Nat.zero_le _)

/-- The frame that is processed is logged, and the log of an empty one stays. -/
theorem ends_refresh_detection (heffects : user.Along Effects) (item : Item) (w : World) :
    (do
      refresh item.source item.length
      detection user item.source).Ends w
      (fun _ w' => item.queued = true → item.length = 0 → w'.Stalled) fun _ _ => True := by
  rw [EStateM.ends_bind]
  have hlogged : (refresh item.source item.length).Ends w
      (fun _ w' => ∃ e ∈ w'.trace, item.queued = true → item.length = 0 → e.stalls = true)
      fun _ _ => True := by
    refine EStateM.Ends.bind_of_forall (fun now w₁ => ?_) fun _ _ => trivial
    refine ⟨_, List.mem_append_right _ List.mem_cons_self, fun hqueued hempty => ?_⟩
    rw [queued_source, hqueued, hempty]
    rfl
  refine hlogged.mono ?_ fun _ _ h => h
  rintro _ w₁ ⟨e, he, hstalls⟩
  refine ((effects_detection item.source heffects).keeps (preserves_mem_trace e) he).mono ?_
    fun _ _ _ => trivial
  exact fun _ w₂ he hqueued hempty => ⟨e, he, hstalls hqueued hempty⟩

theorem lasts_processingData (huser : Lasts e user handler) (heffects : user.Along Effects)
    (item : Item) (hstalls : item.queued = true → ∀ w, w.Stalled → e.stalls w) :
    Lasts e (processingData user item.source item.length) (processingTime e.pace handler) := by
  intro d n w h
  have hbudget : w.Affords e d (n + (e.pace + handler) + (e.pace + (e.pace + 1000 + handler))) := by
    refine EStateM.IsBudget.le h ?_
    unfold processingTime
    omega
  have hbefore : Lasts e (do
      refresh item.source item.length
      detection user item.source) (e.pace + (e.pace + 1000 + handler)) :=
    (lasts_refresh _ _).bind fun _ => lasts_detection huser _
  rw [processingData, ← bind_assoc, EStateM.ends_bind]
  refine ((hbefore d _ w hbudget).and (ends_refresh_detection heffects item w)).mono ?_
    fun _ _ h => h.1
  rintro _ w₁ ⟨h₁, hstalled⟩
  exact ends_switchHeader huser item
    (fun hqueued hempty => hstalls hqueued w₁ (hstalled hqueued hempty)) h₁

theorem lasts_probe : Lasts e probe (2 * e.pace) := by
  have hprobe : Lasts e probe (e.pace + e.pace) := by
    refine lasts_millis.bind fun interval => EStateM.Spends.free_bind ?_ fun _ => ?_
    · exact lasts_modify fun _ => ⟨rfl, rfl, rfl, rfl⟩
    · refine (lasts_send _).free_bind fun _ => .get_bind fun w => ?_
      refine lasts_millis.bind_free fun _ => EStateM.Spends.free_bind ?_ fun _ => ?_
      · exact lasts_modify fun _ => ⟨rfl, rfl, rfl, rfl⟩
      · exact lasts_modify fun _ => ⟨rfl, rfl, rfl, rfl⟩
  exact hprobe.mono (Nat.two_mul _).ge

theorem lasts_syncController : Lasts e syncController (3 * e.pace) := by
  refine lasts_get_bind fun w => .ite (fun _ => .pure _ _) fun _ => ?_
  refine (lasts_millis.bind fun now => .ite (fun _ => lasts_probe) fun _ => .pure _ _).mono ?_
  omega

theorem lasts_offlineCheck : Lasts e offlineCheck e.pace := by
  have hoffline : Lasts e goOffline 0 := by
    refine EStateM.Spends.free_bind ?_ fun _ => lasts_log _
    exact lasts_modify fun _ => ⟨rfl, rfl, rfl, rfl⟩
  have htimeout : Lasts e timeoutCheck e.pace := by
    refine lasts_get_bind fun w => .ite (fun _ => ?_) fun _ => .pure _ _
    exact lasts_millis.bind_free fun now => .ite (fun _ => hoffline) fun _ => .pure _ _
  exact htimeout.bind_free fun _ => lasts_get_bind fun w => lasts_log _

theorem lasts_checks : Lasts e checks (4 * e.pace) := by
  refine (lasts_syncController.bind fun _ => lasts_offlineCheck).mono ?_
  omega

/-- One frame is processed at most, the one received or the first in the queue. -/
theorem lasts_handle (huser : Lasts e user handler) (heffects : user.Along Effects)
    (hstalls : ∀ w, w.Stalled → e.stalls w) (r : Reception) :
    Lasts e (handle (processingData user) r) (processingTime e.pace handler) := by
  have hprocess (item : Item) := lasts_processingData huser heffects item fun _ => hstalls
  have hpop : Lasts e (modify fun w => { w with queue := w.queue.popFront }) 0 :=
    lasts_modify fun _ => ⟨rfl, rfl, rfl, rfl⟩
  have hdrain : Lasts e (drainQueue (processingData user)) (processingTime e.pace handler) := by
    refine lasts_get_bind fun w => .ite (fun _ => ?_) fun _ => .pure _ _
    exact (hprocess (.row _ _)).bind_free fun _ => (lasts_log _).free_bind fun _ => hpop
  cases r with
  | frame payload => exact (lasts_log _).free_bind fun _ => hprocess (.uart payload)
  | nothing | flushed => exact hdrain
  | rejected | expired | ack b => exact .pure _ _

/-- `events()` receives one packet at most. -/
theorem lasts_events (huser : Lasts e user handler) (heffects : user.Along Effects)
    (hstalls : ∀ w, w.Stalled → e.stalls w) (hfit : byteTime e.pace < 2 ^ 32) :
    Lasts e (events user) (eventsTime e.pace e.bytes handler) := by
  rw [events, eventsWith_eq_code]
  refine EStateM.Spends.map _ ((lasts_checks.bind fun _ => (lasts_uart hfit).bind fun r =>
    (lasts_handle huser heffects hstalls r).bind_free fun _ => .pure _ 0).mono ?_)
  unfold eventsTime
  omega

end Events

/-! ## Requests -/

/-- The longer one of the two limits of a block that waits. -/
def Stage.limit : Stage → ℕ
  | request _ exchange => max exchange.limit exchange.checkLimit
  | _ => 0

/-- Few blocks, none of which waits long. -/
@[mk_iff]
structure Method.Brief (m : Method) : Prop where
  blocks : m.stages.length ≤ 5
  limits : ∀ stage ∈ m.stages, stage.limit ≤ 35000

section Brief

@[simp] theorem Stage.limit_ask (active : Bool) (limit : ℕ) (onTimeout : Value)
    (decode : Memory UInt8 → Value) (c : Command) :
    (Stage.ask active limit onTimeout decode c).limit = limit := max_self limit

@[simp] theorem Stage.limit_request (active : Bool) (exchange : Exchange) :
    (Stage.request active exchange).limit = max exchange.limit exchange.checkLimit := rfl

@[simp] theorem Stage.limit_send (active : Bool) (c : Command) (result : Option Value) :
    (Stage.send active c result).limit = 0 := rfl

@[simp] theorem Stage.limit_tell (active : Bool) (c : Command) :
    (Stage.tell active c).limit = 0 := rfl

@[simp] theorem Stage.limit_update (active : Bool) (change : Handlers → Handlers)
    (command : Handlers → Command) : (Stage.update active change command).limit = 0 := rfl

@[simp] theorem Stage.limit_undefined (active : Bool) : (Stage.undefined active).limit = 0 := rfl

theorem SpiffsCall.brief (o : Object) (c : SpiffsCall) : (c.method o).Brief := by
  cases c <;> simp [SpiffsCall.method, Method.brief_iff, Method.guarded]

theorem StreamCall.brief (o : Object) (c : StreamCall) : (c.method o).Brief := by
  cases c <;> simp [StreamCall.method, Method.brief_iff, Method.guarded, Method.unguarded]

theorem UdpCall.brief (o : Object) (c : UdpCall) : (c.method o).Brief := by
  cases c <;> simp [UdpCall.method, Method.brief_iff, Method.guarded]

theorem ClientCall.brief (o : Object) (c : ClientCall) : (c.method o).Brief := by
  cases c <;> simp [ClientCall.method, Method.brief_iff, Method.guarded]

theorem MqttCall.brief (o : Object) (c : MqttCall) : (c.method o).Brief := by
  unfold MqttCall.method
  split <;> simp [Method.brief_iff, Method.guarded, Method.unguarded]

theorem WebSocketCall.brief (o : Object) (c : WebSocketCall) : (c.method o).Brief := by
  cases c <;> simp [WebSocketCall.method, Method.brief_iff, Method.guarded, Method.unguarded]

theorem WiFiCall.brief (o : Object) (c : WiFiCall) : (c.method o).Brief := by
  unfold WiFiCall.method
  split <;> simp [Method.brief_iff, Method.guarded, Method.unguarded]

theorem AccessPointCall.brief (o : Object) (c : AccessPointCall) : (c.method o).Brief := by
  unfold AccessPointCall.method
  split <;> simp [Method.brief_iff, Method.guarded, Method.unguarded]

theorem EspCall.brief (o : Object) (c : EspCall) : (c.method o).Brief := by
  cases c <;> simp [EspCall.method, Method.brief_iff, Method.guarded, Method.unguarded]

theorem AsyncUdpCall.brief (c : AsyncUdpCall) : c.method.Brief := by
  cases c <;> simp [AsyncUdpCall.method, Method.brief_iff, Method.guarded]

/-- No method waits for more than 35 seconds, nor more than five times. -/
theorem Call.brief (c : Call) : c.method.Brief := by
  cases c with
  | spiffs o call => exact call.brief o
  | stream o call => exact call.brief o
  | udp o call => exact call.brief o
  | client o call => exact call.brief o
  | mqtt o call => exact call.brief o
  | webSocket o call => exact call.brief o
  | wifi o call => exact call.brief o
  | accessPoint o call => exact call.brief o
  | esp o call => exact call.brief o
  | asyncUdp call => exact call.brief

end Brief

section Requests

variable {e : Setting} {events : Prog Unit} {round limit : ℕ}

/-- The bound on a request: the largest latency, the largest limit, and one more call of
`events()`. -/
def requestTime (pace round : ℕ) : ℕ := 65535 + 35000 + 3 * pace + round

/-- The bound on a method. -/
def callTime (pace round : ℕ) : ℕ := 5 * requestTime pace round

/-- The latency is a `uint16_t`. -/
theorem waitLimit_toNat_le (hlimit : limit ≤ 35000) (w : World) :
    (w.waitLimit limit).toNat ≤ 65535 + 35000 := by
  have hlatency : w.espLatency.toUInt32.toNat < 2 ^ 16 := w.espLatency.toNat_lt
  rw [World.waitLimit, UInt32.toNat_add, UInt32.toNat_ofNat_of_lt' (by omega : limit < 2 ^ 32)]
  omega

theorem lastsFromNow_waitLoop (hevents : Lasts e events round) (hlimit : limit ≤ 35000)
    (hfit : requestTime e.pace round < 2 ^ 32) (key : Key) :
    LastsFromNow e (waitLoop events key limit) (65535 + 35000 + round + e.pace) := by
  unfold requestTime at hfit
  refine lastsFromNow_loop () fun d c n _ w hw hfinish => ?_
  have hwithin := hw.within
  rw [EStateM.ends_bind, EStateM.ends_get, EStateM.ends_ite]
  split
  · exact hw.affords.of_le (by omega)
  · refine ends_round (waitLimit_toNat_le hlimit) ?_ (by omega) hfinish hw
    unfold waitRound
    refine EStateM.Spends.free_bind ?_ fun _ => ?_
    · exact lasts_modify fun _ => ⟨rfl, rfl, rfl, rfl⟩
    · refine hevents.bind_free fun _ => lasts_get_bind fun w => ?_
      refine .ite (fun _ => .ite (fun _ => ?_) fun _ => .pure _ 0) fun _ => .pure _ 0
      refine EStateM.Spends.free_bind ?_ fun _ => .pure _ 0
      exact lasts_modify fun _ => ⟨rfl, rfl, rfl, rfl⟩

theorem lasts_conclude (key : Key) (checkLimit : ℕ) (timeout : UInt32) :
    Lasts e (conclude key checkLimit timeout) e.pace := by
  refine lasts_millis.bind_free fun now => lasts_get_bind fun w => ?_
  refine .ite (fun _ => .pure _ 0) fun _ => .ite (fun _ => ?_) fun _ => .pure _ 0
  exact (lasts_log _).free_bind fun _ => .pure _ 0

/-- A request is over soon after its limit. -/
theorem lasts_awaitReply (hevents : Lasts e events round) (hlimit : limit ≤ 35000)
    (hfit : requestTime e.pace round < 2 ^ 32) (key : Key) (checkLimit : ℕ) :
    Lasts e (awaitReply events key limit checkLimit) (requestTime e.pace round) := by
  have hloop := lastsFromNow_waitLoop hevents hlimit hfit key
  have hrest (timeout : UInt32) : Lasts e (do
      log .waitEnd
      modify fun w => { w with pendingData := false }
      conclude key checkLimit timeout) e.pace := by
    refine (lasts_log _).free_bind fun _ => EStateM.Spends.free_bind ?_ fun _ => ?_
    · exact lasts_modify fun _ => ⟨rfl, rfl, rfl, rfl⟩
    · exact lasts_conclude key checkLimit timeout
  have hwait : LastsFromNow e (fun timeout => do
      modify fun w => { w with dataReadyFlag := false }
      waitLoop events key limit timeout
      log .waitEnd
      modify fun w => { w with pendingData := false }
      conclude key checkLimit timeout) (65535 + 35000 + round + e.pace + e.pace) :=
    fun d n w hw => (hloop.bind fun timeout _ => hrest timeout) d n
      { w with dataReadyFlag := false } (hw.congr ⟨rfl, rfl, rfl, rfl⟩)
  refine ((lasts_log _).free_bind fun _ => lasts_millis_bind hwait).mono ?_
  unfold requestTime
  omega

theorem lasts_writeCommand (c : Command) : Lasts e (writeCommand c) 0 :=
  lasts_get_bind fun _ => (lasts_send _).bind_free fun _ => .pure _ 0

theorem lasts_stage (hevents : Lasts e events round) (hfit : requestTime e.pace round < 2 ^ 32)
    {stage : Stage} (hstage : stage.limit ≤ 35000) :
    Lasts e (stage.run events) (requestTime e.pace round) := by
  cases stage with
  | request active exchange =>
    refine .ite (fun _ => ?_) fun _ => .pure _ _
    refine EStateM.Spends.bind_free ?_ fun result => .pure _ 0
    refine (lasts_writeCommand _).free_bind fun frame => ?_
    rw [Stage.limit_request] at hstage
    exact lasts_awaitReply hevents ((Nat.le_max_left _ _).trans hstage) hfit _ _
  | send active c result =>
    refine .ite (fun _ => ?_) fun _ => .pure _ _
    exact ((lasts_writeCommand c).bind_free fun _ => .pure _ 0).mono (Nat.zero_le _)
  | update active change command =>
    refine .ite (fun _ => ?_) fun _ => .pure _ _
    refine EStateM.Spends.mono (EStateM.Spends.free_bind (b := 0) ?_ fun _ => ?_) (Nat.zero_le _)
    · exact lasts_modify fun _ => ⟨rfl, rfl, rfl, rfl⟩
    · exact lasts_get_bind fun w => (lasts_writeCommand _).bind_free fun _ => .pure _ 0
  | undefined active => exact .ite (fun _ => lasts_undefined _) fun _ => .pure _ _

theorem lasts_runStages (hevents : Lasts e events round)
    (hfit : requestTime e.pace round < 2 ^ 32) (otherwise : Value) {stages : List Stage}
    (hstages : ∀ stage ∈ stages, stage.limit ≤ 35000) :
    Lasts e (runStages events otherwise stages) (stages.length * requestTime e.pace round) := by
  induction stages with
  | nil => exact .pure _ _
  | cons stage stages ih =>
    have hrest := ih fun s hs => hstages s (List.mem_cons_of_mem _ hs)
    have hstage := lasts_stage hevents hfit (hstages stage List.mem_cons_self)
    refine (hstage.bind fun r => ?_).mono ((Nat.add_comm _ _).trans (Nat.succ_mul _ _).symm).le
    split
    · exact .pure _ _
    · exact hrest

/-- A method waits five times at most. -/
theorem lasts_call (hevents : Lasts e events round) (hfit : requestTime e.pace round < 2 ^ 32)
    (c : Call) : Lasts e (c.run events) (callTime e.pace round) := by
  have hstages : Lasts e (runStages events c.method.otherwise c.method.stages)
      (callTime e.pace round) :=
    (lasts_runStages hevents hfit _ c.brief.limits).mono (Nat.mul_le_mul_right _ c.brief.blocks)
  refine lasts_get_bind fun w => (lasts_log _).free_bind fun _ => lasts_get_bind fun w => ?_
  split
  · exact .ite (fun _ => hstages) fun _ => .pure _ _
  · exact hstages

/-- `WFAN` waits for its own limit. -/
theorem lasts_wfan {events : Prog UInt8} (hevents : Lasts e events round)
    (hfit : requestTime e.pace round < 2 ^ 32) (remote : UInt8) (val timeoutMs : UInt16) :
    Lasts e (wfan events remote val timeoutMs) (requestTime e.pace round) := by
  unfold requestTime at hfit ⊢
  have hlimit (w : World) : timeoutMs.toUInt32.toNat ≤ 65535 := Nat.le_of_lt_succ timeoutMs.toNat_lt
  refine EStateM.Spends.mono (lasts_millis_bind (b := 65535 + round + e.pace) ?_) (by omega)
  refine lastsFromNow_loop () fun d c n _ w hw hfinish => ?_
  refine ends_round (f := fun _ => timeoutMs.toUInt32) hlimit ?_ (by omega) hfinish hw
  refine hevents.bind_free fun event => lasts_get_bind fun w => ?_
  exact .ite (fun _ => .pure _ 0) fun _ => .ite (fun _ => .pure _ 0) fun _ => .pure _ 0

end Requests

/-! ## Main programs -/

section Programs

variable {pace calls : ℕ} {rest : List Tick}

/-- A setting in which bytes may arrive, and nothing is known about the ring. -/
abbrev Setting.live (pace calls : ℕ) (rest : List Tick) (scripts : ℕ) : Setting :=
  ⟨pace, calls, scripts, rest, none, World.Stalled⟩

/-- The bound on a handler, by the number of scripts to come: each of its calls may run handlers
with one script less. -/
def userTime (pace calls : ℕ) : ℕ → ℕ
  | 0 => 0
  | scripts + 1 =>
    userTime pace calls scripts +
      calls * callTime pace (eventsTime pace 65535 (userTime pace calls scripts))

/-- The bound on an operation. -/
def operationTime (pace calls scripts : ℕ) : ℕ :=
  callTime pace (eventsTime pace 65535 (userTime pace calls scripts))

/-- No round of a wait takes longer than `millis()` takes to wrap around. -/
def Unwrapped (pace calls scripts : ℕ) : Prop :=
  requestTime pace (eventsTime pace 65535 (userTime pace calls scripts)) < 2 ^ 32

instance (pace calls scripts : ℕ) : Decidable (Unwrapped pace calls scripts) :=
  inferInstanceAs (Decidable (_ < _))

theorem Unwrapped.of_succ {scripts : ℕ} (h : Unwrapped pace calls (scripts + 1)) :
    Unwrapped pace calls scripts := by
  have hle : userTime pace calls scripts ≤ userTime pace calls (scripts + 1) :=
    Nat.le_add_right _ _
  unfold Unwrapped requestTime eventsTime processingTime at h ⊢
  omega

theorem Unwrapped.byteTime_lt {scripts : ℕ} (h : Unwrapped pace calls scripts) :
    byteTime pace < 2 ^ 32 := by
  unfold Unwrapped requestTime eventsTime packetTime at h
  omega

/-- An operation, over handlers that last as long as their scripts allow. -/
theorem lasts_operations {scripts : ℕ} {user : Prog Unit}
    (huser : Lasts (.live pace calls rest scripts) user (userTime pace calls scripts))
    (heffects : user.Along Effects) (hfit : Unwrapped pace calls scripts) :
    Lasts (.live pace calls rest scripts) (events user)
        (eventsTime pace 65535 (userTime pace calls scripts)) ∧
      (∀ c : Call, Lasts (.live pace calls rest scripts) (c.run do let _ ← events user)
        (operationTime pace calls scripts)) ∧
      ∀ o handler, Lasts (.live pace calls rest scripts) (runOnDetect user o handler)
        (operationTime pace calls scripts) := by
  have hevents := lasts_events huser heffects (fun _ h => h) hfit.byteTime_lt
  refine ⟨hevents, fun c => ?_, fun o handler => ?_⟩
  · exact lasts_call (hevents.bind_free fun _ => .pure _ 0) hfit c
  · refine EStateM.Spends.mono (b := userTime pace calls scripts) ?_ ?_
    · refine .ite (fun _ => lasts_get_bind fun w => (lasts_log _).free_bind fun _ => ?_)
        fun _ => .pure _ _
      refine EStateM.Spends.free_bind ?_ fun _ => .ite (fun _ => huser) fun _ => .pure _ _
      exact lasts_modify fun _ => ⟨rfl, rfl, rfl, rfl⟩
    · unfold operationTime callTime requestTime eventsTime processingTime
      omega

/-- A handler takes the next script. -/
theorem ends_userCode {depth : ℕ} {w : World} {Q : Unit → World → Prop} {E : Halt → World → Prop} :
    (userCode (depth + 1)).Ends w Q E ↔
      ((w.scripts.headD []).forM (UserOp.run (userCode depth))).Ends
        { w with scripts := w.scripts.tail } Q E := Iff.rfl

/-- **A handler** comes to its end: every call it makes leaves fewer scripts to the handlers that
run meanwhile. -/
theorem lasts_userCode {scripts depth : ℕ} (hdepth : scripts < depth)
    (hfit : Unwrapped pace calls scripts) :
    Lasts (.live pace calls rest scripts) (userCode depth) (userTime pace calls scripts) := by
  induction scripts generalizing depth with
  | zero =>
    obtain ⟨depth, rfl⟩ := Nat.exists_eq_add_of_lt hdepth
    intro d n w h
    have hnil : w.scripts = [] := List.length_eq_zero_iff.mp (Nat.le_zero.mp h.scripts)
    rw [ends_userCode, hnil]
    exact h.congr ⟨rfl, rfl, rfl, hnil.symm⟩
  | succ scripts ih =>
    obtain ⟨depth, rfl⟩ : ∃ k, depth = k + 1 := ⟨depth - 1, by omega⟩
    have huser := ih (Nat.lt_of_succ_lt_succ hdepth) hfit.of_succ
    obtain ⟨-, hcall, hdetect⟩ := lasts_operations huser (effects_userCode depth) hfit.of_succ
    have hop (op : UserOp) : Lasts (.live pace calls rest scripts) (op.run (userCode depth))
        (operationTime pace calls scripts) := by
      cases op with
      | call c => exact (hcall c).bind_free fun _ => .pure _ 0
      | onDetect o handler => exact hdetect o handler
    intro d n w h
    rw [ends_userCode]
    cases hscripts : w.scripts with
    | nil =>
      refine (h.of_le (n := n) ?_).congr ⟨rfl, rfl, rfl, hscripts.symm⟩
      exact (Nat.add_le_add_left (Nat.le_add_right n _) _).trans h.left
    | cons script others =>
      -- One script less is to come, also for whatever handlers run within the calls of this one.
      have hlength := h.scripts
      rw [hscripts, List.length_cons] at hlength
      have hbefore : World.Affords (.live pace calls rest scripts) d
          (n + script.length * operationTime pace calls scripts) { w with scripts := others } := {
        lasts := h.lasts
        still := h.still
        calls := fun s hs => h.calls s (hscripts ▸ List.mem_cons_of_mem _ hs)
        scripts := Nat.le_of_succ_le_succ hlength
        start := h.start
        left := by
          have hcalls : script.length * operationTime pace calls scripts ≤
              calls * operationTime pace calls scripts :=
            Nat.mul_le_mul_right _ (h.calls script (hscripts ▸ List.mem_cons_self))
          have hleft := h.left
          rw [userTime] at hleft
          unfold operationTime at hcalls
          unfold operationTime
          dsimp only
          omega
        finish := h.finish
        count := h.count }
      refine (EStateM.Spends.forM (fun op _ => hop op) d n _ hbefore).mono (fun _ w' h' => ?_)
        fun _ _ h' => h'
      exact { h' with scripts := h'.scripts.trans (Nat.le_succ _) }

/-- What an operation of a main program takes. -/
theorem lasts_operation {scripts depth : ℕ} (hdepth : scripts < depth)
    (hfit : Unwrapped pace calls scripts) (op : LibraryOp) :
    Lasts (.live pace calls rest scripts) (op.run depth) (operationTime pace calls scripts) := by
  obtain ⟨hevents, hcall, hdetect⟩ :=
    lasts_operations (lasts_userCode hdepth hfit) (effects_userCode depth) hfit
  have hrequest : requestTime pace (eventsTime pace 65535 (userTime pace calls scripts)) ≤
      operationTime pace calls scripts := Nat.le_mul_of_pos_left _ (by omega)
  cases op with
  | events =>
    refine (hevents.bind_free fun _ => .pure _ 0).mono (hrequest.trans' ?_)
    exact Nat.le_add_left _ _
  | wfan remote val timeoutMs =>
    have hwfan := lasts_wfan hevents hfit remote val timeoutMs
    exact (hwfan.bind_free fun _ => .pure _ 0).mono hrequest
  | call c => exact (hcall c).bind_free fun _ => .pure _ 0
  | onDetect o handler => exact (hdetect o handler).bind_free fun _ => .pure _ 0

/-- What a main program takes from any state, with readings for more than this time.  The readings
in `rest` are not needed. -/
theorem ends_library {w : World} {ahead : List Tick} {depth : ℕ} (ops : List LibraryOp)
    (hticks : w.ticks = ahead ++ rest) (hpaced : ∀ t ∈ ahead, t.elapsed ≤ pace)
    (hcalls : ∀ script ∈ w.scripts, script.length ≤ calls) (hdepth : w.scripts.length < depth)
    (hfit : Unwrapped pace calls w.scripts.length)
    (hlasts : ops.length * operationTime pace calls w.scripts.length < elapsed ahead) :
    (library depth ops).Ends w
      (fun _ w' => rest <:+ w'.ticks ∧
        w'.clock ≤ w.clock + ops.length * operationTime pace calls w.scripts.length)
      fun h w' => h = .undefined ∨ h = .hang ∧ w'.Stalled := by
  have hops : Lasts (.live pace calls rest w.scripts.length) (library depth ops)
      (ops.length * operationTime pace calls w.scripts.length) :=
    EStateM.Spends.mapM fun op _ => lasts_operation hdepth hfit op
  have hstart : w.Affords (.live pace calls rest w.scripts.length)
      ⟨0, w.clock + ops.length * operationTime pace calls w.scripts.length,
        w.clock + elapsed ahead, w.ticks.length⟩
      (0 + ops.length * operationTime pace calls w.scripts.length) := {
    lasts := ⟨ahead, hticks, fun t ht => ⟨hpaced t ht, fun h => absurd rfl h⟩, Nat.le_refl _⟩
    still := fun bytes hbytes => absurd hbytes (Option.not_mem_none bytes)
    calls := hcalls
    scripts := Nat.le_refl _
    start := Nat.zero_le _
    left := by rw [Nat.zero_add]
    finish := Nat.add_lt_add_left hlasts _
    count := Nat.le_refl _ }
  refine (hops _ 0 w hstart).mono (fun _ w' h' => ?_) fun _ _ h' => h'
  obtain ⟨ahead', hticks', -⟩ := h'.lasts
  exact ⟨⟨ahead', hticks'.symm⟩, h'.left⟩

/-- **Every main program comes to its end**, whatever the ESP sends: with readings for more than the
time that its operations may take, and handlers that nest deep enough, it returns within this time.
It stops before only where its behaviour is undefined, or where it prints an empty frame of the
queue without end, for which the ESP must have sent a frame longer than a slot. -/
theorem library_returns_in_time {ahead : List Tick} {scripts : List (List UserOp)}
    {stray : ℕ → Memory UInt8} {depth : ℕ} (ops : List LibraryOp)
    (hpaced : ∀ t ∈ ahead, t.elapsed ≤ pace) (hcalls : ∀ script ∈ scripts, script.length ≤ calls)
    (hdepth : scripts.length < depth) (hfit : Unwrapped pace calls scripts.length)
    (hlasts : ops.length * operationTime pace calls scripts.length < elapsed ahead) :
    (library depth ops).Ends (World.powerUp (ahead ++ rest) scripts stray)
      (fun _ w => rest <:+ w.ticks ∧
        w.clock ≤ ops.length * operationTime pace calls scripts.length)
      fun h w => h = .undefined ∨ h = .hang ∧ w.Overran := by
  have hends := ends_library (w := World.powerUp (ahead ++ rest) scripts stray) ops rfl hpaced
    hcalls hdepth hfit hlasts
  refine (hends.and (library_overran_of_stalled _ _ _ depth ops)).mono ?_ ?_
  · rintro _ w ⟨⟨hsuffix, hclock⟩, -⟩
    exact ⟨hsuffix, hclock.trans (Nat.zero_add _).le⟩
  · rintro h w ⟨hundefined | ⟨rfl, hstalled⟩, hoverran⟩
    · exact .inl hundefined
    · exact .inr ⟨rfl, hoverran hstalled⟩

/-- A quiet schedule of readings every ten milliseconds.  Irreducible, since it is never written
out. -/
@[irreducible] def evenly (n : ℕ) : List Tick := List.replicate n ⟨10, []⟩

theorem elapsed_of_mem_evenly {n : ℕ} {t : Tick} (h : t ∈ evenly n) : t.elapsed = 10 := by
  unfold evenly at h
  rw [List.eq_of_mem_replicate h]

theorem elapsed_evenly (n : ℕ) : elapsed (evenly n) = n * 10 := by
  unfold evenly
  rw [elapsed, List.map_replicate, List.sum_replicate, Nat.nsmul_eq_mul]

theorem library_returns_in_time_request :
    (library 2 [.call (.wifi { Object.initial with wifi := 0 } .waitForConnectResult),
        .wfan 0 0 500]).Ends
      (.powerUp (evenly (10 ^ 10) ++ []) [[.call (.esp { Object.initial with esp := 0 } .getVcc)]]
        fun _ _ => 0)
      (fun _ w => [] <:+ w.ticks ∧ w.clock ≤ 2 * operationTime 10 1 1)
      fun h w => h = .undefined ∨ h = .hang ∧ w.Overran := by
  refine @library_returns_in_time 10 1 [] (evenly (10 ^ 10)) _ _ 2 _
    (fun t ht => (elapsed_of_mem_evenly ht).le) ?_ (by decide) (by decide) ?_
  · intro script hscript
    rw [List.mem_singleton.mp hscript]
    exact Nat.le_refl _
  · rw [elapsed_evenly]
    decide

end Programs

end Teensquitto
