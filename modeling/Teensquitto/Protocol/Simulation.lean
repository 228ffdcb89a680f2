import Teensquitto.Device.Passing
import Teensquitto.Program.Following
import Teensquitto.Protocol.Steps

/-!
# Runs are sequences of transitions

Every function of the library follows the transitions of the protocol, over handlers that do.
A main program therefore only visits states that the protocol reaches.

## Main definitions

* `Elapses`: only time passes, for the protocol
* `World.Reachable`: the states that main programs visit

## Main results

* `follows_processingData`, `follows_eventsWith`, `follows_call`: the functions of the library
* `World.Reachable.reaches`: runs are sequences of transitions
-/

namespace Teensquitto

open EStateM Relation

/-- The program follows the protocol from the stack `pre` to the stack `post`. -/
abbrev Follows {α : Type} (m : Prog α) (pre : List Activity) (post : α → List Activity) : Prop :=
  EStateM.Follows World.core Step m pre post

/-- It does so from a given state. -/
abbrev FollowsAt {α : Type} (m : Prog α) (w : World) (pre : List Activity)
    (post : α → List Activity) : Prop :=
  EStateM.FollowsAt World.core Step m w pre post

section Rules

variable {β : Type} {w : World} {pre : List Activity}

/-- A change of the state that is one transition. -/
theorem follows_step (mid : List Activity) {f : World → World} {g : PUnit → Prog β}
    {post : β → List Activity}
    (h : ∀ rest, Step (pre ++ rest, w.core) (mid ++ rest, (f w).core))
    (hg : FollowsAt (g ⟨⟩) (f w) mid post) : FollowsAt (modify f >>= g) w pre post :=
  FollowsAt.modify_bind (fun rest => ReflTransGen.single (h rest)) hg

/-- Two changes of the state that are one transition. -/
theorem follows_step_pair (mid : List Activity) {f f' : World → World} {g : PUnit → Prog β}
    {post : β → List Activity}
    (h : ∀ rest, Step (pre ++ rest, w.core) (mid ++ rest, (f' (f w)).core))
    (hg : FollowsAt (g ⟨⟩) (f' (f w)) mid post) :
    FollowsAt (modify f >>= fun _ => modify f' >>= g) w pre post :=
  FollowsAt.modify_modify_bind (fun rest => ReflTransGen.single (h rest)) hg

/-- A transition that the program does not show. -/
theorem follows_silent (mid : List Activity) {m : Prog β} {post : β → List Activity}
    (h : ∀ rest, Step (pre ++ rest, w.core) (mid ++ rest, w.core))
    (hm : FollowsAt m w mid post) : FollowsAt m w pre post :=
  FollowsAt.silent (fun rest => ReflTransGen.single (h rest)) hm

theorem follows_return (b : β) {post : List Activity}
    (h : ∀ rest, Step (pre ++ rest, w.core) (post ++ rest, w.core)) :
    FollowsAt (pure b) w pre fun _ => post :=
  fun rest => ReflTransGen.single (h rest)

end Rules

/-! ## Programs that only take time -/

/-- Nothing the protocol is about changes, but time may pass. -/
def Elapses (w w' : World) : Prop :=
  ∃ n, w'.core = { w.core with clock := w.core.clock + n }

instance : IsPreorder World Elapses where
  refl w := ⟨0, rfl⟩
  trans := by
    rintro w w' w'' ⟨n, hn⟩ ⟨n', hn'⟩
    refine ⟨n + n', ?_⟩
    rw [hn', hn, Nat.add_assoc]

theorem Elapses.of_eq {w w' : World} (h : w'.core = w.core) : Elapses w w' := ⟨0, h⟩

theorem Elapses.reaches {w w' : World} (h : Elapses w w') (stack : List Activity) :
    Reaches (stack, w.core) (stack, w'.core) := by
  obtain ⟨n, hn⟩ := h
  rw [hn]
  exact ReflTransGen.single (Step.idle stack w.core n)

theorem follows_of_elapses {α : Type} {m : Prog α} (h : m.Along Elapses)
    (pre : List Activity) : Follows m pre fun _ => pre :=
  Follows.of_along h (fun _ _ hw stack => hw.reaches stack) pre

section Receiver

theorem elapses_advance (w : World) (t : Tick) (ticks : List Tick) :
    Elapses w (w.advance t ticks) := ⟨t.elapsed, rfl⟩

/-- Bytes, probes and NAKs are nothing to the protocol. -/
theorem elapses_receiver : BearsReceiver Elapses where
  advance := elapses_advance
  take _ := Elapses.of_eq rfl
  interval _ _ := Elapses.of_eq rfl
  latency _ _ := Elapses.of_eq rfl
  sync _ _ := Elapses.of_eq rfl
  ackNak _ _ := Elapses.of_eq rfl
  sendProbe _ := Elapses.of_eq rfl
  sendNak _ _ _ := Elapses.of_eq rfl

theorem elapses_millis : millis.Along Elapses := elapses_receiver.along_millis

theorem elapses_modify {f : World → World} (h : ∀ w, (f w).core = w.core) :
    (modify f : Prog PUnit).Along Elapses :=
  Along.modify fun w => Elapses.of_eq (h w)

theorem elapses_delay (ms : ℕ) : (delay ms).Along Elapses :=
  (along_tick elapses_advance).bind fun _ => Along.modify fun _ => ⟨ms, rfl⟩

theorem elapses_send (bytes : List UInt8) : (send bytes).Along Elapses :=
  elapses_modify fun _ => rfl

end Receiver

/-- The clock is read at the time it shows. -/
theorem ends_millis (w : World) :
    millis.Ends w (fun now w' => now = UInt32.ofNat w'.clock ∧ Elapses w w')
      fun _ w' => Elapses w w' := by
  refine (EStateM.ends_bind tick _).mpr ?_
  unfold tick
  rw [EStateM.ends_bind, EStateM.ends_get]
  cases w.ticks with
  | nil => exact refl_of Elapses w
  | cons t ticks => exact ⟨rfl, elapses_advance w t ticks⟩

/-! ## `processing_data` -/

section Processing

variable {user : Prog Unit}

theorem header?_source (w : World) (item : Item) :
    w.header? item.source = w.core.header? item := by
  cases item with
  | uart payload =>
    match payload with
    | [] => rfl
    | [_] => rfl
    | _ :: _ :: _ => rfl
  | row address length => rfl

theorem bytes_source (w : World) (item : Item) :
    (w.dataAt item.source).load 0 item.length = w.core.bytes item := by
  cases item with
  | uart payload => exact w.load_dataAt_uart payload
  | row address length =>
    refine List.ext_getElem (by simp [Item.length, Core.bytes]) fun i h _ => ?_
    rw [Memory.getElem_load]
    refine Eq.trans ?_ (Memory.getElem_load _ _ _ _ _).symm
    exact congrArg (fun j => w.queue.cabuf (address + j)) (Nat.zero_add i)

theorem queued_source (item : Item) : item.source.queued = item.queued := by
  cases item <;> rfl

/-- Reading the header is reading that of the item. -/
theorem follows_readHeader_bind {item : Item} {β : Type} {f : UInt16 → Prog β}
    {w : World} {pre : List Activity} {post : β → List Activity}
    (hf : ∀ header, w.core.header? item = some header → FollowsAt (f header) w pre post) :
    FollowsAt (readHeader item.source >>= f) w pre post := by
  unfold readHeader
  rw [bind_assoc]
  refine FollowsAt.get_bind ?_
  rw [header?_source]
  cases hheader : w.core.header? item with
  | none => exact FollowsAt.throw _
  | some header => exact hf header hheader

theorem follows_refresh (item : Item) :
    Follows (refresh item.source item.length) [.holding item] fun _ => [.processing item] := by
  intro w
  refine FollowsAt.bind_of_ends (follows_of_elapses elapses_millis [.holding item] w)
    ((ends_millis w).mono (fun _ _ h => h.1) fun _ _ _ => trivial) ?_
  rintro now w' rfl
  refine FollowsAt.get_bind (FollowsAt.of_modify_modify fun rest => ?_)
  rw [queued_source, bytes_source]
  exact ReflTransGen.single (Step.refresh item)

variable (huser : Follows user [.handler] fun _ => [.handler])

include huser

/-- The code of a handler, called and left. -/
theorem follows_user : Follows user [.handler] fun _ => [] :=
  fun w => (huser w).followed_by fun _ _ _ => ReflTransGen.single Step.handlerReturns

theorem follows_bringOnline (item : Item) (w : World)
    (h : w.core.espDetected = false ∨ w.core.header? item = some 0x8080) :
    FollowsAt (bringOnline user) w [.processing item] fun _ => [.switching item] := by
  refine follows_step_pair [.detected item] (fun rest => Step.detect item h) ?_
  refine FollowsAt.bind (follows_of_elapses (elapses_delay 1000) _ _) fun _ => ?_
  refine Follows.get_bind fun w => FollowsAt.ite (fun _ => ?_) fun _ => ?_
  · exact follows_step [.handler, .switching item] (fun rest => Step.callDetect item)
      ((follows_user huser _).frame [.switching item])
  · exact follows_return () fun rest => Step.skipDetect item

theorem follows_detection (item : Item) :
    Follows (detection user item.source) [.processing item] fun _ => [.switching item] := by
  refine Follows.get_bind fun w => FollowsAt.ite (fun honline => ?_) fun hoffline => ?_
  · refine follows_readHeader_bind fun header hheader => FollowsAt.ite (fun h => ?_) fun h => ?_
    · exact follows_bringOnline huser item w (.inr (h ▸ hheader))
    · refine follows_return () fun rest => Step.pass item honline ?_
      rw [hheader]
      exact fun he => h (Option.some.inj he)
  · exact follows_bringOnline huser item w (.inl (Bool.eq_false_of_not_eq_true hoffline))

omit huser in
theorem follows_storeReply (item : Item) (w : World)
    (h : w.core.header? item = some 0xAA55) :
    FollowsAt (storeReply item.source item.length) w [.switching item] fun _ => [] := by
  refine FollowsAt.get_bind (FollowsAt.ite (fun _ => FollowsAt.throw _) fun hlen => ?_)
  have hload : (w.dataAt item.source).load 0 (item.length - 1) = (w.core.bytes item).dropLast := by
    rw [← bytes_source, List.dropLast_eq_take, Memory.length_load, Memory.take_load _ _ (by omega)]
  refine FollowsAt.of_modify_modify fun rest => ?_
  rw [hload]
  exact ReflTransGen.single (Step.reply item h (by omega) (by omega))

omit huser in
theorem follows_queueFrame (item : Item) (w : World) {header : UInt16}
    (h : w.core.header? item = some header) (hasync : header ∈ asyncHeaders)
    (hpending : w.core.pendingData = true) :
    FollowsAt (queueFrame item.source item.length) w [.switching item] fun _ => [] := by
  refine FollowsAt.get_bind (FollowsAt.ite (fun _ => FollowsAt.throw _) fun hroom => ?_)
  refine FollowsAt.of_modify_modify fun rest => ?_
  rw [bytes_source]
  exact ReflTransGen.single (Step.queue item h hasync hpending (Nat.le_of_not_lt hroom))

/-- A handler of asynchronous frames. -/
theorem follows_invoke {slot : Slot} (hslot : slot ≠ .espDetectHandler) (args : List Datum) :
    Follows (invoke user slot args) [.dispatching] fun _ => [] := by
  refine Follows.get_bind fun w => FollowsAt.ite (fun _ => ?_) fun _ => ?_
  · refine FollowsAt.ite (fun _ => FollowsAt.throw _) fun _ => ?_
    exact follows_step [.handler] (fun rest => Step.callHandler slot args hslot)
      (follows_user huser _)
  · exact follows_return () fun rest => Step.skipHandler

theorem follows_dispatchUdp (src : Source) :
    Follows (dispatchUdp user src) [.dispatching] fun _ => [] := by
  refine Follows.get_bind fun w => FollowsAt.ite (fun _ => ?_) fun _ => ?_
  · refine FollowsAt.ite (fun _ => FollowsAt.throw _) fun _ => ?_
    exact FollowsAt.modify_bind (fun rest => ReflTransGen.refl)
      (follows_invoke huser Slot.noConfusion [] _)
  · exact follows_return () fun rest => Step.skipHandler

omit huser in
/-- No asynchronous frame calls the `onDetect` handler. -/
theorem invocation_ne_espDetectHandler (data : Memory UInt8) (len : ℕ) :
    (∀ p, mqttInvocation data len = some p → p.1 ≠ .espDetectHandler) ∧
    (∀ p, wifiInvocation data = some p → p.1 ≠ .espDetectHandler) ∧
    (∀ p, webSocketInvocation data = some p → p.1 ≠ .espDetectHandler) := by
  refine ⟨fun p hp => ?_, fun p hp => ?_, fun p hp => ?_⟩
  · unfold mqttInvocation at hp
    split at hp <;> cases hp <;> exact Slot.noConfusion
  · unfold wifiInvocation at hp
    split at hp <;> cases hp <;> exact Slot.noConfusion
  · unfold webSocketInvocation at hp
    split at hp <;> cases hp <;> exact Slot.noConfusion

theorem follows_dispatch (item : Item) (w : World) {header : UInt16}
    (h : w.core.header? item = some header) (hasync : header ∈ asyncHeaders)
    (hpending : w.core.pendingData = false) :
    FollowsAt (dispatch user item.source item.length) w [.switching item] fun _ => [] := by
  refine FollowsAt.get_bind ?_
  rw [bytes_source, queued_source]
  refine follows_step [.dispatching] (fun rest => Step.dispatch item h hasync hpending) ?_
  refine FollowsAt.ite (fun _ => follows_dispatchUdp huser _ _) fun _ => ?_
  obtain ⟨hmqtt, hwifi, hsocket⟩ :=
    invocation_ne_espDetectHandler (w.dataAt item.source) item.length
  -- the three headers end in the same call of a handler
  extract_lets invocation
  have hslot : ∀ p, invocation = some p → p.1 ≠ .espDetectHandler := by
    intro p hp
    unfold invocation at hp
    split at hp
    · exact hmqtt p hp
    split at hp
    · exact hwifi p hp
    · exact hsocket p hp
  clear_value invocation
  cases invocation with
  | none => exact follows_return () fun rest => Step.skipHandler
  | some p => exact follows_invoke huser (hslot p rfl) p.2 _

omit huser in
theorem core_statusFrame (src : Source) (w : World) : (statusFrame src w).core = w.core := by
  unfold statusFrame
  dsimp only
  split <;> (try split) <;> rfl

theorem follows_switchHeader (item : Item) :
    Follows (switchHeader user item.source item.length) [.switching item] fun _ => [] := by
  intro w
  refine follows_readHeader_bind fun header h => FollowsAt.ite (fun hreply => ?_) fun hreply => ?_
  · exact follows_storeReply item w (hreply ▸ h)
  -- a frame that is neither a reply nor asynchronous is nothing to the protocol
  have hignore (hasync : header ∉ asyncHeaders) (rest : List Activity) :
      Reaches ([.switching item] ++ rest, w.core) ([] ++ rest, w.core) :=
    ReflTransGen.single (Step.ignore item h hreply hasync)
  refine FollowsAt.ite (fun hlatency => ?_) fun _ =>
    FollowsAt.ite (fun hasync => ?_) fun hasync => ?_
  · refine FollowsAt.silent (hignore (by rw [hlatency]; decide)) ?_
    refine follows_of_elapses (elapses_millis.bind fun now => ?_) [] w
    exact elapses_modify fun _ => rfl
  · refine FollowsAt.get_bind (FollowsAt.ite (fun hpending => ?_) fun hpending => ?_)
    · exact follows_queueFrame item w h hasync hpending
    · exact follows_dispatch huser item w h hasync (Bool.eq_false_of_not_eq_true hpending)
  · refine FollowsAt.silent (hignore hasync) (FollowsAt.ite (fun _ => ?_) fun _ => ?_)
    · exact follows_of_elapses (elapses_modify (core_statusFrame item.source)) [] w
    · exact FollowsAt.ite (fun _ => FollowsAt.throw _) fun _ rest => ReflTransGen.refl

/-- **`processing_data` follows the protocol.** -/
theorem follows_processingData (item : Item) :
    Follows (processingData user item.source item.length) [.holding item] fun _ => [] :=
  (follows_refresh item).bind fun _ => (follows_detection huser item).bind fun _ =>
    follows_switchHeader huser item

end Processing

/-! ## `events()` -/

section Events

variable {process : Source → ℕ → Prog Unit}

/-- The check leaves a detection that has not run out. -/
theorem ends_timeoutCheck (w : World) (rest : List Activity) :
    timeoutCheck.Ends w
      (fun _ w' => Reaches (.entering :: rest, w.core) (.entering :: rest, w'.core) ∧
        ¬w'.core.Expired)
      fun _ w' => ∃ stack, Reaches (.entering :: rest, w.core) (stack, w'.core) := by
  unfold timeoutCheck
  rw [EStateM.ends_bind, EStateM.ends_get, EStateM.ends_ite]
  split
  · next hcheck =>
    obtain ⟨hpending, honline⟩ : w.pendingData = false ∧ w.espDetected = true := by
      simpa using hcheck
    rw [EStateM.ends_bind]
    refine (ends_millis w).mono ?_ fun _ w' h => ⟨_, h.reaches _⟩
    rintro now w' ⟨rfl, helapses⟩
    have hreaches := helapses.reaches (.entering :: rest)
    obtain ⟨n, hcore⟩ := helapses
    have hpending' : w'.core.pendingData = false := by rw [hcore]; exact hpending
    have honline' : w'.core.espDetected = true := by rw [hcore]; exact honline
    have htimeout : w'.core.espSyncTimeout = w.espSyncTimeout := by rw [hcore]; rfl
    rw [EStateM.ends_ite]
    -- the time of the reading decides, and nothing else has changed by then
    split
    · next hlate =>
      have hexpired : w'.core.Expired := ⟨hpending', honline', by rw [htimeout]; exact hlate⟩
      exact ⟨hreaches.tail (Step.expire hexpired), fun h => Bool.noConfusion h.2.1⟩
    · next hlate => exact ⟨hreaches, fun h => hlate (htimeout ▸ h.2.2)⟩
  · next hcheck => exact ⟨ReflTransGen.refl, fun h => hcheck (by simpa using ⟨h.1, h.2.1⟩)⟩

theorem follows_offlineCheck : Follows offlineCheck [.entering] fun _ => [.receiving] := by
  intro w rest
  refine (EStateM.ends_bind _ _).mpr ((ends_timeoutCheck w rest).mono ?_ fun _ _ h => h)
  rintro _ w' ⟨hreaches, hfresh⟩
  exact hreaches.tail (Step.poll hfresh)

variable (hprocess : ∀ item : Item,
  Follows (process item.source item.length) [.holding item] fun _ => [])

include hprocess

theorem follows_drainQueue : Follows (drainQueue process) [.receiving] fun _ => [] := by
  refine Follows.get_bind fun w => FollowsAt.ite (fun h => ?_) fun _ => ?_
  · obtain ⟨hpending, havailable⟩ : w.pendingData = false ∧ 0 < w.queue.available := by
      simpa using h
    refine follows_silent
      [.holding (.row w.queue.front w.queue.lengthFront.toNat), .popping]
      (fun rest => Step.drain hpending havailable) ?_
    refine ((hprocess (.row _ _) w).frame [.popping]).bind fun _ w => ?_
    exact FollowsAt.of_modify_modify fun rest => ReflTransGen.single Step.pop
  · exact follows_return () fun rest => Step.leave

/-- **`events()` follows the protocol**, over any `processing_data` that does. -/
theorem follows_eventsWith : Follows (eventsWith process) [.entering] fun _ => [] := by
  refine (follows_of_elapses elapses_receiver.along_syncController _).bind fun _ => ?_
  refine follows_offlineCheck.bind fun _ => ?_
  refine (follows_of_elapses elapses_receiver.along_uart _).bind fun r w => ?_
  have hdrain : Follows (do
      drainQueue process
      return (0 : UInt8)) [.receiving] fun _ => [] :=
    (follows_drainQueue hprocess).bind fun _ _ _ => ReflTransGen.refl
  cases r with
  | frame payload =>
    refine follows_step [.holding (.uart payload)] (fun rest => Step.receive payload) ?_
    exact (hprocess (.uart payload) _).bind fun _ _ _ => ReflTransGen.refl
  | rejected => exact follows_return _ fun rest => Step.leave
  | expired => exact follows_return _ fun rest => Step.leave
  | ack b => exact follows_return _ fun rest => Step.leave
  | nothing => exact hdrain w
  | flushed => exact hdrain w

end Events

/-! ## Requests -/

section Requests

variable {events : Prog Unit} (hevents : Follows events [.entering] fun _ => [])

include hevents

theorem follows_waitRound (key : Key) :
    Follows (waitRound events key) [.waiting key] fun _ => [.waiting key] := by
  intro w
  refine follows_step [.entering, .waiting key] (fun rest => Step.enterWait key) ?_
  refine ((hevents _).frame [.waiting key]).bind fun _ => Follows.get_bind fun w => ?_
  refine FollowsAt.ite (fun hready => ?_) fun _ _ => ReflTransGen.refl
  refine FollowsAt.ite (fun hforeign => ?_) fun _ _ => ReflTransGen.refl
  exact follows_step [.waiting key] (fun rest => Step.skip key hready hforeign)
    fun _ => ReflTransGen.refl

theorem follows_waitLoop (key : Key) (limit : ℕ) (timeout : UInt32) :
    Follows (waitLoop events key limit timeout) [.waiting key] fun _ => [.waiting key] := by
  refine Follows.get_bind fun w => ?_
  refine Follows.iterate (fun _ => FollowsAt.throw _) (fun _ => ?_) _ () w
  have hsame : Sum.elim (fun _ : Unit => [Activity.waiting key]) (fun _ : Unit => [.waiting key]) =
      fun _ => [.waiting key] := by
    funext r
    cases r <;> rfl
  rw [hsame]
  refine Follows.get_bind fun w => FollowsAt.ite (fun _ _ => ReflTransGen.refl) fun _ => ?_
  refine FollowsAt.bind (follows_of_elapses elapses_millis _ w) fun now => ?_
  refine Follows.get_bind fun w => FollowsAt.ite (fun _ => ?_) fun _ _ => ReflTransGen.refl
  exact follows_waitRound hevents key w

omit hevents in
theorem follows_conclude (key : Key) (checkLimit : ℕ) (timeout : UInt32) :
    Follows (conclude key checkLimit timeout) [.concluding key] fun _ => [] := by
  refine (follows_of_elapses elapses_millis _).bind fun now => Follows.get_bind fun w => ?_
  refine FollowsAt.ite (fun _ => follows_return _ fun rest => Step.giveUp key) fun _ => ?_
  refine FollowsAt.ite (fun h => ?_) fun _ => follows_return _ fun rest => Step.giveUp key
  obtain ⟨hready, haccepts⟩ : w.dataReadyFlag = true ∧ accepts w.storageBuffer key = true := by
    simpa using h
  exact follows_step [] (fun rest => Step.accept key hready haccepts) fun _ => ReflTransGen.refl

/-- A request follows the protocol. -/
theorem follows_awaitReply {call : Call} (hwaits : call.waits = true) (key : Key)
    (limit checkLimit : ℕ) :
    Follows (awaitReply events key limit checkLimit) [.method call] fun _ => [.method call] := by
  intro w
  refine follows_step [.asking key, .method call] (fun rest => Step.ask hwaits key) ?_
  refine FollowsAt.bind (follows_of_elapses elapses_millis _ _) fun timeout w => ?_
  refine follows_step [.waiting key, .method call] (fun rest => Step.arm key) ?_
  refine ((follows_waitLoop hevents key limit timeout _).frame [.method call]).bind fun _ w => ?_
  refine follows_step_pair [.concluding key, .method call] (fun rest => Step.endWait key) ?_
  exact (follows_conclude key checkLimit timeout _).frame [.method call]

omit hevents in
theorem elapses_writeCommand (c : Command) : (writeCommand c).Along Elapses :=
  along_get_bind fun _ => (elapses_send _).bind fun _ => Along.pure _

theorem follows_stage {call : Call} {stage : Stage} (hstage : stage ∈ call.method.stages) :
    Follows (stage.run events) [.method call] fun _ => [.method call] := by
  cases stage with
  | request active e =>
    have hwaits : call.waits = true := List.any_eq_true.mpr ⟨_, hstage, rfl⟩
    have hanswer : Follows (e.answer events) [.method call] fun _ => [.method call] :=
      (follows_of_elapses (elapses_writeCommand _) _).bind fun frame =>
        follows_awaitReply hevents hwaits _ _ _
    exact Follows.ite (hanswer.bind fun _ _ _ => ReflTransGen.refl) fun _ _ => ReflTransGen.refl
  | send active c result =>
    refine Follows.ite ?_ fun _ _ => ReflTransGen.refl
    exact (follows_of_elapses (elapses_writeCommand c) _).bind fun _ _ _ => ReflTransGen.refl
  | update active change command =>
    refine Follows.ite ?_ fun _ _ => ReflTransGen.refl
    refine fun w => FollowsAt.modify_bind (fun rest => ReflTransGen.refl) ?_
    refine FollowsAt.get_bind ?_
    exact FollowsAt.bind (follows_of_elapses (elapses_writeCommand _) _ _)
      fun _ _ _ => ReflTransGen.refl
  | undefined active => exact Follows.ite (fun _ => FollowsAt.throw _) fun _ _ => ReflTransGen.refl

theorem follows_runStages {call : Call} (otherwise : Value) {stages : List Stage}
    (hstages : ∀ stage ∈ stages, stage ∈ call.method.stages) :
    Follows (runStages events otherwise stages) [.method call] fun _ => [.method call] := by
  induction stages with
  | nil => exact fun _ _ => ReflTransGen.refl
  | cons stage stages ih =>
    refine (follows_stage hevents (hstages stage List.mem_cons_self)).bind fun v => ?_
    cases v with
    | some v => exact fun _ _ => ReflTransGen.refl
    | none => exact ih fun stage' hmem => hstages stage' (List.mem_cons_of_mem stage hmem)

/-- **A call follows the protocol.** -/
theorem follows_call {a : Activity} (ha : a.IsUser) (call : Call) :
    Follows (call.run events) [a] fun _ => [a] := by
  have hstages (w : World) : FollowsAt (runStages events call.method.otherwise call.method.stages)
      w [.method call, a] fun _ => [a] :=
    (FollowsAt.frame (follows_runStages hevents _ (fun _ h => h) w) [a]).followed_by
      fun _ _ _ => ReflTransGen.single (Step.methodReturns call)
  refine Follows.get_bind fun w => ?_
  unfold Method.run
  cases hguard : call.method.guard with
  | none =>
    refine follows_step [.method call, a] (fun rest => Step.call ha call (.inr hguard)) ?_
    exact hstages _
  | some v =>
    by_cases honline : w.espDetected = true
    · refine follows_step [.method call, a] (fun rest => Step.call ha call (.inl honline)) ?_
      exact FollowsAt.get_bind (FollowsAt.ite (fun _ => hstages _) fun h => absurd honline h)
    · refine follows_step [a] (fun rest => Step.refuse ha call) ?_
      exact FollowsAt.get_bind (FollowsAt.ite (fun h => absurd h honline) fun _ _ =>
        ReflTransGen.refl)

end Requests

/-! ## User code -/

section UserCode

variable {user : Prog Unit}

/-- `events()` over handlers that follow the protocol. -/
theorem follows_events (huser : Follows user [.handler] fun _ => [.handler]) :
    Follows (do let _ ← events user : Prog Unit) [.entering] fun _ => [] :=
  (follows_eventsWith (follows_processingData huser)).bind fun _ _ _ => ReflTransGen.refl

theorem follows_userOp (huser : Follows user [.handler] fun _ => [.handler]) {a : Activity}
    (ha : a.IsUser) (op : UserOp) : Follows (op.run user) [a] fun _ => [a] := by
  cases op with
  | call c =>
    exact (follows_call (follows_events huser) ha c).bind fun _ _ _ => ReflTransGen.refl
  | onDetect o handler =>
    refine Follows.ite (Follows.get_bind fun w => ?_) fun _ _ => ReflTransGen.refl
    by_cases hcall : (w.espDetected && handler) = true
    · have honline : w.espDetected = true := (Bool.and_eq_true _ _ ▸ hcall).1
      refine follows_step_pair [.handler, a] (fun rest => Step.callAtOnce ha honline) ?_
      rw [if_pos hcall]
      exact FollowsAt.frame (follows_user huser _) [a]
    · refine follows_step_pair [a] (fun rest => Step.onDetect ha) ?_
      rw [if_neg hcall]
      exact fun _ => ReflTransGen.refl

/-- The code of a handler follows the protocol, however deep handlers nest. -/
theorem follows_userCode (depth : ℕ) :
    Follows (userCode depth) [.handler] fun _ => [.handler] := by
  induction depth with
  | zero => exact fun _ => FollowsAt.throw _
  | succ depth ih =>
    have hscript : nextScript.Along Elapses := fun w => Elapses.of_eq rfl
    refine (follows_of_elapses hscript _).bind fun script => ?_
    exact Follows.forM fun op _ => follows_userOp ih (a := .handler) trivial op

theorem follows_mainOp (depth : ℕ) (op : MainOp) :
    Follows (op.run depth) [.main] fun _ => [.main] := by
  cases op with
  | events =>
    intro w
    refine follows_silent [.entering, .main] (fun rest => Step.enter) ?_
    exact FollowsAt.frame (follows_events (follows_userCode depth) w) [.main]
  | user op => exact follows_userOp (follows_userCode depth) (a := .main) trivial op

/-- A main program follows the protocol. -/
theorem follows_session (depth : ℕ) (ops : List MainOp) :
    Follows (session depth ops) [.main] fun _ => [.main] :=
  Follows.forM fun op _ => follows_mainOp depth op

end UserCode

/-! ## Runs -/

/-- The protocol's view of the state at power-up. -/
def Core.powerUp : Core := (World.powerUp [] [] fun _ _ => 0).core

/-- The state is visited by a main program, after power-up in some environment: the program
ends in it, or the readings of clock and port end there. -/
def World.Reachable (w : World) : Prop :=
  ∃ ticks scripts stray depth ops, (session depth ops).Ends (World.powerUp ticks scripts stray)
    (fun _ w' => w' = w) fun _ w' => w' = w

/-- Where a main program ends, or the readings end, is reachable. -/
theorem exists_reachable {ticks : List Tick} {scripts : List (List UserOp)}
    {stray : ℕ → Memory UInt8} {depth : ℕ} {ops : List MainOp} {P : World → Prop}
    (h : (session depth ops).Ends (World.powerUp ticks scripts stray) (fun _ w => P w)
      fun _ w => P w) : ∃ w : World, w.Reachable ∧ P w := by
  unfold EStateM.Ends at h
  cases hrun : (session depth ops).run (World.powerUp ticks scripts stray) with
  | ok u w =>
    rw [hrun] at h
    refine ⟨w, ⟨ticks, scripts, stray, depth, ops, ?_⟩, h⟩
    unfold EStateM.Ends
    rw [hrun]
  | error e w =>
    rw [hrun] at h
    refine ⟨w, ⟨ticks, scripts, stray, depth, ops, ?_⟩, h⟩
    unfold EStateM.Ends
    rw [hrun]

/-- **Runs are sequences of transitions.** -/
theorem World.Reachable.reaches {w : World} (h : w.Reachable) :
    ∃ stack, Reaches ([.main], .powerUp) (stack, w.core) := by
  obtain ⟨ticks, scripts, stray, depth, ops, hends⟩ := h
  have hfollows := follows_session depth ops (World.powerUp ticks scripts stray) []
  unfold EStateM.Ends at hends hfollows
  cases hrun : (session depth ops).run (World.powerUp ticks scripts stray) with
  | ok u w' =>
    rw [hrun] at hends hfollows
    exact ⟨[.main], hends ▸ hfollows⟩
  | error e w' =>
    rw [hrun] at hends hfollows
    exact hends ▸ hfollows

/-- An object with several roles, for runs on fixed inputs. -/
def anyObject : Object :=
  { Object.initial with esp := 0, spiffs := true, mqttSupport := true, wificlient := 0 }

end Teensquitto
