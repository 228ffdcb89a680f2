import Teensquitto.Protocol.Shape

/-!
# No handler runs inside a wait

While a request waits, asynchronous frames are queued.  This rests on the tests that keep
methods from waiting while the ESP is not detected: a frame that comes in during a wait then
finds the library online, no detection handler runs before the switch, and `_pendingData` is
still set when the switch looks at it.

## Main definitions

* `Event.isUnguarded`: `connect(host, port)` is called offline
* `Event.isInvocation`: an asynchronous frame is on its way to its handler

## Main results

* `World.Reachable.waits_undisturbed`: without unguarded calls no handler runs inside a wait
-/

namespace Teensquitto

/-- `connect(host, port)` is called while the ESP is not detected. -/
def Event.isUnguarded : Event → Bool
  | call c online => c.isConnectHost && !online
  | _ => false

/-- An asynchronous frame is dispatched, or its handler is called. -/
def Event.isInvocation : Event → Bool
  | dispatched _ _ => true
  | handler slot _ => slot ≠ .espDetectHandler
  | _ => false

/-- No wait is open when an asynchronous frame is dispatched. -/
def Undisturbed (before : List Event) (e : Event) : Prop :=
  e.isInvocation = true → openWaits before = 0

/-- An asynchronous frame that is processed while a wait is open goes to the queue. -/
def Deferred (before : List Event) (e : Event) : Prop :=
  ∀ queued data pending online backlog time,
    before.getLast? = some (.processing queued data pending online backlog time) →
    0 < openWaits before → Async data → ∃ backlog', e = .queued data backlog'

/-- The activity is a method that waits for replies. -/
def Activity.isRequest : Activity → Bool
  | method call => call.waits
  | _ => false

/-- A method that waits for replies is in progress. -/
def busy (s : List Activity) : Bool := s.any Activity.isRequest

@[simp] theorem busy_cons (a : Activity) (s : List Activity) :
    busy (a :: s) = (a.isRequest || busy s) := by
  simp [busy]

/-- Waits belong to methods that wait. -/
theorem waits_eq_zero {p : Bool} {s : List Activity} (h : Stacked p s) (hbusy : busy s = false) :
    waits s = 0 := by
  induction s generalizing p with
  | nil => rfl
  | cons a s ih =>
    rw [busy_cons, Bool.or_eq_false_iff] at hbusy
    rw [waits_cons, ih h.2 hbusy.2]
    cases a with
    | asking key | waiting key =>
      obtain ⟨call, t, rfl, hwaits⟩ := h.1
      rw [busy_cons, Activity.isRequest, hwaits] at hbusy
      cases hbusy.2
    | _ => rfl

theorem busy_of_waits {p : Bool} {s : List Activity} (h : Stacked p s) (hwaits : 0 < waits s) :
    busy s = true := by
  by_contra hbusy
  exact Nat.ne_of_gt hwaits (waits_eq_zero h (Bool.eq_false_of_not_eq_true hbusy))

/-- The frame `data` is on its way to the queue. -/
def Turning (data : List UInt8) (p : Bool) : List Activity → Prop
  | .processing (.uart payload) :: s => payload = data ∧ busy s = true
  | .switching (.uart payload) :: s => payload = data ∧ busy s = true ∧ p = true
  | _ => False

theorem Activity.IsUser.not_turning {a : Activity} (ha : a.IsUser) {data : List UInt8} {p : Bool}
    {s : List Activity} : ¬Turning data p (a :: s) := by
  rcases ha.eq with rfl | rfl
  · exact fun h => h
  · exact fun h => h

/-- The invariant of runs without unguarded calls. -/
structure Quiet (k : Config) : Prop where
  /-- Waits run online. -/
  online : busy k.1 = true → k.2.espDetected = true
  guarded : Guarded (busy · = true) k.2.pendingData k.1
  undisturbed : Throughout Undisturbed k.2.trace
  deferred : Throughout Deferred k.2.trace
  turning : ∀ queued data pending online backlog time,
    k.2.trace.getLast? = some (.processing queued data pending online backlog time) →
    0 < openWaits k.2.trace → Async data → Turning data k.2.pendingData k.1

/-- A method that waits without a test is `connect(host, port)`. -/
theorem Call.isConnectHost_of_waits {call : Call} (hwaits : call.waits = true)
    (hguard : call.method.guard = none) : call.isConnectHost = true := by
  by_contra hhost
  have htests := (Call.tests_iff call).mpr (Bool.eq_false_of_not_eq_true hhost)
  obtain ⟨stage, hmem, hstage⟩ := List.any_eq_true.mp hwaits
  rw [Method.tests, hguard, Option.isSome_none, Bool.false_or, List.all_eq_true] at htests
  have := htests stage hmem
  rw [hstage] at this
  cases this

section Steps

variable {k k' : Config}

theorem Quiet.online_step (h : Step k k') (hshape : Shape k) (hk : Quiet k)
    (hguarded : Throughout (fun _ e => e.isUnguarded = false) k'.2.trace) :
    busy k'.1 = true → k'.2.espDetected = true := by
  have honline := hk.online
  cases h with
  | expire h =>
    -- the check looks at the timer outside of waits only
    have hs := hshape.stacked.1
    dsimp only at hs
    rw [h.1] at hs
    rw [hs.eq_main]
    exact fun h => Bool.noConfusion h
  | @call s c a ha call h =>
    intro hbusy
    rw [busy_cons, Bool.or_eq_true] at hbusy
    rcases hbusy with hwaits | hbusy
    · rcases h with h | hguard
      · exact h
      · have hhost := Call.isConnectHost_of_waits hwaits hguard
        have hevent := (throughout_concat.mp hguarded).2
        simpa [Event.isUnguarded, hhost] using hevent
    · exact honline hbusy
  | _ => simp_all [Activity.isRequest]

theorem Quiet.undisturbed_step (h : Step k k') (hshape : Shape k) (hk : Quiet k) :
    Throughout Undisturbed k'.2.trace := by
  have hquiet := hk.undisturbed
  cases h with
  | dispatch item hheader hasync hpending =>
    have hbusy := Bool.eq_false_of_not_eq_true
      (hk.guarded.1.not_of_dispatch hheader hasync hpending)
    refine throughout_concat.mpr ⟨hquiet, fun _ => ?_⟩
    rw [hshape.openWaits_eq, waits_cons]
    exact waits_eq_zero hshape.stacked.2 hbusy
  | callHandler slot args hslot =>
    have hbusy := Bool.eq_false_of_not_eq_true hk.guarded.1
    refine throughout_concat.mpr ⟨hquiet, fun _ => ?_⟩
    rw [hshape.openWaits_eq, waits_cons]
    exact waits_eq_zero hshape.stacked.2 hbusy
  | _ => simpa [throughout_concat, Undisturbed, Event.isInvocation, Core.processing] using hquiet

/-- An event behind the processing of an asynchronous frame queues the frame. -/
theorem Quiet.deferred_concat (hk : Quiet k) {e : Event} (he : ∀ data, Async data →
    Turning data k.2.pendingData k.1 → ∃ backlog, e = .queued data backlog) :
    Throughout Deferred (k.2.trace ++ [e]) :=
  throughout_concat.mpr ⟨hk.deferred, fun q d p o b t hlast hopen hasync =>
    he d hasync (hk.turning q d p o b t hlast hopen hasync)⟩

theorem Quiet.deferred_step (h : Step k k') (hk : Quiet k) :
    Throughout Deferred k'.2.trace := by
  -- only the transitions that log an event behind the processing of a frame matter
  cases h with
  | idle | enter | enterWait | drain | leave | pass | skipDetect | ignore | skipHandler
  | handlerReturns | arm | skip | giveUp | methodReturns => exact hk.deferred
  | @queue s c item =>
    refine hk.deferred_concat fun data _ hturn => ?_
    cases item with
    | uart payload =>
      obtain ⟨rfl, -⟩ := hturn
      exact ⟨_, rfl⟩
    | row address length => exact hturn.elim
  -- online the header would have to be that of a restart
  | @detect s c item h =>
    refine hk.deferred_concat fun data hasync hturn => ?_
    cases item with
    | uart payload =>
      obtain ⟨rfl, hbusy⟩ := hturn
      have hheader := h.resolve_left (by simpa using hk.online (by simp [hbusy]))
      exact absurd hasync (not_async_of_header? hheader (by decide))
    | row address length => exact hturn.elim
  | @reply s c item h =>
    refine hk.deferred_concat fun data hasync hturn => ?_
    cases item with
    | uart payload =>
      obtain ⟨rfl, -⟩ := hturn
      exact absurd hasync (not_async_of_header? h (by decide))
    | row address length => exact hturn.elim
  -- no dispatch while a request is pending
  | @dispatch s c item header h hheader hpending =>
    refine hk.deferred_concat fun data _ hturn => ?_
    cases item with
    | uart payload =>
      exact Bool.noConfusion (hpending.symm.trans hturn.2.2)
    | row address length => exact hturn.elim
  | onDetect ha | callAtOnce ha | call ha | refuse ha =>
    exact hk.deferred_concat fun _ _ hturn => absurd hturn ha.not_turning
  | _ => exact hk.deferred_concat fun _ _ hturn => hturn.elim

theorem Quiet.turning_step (h : Step k k') (hshape : Shape k) (hk : Quiet k)
    (queued : Bool) (data : List UInt8) (pending online : Bool) (backlog time : ℕ)
    (hlast : k'.2.trace.getLast? = some (.processing queued data pending online backlog time))
    (hopen : 0 < openWaits k'.2.trace) (hasync : Async data) :
    Turning data k'.2.pendingData k'.1 := by
  have hturning := hk.turning
  cases h with
  | idle => exact hturning _ _ _ _ _ _ hlast hopen hasync
  | enter | enterWait | drain | leave | skipDetect | skipHandler | handlerReturns | arm | skip
  | giveUp | methodReturns => exact (hturning _ _ _ _ _ _ hlast hopen hasync).elim
  -- the frame gets its turn here, above an open wait
  | @refresh s c item =>
    obtain ⟨-, rfl, -⟩ : _ ∧ c.bytes item = data ∧ _ := by
      simpa [Core.processing] using hlast
    have hwaits : 0 < waits s := by
      simpa [Activity.isWait] using (shape_step (.refresh item) hshape).openWaits_eq ▸ hopen
    cases item with
    | uart payload => exact ⟨rfl, busy_of_waits hshape.stacked.2 hwaits⟩
    | row address length =>
      obtain rfl : s = [.popping, .main] := hshape.stacked.1
      cases hwaits
  -- past the detection the request is still pending
  | @pass s c item =>
    have hturn := hturning _ _ _ _ _ _ hlast hopen hasync
    cases item with
    | uart payload =>
      refine ⟨hturn.1, hturn.2, ?_⟩
      rcases hshape.stacked.1 with rfl | ⟨hpending, -⟩
      · exact Bool.noConfusion hturn.2
      · exact hpending
    | row address length => exact hturn.elim
  | @ignore s c item header h hreply hheader =>
    have hturn := hturning _ _ _ _ _ _ hlast hopen hasync
    cases item with
    | uart payload =>
      obtain ⟨rfl, -⟩ := hturn
      exact absurd hasync (not_async_of_header? h hheader)
    | row address length => exact hturn.elim
  | _ => simp at hlast

theorem quiet_step (h : Step k k') (hshape : Shape k)
    (hguarded : Throughout (fun _ e => e.isUnguarded = false) k'.2.trace) (hk : Quiet k) :
    Quiet k' where
  online := hk.online_step h hshape hguarded
  guarded := guarded_step Bool.false_ne_true Bool.false_ne_true
    (fun a s hbusy => by simp [hbusy]) h hshape hk.online hk.guarded
  undisturbed := hk.undisturbed_step h hshape
  deferred := hk.deferred_step h
  turning := hk.turning_step h hshape

end Steps

theorem quiet_powerUp : Quiet ([.main], .powerUp) where
  online := fun h => Bool.noConfusion h
  guarded := ⟨trivial, trivial⟩
  undisturbed := throughout_nil
  deferred := throughout_nil
  turning := by
    intro _ _ _ _ _ _ h
    cases h

/-- **No handler runs inside a wait.**  In a run in which `connect(host, port)` is never called
while the ESP is not detected, no wait is open whenever an asynchronous frame is dispatched
or its handler called, and every asynchronous frame that is processed while a wait is open
goes to the queue. -/
theorem World.Reachable.waits_undisturbed {w : World} (h : w.Reachable)
    (hguarded : Throughout (fun _ e => e.isUnguarded = false) w.trace) :
    Throughout Undisturbed w.trace ∧ Throughout Deferred w.trace := by
  obtain ⟨s, -, hquiet⟩ := h.invariant quiet_powerUp (fun _ _ => quiet_step) hguarded
  exact ⟨hquiet.undisturbed, hquiet.deferred⟩

/-- The frame was queued. -/
def Event.isQueued : Event → Bool
  | queued _ _ => true
  | _ => false

/-- An MQTT frame arrives while a request waits.  Irreducible, so that runs over it are
evaluated only where this is asked for. -/
@[irreducible] def waitingSchedule : List Tick :=
  ⟨0, [0x24, 0x00, 0x05, 0xAF, 0xAF, 0x00, 0x01, 0x01]⟩ :: List.replicate 60 ⟨0, []⟩

theorem waits_undisturbed_waitingSchedule : ∃ w : World, w.Reachable ∧
    w.trace.any Event.isQueued = true ∧
    Throughout Undisturbed w.trace ∧ Throughout Deferred w.trace := by
  obtain ⟨w, hw, hqueued, hguarded⟩ := @exists_reachable waitingSchedule [] (fun _ _ => 0) 1
    [.user (.call (.spiffs anyObject .format))]
    (fun w => w.trace.any Event.isQueued = true ∧
      Throughout (fun _ e => e.isUnguarded = false) w.trace)
    (by decide +kernel)
  exact ⟨w, hw, hqueued, World.Reachable.waits_undisturbed hw hguarded⟩

/-! ## The unguarded call -/

/-- The handler of an asynchronous frame is called. -/
def Event.callsHandler : Event → Bool
  | handler slot _ => slot ≠ .espDetectHandler
  | _ => false

/-- An MQTT frame arrives while `connect(host, port)` waits offline.  Irreducible, so that runs
over it are evaluated only where this is asked for. -/
@[irreducible] def offlineSchedule : List Tick :=
  [⟨6000, []⟩] ++ List.replicate 9 ⟨0, []⟩ ++
    [⟨0, [0x24, 0x00, 0x05, 0xAF, 0xAF, 0x00, 0x01, 0x01]⟩] ++ List.replicate 40 ⟨0, []⟩ ++
    [⟨40000, []⟩] ++ List.replicate 5 ⟨0, []⟩

/-- With an `onDetect` handler that makes a request, the MQTT handler is called while the wait of
`connect(host, port)` is open. -/
theorem connect_calls_handler_in_wait : ¬∀ w : World, w.Reachable →
    Throughout (fun before e => e.callsHandler = true → openWaits before = 0) w.trace := by
  intro h
  obtain ⟨w, hw, hwait⟩ := @exists_reachable offlineSchedule
    [[], [.call (.spiffs anyObject .format)]] (fun _ _ => 0) 3
    [.user (.call (.mqtt anyObject (.onConnect true))), .user (.onDetect anyObject true), .events,
      .user (.call (.stream anyObject (.connectHost .empty 80)))]
    (fun w => ¬Throughout (fun before e => e.callsHandler = true → openWaits before = 0) w.trace)
    (by decide +kernel)
  exact hwait (h w hw)

end Teensquitto
