import Teensquitto.Data.History
import Teensquitto.Protocol.Simulation

/-!
# The shape of a run

What may lie beneath each activity, and what the calls in progress say about the members: a
request is pending only inside a wait, and user code behind a detection only runs online.

## Main definitions

* `Activity.Sits`, `Stacked`: what may lie beneath an activity
* `waits`: the waits in progress; `openWaits`: the same, read off a trace
* `Shape`: the invariant
* `Guarded`: frames that reach the switch above certain activities

## Main results

* `shape_step`, `guarded_step`: every transition keeps them
* `World.Reachable.invariant`: invariants of the protocol hold in every run
-/

namespace Teensquitto

/-- Where `events()` is called from: the main program, or a wait with `_pendingData` set. -/
def Calling (p : Bool) (s : List Activity) : Prop :=
  s = [.main] ∨ p = true ∧ ∃ key t, s = .waiting key :: t

/-- Where a frame is processed. -/
def Item.Sits (p : Bool) : Item → List Activity → Prop
  | uart _, s => Calling p s
  | row _ _, s => s = [.popping, .main]

/-- What may lie beneath an activity, while `p` is `_pendingData`. -/
def Activity.Sits (p : Bool) : Activity → List Activity → Prop
  | main, s => s = []
  | handler, _ => True
  | method _, s => ∃ a t, s = a :: t ∧ a.IsUser
  | asking _, s | waiting _, s | concluding _, s =>
    ∃ call t, s = .method call :: t ∧ call.waits = true
  | entering, s | receiving, s => Calling p s
  | holding item, s | processing item, s => item.Sits p s
  | detected item, s | switching item, s => item.Sits true s
  | dispatching, s => Calling true s ∨ s = [.popping, .main]
  | popping, s => s = [.main]

/-- Every activity sits on the ones beneath. -/
def Stacked (p : Bool) : List Activity → Prop
  | [] => True
  | a :: s => a.Sits p s ∧ Stacked false s

/-- The activity is an open wait. -/
def Activity.isWait : Activity → Bool
  | asking _ => true
  | waiting _ => true
  | _ => false

/-- The number of open waits. -/
def waits (s : List Activity) : ℕ := s.countP Activity.isWait

/-- The activity is only entered online, and runs no check that could end this. -/
def Activity.isOnline : Activity → Bool
  | handler => true
  | detected _ => true
  | switching _ => true
  | dispatching => true
  | _ => false

/-- Some call in progress was only entered online. -/
def runsOnline (s : List Activity) : Bool := s.any Activity.isOnline

/-- A request is written. -/
def Event.isRequest : Event → Bool
  | request _ => true
  | _ => false

/-- A wait is left. -/
def Event.isWaitEnd : Event → Bool
  | waitEnd => true
  | _ => false

/-- The waits that are open after a trace. -/
def openWaits (trace : List Event) : ℕ :=
  trace.countP Event.isRequest - trace.countP Event.isWaitEnd

/-- The shape of a configuration. -/
structure Shape (k : Config) : Prop where
  stacked : Stacked k.2.pendingData k.1
  /-- Requests are pending inside waits only. -/
  pending : k.2.pendingData = true → 0 < waits k.1
  online : runsOnline k.1 = true → k.2.espDetected = true
  count : k.2.trace.countP Event.isRequest =
    k.2.trace.countP Event.isWaitEnd + waits k.1

theorem Calling.mono {p : Bool} {s : List Activity} (h : Calling p s) : Calling true s :=
  h.imp_right fun h => ⟨rfl, h.2⟩

theorem Calling.eq_main {s : List Activity} (h : Calling false s) : s = [.main] :=
  h.resolve_right fun h => Bool.noConfusion h.1

theorem Item.Sits.mono {p : Bool} {item : Item} {s : List Activity} (h : item.Sits p s) :
    item.Sits true s := by
  cases item with
  | uart payload => exact Calling.mono h
  | row address length => exact h

/-- What sits without a request pending sits with one. -/
theorem Activity.Sits.mono {p : Bool} {a : Activity} {s : List Activity} (h : a.Sits false s) :
    a.Sits p s := by
  cases p with
  | false => exact h
  | true =>
    cases a with
    | entering | receiving => exact Calling.mono h
    | holding item | processing item => exact Item.Sits.mono h
    | _ => exact h

theorem Stacked.mono {p : Bool} {s : List Activity} (h : Stacked false s) : Stacked p s := by
  cases s with
  | nil => trivial
  | cons a s => exact ⟨h.1.mono, h.2⟩

theorem Activity.IsUser.sits {p p' : Bool} {a : Activity} {s : List Activity} (ha : a.IsUser)
    (h : a.Sits p s) : a.Sits p' s := by
  rcases ha.eq with rfl | rfl
  · exact h
  · exact h

theorem stacked_step {k k' : Config} (h : Step k k') (hk : Stacked k.2.pendingData k.1) :
    Stacked k'.2.pendingData k'.1 := by
  -- what comes on top sits on what was there, which is not touched
  cases h with
  | idle | arm | skip | endWait => exact hk
  | enter =>
    obtain ⟨rfl, hs⟩ := hk
    exact ⟨.inl rfl, rfl, hs⟩
  | enterWait key => exact ⟨.inr ⟨rfl, key, _, rfl⟩, hk⟩
  | expire | poll | receive | refresh | onDetect | refuse => exact hk
  | drain hpending =>
    have hs := hk.1
    rw [hpending] at hs
    exact ⟨by rw [hs.eq_main]; rfl, hs.eq_main, hk.2⟩
  | leave | reply | ignore | queue | skipHandler | pop | handlerReturns | accept | giveUp
  | methodReturns => exact hk.2.mono
  | detect item | pass item => exact ⟨Item.Sits.mono hk.1, hk.2⟩
  | callDetect => exact ⟨trivial, hk⟩
  | callHandler => exact ⟨trivial, hk.2⟩
  | skipDetect => exact hk
  | dispatch item =>
    cases item with
    | uart payload => exact ⟨.inl hk.1, hk.2⟩
    | row address length => exact ⟨.inr hk.1, hk.2⟩
  | callAtOnce ha => exact ⟨trivial, ha.sits hk.1, hk.2⟩
  | call ha call => exact ⟨⟨_, _, rfl, ha⟩, ha.sits hk.1, hk.2⟩
  | ask hwaits key => exact ⟨⟨_, _, rfl, hwaits⟩, hk⟩

@[simp] theorem waits_cons (a : Activity) (s : List Activity) :
    waits (a :: s) = waits s + if a.isWait = true then 1 else 0 := by
  simp [waits, List.countP_cons]

@[simp] theorem runsOnline_cons (a : Activity) (s : List Activity) :
    runsOnline (a :: s) = (a.isOnline || runsOnline s) := by
  simp [runsOnline]

theorem pending_step {k k' : Config} (h : Step k k')
    (hk : k.2.pendingData = true → 0 < waits k.1) : k'.2.pendingData = true → 0 < waits k'.1 := by
  cases h with
  | enterWait key | arm key | skip key => simp [Activity.isWait]
  | ask hwaits key => simp [Activity.isWait]
  | endWait key => exact fun h => Bool.noConfusion h
  | _ => simpa [Activity.isWait] using hk

theorem count_step {k k' : Config} (h : Step k k')
    (hk : k.2.trace.countP Event.isRequest = k.2.trace.countP Event.isWaitEnd + waits k.1) :
    k'.2.trace.countP Event.isRequest = k'.2.trace.countP Event.isWaitEnd + waits k'.1 := by
  cases h with
  | ask hwaits key =>
    simp [List.countP_append, Event.isRequest, Event.isWaitEnd, Activity.isWait] at hk ⊢
    omega
  | endWait key =>
    simp [List.countP_append, Event.isRequest, Event.isWaitEnd, Activity.isWait] at hk ⊢
    omega
  | _ =>
    simpa [List.countP_append, Core.processing, Event.isRequest, Event.isWaitEnd,
      Activity.isWait] using hk

theorem online_step {k k' : Config} (h : Step k k') (hk : Shape k) :
    runsOnline k'.1 = true → k'.2.espDetected = true := by
  have honline := hk.online
  cases h with
  | expire h =>
    -- the timer is not looked at behind a wait
    have hs := hk.stacked.1
    dsimp only at hs
    rw [h.1] at hs
    rw [hs.eq_main]
    exact fun h => Bool.noConfusion h
  | _ => simp_all [Activity.isOnline]

/-- Every transition keeps the shape. -/
theorem shape_step {k k' : Config} (h : Step k k') (hk : Shape k) : Shape k' where
  stacked := stacked_step h hk.stacked
  pending := pending_step h hk.pending
  online := online_step h hk
  count := count_step h hk.count

theorem shape_powerUp : Shape ([.main], .powerUp) :=
  ⟨⟨rfl, trivial⟩, fun h => Bool.noConfusion h, fun _ => rfl, rfl⟩

/-- The open waits of a trace are those in progress. -/
theorem Shape.openWaits_eq {k : Config} (h : Shape k) : openWaits k.2.trace = waits k.1 := by
  rw [openWaits, h.count, Nat.add_sub_cancel_left]

/-- The activity can have called another one. -/
def Activity.calls : Activity → Bool
  | main => true
  | handler => true
  | method _ => true
  | waiting _ => true
  | switching _ => true
  | popping => true
  | _ => false

/-- Every activity but the innermost has called the one above. -/
def Nested (s : List Activity) : Prop := ∀ a ∈ s.tail, a.calls = true

theorem nested_step {k k' : Config} (h : Step k k') (hk : Nested k.1) : Nested k'.1 := by
  cases h with
  | idle | expire | poll | receive | refresh | detect | pass | skipDetect | dispatch => exact hk
  | callHandler | onDetect | refuse | arm | skip | endWait => exact hk
  | leave | reply | ignore | queue | skipHandler | pop | handlerReturns | accept | giveUp
  | methodReturns => exact fun a ha => hk a (List.mem_of_mem_tail ha)
  | enter | enterWait | drain | callDetect | ask =>
    rintro a (_ | ⟨_, ha⟩)
    · rfl
    · exact hk a ha
  | callAtOnce huser | call huser =>
    rintro a (_ | ⟨_, ha⟩)
    · rcases huser.eq with rfl | rfl
      · rfl
      · rfl
    · exact hk a ha

/-! ## Invariants -/

/-- Traces only grow. -/
theorem trace_step {k k' : Config} (h : Step k k') : k.2.trace <+: k'.2.trace := by
  cases h <;> simp

/-- An invariant that every transition keeps, in runs whose events all satisfy a condition. -/
theorem Reaches.invariant {C : List Event → Event → Prop} {Inv : Config → Prop}
    (hinit : Inv ([.main], .powerUp))
    (hstep : ∀ k k', Step k k' → Shape k → Throughout C k'.2.trace → Inv k → Inv k')
    {k : Config} (h : Reaches ([.main], .powerUp) k) (hC : Throughout C k.2.trace) :
    Shape k ∧ Inv k := by
  induction h with
  | refl => exact ⟨shape_powerUp, hinit⟩
  | tail _ hlast ih =>
    obtain ⟨hshape, hinv⟩ := ih (hC.of_prefix (trace_step hlast))
    exact ⟨shape_step hlast hshape, hstep _ _ hlast hshape hC hinv⟩

/-- Invariants of the protocol hold in every run of a main program. -/
theorem World.Reachable.invariant {C : List Event → Event → Prop} {Inv : Config → Prop}
    (hinit : Inv ([.main], .powerUp))
    (hstep : ∀ k k', Step k k' → Shape k → Throughout C k'.2.trace → Inv k → Inv k')
    {w : World} (h : w.Reachable) (hC : Throughout C w.trace) :
    ∃ s, Shape (s, w.core) ∧ Inv (s, w.core) := by
  obtain ⟨s, hs⟩ := h.reaches
  exact ⟨s, Reaches.invariant hinit hstep hs hC⟩

/-! ## Guards -/

theorem Core.header?_uart {c : Core} {payload : List UInt8} {header : UInt16}
    (h : c.header? (.uart payload) = some header) :
    ∃ high low rest, payload = high :: low :: rest ∧ header = Bytes.join high low := by
  match payload, h with
  | high :: low :: rest, h => exact ⟨high, low, rest, rfl, (Option.some.inj h).symm⟩

/-- A received frame with an asynchronous header. -/
theorem async_of_header? {c : Core} {payload : List UInt8} {header : UInt16}
    (h : c.header? (.uart payload) = some header) (hasync : header ∈ asyncHeaders) :
    Async payload := by
  obtain ⟨high, low, rest, rfl, rfl⟩ := Core.header?_uart h
  exact ⟨high, low, rest, rfl, hasync⟩

theorem not_async_of_header? {c : Core} {payload : List UInt8} {header : UInt16}
    (h : c.header? (.uart payload) = some header) (hasync : header ∉ asyncHeaders) :
    ¬Async payload := by
  obtain ⟨high, low, rest, rfl, rfl⟩ := Core.header?_uart h
  rintro ⟨high', low', rest', heq, hasync'⟩
  obtain ⟨rfl, rfl, rfl⟩ : high = high' ∧ low = low' ∧ rest = rest' := by simpa using heq
  exact hasync hasync'

/-- A received frame that is not asynchronous. -/
def Item.Plain : Item → Prop
  | uart payload => ¬Async payload
  | row _ _ => False

/-- Above activities that satisfy `G` no asynchronous frame reaches the switch unless a
request is pending. -/
def Activity.Guards (G : List Activity → Prop) (p : Bool) : Activity → List Activity → Prop
  | detected item, s => G s → item.Plain
  | switching item, s => G s → p = true ∨ item.Plain
  | dispatching, s => ¬G s
  | _, _ => True

/-- Every activity is guarded. -/
def Guarded (G : List Activity → Prop) (p : Bool) : List Activity → Prop
  | [] => True
  | a :: s => a.Guards G p s ∧ Guarded G false s

section Guards

variable {G : List Activity → Prop}

theorem Activity.Guards.mono {p : Bool} {a : Activity} {s : List Activity}
    (h : a.Guards G false s) : a.Guards G p s := by
  cases a with
  | switching item => exact fun hG => .inr ((h hG).resolve_left Bool.false_ne_true)
  | _ => exact h

theorem Guarded.mono {p : Bool} {s : List Activity} (h : Guarded G false s) :
    Guarded G p s := by
  cases s with
  | nil => trivial
  | cons a s => exact ⟨h.1.mono, h.2⟩

theorem Activity.IsUser.guards {p : Bool} {a : Activity} (ha : a.IsUser) (s : List Activity) :
    a.Guards G p s := by
  rcases ha.eq with rfl | rfl
  · trivial
  · trivial

/-- An asynchronous frame does not get past its guard without a pending request. -/
theorem Activity.Guards.not_of_dispatch {c : Core} {item : Item} {header : UInt16}
    {s : List Activity} (h : (switching item).Guards G c.pendingData s)
    (hheader : c.header? item = some header) (hasync : header ∈ asyncHeaders)
    (hpending : c.pendingData = false) : ¬G s := by
  intro hG
  rcases h hG with htrue | hplain
  · rw [hpending] at htrue
    cases htrue
  · cases item with
    | uart payload => exact hplain (async_of_header? hheader hasync)
    | row address length => exact hplain

/-- Every transition keeps the guards, as long as `G` only holds online. -/
theorem guarded_step (hmain : ¬G [.main]) (hpopping : ¬G [.popping, .main])
    (hcons : ∀ a s, G s → G (a :: s)) {k k' : Config} (h : Step k k') (hk : Shape k)
    (honline : G k.1 → k.2.espDetected = true) (hg : Guarded G k.2.pendingData k.1) :
    Guarded G k'.2.pendingData k'.1 := by
  cases h with
  | idle | poll | receive | refresh | skip | endWait => exact hg
  | expire | arm | onDetect | refuse => exact hg
  | enter => exact ⟨trivial, hg⟩
  | enterWait key => exact ⟨trivial, hg⟩
  | drain => exact ⟨trivial, trivial, hg.2⟩
  | leave | reply | ignore | queue | skipHandler | pop | handlerReturns | accept | giveUp
  | methodReturns => exact hg.2.mono
  -- while `G` holds the library is online, and only a restart is detected
  | @detect s c item h =>
    refine ⟨fun hG => ?_, hg.2⟩
    have hheader := h.resolve_left (by simpa using honline (hcons _ _ hG))
    cases item with
    | uart payload => exact not_async_of_header? hheader (by decide)
    | row address length =>
      obtain rfl : s = [.popping, .main] := hk.stacked.1
      exact absurd hG hpopping
  -- `events()` was entered by a wait, as neither `main` nor a drain guards
  | @pass s c item =>
    refine ⟨fun hG => .inl ?_, hg.2⟩
    cases item with
    | uart payload =>
      rcases hk.stacked.1 with rfl | ⟨hpending, -⟩
      · exact absurd hG hmain
      · exact hpending
    | row address length =>
      obtain rfl : s = [.popping, .main] := hk.stacked.1
      exact absurd hG hpopping
  | callDetect item => exact ⟨trivial, fun hG => .inr (hg.1 hG), hg.2⟩
  | skipDetect item => exact ⟨fun hG => .inr (hg.1 hG), hg.2⟩
  | dispatch item h hasync hpending => exact ⟨hg.1.not_of_dispatch h hasync hpending, hg.2⟩
  | callHandler => exact ⟨trivial, hg.2⟩
  | callAtOnce ha => exact ⟨trivial, ha.guards _, hg.2⟩
  | call ha call => exact ⟨trivial, ha.guards _, hg.2⟩
  | ask hwaits key => exact ⟨trivial, hg⟩

end Guards

end Teensquitto
