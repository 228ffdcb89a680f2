import Teensquitto.Protocol.Delivery

/-!
# Asynchronous frames are dispatched in the order they were received

A frame that is dispatched straight from the port may overtake frames that wait in the ring:
`events()` looks at the port first, and hands a frame over without looking at the ring.  As
long as no frame comes that way to a ring with frames in it, the handlers are called in the
order in which the frames were received.

## Main definitions

* `Event.inTurn`: a frame that may be dispatched at once finds the ring empty
* `InOrder`: the order of the frames in the ledger

## Main results

* `World.Reachable.dispatches_in_order`: frames that come in their turn are dispatched in order
* `dispatched_out_of_order`: a frame that overtakes
-/

namespace Teensquitto

/-- A frame from the port that is processed with no request pending, or while the ESP is not
detected, finds the ring empty. -/
def Event.inTurn : Event → Bool
  | processing false data pending online backlog _ =>
    Async data → pending = false ∨ online = false → backlog = 0
  | _ => true

/-- What the order of a run rests on. -/
def Sequential (before : List Event) (e : Event) : Prop :=
  Orderly before e ∧ outstanding before ≤ 16 ∧ e.inTurn = true

instance (before : List Event) (e : Event) : Decidable (Sequential before e) :=
  inferInstanceAs (Decidable (_ ∧ _ ∧ _))

/-- The frames in progress were received before those that wait. -/
def Settled (c : Core) (L : Ledger) : Prop :=
  asyncReceived c.trace = L.dispatched ++ L.transit.reverse ++ L.waiting

/-- The innermost frame in progress was received last. -/
def Fresh (c : Core) (L : Ledger) : Prop :=
  asyncReceived c.trace =
    L.dispatched ++ L.transit.tail.reverse ++ L.waiting ++ L.transit.take 1

/-- With no frame waiting there is no difference. -/
theorem settled_iff_fresh {c : Core} {L : Ledger} (h : L.waiting = []) :
    Settled c L ↔ Fresh c L := by
  unfold Settled Fresh
  rw [h, List.append_nil, List.append_nil, List.append_assoc]
  cases L.transit with
  | nil => simp
  | cons frame transit => simp

/-- A wait lies above every frame in progress. -/
def covered : List Activity → Bool
  | [] => true
  | a :: s => a.isWait || (a.transit.isNone && covered s)

/-- The order at a frame in progress. -/
def Activity.Ordered (c : Core) (L : Ledger) : Activity → Prop
  | holding _ => Fresh c L
  | processing _ =>
    Fresh c L ∧ (c.pendingData = false ∨ c.espDetected = false → L.waiting = [])
  | detected _ => Fresh c L ∧ L.waiting = []
  | _ => (c.pendingData = true → Fresh c L) ∧ (c.pendingData = false → Settled c L)

/-- The frames of the ledger are in the order they were received in. -/
def InOrder (k : Config) (L : Ledger) : Prop :=
  match k.1 with
  | [] => Settled k.2 L
  | a :: _ =>
    if a.transit.isSome then a.Ordered k.2 L
    else Settled k.2 L ∧ (k.2.pendingData = true → L.waiting = [] ∨ covered k.1 = true)

section

variable {a : Activity} {s : List Activity} {c : Core} {L : Ledger}

theorem inOrder_of_transit {frame : List UInt8} (h : a.transit = some frame) :
    InOrder (a :: s, c) L ↔ a.Ordered c L := by
  simp [InOrder, h]

theorem inOrder_of_none (h : a.transit = none) :
    InOrder (a :: s, c) L ↔
      Settled c L ∧ (c.pendingData = true → L.waiting = [] ∨ covered (a :: s) = true) := by
  simp [InOrder, h]

/-- `events()` is not called by `processing_data` itself. -/
theorem Calling.transit_eq_none {p : Bool} (h : Calling p (a :: s)) : a.transit = none := by
  rcases h with h | ⟨-, key, t, h⟩
  · obtain ⟨rfl, -⟩ := List.cons.inj h
    rfl
  · obtain ⟨rfl, -⟩ := List.cons.inj h
    rfl

theorem Item.Sits.transit_eq_none {p : Bool} {item : Item} (h : item.Sits p (a :: s)) :
    a.transit = none := by
  cases item with
  | uart payload => exact Calling.transit_eq_none h
  | row address length =>
    obtain ⟨rfl, -⟩ := List.cons.inj h
    rfl

/-- Only a handler lies on a frame in progress. -/
theorem Activity.Sits.transit_eq_none {p : Bool} {b : Activity} (h : b.Sits p (a :: s))
    (hb : b ≠ .handler) : a.transit = none := by
  -- by the activity on top, which fixes the one beneath
  cases b with
  | main => cases h
  | handler => exact absurd rfl hb
  | method call =>
    obtain ⟨_, _, heq, huser⟩ := h
    obtain ⟨rfl, -⟩ := List.cons.inj heq
    rcases huser.eq with rfl | rfl
    · rfl
    · rfl
  | asking key | waiting key | concluding key =>
    obtain ⟨call, t, heq, -⟩ := h
    obtain ⟨rfl, -⟩ := List.cons.inj heq
    rfl
  | entering | receiving => exact Calling.transit_eq_none h
  | holding item | processing item => exact Item.Sits.transit_eq_none h
  | detected item | switching item => exact Item.Sits.transit_eq_none h
  | dispatching =>
    rcases h with h | h
    · exact Calling.transit_eq_none h
    · obtain ⟨rfl, -⟩ := List.cons.inj h
      rfl
  | popping =>
    obtain ⟨rfl, -⟩ := List.cons.inj h
    rfl

theorem Activity.Sits.still {p : Bool} {b : Activity} (h : b.Sits p s) (hb : b ≠ .handler) :
    ∀ a ∈ s.head?, a.transit = none := by
  rintro a ha
  cases s with
  | nil => cases ha
  | cons b s =>
    obtain rfl := Option.some.inj ha
    exact h.transit_eq_none hb

/-- Only handlers lie above a frame in progress. -/
theorem handler_mem {p : Bool} (h : Stacked p (a :: s)) (hs : inTransit s ≠ []) :
    .handler ∈ a :: s := by
  induction s generalizing a p with
  | nil => exact absurd rfl hs
  | cons b s ih =>
    by_cases hrest : inTransit s = []
    · have hb : b.transit ≠ none := fun hb => hs (by simp [hb, hrest])
      have ha : a = .handler := by
        by_contra ha
        exact hb (h.1.transit_eq_none ha)
      exact List.mem_cons.mpr (.inl ha.symm)
    · exact List.mem_cons_of_mem a (ih h.2 hrest)

/-- A transition that moves no frame. -/
theorem InOrder.quiet {s' : List Activity} {c' : Core} (hk : InOrder (a :: s, c) L)
    (ha : a.transit = none) (hs' : ∀ b ∈ s'.head?, b.transit = none)
    (hreceived : asyncReceived c'.trace = asyncReceived c.trace)
    (hcovered : c'.pendingData = true → covered s' = true ∨
      c.pendingData = true ∧ (covered (a :: s) = true → covered s' = true)) :
    InOrder (s', c') L := by
  obtain ⟨hsettled, hwaiting⟩ := (inOrder_of_none ha).mp hk
  have hsettled' : Settled c' L := hreceived.trans hsettled
  cases s' with
  | nil => exact hsettled'
  | cons b s' =>
    refine (inOrder_of_none (hs' b rfl)).mpr ⟨hsettled', fun hpending => ?_⟩
    rcases hcovered hpending with hcovered | ⟨hpending, hcovered⟩
    · exact .inr hcovered
    · exact (hwaiting hpending).imp_right hcovered

/-- The frames in order: those that were dispatched come first. -/
theorem InOrder.isPrefix (hk : InOrder (s, c) L) : L.dispatched <+: asyncReceived c.trace := by
  have hsettled (h : Settled c L) : L.dispatched <+: asyncReceived c.trace := by
    rw [h, List.append_assoc]
    exact List.prefix_append _ _
  have hfresh (h : Fresh c L) : L.dispatched <+: asyncReceived c.trace := by
    rw [h, List.append_assoc, List.append_assoc]
    exact List.prefix_append _ _
  -- the newest frame is still to be counted while the top activity carries it
  cases s with
  | nil => exact hsettled hk
  | cons a s =>
    cases ha : a.transit with
    | none => exact hsettled ((inOrder_of_none ha).mp hk).1
    | some frame =>
      have hordered := (inOrder_of_transit ha).mp hk
      cases a with
      | holding item => exact hfresh hordered
      | processing item => exact hfresh hordered.1
      | detected item => exact hfresh hordered.1
      | switching item =>
        by_cases hpending : c.pendingData = true
        · exact hfresh (hordered.1 hpending)
        · exact hsettled (hordered.2 (Bool.eq_false_of_not_eq_true hpending))
      | _ => cases ha

end

/-- The ledger after one more event. -/
theorem Books.step_eq {k k' : Config} {L L' : Ledger} {d d' : BoundedDeque (List UInt8) 16}
    (hb : Books k L d) (hb' : Books k' L' d') {e : Event} (h : k'.2.trace = k.2.trace ++ [e]) :
    L.step e = some L' := by
  have hrun := hb'.run
  rwa [h, Ledger.run_concat, hb.run] at hrun

/-- The ledger of a trace is unique. -/
theorem Books.ledger_eq {k k' : Config} {L L' : Ledger} {d d' : BoundedDeque (List UInt8) 16}
    (hb : Books k L d) (hb' : Books k' L' d') (h : k'.2.trace = k.2.trace) : L' = L := by
  have hrun := hb'.run
  rw [h, hb.run] at hrun
  exact (Option.some.inj hrun).symm

namespace InOrder

variable {s : List Activity} {c : Core} {L L' : Ledger} {d d' : BoundedDeque (List UInt8) 16}
  {payload : List UInt8}

theorem receive (hk : InOrder (.receiving :: s, c) L) (hasync : Async payload)
    (hL : L.step (.received payload) = some L') :
    InOrder (.holding (.uart payload) :: s, c.log (.received payload)) L' := by
  have htransit : (Activity.holding (.uart payload)).transit = some payload := if_pos hasync
  rw [Ledger.step, if_pos hasync] at hL
  obtain rfl := Option.some.inj hL
  refine (inOrder_of_transit htransit).mpr ?_
  have hsettled : Settled c L := ((inOrder_of_none rfl).mp hk).1
  show Fresh _ _
  unfold Fresh
  rw [Core.log_trace, asyncReceived_concat, hsettled]
  simp [asyncReceived, hasync]

theorem refresh (hk : InOrder (.holding (.uart payload) :: s, c) L) (hasync : Async payload)
    (hb : Books (.holding (.uart payload) :: s, c) L d) {n : UInt32}
    (hturn : (c.processing (.uart payload)).inTurn = true) :
    InOrder (.processing (.uart payload) :: s,
      { c with espSyncTimeout := n }.log (c.processing (.uart payload))) L := by
  have htransit : (Activity.holding (.uart payload)).transit = some payload := if_pos hasync
  have htransit' : (Activity.processing (.uart payload)).transit = some payload := if_pos hasync
  have hfresh : Fresh c L := (inOrder_of_transit htransit).mp hk
  refine (inOrder_of_transit htransit').mpr ⟨?_, fun hstate => ?_⟩
  · show asyncReceived _ = _
    rw [Core.log_trace, asyncReceived_concat, hfresh]
    simp [asyncReceived, Core.processing]
  · have hbacklog : c.queue.available.toNat = 0 := of_decide_eq_true hturn hasync hstate
    obtain ⟨front, hitems, -⟩ := hb.waiting
    rw [hb.represents.available_eq, hitems, List.length_append] at hbacklog
    exact List.eq_nil_of_length_eq_zero (Nat.eq_zero_of_add_eq_zero hbacklog).2

theorem queue (hk : InOrder (.switching (.uart payload) :: s, c) L) (hasync : Async payload)
    (hb : Books (.switching (.uart payload) :: s, c) L d) (hs : Calling true s)
    (hpending : c.pendingData = true) (hroom : outstanding c.trace ≤ 16) {backlog : ℕ}
    (hL : L.step (.queued payload backlog) = some L') {q : CircularBuffer 16 300} :
    InOrder (s, { c with queue := q }.log (.queued payload backlog)) L' := by
  have htransit : (Activity.switching (.uart payload)).transit = some payload := if_pos hasync
  have hfresh : Fresh c L := ((inOrder_of_transit htransit).mp hk).1 hpending
  have hframes : L.transit = payload :: inTransit s := by
    rw [hb.transit, inTransit_cons, htransit]
    rfl
  -- fewer than sixteen frames wait, so none is pushed out
  have hwaiting : L.waiting.length ≠ 16 := by
    obtain ⟨hperm, hdispatched⟩ := Ledger.perm_of_run hb.run
    have hlength := hperm.length_eq
    simp only [Ledger.frames, List.length_append, hframes, List.length_cons] at hlength
    rw [outstanding, ← hlength, ← hdispatched] at hroom
    omega
  rw [Ledger.step, hframes] at hL
  obtain rfl : _ = L' := by simpa [Ledger.queue, hwaiting] using hL
  have hsettled : Settled ({ c with queue := q }.log (.queued payload backlog))
      { L with transit := inTransit s, waiting := L.waiting ++ [payload] } := by
    show asyncReceived _ = _
    rw [Core.log_trace, asyncReceived_concat, hfresh, hframes]
    simp [asyncReceived]
  rcases hs with rfl | ⟨-, key, t, rfl⟩
  · exact (inOrder_of_none rfl).mpr ⟨hsettled, fun _ => .inr rfl⟩
  · exact (inOrder_of_none rfl).mpr ⟨hsettled, fun _ => .inr rfl⟩

theorem dispatch (hk : InOrder (.switching (.uart payload) :: s, c) L) (hasync : Async payload)
    (hb : Books (.switching (.uart payload) :: s, c) L d) (hs : inTransit s = [])
    (hpending : c.pendingData = false)
    (hL : L.step (.dispatched false payload) = some L') :
    InOrder (.dispatching :: s, c.log (.dispatched false payload)) L' := by
  have htransit : (Activity.switching (.uart payload)).transit = some payload := if_pos hasync
  have hsettled : Settled c L := ((inOrder_of_transit htransit).mp hk).2 hpending
  have hframes : L.transit = [payload] := by
    rw [hb.transit, inTransit_cons, htransit, hs]
    rfl
  rw [Ledger.step, hframes] at hL
  obtain rfl : _ = L' := by simpa using hL
  refine (inOrder_of_none rfl).mpr ⟨?_, fun h => ?_⟩
  · show asyncReceived _ = _
    rw [Core.log_trace, asyncReceived_concat, hsettled, hframes]
    simp [asyncReceived]
  · exact Bool.noConfusion (hpending.symm.trans h)

theorem dispatch_row {address length : ℕ} {data : List UInt8}
    (hk : InOrder (.switching (.row address length) :: s, c) L)
    (hb : Books (.switching (.row address length) :: s, c) L d) (hs : s = [.popping, .main])
    (hpending : c.pendingData = false)
    (hL : L.step (.dispatched true data) = some L') :
    InOrder (.dispatching :: s, c.log (.dispatched true data)) L' := by
  subst hs
  have hsettled : Settled c L := ((inOrder_of_none rfl).mp hk).1
  have hframes : L.transit = [] := hb.transit
  cases hwaiting : L.waiting with
  | nil => simp [Ledger.step, hwaiting] at hL
  | cons frame waiting =>
    rw [Ledger.step, hwaiting] at hL
    obtain ⟨rfl, heq⟩ := Option.ite_none_right_eq_some.mp hL
    obtain rfl := Option.some.inj heq
    refine (inOrder_of_none rfl).mpr ⟨?_, fun h => ?_⟩
    · show asyncReceived _ = _
      rw [Core.log_trace, asyncReceived_concat, hsettled, hframes, hwaiting]
      simp [asyncReceived]
    · exact Bool.noConfusion (hpending.symm.trans h)

/-- The frame of an item moves on, and is behind no waiting frame. -/
theorem detect (hk : InOrder (.processing (.uart payload) :: s, c) L) (hasync : Async payload)
    (h : c.espDetected = false) :
    InOrder (.detected (.uart payload) :: s, { c with espDetected := true }.log .detected) L := by
  have htransit : (Activity.processing (.uart payload)).transit = some payload := if_pos hasync
  have htransit' : (Activity.detected (.uart payload)).transit = some payload := if_pos hasync
  obtain ⟨hfresh, hwaiting⟩ := (inOrder_of_transit htransit).mp hk
  refine (inOrder_of_transit htransit').mpr ⟨?_, hwaiting (.inr h)⟩
  show asyncReceived _ = _
  rw [Core.log_trace, asyncReceived_concat, hfresh]
  simp [asyncReceived]

theorem pass (hk : InOrder (.processing (.uart payload) :: s, c) L) (hasync : Async payload) :
    InOrder (.switching (.uart payload) :: s, c) L := by
  have htransit : (Activity.processing (.uart payload)).transit = some payload := if_pos hasync
  have htransit' : (Activity.switching (.uart payload)).transit = some payload := if_pos hasync
  obtain ⟨hfresh, hwaiting⟩ := (inOrder_of_transit htransit).mp hk
  exact (inOrder_of_transit htransit').mpr
    ⟨fun _ => hfresh, fun h => (settled_iff_fresh (hwaiting (.inl h))).mpr hfresh⟩

theorem callDetect (hk : InOrder (.detected (.uart payload) :: s, c) L)
    (hasync : Async payload) {slot : Slot} {args : List Datum} :
    InOrder (.handler :: .switching (.uart payload) :: s, c.log (.handler slot args)) L := by
  have htransit : (Activity.detected (.uart payload)).transit = some payload := if_pos hasync
  obtain ⟨hfresh, hwaiting⟩ := (inOrder_of_transit htransit).mp hk
  refine (inOrder_of_none rfl).mpr ⟨?_, fun _ => .inl hwaiting⟩
  refine (?_ : asyncReceived _ = _).trans ((settled_iff_fresh hwaiting).mpr hfresh)
  simp [asyncReceived]

theorem skipDetect (hk : InOrder (.detected (.uart payload) :: s, c) L)
    (hasync : Async payload) : InOrder (.switching (.uart payload) :: s, c) L := by
  have htransit : (Activity.detected (.uart payload)).transit = some payload := if_pos hasync
  have htransit' : (Activity.switching (.uart payload)).transit = some payload := if_pos hasync
  obtain ⟨hfresh, hwaiting⟩ := (inOrder_of_transit htransit).mp hk
  exact (inOrder_of_transit htransit').mpr
    ⟨fun _ => hfresh, fun _ => (settled_iff_fresh hwaiting).mpr hfresh⟩

/-- A handler returns, perhaps to a frame at the switch. -/
theorem handlerReturns (hk : InOrder (.handler :: s, c) L) (hs : Nested (.handler :: s)) :
    InOrder (s, c) L := by
  cases s with
  | nil => exact ((inOrder_of_none rfl).mp hk).1
  | cons a s =>
    cases ha : a.transit with
    | none =>
      refine hk.quiet rfl (fun b hb => Option.some.inj hb ▸ ha) rfl fun h => .inr ⟨h, ?_⟩
      simp [covered, Activity.isWait, Activity.transit]
    | some frame =>
      obtain ⟨hsettled, hwaiting⟩ := (inOrder_of_none rfl).mp hk
      obtain ⟨item, rfl⟩ : ∃ item, a = .switching item := by
        have hcalls := hs a (by simp)
        cases a with
        | switching item => exact ⟨item, rfl⟩
        | holding item | processing item | detected item => cases hcalls
        | _ => cases ha
      refine (inOrder_of_transit ha).mpr ⟨fun h => ?_, fun _ => hsettled⟩
      -- no request ended since the detection, so that nothing was queued
      have hempty := (hwaiting h).resolve_right (by simp [covered, Activity.isWait, ha])
      exact (settled_iff_fresh hempty).mp hsettled

end InOrder

/-- An item is an asynchronous frame from the port, or carries none. -/
theorem Item.carries_or (item : Item) : (∃ payload, item = .uart payload ∧ Async payload) ∨
    (Activity.holding item).transit = none ∧ (Activity.processing item).transit = none ∧
      (Activity.detected item).transit = none ∧ (Activity.switching item).transit = none := by
  cases item with
  | uart payload =>
    by_cases hasync : Async payload
    · exact .inl ⟨payload, rfl, hasync⟩
    · exact .inr (by simp [Activity.transit, hasync])
  | row address length => exact .inr ⟨rfl, rfl, rfl, rfl⟩

/-- The invariant of sequential runs. -/
structure Lined (k : Config) : Prop where
  books : ∃ L d, Books k L d ∧ InOrder k L
  guarded : Guarded (.handler ∈ ·) k.2.pendingData k.1
  nested : Nested k.1

/-- Frames in progress lie beneath a detection handler, which runs online. -/
theorem Shape.inTransit_eq_nil {a : Activity} {s : List Activity} {c : Core}
    (h : Shape (a :: s, c)) (ha : a ≠ .handler) (hs : .handler ∉ s) : inTransit s = [] := by
  by_contra hne
  rcases List.mem_cons.mp (handler_mem h.stacked hne) with heq | hmem
  · exact ha heq.symm
  · exact hs hmem

theorem inOrder_step {k k' : Config} (h : Step k k') (hshape : Shape k) (hk : Lined k)
    (hC : Throughout Sequential k'.2.trace) {L L' : Ledger}
    {d d' : BoundedDeque (List UInt8) 16} (hb : Books k L d) (hb' : Books k' L' d')
    (horder : InOrder k L) : InOrder k' L' := by
  have hshape' := shape_step h hshape
  -- one case per transition: those that move the newest frame have a lemma, the rest are quiet
  cases h with
  | idle n =>
    obtain rfl := hb.ledger_eq hb' rfl
    exact horder
  | receive payload =>
    have hL := hb.step_eq hb' rfl
    by_cases hasync : Async payload
    · exact horder.receive hasync hL
    · rw [Ledger.step, if_neg hasync] at hL
      obtain rfl := Option.some.inj hL
      refine horder.quiet rfl (by simp [Activity.transit, hasync]) ?_ fun h => .inr ⟨h, ?_⟩
      · simp [asyncReceived, hasync]
      · simp [covered, Activity.isWait, Activity.transit, hasync]
  | enter | drain | arm | skip =>
    obtain rfl := hb.ledger_eq hb' rfl
    exact horder.quiet rfl (by simp [Activity.transit]) rfl fun h => .inr ⟨h, fun h => h⟩
  | enterWait key =>
    obtain rfl := hb.ledger_eq hb' rfl
    exact horder.quiet rfl (by simp [Activity.transit]) rfl fun h => .inl rfl
  | endWait key =>
    obtain rfl := Option.some.inj (hb.step_eq hb' rfl)
    exact horder.quiet rfl (by simp [Activity.transit]) (by simp [asyncReceived])
      fun h => Bool.noConfusion h
  | expire | poll | ask | callHandler =>
    obtain rfl := Option.some.inj (hb.step_eq hb' rfl)
    exact horder.quiet rfl (by simp [Activity.transit]) (by simp [asyncReceived])
      fun h => .inr ⟨h, by simp [covered, Activity.isWait, Activity.transit]⟩
  | onDetect ha | callAtOnce ha | call ha | refuse ha =>
    obtain rfl := Option.some.inj (hb.step_eq hb' rfl)
    rcases ha.eq with rfl | rfl
    · exact horder.quiet rfl (by simp [Activity.transit]) (by simp [asyncReceived])
        fun h => .inr ⟨h, by simp [covered, Activity.isWait, Activity.transit]⟩
    · exact horder.quiet rfl (by simp [Activity.transit]) (by simp [asyncReceived])
        fun h => .inr ⟨h, by simp [covered, Activity.isWait, Activity.transit]⟩
  | leave | skipHandler | giveUp | methodReturns =>
    obtain rfl := hb.ledger_eq hb' rfl
    exact horder.quiet rfl (hshape.stacked.1.still (by simp)) rfl
      fun h => .inr ⟨h, by simp [covered, Activity.isWait, Activity.transit]⟩
  | pop | accept =>
    obtain rfl := Option.some.inj (hb.step_eq hb' rfl)
    exact horder.quiet rfl (hshape.stacked.1.still (by simp)) (by simp [asyncReceived])
      fun h => .inr ⟨h, by simp [covered, Activity.isWait, Activity.transit]⟩
  | reply item h =>
    obtain rfl := Option.some.inj (hb.step_eq hb' rfl)
    obtain ⟨htransit, -⟩ := hb.plain h (by decide)
    exact horder.quiet htransit (hshape.stacked.1.still (by simp)) (by simp [asyncReceived])
      fun h => .inr ⟨h, by simp [covered, Activity.isWait, htransit]⟩
  | ignore item h _ hasync =>
    obtain rfl := hb.ledger_eq hb' rfl
    obtain ⟨htransit, -⟩ := hb.plain h hasync
    exact horder.quiet htransit (hshape.stacked.1.still (by simp)) rfl
      fun h => .inr ⟨h, by simp [covered, Activity.isWait, htransit]⟩
  -- with an asynchronous frame on top, or another item
  | @refresh s c item =>
    obtain rfl := Option.some.inj (hb.step_eq hb' rfl)
    rcases item.carries_or with ⟨payload, rfl, hasync⟩ | hplain
    · exact horder.refresh hasync hb (throughout_concat.mp hC).2.2.2
    · exact horder.quiet hplain.1 (by simp [hplain]) (by simp [asyncReceived, Core.processing])
        fun h => .inr ⟨h, by simp [covered, Activity.isWait, hplain]⟩
  | @detect s c item h =>
    obtain rfl := Option.some.inj (hb.step_eq hb' rfl)
    rcases item.carries_or with ⟨payload, rfl, hasync⟩ | hplain
    · refine horder.detect hasync (h.resolve_right fun hheader => ?_)
      exact not_async_of_header? hheader (by decide) hasync
    · exact horder.quiet hplain.2.1 (by simp [hplain]) (by simp [asyncReceived])
        fun h => .inr ⟨h, by simp [covered, Activity.isWait, hplain]⟩
  | @pass s c item =>
    obtain rfl := hb.ledger_eq hb' rfl
    rcases item.carries_or with ⟨payload, rfl, hasync⟩ | hplain
    · exact horder.pass hasync
    · exact horder.quiet hplain.2.1 (by simp [hplain]) rfl
        fun h => .inr ⟨h, by simp [covered, Activity.isWait, hplain]⟩
  | @callDetect s c item =>
    obtain rfl := Option.some.inj (hb.step_eq hb' rfl)
    rcases item.carries_or with ⟨payload, rfl, hasync⟩ | hplain
    · exact horder.callDetect hasync
    · exact horder.quiet hplain.2.2.1 (by simp [Activity.transit]) (by simp [asyncReceived])
        fun h => .inr ⟨h, by
          simp [covered, Activity.isWait, hplain, show Activity.handler.transit = none from rfl]⟩
  | @skipDetect s c item =>
    obtain rfl := hb.ledger_eq hb' rfl
    rcases item.carries_or with ⟨payload, rfl, hasync⟩ | hplain
    · exact horder.skipDetect hasync
    · exact horder.quiet hplain.2.2.1 (by simp [hplain]) rfl
        fun h => .inr ⟨h, by simp [covered, Activity.isWait, hplain]⟩
  | handlerReturns =>
    obtain rfl := hb.ledger_eq hb' rfl
    exact horder.handlerReturns hk.nested
  | @dispatch s c item header h hasync hpending =>
    have hL := hb.step_eq hb' rfl
    cases item with
    | uart payload =>
      -- frames beneath would lie under a detection handler, where none is dispatched
      have hs := hshape.inTransit_eq_nil (by simp)
        (hk.guarded.1.not_of_dispatch h hasync hpending)
      exact horder.dispatch (async_of_header? h hasync) hb hs hpending hL
    | row address length => exact horder.dispatch_row hb hshape.stacked.1 hpending hL
  | @queue s c item header h hasync hpending =>
    have hL := hb.step_eq hb' rfl
    cases item with
    | uart payload =>
      exact horder.queue (async_of_header? h hasync) hb hshape.stacked.1 hpending
        (throughout_concat.mp hC).2.2.1 hL
    | row address length =>
      obtain rfl := hshape.stacked.1
      exact absurd (hshape.pending hpending) (by simp [waits, Activity.isWait])

theorem lined_step {k k' : Config} (h : Step k k') (hshape : Shape k)
    (hC : Throughout Sequential k'.2.trace) (hk : Lined k) : Lined k' where
  books := by
    obtain ⟨L, d, hb, horder⟩ := hk.books
    obtain ⟨L', d', hb'⟩ := books_step h hshape (hC.mono fun _ _ h => h.1) ⟨L, d, hb⟩
    exact ⟨L', d', hb', inOrder_step h hshape hk hC hb hb' horder⟩
  guarded := guarded_step (by simp) (by simp) (fun _ _ => List.mem_cons_of_mem _) h hshape
    (fun hmem => hshape.online (List.any_eq_true.mpr ⟨_, hmem, rfl⟩)) hk.guarded
  nested := nested_step h hk.nested

theorem lined_powerUp : Lined ([.main], .powerUp) where
  books := by
    obtain ⟨L, d, hb⟩ := books_powerUp
    obtain rfl : Ledger.empty = L := Option.some.inj hb.run
    exact ⟨_, d, hb, (inOrder_of_none rfl).mpr ⟨rfl, fun h => Bool.noConfusion h⟩⟩
  guarded := ⟨trivial, trivial⟩
  nested := by
    rintro a ha
    cases ha

/-- **Asynchronous frames are dispatched in the order they were received.**  In a run in which
never more than sixteen frames are outstanding and every frame fits a slot, the dispatched
frames are the first ones that were received, as long as no frame is pushed on the full ring
while a frame of the ring is being processed, and every frame that may be dispatched at once
comes in its turn. -/
theorem World.Reachable.dispatches_in_order {w : World} (h : w.Reachable)
    (hsequential : Throughout Sequential w.trace) :
    allDispatched w.trace <+: asyncReceived w.trace := by
  obtain ⟨s, -, ⟨L, d, hb, horder⟩, -, -⟩ :=
    h.invariant lined_powerUp (fun _ _ => lined_step) hsequential
  have hprefix := horder.isPrefix
  rwa [(Ledger.perm_of_run hb.run).2] at hprefix

theorem dispatches_in_order_queueSchedule : ∃ w : World, w.Reachable ∧
    allDispatched w.trace = [[0xAF, 0xAF, 0x00, 0x01, 0x01]] ∧
    allDispatched w.trace <+: asyncReceived w.trace := by
  obtain ⟨w, hw, hdispatched, hsequential⟩ := @exists_reachable queueSchedule [] (fun _ _ => 0) 1
    [.user (.call (.spiffs anyObject .format)), .events]
    (fun w => allDispatched w.trace = [[0xAF, 0xAF, 0x00, 0x01, 0x01]] ∧
      Throughout Sequential w.trace)
    (by decide +kernel)
  exact ⟨w, hw, hdispatched, World.Reachable.dispatches_in_order hw hsequential⟩

/-! ## The frame that overtakes -/

/-- An MQTT frame arrives while a request waits, then the reply and another MQTT frame.
Irreducible, so that runs over it are evaluated only where this is asked for. -/
@[irreducible] def overtakingSchedule : List Tick :=
  ⟨0, [0x24, 0x00, 0x05, 0xAF, 0xAF, 0x00, 0x01, 0x01,
    0x24, 0x00, 0x07, 0xAA, 0x55, 0x34, 0x34, 0x03, 0x01, 0xFD,
    0x24, 0x00, 0x04, 0xAF, 0xAF, 0x01, 0x01]⟩ :: List.replicate 110 ⟨0, []⟩

/-- The second frame is dispatched while the first one waits in the ring. -/
theorem dispatched_out_of_order : ¬∀ w : World, w.Reachable →
    Throughout (fun before e => e.fitsSlot = true ∧ outstanding before ≤ 16) w.trace →
    allDispatched w.trace <+: asyncReceived w.trace := by
  intro h
  obtain ⟨w, hw, hfits, horder⟩ := @exists_reachable overtakingSchedule [] (fun _ _ => 0) 1
    [.user (.call (.spiffs anyObject .format)), .events]
    (fun w => Throughout (fun before e => e.fitsSlot = true ∧ outstanding before ≤ 16) w.trace ∧
      ¬allDispatched w.trace <+: asyncReceived w.trace)
    (by decide +kernel)
  exact horder (h w hw hfits)

end Teensquitto
