import Teensquitto.CircularBuffer.Refinement
import Teensquitto.Device.Effects
import Teensquitto.Protocol.Shape

/-!
# Every asynchronous frame is delivered once

A ledger follows the trace of a run.  An asynchronous frame that is received is in transit;
from there it is dispatched or starts to wait; a waiting frame is dispatched, or discarded
when another frame comes to sixteen that wait.  The library keeps this ledger as long as no
frame is pushed on the full ring while a frame of the ring is being processed.

## Main definitions

* `Ledger`, `Ledger.step`: where each frame is, and what an event does to it
* `Books`: the calls in progress and the ring agree with the ledger

## Main results

* `Ledger.perm_of_run`: no frame is lost or doubled in a ledger
* `World.Reachable.delivers_once`: the library keeps the ledger
* `World.Reachable.dispatch_calls`: a frame that is dispatched calls its handler
-/

namespace Teensquitto

instance : DecidablePred Async
  | [] => isFalse (by rintro ⟨high, low, rest, h, -⟩; cases h)
  | [_] => isFalse (by rintro ⟨high, low, rest, h, -⟩; cases h)
  | high :: low :: rest =>
    decidable_of_iff (Bytes.join high low ∈ asyncHeaders)
      ⟨fun h => ⟨high, low, rest, rfl, h⟩, by
        rintro ⟨high', low', rest', heq, h⟩
        obtain ⟨rfl, rfl, rfl⟩ : high = high' ∧ low = low' ∧ rest = rest' := by simpa using heq
        exact h⟩

/-! ## The ledger -/

/-- Where the asynchronous frames of a run are. -/
structure Ledger where
  /-- Received, and neither queued nor dispatched; the last one first. -/
  transit : List (List UInt8)
  /-- Queued and not dispatched; the oldest one first. -/
  waiting : List (List UInt8)
  dispatched : List (List UInt8)
  discarded : List (List UInt8)
  deriving DecidableEq

namespace Ledger

/-- No frame was received. -/
def empty : Ledger := ⟨[], [], [], []⟩

/-- A frame starts to wait.  Of sixteen that wait the oldest one is discarded. -/
def queue (L : Ledger) (data : List UInt8) (transit : List (List UInt8)) : Ledger :=
  if L.waiting.length = 16 then
    { L with
      transit := transit, waiting := L.waiting.tail ++ [data]
      discarded := L.discarded ++ L.waiting.take 1 }
  else { L with transit := transit, waiting := L.waiting ++ [data] }

/-- What an event does to the frames: nothing when it takes a frame from where it is not. -/
def step (L : Ledger) : Event → Option Ledger
  | .received payload =>
    some (if Async payload then { L with transit := payload :: L.transit } else L)
  | .queued data _ =>
    match L.transit with
    | frame :: transit => if frame = data then some (L.queue data transit) else none
    | [] => none
  | .dispatched false data =>
    match L.transit with
    | frame :: transit =>
      if frame = data then
        some { L with transit := transit, dispatched := L.dispatched ++ [data] }
      else none
    | [] => none
  | .dispatched true data =>
    match L.waiting with
    | frame :: waiting =>
      if frame = data then
        some { L with waiting := waiting, dispatched := L.dispatched ++ [data] }
      else none
    | [] => none
  | _ => some L

/-- The ledger after a trace. -/
def run (trace : List Event) : Option Ledger := trace.foldlM step empty

theorem run_concat (trace : List Event) (e : Event) :
    run (trace ++ [e]) = (run trace).bind fun L => L.step e := by
  simp [run, List.foldlM_append]

end Ledger

/-- The asynchronous frames that were received. -/
def asyncReceived (trace : List Event) : List (List UInt8) :=
  trace.filterMap fun
    | .received payload => if Async payload then some payload else none
    | _ => none

/-- The frames that were dispatched. -/
def allDispatched (trace : List Event) : List (List UInt8) :=
  trace.filterMap fun
    | .dispatched _ data => some data
    | _ => none

theorem asyncReceived_concat (trace : List Event) (e : Event) :
    asyncReceived (trace ++ [e]) = asyncReceived trace ++ asyncReceived [e] :=
  List.filterMap_append

theorem allDispatched_concat (trace : List Event) (e : Event) :
    allDispatched (trace ++ [e]) = allDispatched trace ++ allDispatched [e] :=
  List.filterMap_append

namespace Ledger

/-- The frames of a ledger, wherever they are. -/
def frames (L : Ledger) : List (List UInt8) :=
  L.dispatched ++ L.discarded ++ L.transit ++ L.waiting

/-- A frame that starts to wait stays in the ledger. -/
theorem frames_queue {L : Ledger} {data : List UInt8} {transit : List (List UInt8)}
    (h : L.transit = data :: transit) : (L.queue data transit).frames.Perm L.frames := by
  have hmove (l : List (List UInt8)) : (transit ++ (l ++ [data])).Perm (data :: transit ++ l) := by
    rw [← List.append_assoc]
    exact List.perm_append_singleton data (transit ++ l)
  unfold queue frames
  rw [h]
  split
  · rename_i hfull
    -- the oldest frame moves to the discarded ones
    obtain ⟨oldest, rest, hwaiting⟩ := List.exists_cons_of_length_eq_add_one hfull
    simp only [hwaiting, List.tail_cons, List.take_succ_cons, List.take_zero, List.append_assoc]
    refine List.Perm.append_left _ (List.Perm.append_left _ ?_)
    exact ((hmove rest).append_left [oldest]).trans
      (List.perm_middle : (data :: transit ++ oldest :: rest).Perm _).symm
  · simp only [List.append_assoc]
    exact List.Perm.append_left _ (List.Perm.append_left _ (hmove _))

/-- What is received is added to the frames of a ledger, and nothing else is. -/
theorem frames_step {L L' : Ledger} {e : Event} (h : L.step e = some L') :
    L'.frames.Perm (asyncReceived [e] ++ L.frames) ∧
      L'.dispatched = L.dispatched ++ allDispatched [e] := by
  -- a frame that moves from one place of the ledger to another
  have hmove (a : List UInt8) (l₁ l₂ l₃ l₄ : List (List UInt8)) :
      (l₁ ++ [a] ++ l₂ ++ l₃ ++ l₄).Perm (l₁ ++ l₂ ++ (a :: l₃) ++ l₄) := by
    simp only [List.append_assoc, List.singleton_append]
    exact List.Perm.append_left l₁ (by simpa using (@List.perm_middle _ _ l₂ _).symm)
  cases e with
  | received payload =>
    obtain rfl := Option.some.inj h
    by_cases hasync : Async payload
    · simp only [hasync, if_true, asyncReceived, allDispatched, List.filterMap_cons,
        List.filterMap_nil, frames, List.append_nil, and_true]
      simpa using @List.perm_middle _ _ (L.dispatched ++ L.discarded) _
    · simp [hasync, asyncReceived, allDispatched]
  | queued data backlog =>
    obtain ⟨frame, transit, htransit, heq⟩ : ∃ frame transit, L.transit = frame :: transit ∧
        (if frame = data then some (L.queue data transit) else none) = some L' := by
      cases htransit : L.transit <;> simp_all [step]
    obtain ⟨rfl, heq⟩ := Option.ite_none_right_eq_some.mp heq
    obtain rfl := Option.some.inj heq
    refine ⟨by simpa [asyncReceived] using frames_queue htransit, ?_⟩
    unfold queue
    split <;> simp [allDispatched]
  | dispatched queued data =>
    -- from the calls in progress, or from the ring
    cases queued with
    | false =>
      obtain ⟨frame, transit, htransit, heq⟩ : ∃ frame transit, L.transit = frame :: transit ∧
          (if frame = data then
            some { L with transit := transit, dispatched := L.dispatched ++ [data] }
          else none) = some L' := by
        cases htransit : L.transit <;> simp_all [step]
      obtain ⟨rfl, heq⟩ := Option.ite_none_right_eq_some.mp heq
      obtain rfl := Option.some.inj heq
      refine ⟨?_, rfl⟩
      simpa [frames, htransit, asyncReceived] using hmove frame L.dispatched _ _ _
    | true =>
      obtain ⟨frame, waiting, hwaiting, heq⟩ : ∃ frame waiting, L.waiting = frame :: waiting ∧
          (if frame = data then
            some { L with waiting := waiting, dispatched := L.dispatched ++ [data] }
          else none) = some L' := by
        cases hwaiting : L.waiting <;> simp_all [step]
      obtain ⟨rfl, heq⟩ := Option.ite_none_right_eq_some.mp heq
      obtain rfl := Option.some.inj heq
      refine ⟨?_, rfl⟩
      simpa [frames, hwaiting, asyncReceived] using
        hmove frame L.dispatched (L.discarded ++ L.transit) [] waiting
  | _ =>
    obtain rfl := Option.some.inj h
    simp [asyncReceived, allDispatched]

/-- **A ledger loses and doubles no frame.** -/
theorem perm_of_run {trace : List Event} {L : Ledger} (h : run trace = some L) :
    L.frames.Perm (asyncReceived trace) ∧ L.dispatched = allDispatched trace := by
  induction trace using List.reverseRecOn generalizing L with
  | nil =>
    obtain rfl : empty = L := Option.some.inj h
    exact ⟨List.Perm.refl _, rfl⟩
  | append_singleton trace e ih =>
    rw [run_concat, Option.bind_eq_some_iff] at h
    obtain ⟨before, hbefore, hstep⟩ := h
    obtain ⟨hperm, hdispatched⟩ := ih hbefore
    obtain ⟨hperm', hdispatched'⟩ := frames_step hstep
    rw [asyncReceived_concat, allDispatched_concat, hdispatched', hdispatched]
    refine ⟨hperm'.trans ?_, rfl⟩
    exact List.perm_append_comm.trans (hperm.append_right _)

end Ledger

/-! ## The calls in progress -/

/-- The asynchronous frame that an activity takes to the switch. -/
def Activity.transit : Activity → Option (List UInt8)
  | holding (.uart payload) | processing (.uart payload) | detected (.uart payload)
  | switching (.uart payload) => if Async payload then some payload else none
  | _ => none

/-- The frame in the ring that an activity takes to the switch. -/
def Activity.row? : Activity → Option (ℕ × ℕ)
  | holding (.row address length) | processing (.row address length)
  | detected (.row address length) | switching (.row address length) => some (address, length)
  | _ => none

/-- The activity is in the queue branch of `events()`. -/
def Activity.isPopping : Activity → Bool
  | popping => true
  | _ => false

/-- The received asynchronous frames that are in progress, the innermost first. -/
def inTransit (s : List Activity) : List (List UInt8) := s.filterMap Activity.transit

/-- The frames of the ring that are in progress and not dispatched. -/
def fetched (s : List Activity) : List (ℕ × ℕ) := s.filterMap Activity.row?

/-- A frame of the ring is in progress. -/
def drains (s : List Activity) : Bool := s.any Activity.isPopping

@[simp] theorem inTransit_cons (a : Activity) (s : List Activity) :
    inTransit (a :: s) = a.transit.toList ++ inTransit s := by
  cases h : a.transit with
  | none => simp [inTransit, h]
  | some frame => simp [inTransit, h]

@[simp] theorem fetched_cons (a : Activity) (s : List Activity) :
    fetched (a :: s) = a.row?.toList ++ fetched s := by
  cases h : a.row? with
  | none => simp [fetched, h]
  | some row => simp [fetched, h]

@[simp] theorem drains_cons (a : Activity) (s : List Activity) :
    drains (a :: s) = (a.isPopping || drains s) := by
  simp [drains]

/-- Frames of the ring are only in progress inside the queue branch of `events()`. -/
theorem drains_of_fetched {p : Bool} {s : List Activity} (h : Stacked p s)
    (hfetched : fetched s ≠ []) : drains s = true := by
  induction s generalizing p with
  | nil => exact absurd rfl hfetched
  | cons a s ih =>
    rw [drains_cons, Bool.or_eq_true]
    by_cases hs : fetched s = []
    · rw [fetched_cons, hs, List.append_nil] at hfetched
      refine .inr ?_
      cases a with
      | holding item | processing item | detected item | switching item =>
        cases item with
        | uart payload => exact absurd rfl hfetched
        | row address length =>
          obtain rfl : s = [.popping, .main] := h.1
          rfl
      | _ => exact absurd rfl hfetched
    · exact .inr (ih h.2 hs)

/-- A frame of the ring is being processed after this trace. -/
def draining (trace : List Event) : Bool :=
  trace.foldl (fun draining e =>
    match e with
    | .processing true .. => true
    | .popped => false
    | _ => draining) false

theorem draining_concat (trace : List Event) (e : Event) :
    draining (trace ++ [e]) = match e with
      | .processing true .. => true
      | .popped => false
      | _ => draining trace := by
  rw [draining, List.foldl_append]
  rfl

/-- A received asynchronous frame fits a slot of the queue. -/
def Event.fitsSlot : Event → Bool
  | received payload => Async payload → payload.length ≤ 300
  | _ => true

/-- No frame is pushed on the full ring while a frame of the ring is being processed. -/
def keepsFront (before : List Event) : Event → Bool
  | .queued _ backlog => backlog = 16 → draining before = false
  | _ => true

/-- The frame of the ring is not yet being processed. -/
def startsFetch : List Activity → Bool
  | .holding (.row _ _) :: _ => true
  | _ => false

/-- The calls in progress and the ring agree with the ledger. -/
structure Books (k : Config) (L : Ledger) (d : BoundedDeque (List UInt8) 16) : Prop where
  run : Ledger.run k.2.trace = some L
  transit : L.transit = inTransit k.1
  fits : ∀ frame ∈ L.transit, frame.length ≤ 300
  represents : k.2.queue.Represents d
  async : ∀ frame ∈ d.items, Async frame
  /-- In front of the waiting frames the ring holds the one that was dispatched from it. -/
  waiting : ∃ front, d.items = front ++ L.waiting ∧
    front.length = if drains k.1 = true ∧ fetched k.1 = [] then 1 else 0
  /-- A frame that is taken from the ring is still the first one. -/
  rows : ∀ row ∈ fetched k.1,
    d.items ≠ [] ∧ row = (k.2.queue.front, k.2.queue.lengthFront.toNat)
  draining : drains k.1 = true → draining k.2.trace = true ∨ startsFetch k.1 = true

namespace Books

variable {k k' : Config} {L : Ledger} {d : BoundedDeque (List UInt8) 16} {item : Item}

/-- A transition that neither moves a frame nor changes the ring. -/
theorem same (hb : Books k L d) (hrun : Ledger.run k'.2.trace = some L)
    (htransit : inTransit k'.1 = inTransit k.1) (hfetched : fetched k'.1 = fetched k.1)
    (hdrains : drains k'.1 = drains k.1) (hqueue : k'.2.queue = k.2.queue)
    (hdraining : drains k'.1 = true →
      Teensquitto.draining k'.2.trace = true ∨ startsFetch k'.1 = true) : Books k' L d where
  run := hrun
  transit := hb.transit.trans htransit.symm
  fits := hb.fits
  represents := hqueue ▸ hb.represents
  async := hb.async
  waiting := by
    rw [hfetched, hdrains]
    exact hb.waiting
  rows := by
    rw [hfetched, hqueue]
    exact hb.rows
  draining := hdraining

/-- The first frame of the ring is what the queue branch of `events()` processes. -/
theorem fetched_frame (hb : Books k L d) {address length : ℕ}
    (hrow : (address, length) ∈ fetched k.1) :
    ∃ frame rest header, d.items = frame :: rest ∧ header ∈ asyncHeaders ∧
      k.2.bytes (.row address length) = frame ∧
      k.2.header? (.row address length) = some header := by
  obtain ⟨hne, heq⟩ := hb.rows _ hrow
  obtain ⟨rfl, rfl⟩ := Prod.mk.inj heq
  obtain ⟨frame, rest, hitems⟩ := List.exists_cons_of_ne_nil hne
  have hhead : d.items.head? = some frame := by rw [hitems, List.head?_cons]
  obtain ⟨hlength, hfront⟩ := hb.represents.front_eq (k := 4) rfl hhead
  obtain ⟨high, low, tail, rfl, hasync⟩ := hb.async frame (by simp [hitems])
  refine ⟨_, rest, Bytes.join high low, hitems, hasync, ?_, ?_⟩
  · rw [Core.bytes, hlength, hfront]
  · rw [List.length_cons, List.length_cons, Memory.load_succ', Memory.load_succ'] at hfront
    obtain ⟨hhigh, hlow⟩ := by simpa using hfront
    rw [Core.header?, hhigh, hlow.1]

/-- A frame of the ring gets through the switch to its handler. -/
theorem header_mem (hb : Books k L d) {address length : ℕ} {header : UInt16}
    (hrow : (address, length) ∈ fetched k.1)
    (h : k.2.header? (.row address length) = some header) : header ∈ asyncHeaders := by
  obtain ⟨-, -, header', -, hasync, -, hheader⟩ := hb.fetched_frame hrow
  rw [hheader] at h
  exact Option.some.inj h ▸ hasync

variable {s : List Activity} {c : Core}

/-- A frame that is no asynchronous one leaves the switch. -/
theorem plain (hb : Books (.switching item :: s, c) L d) {header : UInt16}
    (h : c.header? item = some header) (hasync : header ∉ asyncHeaders) :
    (Activity.switching item).transit = none ∧ (Activity.switching item).row? = none := by
  cases item with
  | uart payload => exact ⟨if_neg (not_async_of_header? h hasync), rfl⟩
  | row address length => exact absurd (hb.header_mem (by simp [Activity.row?]) h) hasync

theorem receive (hb : Books (.receiving :: s, c) L d) {payload : List UInt8}
    (hfits : Async payload → payload.length ≤ 300) :
    ∃ L', Books (.holding (.uart payload) :: s, c.log (.received payload)) L' d := by
  have hdraining : drains s = true → Teensquitto.draining c.trace = true := fun h =>
    (hb.draining h).resolve_right Bool.false_ne_true
  -- an asynchronous frame is in transit from now on, another one never
  by_cases hasync : Async payload
  · refine ⟨{ L with transit := payload :: L.transit }, ?_⟩
    refine ⟨?_, ?_, ?_, hb.represents, hb.async, hb.waiting, hb.rows, ?_⟩
    · simp [Ledger.run_concat, hb.run, Ledger.step, hasync]
    · simp [hb.transit, Activity.transit, hasync]
    · rintro frame (_ | ⟨_, hmem⟩)
      · exact hfits hasync
      · exact hb.fits frame hmem
    · intro h
      rw [Core.log_trace, draining_concat]
      exact .inl (hdraining h)
  · refine ⟨L, hb.same ?_ ?_ rfl rfl rfl ?_⟩
    · simp [Ledger.run_concat, hb.run, Ledger.step, hasync]
    · simp [Activity.transit, hasync]
    · intro h
      rw [Core.log_trace, draining_concat]
      exact .inl (hdraining h)

theorem drain (hb : Books (.receiving :: s, c) L d) (hs : s = [.main])
    (havailable : 0 < c.queue.available) :
    Books (.holding (.row c.queue.front c.queue.lengthFront.toNat) :: .popping :: s, c) L d := by
  subst hs
  obtain ⟨front, hitems, hlength⟩ := hb.waiting
  have hne : d.items ≠ [] := by
    rw [UInt16.lt_iff_toNat_lt, hb.represents.available_eq] at havailable
    exact List.ne_nil_of_length_pos havailable
  exact ⟨hb.run, hb.transit, hb.fits, hb.represents, hb.async, ⟨front, hitems, hlength⟩,
    by simp [Activity.row?, fetched, hne], fun _ => .inr rfl⟩

theorem refresh (hb : Books (.holding item :: s, c) L d) (n : UInt32) :
    Books (.processing item :: s, { c with espSyncTimeout := n }.log (c.processing item)) L d := by
  refine hb.same ?_ ?_ ?_ rfl rfl ?_
  · simp [Ledger.run_concat, hb.run, Ledger.step, Core.processing]
  · cases item <;> rfl
  · cases item <;> rfl
  · intro h
    rw [Core.log_trace, draining_concat]
    cases item with
    | uart payload => exact .inl ((hb.draining h).resolve_right Bool.false_ne_true)
    | row address length => exact .inl rfl

theorem pop (hb : Books (.popping :: s, c) L d) (hs : s = [.main]) :
    Books (s, { c with queue := c.queue.popFront }.log .popped) L d.popFront := by
  subst hs
  obtain ⟨front, hitems, hlength⟩ := hb.waiting
  obtain ⟨frame, rfl⟩ := List.length_eq_one_iff.mp hlength
  have hne : d.items ≠ [] := by
    rw [hitems]
    exact List.cons_ne_nil _ _
  refine ⟨?_, hb.transit, hb.fits, hb.represents.popFront (k := 4) rfl hne, ?_, ⟨[], ?_, rfl⟩,
    ?_, ?_⟩
  · simp [Ledger.run_concat, hb.run, Ledger.step]
  · exact fun frame hmem => hb.async frame (List.mem_of_mem_tail hmem)
  · rw [BoundedDeque.items_popFront, hitems]
    rfl
  · intro row hrow
    cases hrow
  · exact fun h => Bool.noConfusion h

theorem dispatch (hb : Books (.switching item :: s, c) L d) (hs : item.Sits true s)
    {header : UInt16} (h : c.header? item = some header) (hasync : header ∈ asyncHeaders) :
    ∃ L', Books (.dispatching :: s, c.log (.dispatched item.queued (c.bytes item))) L' d := by
  have hdraining : drains s = true → Teensquitto.draining c.trace = true := fun h =>
    (hb.draining h).resolve_right Bool.false_ne_true
  -- a received frame leaves the transit, a frame of the ring stays in front until it is popped
  cases item with
  | uart payload =>
    have htransit : L.transit = payload :: inTransit s := by
      simp [hb.transit, Activity.transit, async_of_header? h hasync]
    refine ⟨{ L with transit := inTransit s, dispatched := L.dispatched ++ [payload] }, ?_⟩
    refine ⟨?_, rfl, ?_, hb.represents, hb.async, hb.waiting, hb.rows, ?_⟩
    · simp [Ledger.run_concat, hb.run, Ledger.step, Item.queued, Core.bytes, htransit]
    · exact fun frame hmem => hb.fits frame (by simp [htransit, hmem])
    · intro h
      rw [Core.log_trace, draining_concat]
      exact .inl (hdraining h)
  | row address length =>
    obtain rfl : s = [.popping, .main] := hs
    obtain ⟨frame, rest, -, hitems, -, hbytes, -⟩ :=
      @Books.fetched_frame _ _ _ hb address length (by simp [Activity.row?])
    obtain ⟨front, hwaiting, hlength⟩ := hb.waiting
    obtain rfl : front = [] := List.eq_nil_of_length_eq_zero hlength
    have hfirst : L.waiting = frame :: rest := hwaiting.symm.trans hitems
    refine ⟨{ L with waiting := rest, dispatched := L.dispatched ++ [frame] }, ?_⟩
    refine ⟨?_, hb.transit, hb.fits, hb.represents, hb.async, ⟨[frame], hitems, rfl⟩, ?_, ?_⟩
    · simp [Ledger.run_concat, hb.run, Ledger.step, Item.queued, hbytes, hfirst]
    · intro row hrow
      cases hrow
    · intro h
      rw [Core.log_trace, draining_concat]
      exact .inl (hdraining h)

/-- The front of a ring that is not full stays when a frame is pushed. -/
theorem front_pushBack {b : CircularBuffer 16 300} (h : b.Represents d) (hne : d.items ≠ [])
    (hroom : d.items.length < 16) {frame : List UInt8} (hfits : frame.length ≤ 300) :
    (b.pushBack frame).front = b.front ∧ (b.pushBack frame).lengthFront = b.lengthFront := by
  have hhead : (b.pushBack frame).head = b.head :=
    if_neg fun hfull => hroom.ne ((h.indices.full_iff (k := 4) rfl).mp hfull)
  refine ⟨congrArg (fun head => b.row head + 2) hhead, ?_⟩
  obtain ⟨first, rest, hitems⟩ := List.exists_cons_of_ne_nil hne
  have hpushed : (d.pushBack frame).items.head? = some first := by
    rw [d.items_pushBack_of_lt frame hroom, hitems]
    rfl
  have hlength := ((h.pushBack (k := 4) rfl hfits).front_eq (k := 4) rfl hpushed).1
  have hhead : d.items.head? = some first := by rw [hitems, List.head?_cons]
  have hlength' := (h.front_eq (k := 4) rfl hhead).1
  exact UInt16.toNat_inj.mp (hlength.trans hlength'.symm)

theorem queue (hb : Books (.switching item :: s, c) L d) (hs : Stacked false s)
    (hitem : ∃ payload, item = .uart payload) {header : UInt16}
    (h : c.header? item = some header) (hasync : header ∈ asyncHeaders)
    (hkeeps : c.queue.available.toNat = 16 → Teensquitto.draining c.trace = false) :
    ∃ L', Books (s, { c with queue := c.queue.pushBack (c.bytes item) }.log
      (.queued (c.bytes item) c.queue.available.toNat)) L' (d.pushBack (c.bytes item)) := by
  obtain ⟨payload, rfl⟩ := hitem
  have hdraining : drains s = true → Teensquitto.draining c.trace = true := fun h =>
    (hb.draining h).resolve_right Bool.false_ne_true
  have htransit : L.transit = payload :: inTransit s := by
    simp [hb.transit, Activity.transit, async_of_header? h hasync]
  have hfits : payload.length ≤ 300 := hb.fits payload (by simp [htransit])
  have hrun : Ledger.run (c.trace ++ [.queued payload c.queue.available.toNat]) =
      some (L.queue payload (inTransit s)) := by
    simp [Ledger.run_concat, hb.run, Ledger.step, htransit]
  have hmem (frame : List UInt8) (hframe : frame ∈ d.items ++ [payload]) : Async frame := by
    rcases List.mem_append.mp hframe with hframe | hframe
    · exact hb.async frame hframe
    · exact List.mem_singleton.mp hframe ▸ async_of_header? h hasync
  have hsmall (frame : List UInt8) (hframe : frame ∈ inTransit s) : frame.length ≤ 300 :=
    hb.fits frame (by simp [htransit, hframe])
  obtain ⟨front, hitems, hlength⟩ := hb.waiting
  by_cases hfull : d.items.length = 16
  · -- no frame of the ring is being processed
    have hdrains : drains s = false := by
      rw [hb.represents.available_eq] at hkeeps
      by_contra hdrains
      have := hkeeps hfull
      rw [hdraining (Bool.eq_true_of_not_eq_false hdrains)] at this
      cases this
    have hfetched : fetched s = [] := by
      by_contra hne
      rw [drains_of_fetched hs hne] at hdrains
      cases hdrains
    obtain rfl : front = [] := by
      refine List.eq_nil_of_length_eq_zero (hlength.trans (if_neg fun h => ?_))
      exact Bool.false_ne_true (hdrains.symm.trans h.1)
    have hpushed := d.items_pushBack_of_full payload hfull (by norm_num)
    have hqueue : L.queue payload (inTransit s) =
        { L with
          transit := inTransit s, waiting := L.waiting.tail ++ [payload]
          discarded := L.discarded ++ L.waiting.take 1 } :=
      if_pos ((congrArg List.length hitems).symm.trans hfull)
    rw [hqueue] at hrun
    refine ⟨_, hrun, rfl, hsmall, hb.represents.pushBack (k := 4) rfl hfits, ?_,
      ⟨[], ?_, ?_⟩, ?_, ?_⟩
    · intro frame hframe
      rw [Core.bytes, hpushed] at hframe
      exact hmem frame
        (List.mem_append.mpr ((List.mem_append.mp hframe).imp_left List.mem_of_mem_tail))
    · rw [Core.bytes, hpushed, hitems]
      rfl
    · exact (if_neg fun h => Bool.false_ne_true (hdrains.symm.trans h.1)).symm
    · intro row hrow
      rw [hfetched] at hrow
      cases hrow
    · intro h
      rw [hdrains] at h
      cases h
  · have hroom : d.items.length < 16 := lt_of_le_of_ne d.length_le hfull
    have hpushed := d.items_pushBack_of_lt payload hroom
    have hwaiting : L.waiting.length ≠ 16 := by
      have := congrArg List.length hitems
      rw [List.length_append] at this
      omega
    rw [Ledger.queue, if_neg hwaiting] at hrun
    refine ⟨_, hrun, rfl, hsmall, hb.represents.pushBack (k := 4) rfl hfits, ?_,
      ⟨front, ?_, hlength⟩, ?_, ?_⟩
    · intro frame hframe
      rw [Core.bytes, hpushed] at hframe
      exact hmem frame hframe
    · rw [Core.bytes, hpushed, hitems, List.append_assoc]
    · intro row hrow
      obtain ⟨hne, heq⟩ := hb.rows row hrow
      obtain ⟨hfront, hlengthFront⟩ := front_pushBack hb.represents hne hroom hfits
      refine ⟨?_, ?_⟩
      · rw [Core.bytes, hpushed]
        exact List.append_ne_nil_of_left_ne_nil hne _
      · simp only [Core.bytes, Core.log_queue]
        rw [hfront, hlengthFront, heq]
    · intro h
      rw [Core.log_trace, draining_concat]
      exact .inl (hdraining h)

end Books

/-! ## The runs -/

/-- What the ledger of a run rests on: frames fit, and the front of the ring is kept. -/
def Orderly (before : List Event) (e : Event) : Prop :=
  e.fitsSlot = true ∧ keepsFront before e = true

instance (before : List Event) (e : Event) : Decidable (Orderly before e) :=
  inferInstanceAs (Decidable (_ ∧ _))

/-- Every transition keeps the books. -/
theorem books_step {k k' : Config} (h : Step k k') (hshape : Shape k)
    (horderly : Throughout Orderly k'.2.trace)
    (hb : ∃ L d, Books k L d) : ∃ L d, Books k' L d := by
  obtain ⟨L, d, hb⟩ := hb
  have hdraining := hb.draining
  cases h with
  -- the transitions that move a frame or the ring
  | receive payload =>
    obtain ⟨L', hb'⟩ := hb.receive (of_decide_eq_true (throughout_concat.mp horderly).2.1)
    exact ⟨L', d, hb'⟩
  | drain hpending havailable =>
    have hs := hshape.stacked.1
    dsimp only at hs
    rw [hpending] at hs
    exact ⟨L, d, hb.drain hs.eq_main havailable⟩
  | refresh item => exact ⟨L, d, hb.refresh _⟩
  | queue item h hasync hpending =>
    -- a row is not queued again, as no request waits while the ring is drained
    have hitem : ∃ payload, item = .uart payload := by
      cases item with
      | uart payload => exact ⟨payload, rfl⟩
      | row address length =>
        obtain rfl := hshape.stacked.1
        exact absurd (hshape.pending hpending) (by simp [waits, Activity.isWait])
    obtain ⟨L', hb'⟩ := hb.queue hshape.stacked.2 hitem h hasync
      (of_decide_eq_true (throughout_concat.mp horderly).2.2)
    exact ⟨L', _, hb'⟩
  | dispatch item h hasync =>
    obtain ⟨L', hb'⟩ := hb.dispatch hshape.stacked.1 h hasync
    exact ⟨L', d, hb'⟩
  | pop => exact ⟨L, _, hb.pop hshape.stacked.1⟩
  -- the others only carry the frame in progress on, or nothing
  | reply item h =>
    obtain ⟨htransit, hrow⟩ := hb.plain h (by decide)
    refine ⟨L, d, hb.same ?_ ?_ ?_ rfl rfl ?_⟩
    · simp [Ledger.run_concat, hb.run, Ledger.step]
    · simp [htransit]
    · simp [hrow]
    · simp_all [draining_concat, Activity.isPopping, startsFetch]
  | ignore item h _ hasync =>
    obtain ⟨htransit, hrow⟩ := hb.plain h hasync
    refine ⟨L, d, hb.same hb.run ?_ ?_ rfl rfl ?_⟩
    · simp [htransit]
    · simp [hrow]
    · simp_all [Activity.isPopping, startsFetch]
  | idle n => exact ⟨L, d, hb.same hb.run rfl rfl rfl rfl hdraining⟩
  | detect item | pass item | callDetect item | skipDetect item =>
    refine ⟨L, d, hb.same ?_ ?_ ?_ ?_ rfl ?_⟩
    · simp [Ledger.run_concat, hb.run, Ledger.step]
    · cases item <;> rfl
    · cases item <;> rfl
    · rfl
    · simp_all [draining_concat, Activity.isPopping, startsFetch]
  | onDetect ha | callAtOnce ha | call ha | refuse ha =>
    refine ⟨L, d, hb.same ?_ ?_ ?_ ?_ rfl ?_⟩
    · simp [Ledger.run_concat, hb.run, Ledger.step]
    · simp [Activity.transit]
    · simp [Activity.row?]
    · simp [Activity.isPopping]
    · rcases ha.eq with rfl | rfl
      · simp_all [draining_concat, Activity.isPopping, startsFetch]
      · simp_all [draining_concat, Activity.isPopping, startsFetch]
  | _ =>
    refine ⟨L, d, hb.same ?_ ?_ ?_ ?_ rfl ?_⟩
    · simp [Ledger.run_concat, hb.run, Ledger.step]
    · simp [Activity.transit]
    · simp [Activity.row?]
    · simp [Activity.isPopping]
    · simp_all [draining_concat, Activity.isPopping, startsFetch]

theorem books_powerUp : ∃ L d, Books ([.main], .powerUp) L d := by
  refine ⟨.empty, .empty, rfl, rfl, ?_, CircularBuffer.represents_create (k := 4) rfl _ _, ?_,
    ⟨[], rfl, rfl⟩, ?_, fun h => Bool.noConfusion h⟩
  · intro frame hframe
    cases hframe
  · intro frame hframe
    cases hframe
  · intro row hrow
    cases hrow

/-- The last event is a check that `events()` made for the main program. -/
def idle (trace : List Event) : Bool :=
  match trace.getLast? with
  | some (.poll pending _ _) => !pending
  | _ => false

/-- No frame is in progress behind the checks of `events()`. -/
def Resting (s : List Activity) : Prop :=
  s = [.main] ∨ s = [.entering, .main] ∨ s = [.receiving, .main] ∨
    ∃ address length, s = [.holding (.row address length), .popping, .main]

@[simp] theorem idle_concat (trace : List Event) (e : Event) :
    idle (trace ++ [e]) = match e with
      | .poll pending _ _ => !pending
      | _ => false := by
  rw [idle, List.getLast?_concat]
  cases e <;> rfl

theorem resting_step {k k' : Config} (h : Step k k') (hshape : Shape k)
    (hk : idle k.2.trace = true → Resting k.1) (hidle : idle k'.2.trace = true) : Resting k'.1 := by
  cases h with
  | idle n => exact hk hidle
  | enter | leave =>
    have := hk hidle
    simp_all [Resting]
  | drain hpending havailable =>
    have := hk hidle
    simp_all [Resting]
  | poll h =>
    simp only [Core.log_trace, idle_concat, Bool.not_eq_true'] at hidle
    have hs := hshape.stacked.1
    dsimp only at hs
    rw [hidle] at hs
    exact .inr (.inr (.inl (by rw [hs.eq_main])))
  | enterWait | pass | skipDetect | ignore | skipHandler | handlerReturns | arm | skip | giveUp
  | methodReturns => simpa [Resting] using hk hidle
  | _ => simp [Core.processing] at hidle

/-- The invariant of orderly runs. -/
structure Kept (k : Config) : Prop where
  books : ∃ L d, Books k L d
  rest : idle k.2.trace = true → Resting k.1

theorem kept_powerUp : Kept ([.main], .powerUp) := ⟨books_powerUp, fun _ => .inl rfl⟩

theorem kept_step {k k' : Config} (h : Step k k') (hshape : Shape k)
    (horderly : Throughout Orderly k'.2.trace) (hk : Kept k) : Kept k' where
  books := books_step h hshape horderly hk.books
  rest := resting_step h hshape hk.rest

/-- **Every asynchronous frame is delivered once.**  In a run in which the frames fit and no frame
is pushed on the full ring while a frame of the ring is being processed, the ledger can be
kept: every asynchronous frame that was received is in transit, waits, was dispatched, or was
discarded when another frame came to sixteen that waited.  What waits is in the ring whenever
no frame is in progress. -/
theorem World.Reachable.delivers_once {w : World} (h : w.Reachable)
    (horderly : Throughout Orderly w.trace) :
    ∃ L, Ledger.run w.trace = some L ∧ L.frames.Perm (asyncReceived w.trace) ∧
      L.dispatched = allDispatched w.trace ∧
      (idle w.trace = true → L.transit = [] ∧ L.waiting.length = w.queue.available.toNat) := by
  obtain ⟨s, -, ⟨L, d, hb⟩, hrest⟩ := h.invariant kept_powerUp (fun _ _ => kept_step) horderly
  obtain ⟨hperm, hdispatched⟩ := Ledger.perm_of_run hb.run
  refine ⟨L, hb.run, hperm, hdispatched, fun hidle => ?_⟩
  obtain ⟨front, hitems, hlength⟩ := hb.waiting
  have hview : inTransit s = [] ∧ ¬(drains s = true ∧ fetched s = []) := by
    rcases hrest hidle with rfl | rfl | rfl | ⟨address, length, rfl⟩ <;>
      simp [inTransit, drains, fetched, Activity.transit, Activity.isPopping, Activity.row?]
  rw [if_neg hview.2] at hlength
  refine ⟨hb.transit.trans hview.1, ?_⟩
  have havailable : w.queue.available.toNat = d.items.length := hb.represents.available_eq
  rw [havailable, hitems, List.eq_nil_of_length_eq_zero hlength, List.nil_append]

/-- An MQTT frame arrives while a request waits, then the reply.  Irreducible, so that runs over
it are evaluated only where this is asked for. -/
@[irreducible] def queueSchedule : List Tick :=
  ⟨0, [0x24, 0x00, 0x05, 0xAF, 0xAF, 0x00, 0x01, 0x01,
    0x24, 0x00, 0x07, 0xAA, 0x55, 0x34, 0x34, 0x03, 0x01, 0xFD]⟩ :: List.replicate 90 ⟨0, []⟩

theorem delivers_once_queueSchedule : ∃ w : World, w.Reachable ∧
    allDispatched w.trace = [[0xAF, 0xAF, 0x00, 0x01, 0x01]] ∧
    ∃ L, Ledger.run w.trace = some L ∧ L.frames.Perm (asyncReceived w.trace) ∧
      L.dispatched = allDispatched w.trace ∧
      (idle w.trace = true → L.transit = [] ∧ L.waiting.length = w.queue.available.toNat) := by
  obtain ⟨w, hw, hdispatched, horderly⟩ := @exists_reachable queueSchedule [] (fun _ _ => 0) 1
    [.user (.call (.spiffs anyObject .format)), .events]
    (fun w => allDispatched w.trace = [[0xAF, 0xAF, 0x00, 0x01, 0x01]] ∧
      Throughout Orderly w.trace)
    (by decide +kernel)
  exact ⟨w, hw, hdispatched, World.Reachable.delivers_once hw horderly⟩

/-! ## The calls of the handlers -/

section Calls

open EStateM

/-- The frame that is dispatched in this state has no handler that is set, or the log goes on with
the call of its handler. -/
def World.Attends (w : World) (queued : Bool) (data : List UInt8) (after : List Event) : Prop :=
  ∃ src len, src.queued = queued ∧ (w.dataAt src).load 0 len = data ∧
    ∀ slot args, w.invocation? src len = some (slot, args) → w.handlers.present slot = true →
      ∃ rest, after = .handler slot args :: rest

theorem World.Attends.append {w : World} {queued : Bool} {data : List UInt8} {after : List Event}
    (h : w.Attends queued data after) (l : List Event) : w.Attends queued data (after ++ l) := by
  obtain ⟨src, len, hqueued, hdata, hcalls⟩ := h
  refine ⟨src, len, hqueued, hdata, fun slot args hinvocation hset => ?_⟩
  obtain ⟨rest, rfl⟩ := hcalls slot args hinvocation hset
  exact ⟨rest ++ l, rfl⟩

/-- A single change logs one dispatch at most, and with it the call of the handler. -/
theorem Effect.attends {w w' : World} (h : Effect w w') {before after : List Event} {queued : Bool}
    {data : List UInt8}
    (htrace : w'.trace = w.trace ++ (before ++ .dispatched queued data :: after)) :
    before = [] ∧ w.Attends queued data after := by
  have hnone (hsame : w'.trace = w.trace) : before = [] ∧ w.Attends queued data after := by
    have hlength := congrArg List.length (hsame.symm.trans htrace)
    simp only [List.length_append, List.length_cons] at hlength
    omega
  -- the last event of a single one, or of two, is no dispatch unless it is the one that is logged
  have hone {e : Event} (hadded : w'.trace = w.trace ++ [e]) :
      before = [] ∧ e = .dispatched queued data ∧ after = [] := by
    have hl := List.append_cancel_left (hadded.symm.trans htrace)
    rcases before with _ | ⟨b, before⟩
    · obtain ⟨he, hafter⟩ := List.cons.inj hl
      exact ⟨rfl, he, hafter.symm⟩
    · exact absurd (List.cons.inj hl).2.symm (by simp)
  cases h with
  | log e hplain =>
    obtain ⟨-, rfl, -⟩ := hone rfl
    cases hplain
  | handler slot args hset =>
    obtain ⟨-, hevent, -⟩ := hone rfl
    cases hevent
  | pass src len hunset =>
    obtain ⟨hbefore, hevent, -⟩ := hone rfl
    obtain ⟨hqueued, hdata⟩ := Event.dispatched.inj hevent
    refine ⟨hbefore, src, len, hqueued, hdata, fun slot args hinvocation hset => ?_⟩
    rw [hunset slot args hinvocation] at hset
    cases hset
  | dispatch src len slot args p hinvocation hset =>
    have hl := List.append_cancel_left ((List.append_assoc _ _ _).symm.trans htrace)
    rcases before with _ | ⟨b, before⟩
    · obtain ⟨hevent, hafter⟩ := List.cons.inj hl
      obtain ⟨hqueued, hdata⟩ := Event.dispatched.inj hevent
      refine ⟨rfl, src, len, hqueued, hdata, fun slot' args' h _ => ?_⟩
      obtain ⟨rfl, rfl⟩ := Prod.mk.inj (Option.some.inj (hinvocation.symm.trans h))
      exact ⟨[], hafter.symm⟩
    · -- the second event is the call
      rcases before with _ | ⟨b', before⟩
      · cases (List.cons.inj (List.cons.inj hl).2).1
      · exact absurd (List.cons.inj (List.cons.inj hl).2).2.symm (by simp)
  | status src hsrc hheader hstatus =>
    obtain ⟨_, _, _, _, _, heq⟩ := exists_statusFrame_eq src w
    exact hnone (by rw [heq])
  | _ => exact hnone rfl

/-- **Every dispatch calls the handler of the frame** when that is set: the event behind it is the
call, in every sequence of changes. -/
theorem attends_of_effects {w w' : World} (h : Effects w w') {before after : List Event}
    {queued : Bool} {data : List UInt8}
    (htrace : w'.trace = w.trace ++ (before ++ .dispatched queued data :: after)) :
    ∃ v, Effects w v ∧ Effects v w' ∧ v.trace = w.trace ++ before ∧
      v.Attends queued data after := by
  induction h generalizing after with
  | refl =>
    have hlength := congrArg List.length htrace
    simp only [List.length_append, List.length_cons] at hlength
    omega
  | @tail w₁ w₂ h hlast ih =>
    obtain ⟨m, hm⟩ : ∃ m, w₁.trace = w.trace ++ m := by
      have hprefix : Preserves Effect fun v => w.trace <+: v.trace := fun v v' hv hp => by
        obtain ⟨l, hl⟩ := hv.trace
        exact hl ▸ hp.trans (List.prefix_append _ _)
      obtain ⟨m, hm⟩ := hprefix.steps h List.prefix_rfl
      exact ⟨m, hm.symm⟩
    obtain ⟨l, hl⟩ := hlast.trace
    have hsplit : m ++ l = before ++ .dispatched queued data :: after := by
      rw [hl, hm, List.append_assoc] at htrace
      exact List.append_cancel_left htrace
    rcases List.append_eq_append_iff.mp hsplit with ⟨added, hbefore, hadded⟩ | ⟨rest, hrest, hdrop⟩
    · -- the last change dispatches the frame
      obtain ⟨rfl, hattends⟩ := hlast.attends (hl.trans (congrArg (w₁.trace ++ ·) hadded))
      rw [List.append_nil] at hbefore
      exact ⟨w₁, h, .single hlast, hbefore ▸ hm, hattends⟩
    · rcases rest with _ | ⟨first, rest⟩
      · have hfirst : w₂.trace = w₁.trace ++ ([] ++ .dispatched queued data :: after) :=
          hl.trans (congrArg (w₁.trace ++ ·) hdrop.symm)
        obtain ⟨-, hattends⟩ := hlast.attends hfirst
        rw [List.append_nil] at hrest
        exact ⟨w₁, h, .single hlast, hrest ▸ hm, hattends⟩
      · obtain ⟨rfl, rfl⟩ := List.cons.inj hdrop
        obtain ⟨v, hv, hv₁, htracev, hattends⟩ := ih (hm.trans (congrArg (w.trace ++ ·) hrest))
        exact ⟨v, hv, hv₁.tail hlast, htracev, hattends.append l⟩

theorem effects_session (depth : ℕ) (ops : List MainOp) : (session depth ops).Along Effects := by
  have hop (op : MainOp) : (op.run depth).Along Effects := by
    cases op with
    | events => exact (along_events (effects_userCode depth)).bind fun _ => Along.pure ()
    | user op => exact effects_userOp (effects_userCode depth) op
  induction ops with
  | nil => exact Along.pure ()
  | cons op ops ih => exact (hop op).bind fun _ => ih

/-- What the ledger counts as dispatched is the call of a handler: in every run the event behind a
dispatch is the call of the handler of the frame, if that was set in the state before it. -/
theorem World.Reachable.dispatch_calls {w : World} (h : w.Reachable) {before after : List Event}
    {queued : Bool} {data : List UInt8}
    (htrace : w.trace = before ++ .dispatched queued data :: after) :
    ∃ v, Effects v w ∧ v.trace = before ∧ v.Attends queued data after := by
  obtain ⟨ticks, scripts, stray, depth, ops, hends⟩ := h
  have heffects : Effects (World.powerUp ticks scripts stray) w := by
    have hboth := hends.and (effects_session depth ops (World.powerUp ticks scripts stray))
    cases hrun : (session depth ops).run (World.powerUp ticks scripts stray) with
    | ok a w' =>
      obtain ⟨rfl, heffects⟩ := hboth.of_ok hrun
      exact heffects
    | error e w' =>
      obtain ⟨rfl, heffects⟩ := hboth.of_error hrun
      exact heffects
  obtain ⟨v, -, hv, htracev, hattends⟩ := attends_of_effects heffects htrace
  exact ⟨v, hv, htracev, hattends⟩

end Calls

/-! ## The lost frame -/

/-- An asynchronous frame is received. -/
def Event.arrives : Event → Bool
  | received payload => Async payload
  | _ => false

/-- The asynchronous frames that were received and not dispatched. -/
def outstanding (trace : List Event) : ℕ :=
  (asyncReceived trace).length - (allDispatched trace).length

/-- Sixteen MQTT frames arrive while a request waits, and another one while the handler of the
first makes its request.  Irreducible, so that runs over it are evaluated only where this is
asked for. -/
@[irreducible] def fullSchedule : List Tick :=
  [⟨0, [0x24, 0x00, 0x05, 0xAF, 0xAF, 0x00, 0x01, 0x01] ++
    (List.range 15).flatMap (fun i =>
      [0x24, 0x00, 0x04, 0xAF, 0xAF, UInt8.ofNat (16 + i), UInt8.ofNat (16 + i)]) ++
    [0x24, 0x00, 0x07, 0xAA, 0x55, 0x34, 0x34, 0x03, 0x01, 0xFD]⟩] ++
    List.replicate 486 ⟨0, []⟩ ++
    [⟨0, [0x24, 0x00, 0x04, 0xAF, 0xAF, 0x20, 0x20,
      0x24, 0x00, 0x07, 0xAA, 0x55, 0x34, 0x34, 0x03, 0x01, 0xFD]⟩] ++
    List.replicate 120 ⟨0, []⟩

/-- When the handler of a queued frame makes a request and a frame comes to the full ring, the
frame behind the one being processed is lost, although never sixteen frames wait when another
one arrives. -/
theorem queued_frame_lost : ¬∀ w : World, w.Reachable →
    Throughout (fun _ e => e.fitsSlot = true) w.trace →
    Throughout (fun before e => e.arrives = true → outstanding before < 16) w.trace →
    idle w.trace = true → w.queue.available = 0 →
    ∀ frame ∈ asyncReceived w.trace, frame ∈ allDispatched w.trace := by
  intro h
  obtain ⟨w, hw, hfits, hroom, hidle, havailable, hlost⟩ := @exists_reachable fullSchedule
    [[.call (.spiffs anyObject .format)]] (fun _ _ => 0) 2
    ([.user (.call (.mqtt anyObject (.onConnect true))),
      .user (.call (.spiffs anyObject .format))] ++ List.replicate 17 .events)
    (fun w => Throughout (fun _ e => e.fitsSlot = true) w.trace ∧
      Throughout (fun before e => e.arrives = true → outstanding before < 16) w.trace ∧
      idle w.trace = true ∧ w.queue.available = 0 ∧
      ¬∀ frame ∈ asyncReceived w.trace, frame ∈ allDispatched w.trace)
    (by decide +kernel)
  exact hlost (h w hw hfits hroom hidle havailable)

end Teensquitto
