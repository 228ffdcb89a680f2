import Teensquitto.Device.Library
import Teensquitto.Protocol.Delivery

/-!
# Empty frames in the queue

A frame that is neither a reply nor known otherwise is printed byte by byte, and an empty one
without end.  No received frame is empty.  As long as the asynchronous frames that are received fit
a slot, the ring holds whole frames, so that none taken from it is empty either.

## Main definitions

* `World.Stalled`: an empty frame of the ring was processed
* `World.Overran`: an asynchronous frame that is longer than a slot was received
* `Whole`: the ring and the calls in progress hold no empty frame

## Main results

* `whole_step`: every transition keeps this while the frames fit
* `library_overran_of_stalled`: main programs
-/

namespace Teensquitto

open Relation EStateM

/-- An empty frame of the ring is processed. -/
def Event.stalls : Event → Bool
  | processing true [] .. => true
  | _ => false

/-- An empty frame of the ring was processed. -/
def World.Stalled (w : World) : Prop := ∃ e ∈ w.trace, e.stalls = true

/-- An asynchronous frame that is longer than a slot was received. -/
def World.Overran (w : World) : Prop :=
  ∃ payload, Event.received payload ∈ w.trace ∧ Async payload ∧ 300 < payload.length

/-- What is in the ring, or on its way from or to it, is neither empty nor longer than a slot. -/
structure Whole (k : Config) (d : BoundedDeque (List UInt8) 16) : Prop where
  represents : k.2.queue.Represents d
  items : ∀ frame ∈ d.items, frame ≠ []
  kept : drains k.1 = true → d.items ≠ []
  rows : ∀ row ∈ fetched k.1, row.2 ≠ 0
  fits : ∀ frame ∈ inTransit k.1, frame.length ≤ 300
  trace : ∀ e ∈ k.2.trace, e.stalls = false

namespace Whole

variable {k k' : Config} {d : BoundedDeque (List UInt8) 16} {s : List Activity} {c : Core}

/-- A transition that neither takes a frame nor changes the ring. -/
theorem same (h : Whole k d) (hqueue : k'.2.queue = k.2.queue)
    (hdrains : drains k'.1 = true → drains k.1 = true)
    (hfetched : ∀ row ∈ fetched k'.1, row ∈ fetched k.1)
    (htransit : ∀ frame ∈ inTransit k'.1, frame ∈ inTransit k.1)
    (htrace : ∀ e ∈ k'.2.trace, e ∈ k.2.trace ∨ e.stalls = false) : Whole k' d where
  represents := hqueue ▸ h.represents
  items := h.items
  kept hdrain := h.kept (hdrains hdrain)
  rows row hrow := h.rows row (hfetched row hrow)
  fits frame hframe := h.fits frame (htransit frame hframe)
  trace e he := (htrace e he).elim (h.trace e) id

/-- The length of the first frame of a ring that is not empty. -/
theorem lengthFront_ne_zero (h : Whole k d) (hne : d.items ≠ []) :
    k.2.queue.lengthFront.toNat ≠ 0 := by
  obtain ⟨frame, rest, hitems⟩ := List.exists_cons_of_ne_nil hne
  have hhead : d.items.head? = some frame := by rw [hitems, List.head?_cons]
  rw [(h.represents.front_eq (k := 4) rfl hhead).1]
  intro hlength
  exact h.items frame (hitems ▸ List.mem_cons_self) (List.eq_nil_of_length_eq_zero hlength)

theorem drain (h : Whole (.receiving :: s, c) d) (havailable : 0 < c.queue.available) :
    Whole (.holding (.row c.queue.front c.queue.lengthFront.toNat) :: .popping :: s, c) d := by
  have hne : d.items ≠ [] := by
    intro hnil
    have hcount := h.represents.available_eq
    rw [hnil, List.length_nil] at hcount
    exact absurd (UInt16.lt_iff_toNat_lt.mp havailable) (Nat.not_lt.mpr hcount.le)
  refine ⟨h.represents, h.items, fun _ => hne, fun row hrow => ?_, h.fits, h.trace⟩
  have hcases : row = (c.queue.front, c.queue.lengthFront.toNat) ∨ row ∈ fetched s := by
    simpa [Activity.row?] using hrow
  rcases hcases with rfl | hrow
  · exact h.lengthFront_ne_zero hne
  · exact h.rows row hrow

/-- What is processed is not empty when it comes from the ring. -/
theorem refresh {item : Item} (h : Whole (.holding item :: s, c) d) (n : UInt32) :
    Whole (.processing item :: s, { c with espSyncTimeout := n }.log (c.processing item)) d := by
  refine h.same rfl id (fun row hrow => ?_) (fun frame hframe => ?_) fun e he => ?_
  · cases item <;> exact hrow
  · cases item <;> exact hframe
  · refine (List.mem_append.mp he).imp_right fun hnew => ?_
    rw [List.mem_singleton.mp hnew]
    cases item with
    | uart payload => rfl
    | row address length =>
      obtain ⟨n, rfl⟩ := Nat.exists_eq_succ_of_ne_zero
        (h.rows (address, length) List.mem_cons_self)
      rw [Core.processing, Core.bytes, Memory.load_succ']
      rfl

/-- A received frame is pushed. -/
theorem queue {payload : List UInt8} (h : Whole (.switching (.uart payload) :: s, c) d)
    (hasync : Async payload) :
    Whole (s, { c with queue := c.queue.pushBack payload }.log
      (.queued payload c.queue.available.toNat)) (d.pushBack payload) := by
  have hne : payload ≠ [] := by
    obtain ⟨high, low, rest, rfl, -⟩ := hasync
    exact List.cons_ne_nil _ _
  have hfits : payload.length ≤ 300 := by
    refine h.fits payload ?_
    simp [Activity.transit, hasync]
  have hmem (frame : List UInt8) (hframe : frame ∈ (d.pushBack payload).items) :
      frame ∈ d.items ++ [payload] := by
    by_cases hfull : d.items.length = 16
    · rw [d.items_pushBack_of_full payload hfull (by norm_num)] at hframe
      exact List.mem_append.mpr ((List.mem_append.mp hframe).imp_left List.mem_of_mem_tail)
    · rwa [d.items_pushBack_of_lt payload (lt_of_le_of_ne d.length_le hfull)] at hframe
  refine ⟨h.represents.pushBack (k := 4) rfl hfits, fun frame hframe => ?_, fun _ => ?_,
    fun row hrow => h.rows row hrow, fun frame hframe => h.fits frame ?_, fun e he => ?_⟩
  · rcases List.mem_append.mp (hmem frame hframe) with hold | hnew
    · exact h.items frame hold
    · exact List.mem_singleton.mp hnew ▸ hne
  · by_cases hfull : d.items.length = 16
    · rw [d.items_pushBack_of_full payload hfull (by norm_num)]
      exact List.append_ne_nil_of_right_ne_nil _ (List.cons_ne_nil _ _)
    · rw [d.items_pushBack_of_lt payload (lt_of_le_of_ne d.length_le hfull)]
      exact List.append_ne_nil_of_right_ne_nil _ (List.cons_ne_nil _ _)
  · rw [inTransit_cons]
    exact List.mem_append_right _ hframe
  · rcases List.mem_append.mp he with hold | hnew
    · exact h.trace e hold
    · rw [List.mem_singleton.mp hnew]
      rfl

/-- The ring is not empty when its first frame is popped, which is the only one in progress. -/
theorem pop (h : Whole (.popping :: s, c) d) (hs : s = [.main]) :
    Whole (s, { c with queue := c.queue.popFront }.log .popped) d.popFront := by
  subst hs
  have hne := h.kept rfl
  refine ⟨h.represents.popFront (k := 4) rfl hne, fun frame hframe => ?_, fun hdrains => ?_,
    fun row hrow => ?_, fun frame hframe => ?_, fun e he => ?_⟩
  · rw [BoundedDeque.items_popFront] at hframe
    exact h.items frame (List.mem_of_mem_tail hframe)
  · exact absurd hdrains Bool.false_ne_true
  · exact absurd hrow List.not_mem_nil
  · exact absurd hframe List.not_mem_nil
  · rcases List.mem_append.mp he with hold | hnew
    · exact h.trace e hold
    · rw [List.mem_singleton.mp hnew]
      rfl

end Whole

/-- Every transition keeps the ring whole, while the frames that are received fit a slot. -/
theorem whole_step {k k' : Config} (h : Step k k') (hshape : Shape k)
    (hfits : Throughout (fun _ e => e.fitsSlot = true) k'.2.trace)
    (hk : ∃ d, Whole k d) : ∃ d, Whole k' d := by
  obtain ⟨d, hk⟩ := hk
  cases h with
  -- the transitions that move a frame or the ring
  | receive payload =>
    have hpayload := of_decide_eq_true (throughout_concat.mp hfits).2
    refine ⟨d, hk.represents, hk.items, hk.kept, hk.rows, fun frame hframe => ?_, fun e he => ?_⟩
    · by_cases hasync : Async payload
      · obtain rfl | hold := by simpa [Activity.transit, hasync] using hframe
        · exact hpayload hasync
        · exact hk.fits frame hold
      · exact hk.fits frame (by simpa [Activity.transit, hasync] using hframe)
    · rcases List.mem_append.mp he with hold | hnew
      · exact hk.trace e hold
      · rw [List.mem_singleton.mp hnew]
        rfl
  | drain hpending havailable => exact ⟨d, hk.drain havailable⟩
  | refresh item => exact ⟨d, hk.refresh _⟩
  | queue item h hasync hpending =>
    -- a row is not queued again, as no request waits while the ring is drained
    cases item with
    | uart payload => exact ⟨_, hk.queue (async_of_header? h hasync)⟩
    | row address length =>
      obtain rfl := hshape.stacked.1
      exact absurd (hshape.pending hpending) (by simp [waits, Activity.isWait])
  | pop => exact ⟨_, hk.pop hshape.stacked.1⟩
  -- the others only carry the frame in progress on, or nothing
  | detect item | pass item | callDetect item | skipDetect item =>
    refine ⟨d, hk.same rfl id ?_ ?_ ?_⟩
    · cases item <;> exact fun _ h => h
    · cases item <;> exact fun _ h => h
    · simp +contextual [Event.stalls, or_imp]
  | _ =>
    refine ⟨d, hk.same rfl ?_ ?_ ?_ ?_⟩
    · simp +contextual [Activity.isPopping]
    · simp +contextual [Activity.row?]
    · simp +contextual [Activity.transit]
    · simp +contextual [Event.stalls, or_imp]

theorem whole_powerUp : ∃ d, Whole ([.main], .powerUp) d := by
  refine ⟨.empty, CircularBuffer.represents_create (k := 4) rfl _ _, ?_, ?_, ?_, ?_, ?_⟩
  · exact fun _ h => absurd h List.not_mem_nil
  · exact fun h => absurd h Bool.false_ne_true
  · exact fun _ h => absurd h List.not_mem_nil
  · exact fun _ h => absurd h List.not_mem_nil
  · exact fun _ h => absurd h List.not_mem_nil

/-- An empty frame is in the ring only when one did not fit. -/
theorem Reaches.overran_of_stalled {w : World} {s : List Activity}
    (h : Reaches ([.main], .powerUp) (s, w.core)) (hstalled : w.Stalled) : w.Overran := by
  by_contra hfits
  have hthroughout : Throughout (fun _ e => e.fitsSlot = true) w.core.trace := by
    rintro before e after heq
    cases e with
    | received payload =>
      refine decide_eq_true fun hasync => Nat.not_lt.mp fun hlong => hfits ?_
      refine ⟨payload, ?_, hasync, hlong⟩
      exact (congrArg (Event.received payload ∈ ·) heq).mpr
        (List.mem_append_right _ List.mem_cons_self)
    | _ => rfl
  obtain ⟨-, d, hwhole⟩ := Reaches.invariant whole_powerUp (fun _ _ => whole_step) h hthroughout
  obtain ⟨e, he, hstalls⟩ := hstalled
  rw [hwhole.trace e he] at hstalls
  exact Bool.false_ne_true hstalls

/-! ## Main programs -/

theorem follows_wfan {events : Prog UInt8} (hevents : Follows events [.main] fun _ => [.main])
    (remote : UInt8) (val timeoutMs : UInt16) :
    Follows (wfan events remote val timeoutMs) [.main] fun _ => [.main] := by
  refine (follows_of_elapses elapses_millis _).bind fun timeout => Follows.get_bind fun w => ?_
  refine Follows.iterate (fun _ => FollowsAt.throw _) (fun _ => ?_) _ () w
  have hsame : Sum.elim (fun _ : Unit => [Activity.main]) (fun _ : Int8 => [.main]) =
      fun _ => [.main] := by
    funext r
    cases r <;> rfl
  rw [hsame]
  refine (follows_of_elapses elapses_millis _).bind fun now => ?_
  refine Follows.ite (hevents.bind fun event => Follows.get_bind fun w => ?_) fun _ _ =>
    ReflTransGen.refl
  exact FollowsAt.ite (fun _ _ => ReflTransGen.refl) fun _ =>
    FollowsAt.ite (fun _ _ => ReflTransGen.refl) fun _ _ => ReflTransGen.refl

theorem follows_libraryOp (depth : ℕ) (op : LibraryOp) :
    Follows (op.run depth) [.main] fun _ => [.main] := by
  have hevents : Follows (events (userCode depth)) [.main] fun _ => [.main] := fun w => by
    refine follows_silent [.entering, .main] (fun rest => Step.enter) ?_
    exact FollowsAt.frame
      (follows_eventsWith (follows_processingData (follows_userCode depth)) w) [.main]
  have huser (op : UserOp) : Follows (op.run (userCode depth)) [.main] fun _ => [.main] :=
    follows_userOp (follows_userCode depth) (a := .main) trivial op
  cases op with
  | events => exact hevents.bind fun _ _ _ => ReflTransGen.refl
  | wfan remote val timeoutMs =>
    exact (follows_wfan hevents remote val timeoutMs).bind fun _ _ _ => ReflTransGen.refl
  | call c =>
    exact (follows_call (follows_events (follows_userCode depth)) (a := .main) trivial c).bind
      fun _ _ _ => ReflTransGen.refl
  | onDetect o handler =>
    exact (huser (.onDetect o handler)).bind fun _ _ _ => ReflTransGen.refl

/-- A main program that uses the whole library follows the protocol. -/
theorem follows_library (depth : ℕ) (ops : List LibraryOp) :
    Follows (library depth ops) [.main] fun _ => [.main] := by
  induction ops with
  | nil => exact fun _ _ => ReflTransGen.refl
  | cons op ops ih =>
    rw [library, List.mapM_cons]
    exact (follows_libraryOp depth op).bind fun _ => ih.bind fun _ _ _ => ReflTransGen.refl

/-- **A run processes an empty frame of the ring only behind an overrun.** -/
theorem library_overran_of_stalled (ticks : List Tick) (scripts : List (List UserOp))
    (stray : ℕ → Memory UInt8) (depth : ℕ) (ops : List LibraryOp) :
    (library depth ops).Ends (World.powerUp ticks scripts stray)
      (fun _ w => w.Stalled → w.Overran) fun _ w => w.Stalled → w.Overran := by
  refine (follows_library depth ops (World.powerUp ticks scripts stray) []).mono ?_ ?_
  · exact fun _ _ hreaches => Reaches.overran_of_stalled hreaches
  · rintro _ _ ⟨s, hreaches⟩
    exact Reaches.overran_of_stalled hreaches

end Teensquitto
