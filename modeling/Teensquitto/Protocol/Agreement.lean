import Teensquitto.Protocol.Shape

/-!
# Requests and replies

A reply repeats the header and the opcode of its request, and nothing else tells two requests
of one kind apart.  With an ESP that answers the requests in order, a request that accepts a
reply therefore accepts the answer to a request of its kind: its own, or an earlier one that
was not yet answered when it was written.

## Main definitions

* `requests`, `replies`: the requests written and the replies received
* `served`: requests come one after another, and the ESP answers them in order
* `answers`: what the accepted reply answers

## Main results

* `World.Reachable.accepts_answer`: the accepted reply answers a request of the same kind
* `late_reply_accepted`: it may answer an earlier request
-/

namespace Teensquitto

/-- The requests that were written. -/
def requests (trace : List Event) : List Key :=
  trace.filterMap fun
    | .request key => some key
    | _ => none

/-- The payload is a reply. -/
def isReply : List UInt8 → Bool
  | 0xAA :: 0x55 :: _ => true
  | _ => false

/-- The replies that were received. -/
def replies (trace : List Event) : List (List UInt8) :=
  trace.filterMap fun
    | .received payload => if isReply payload then some payload else none
    | _ => none

/-- The bytes that were last stored in `storage_buffer`. -/
def lastReply (trace : List Event) : Option (List UInt8) :=
  trace.foldl (fun last e =>
    match e with
    | .reply data => some data
    | _ => last) none

/-- The reply repeats the header and the opcode of the request. -/
def echoes (key : Key) (payload : List UInt8) : Bool :=
  payload.take 5 = [0xAA, 0x55, key.high, key.low, key.opcode] ∧ 6 ≤ payload.length

/-- Requests come one after another, and the ESP answers them in order: the reply that is
received next repeats the key of the first request without a reply. -/
def served (before : List Event) : Event → Bool
  | .request _ => openWaits before = 0
  | .received payload =>
    isReply payload → (requests before)[(replies before).length]?.any (echoes · payload)
  | _ => true

theorem requests_append (trace trace' : List Event) :
    requests (trace ++ trace') = requests trace ++ requests trace' :=
  List.filterMap_append

theorem replies_append (trace trace' : List Event) :
    replies (trace ++ trace') = replies trace ++ replies trace' :=
  List.filterMap_append

theorem lastReply_concat (trace : List Event) (e : Event) :
    lastReply (trace ++ [e]) = match e with
      | .reply data => some data
      | _ => lastReply trace := by
  rw [lastReply, List.foldl_append]
  rfl

/-- Every reply answers the request of the same number. -/
theorem echoes_of_served {trace : List Event}
    (h : Throughout (fun before e => served before e = true) trace) {j : ℕ}
    {payload : List UInt8} (hj : (replies trace)[j]? = some payload) :
    ∃ key, (requests trace)[j]? = some key ∧ echoes key payload = true := by
  -- Induction on the trace: only the last event can be the reply.
  induction trace using List.reverseRecOn with
  | nil => cases hj
  | append_singleton trace e ih =>
    obtain ⟨hrest, he⟩ := throughout_concat.mp h
    have hextend : ∀ key, (requests trace)[j]? = some key →
        (requests (trace ++ [e]))[j]? = some key := by
      intro key hkey
      rw [requests_append, List.getElem?_append_left (List.getElem?_eq_some_iff.mp hkey).1, hkey]
    rw [replies_append, List.getElem?_append] at hj
    by_cases hlt : j < (replies trace).length
    · rw [if_pos hlt] at hj
      obtain ⟨key, hkey, hechoes⟩ := ih hrest hj
      exact ⟨key, hextend key hkey, hechoes⟩
    · rw [if_neg hlt] at hj
      cases e with
      | received data =>
        by_cases hreply : isReply data = true
        · -- the reply is the last one, and its request has its number
          have hsingle : replies [.received data] = [data] := by simp [replies, hreply]
          rw [hsingle] at hj
          obtain ⟨rfl, rfl⟩ : j = (replies trace).length ∧ data = payload := by
            have hlt' := (List.getElem?_eq_some_iff.mp hj).1
            have hzero : j - (replies trace).length = 0 := by
              simpa using hlt'
            rw [hzero] at hj
            exact ⟨by omega, Option.some.inj hj⟩
          have hany := of_decide_eq_true he hreply
          cases hkey : (requests trace)[(replies trace).length]? with
          | none =>
            rw [hkey] at hany
            cases hany
          | some key =>
            rw [hkey] at hany
            exact ⟨key, hextend key hkey, hany⟩
        · simp [replies, hreply] at hj
      | _ => cases hj

/-! ## The innermost request -/

/-- The request of an activity, and whether its wait has cleared `data_ready_flag`. -/
def Activity.asker? : Activity → Option (Key × Bool)
  | asking key => some (key, false)
  | waiting key => some (key, true)
  | concluding key => some (key, true)
  | _ => none

/-- The reply that an activity takes to the switch. -/
def Activity.reply? : Activity → Option (List UInt8)
  | holding (.uart payload) | processing (.uart payload) | detected (.uart payload)
  | switching (.uart payload) => if isReply payload then some payload else none
  | _ => none

/-- The innermost request. -/
def asker (s : List Activity) : Option (Key × Bool) := s.findSome? Activity.asker?

/-- The replies in progress above the innermost request. -/
def above : List Activity → List (List UInt8)
  | [] => []
  | a :: s => if a.asker?.isSome then [] else a.reply?.toList ++ above s

/-- The requests in progress. -/
def askers (s : List Activity) : ℕ := s.countP fun a => a.asker?.isSome

theorem asker_cons (a : Activity) (s : List Activity) :
    asker (a :: s) = a.asker?.or (asker s) := by
  cases h : a.asker? <;> simp [asker, h]

theorem askers_cons (a : Activity) (s : List Activity) :
    askers (a :: s) = askers s + if a.asker?.isSome = true then 1 else 0 := by
  simp [askers, List.countP_cons]

theorem asker_eq_none {s : List Activity} (h : askers s = 0) : asker s = none := by
  rw [askers, List.countP_eq_zero] at h
  refine List.findSome?_eq_none_iff.mpr fun a ha => ?_
  simpa using h a ha

/-- The last request of a trace has this key, and was written behind `before`. -/
def Current (trace before : List Event) (key : Key) : Prop :=
  ∃ after, trace = before ++ .request key :: after ∧ requests after = []

/-- The reply was received behind `before`. -/
def Arrived (trace before : List Event) (payload : List UInt8) : Prop :=
  ∃ j, (replies before).length ≤ j ∧ (replies trace)[j]? = some payload

/-- The header and the opcode that a reply repeats. -/
def echoed (payload : List UInt8) : Key :=
  ⟨payload.getD 2 0, payload.getD 3 0, payload.getD 4 0⟩

/-- `storage_buffer` holds a reply that was received behind `before`. -/
def Stored (c : Core) (before : List Event) : Prop :=
  ∃ payload, Arrived c.trace before payload ∧ lastReply c.trace = some payload.dropLast ∧
    storedKey c.storageBuffer = echoed payload

theorem Current.concat {trace before : List Event} {key : Key} (h : Current trace before key)
    {e : Event} (he : requests [e] = []) : Current (trace ++ [e]) before key := by
  obtain ⟨after, rfl, hafter⟩ := h
  exact ⟨after ++ [e], by simp, by rw [requests_append, hafter, he, List.nil_append]⟩

theorem Arrived.concat {trace before : List Event} {payload : List UInt8}
    (h : Arrived trace before payload) (e : Event) : Arrived (trace ++ [e]) before payload := by
  obtain ⟨j, hle, hj⟩ := h
  refine ⟨j, hle, ?_⟩
  rw [replies_append, List.getElem?_append_left (List.getElem?_eq_some_iff.mp hj).1, hj]

/-- What the last request of a trace was answered with. -/
def answers (before : List Event) (key : Key) : Prop :=
  ∃ earlier j payload, Current before earlier key ∧ (replies earlier).length ≤ j ∧
    (replies before)[j]? = some payload ∧ lastReply before = some payload.dropLast ∧
    (requests before)[j]? = some key

theorem isReply_of_header? {c : Core} {payload : List UInt8}
    (h : c.header? (.uart payload) = some 0xAA55) : isReply payload = true := by
  obtain ⟨high, low, rest, rfl, hheader⟩ := Core.header?_uart h
  have hhigh := congrArg Bytes.high hheader
  have hlow := congrArg Bytes.low hheader
  rw [Bytes.high_join] at hhigh
  rw [Bytes.low_join] at hlow
  obtain rfl : 0xAA = high := hhigh
  obtain rfl : 0x55 = low := hlow
  rfl

/-- A stored reply has the key that it repeats. -/
theorem storedKey_store {payload : List UInt8} (h : 6 ≤ payload.length)
    (storage : Memory UInt8) :
    storedKey (if payload.length = 1 then storage
      else storage.store 0 (payload.dropLast ++ [0])) = echoed payload := by
  rw [if_neg (by omega)]
  match payload, h with
  | a :: b :: high :: low :: opcode :: x :: rest, _ =>
    simp [storedKey, echoed, Memory.store]

/-- An accepted reply has the key of the request. -/
theorem storedKey_of_accepts {storage : Memory UInt8} {key : Key}
    (h : accepts storage key = true) : storedKey storage = key := by
  simp only [accepts, Bool.and_eq_true, decide_eq_true_eq] at h
  have hhigh := congrArg Bytes.high h.1.2
  have hlow := congrArg Bytes.low h.1.2
  rw [Bytes.high_join, Bytes.high_join] at hhigh
  rw [Bytes.low_join, Bytes.low_join] at hlow
  rw [storedKey, hhigh, hlow, h.2]

theorem echoed_eq {key : Key} {payload : List UInt8} (h : echoes key payload = true) :
    echoed payload = key := by
  obtain ⟨htake, hlength⟩ := of_decide_eq_true h
  match payload, hlength with
  | a :: b :: high :: low :: opcode :: x :: rest, _ =>
    obtain ⟨-, -, rfl, rfl, rfl⟩ : a = 0xAA ∧ b = 0x55 ∧ high = key.high ∧ low = key.low ∧
        opcode = key.opcode := by simpa using htake
    rfl

/-- The invariant of served runs. -/
structure Agreed (k : Config) : Prop where
  nested : Nested k.1
  alone : askers k.1 ≤ 1
  current : ∀ key armed, asker k.1 = some (key, armed) → ∃ before,
    Current k.2.trace before key ∧ (∀ payload ∈ above k.1, Arrived k.2.trace before payload) ∧
    (armed = true → k.2.dataReadyFlag = true → Stored k.2 before)
  answered : Throughout (fun before e => ∀ key, e = .accepted key → answers before key) k.2.trace

namespace Agreed

variable {k k' : Config}

/-- A transition that concerns no reply. -/
theorem quiet (hk : Agreed k) (hasker : asker k'.1 = asker k.1)
    (habove : ∀ payload ∈ above k'.1, payload ∈ above k.1)
    (htrace : k'.2.trace = k.2.trace ∨
      ∃ e, k'.2.trace = k.2.trace ++ [e] ∧ requests [e] = [] ∧ lastReply [e] = none)
    (hready : k'.2.dataReadyFlag = true → k.2.dataReadyFlag = true)
    (hstorage : k'.2.storageBuffer = k.2.storageBuffer) :
    ∀ key armed, asker k'.1 = some (key, armed) → ∃ before,
      Current k'.2.trace before key ∧
      (∀ payload ∈ above k'.1, Arrived k'.2.trace before payload) ∧
      (armed = true → k'.2.dataReadyFlag = true → Stored k'.2 before) := by
  intro key armed h
  obtain ⟨before, hcurrent, harrived, hstored⟩ := hk.current key armed (hasker ▸ h)
  refine ⟨before, ?_⟩
  -- the trace stays, or gets an event that is neither a request nor a reply
  rcases htrace with htrace | ⟨e, htrace, hrequests, hreply⟩
  · rw [htrace]
    refine ⟨hcurrent, fun payload hmem => harrived payload (habove payload hmem), ?_⟩
    intro harmed hready'
    obtain ⟨payload, h⟩ := hstored harmed (hready hready')
    exact ⟨payload, by rwa [htrace, hstorage]⟩
  · rw [htrace]
    refine ⟨hcurrent.concat hrequests,
      fun payload hmem => (harrived payload (habove payload hmem)).concat e, ?_⟩
    intro harmed hready'
    obtain ⟨payload, harrived', hlast, hkey⟩ := hstored harmed (hready hready')
    refine ⟨payload, ?_, ?_, ?_⟩
    · rw [htrace]
      exact harrived'.concat e
    · rw [htrace, lastReply_concat]
      cases e with
      | reply data => cases hreply
      | _ => exact hlast
    · rw [hstorage, hkey]

theorem current_step (h : Step k k') (hshape : Shape k) (hk : Agreed k)
    (hC : Throughout (fun before e => served before e = true) k'.2.trace) :
    ∀ key armed, asker k'.1 = some (key, armed) → ∃ before,
      Current k'.2.trace before key ∧
      (∀ payload ∈ above k'.1, Arrived k'.2.trace before payload) ∧
      (armed = true → k'.2.dataReadyFlag = true → Stored k'.2 before) := by
  have hcurrent := hk.current
  cases h with
  | idle n => exact hcurrent
  -- a reply that is received now was received since the request
  | @receive s c payload =>
    intro key armed h
    obtain ⟨before, hnow, harrived, hstored⟩ := hcurrent key armed h
    refine ⟨before, hnow.concat rfl, ?_, ?_⟩
    · intro data hdata
      by_cases hreply : isReply payload = true
      · have hmem : data = payload ∨ data ∈ above s := by
          simpa [above, Activity.asker?, Activity.reply?, hreply] using hdata
        rcases hmem with rfl | hmem
        · refine ⟨(replies c.trace).length, ?_, ?_⟩
          · obtain ⟨after, htrace, -⟩ := hnow
            dsimp only at htrace
            rw [htrace, replies_append, List.length_append]
            exact Nat.le_add_right _ _
          · simp [replies, hreply]
        · exact (harrived data hmem).concat _
      · have hmem : data ∈ above s := by
          simpa [above, Activity.asker?, Activity.reply?, hreply] using hdata
        exact (harrived data hmem).concat _
    · intro harmed hready
      obtain ⟨data, harrived', hlast, hkey⟩ := hstored harmed hready
      exact ⟨data, harrived'.concat _, by rw [Core.log_trace, lastReply_concat, hlast], hkey⟩
  -- what is copied answers the current request: it was received since, and is no row
  | @reply s c item hheader hpos hlen =>
    intro key armed h
    cases item with
    | row address length =>
      obtain rfl : s = [.popping, .main] := hshape.stacked.1
      cases h
    | uart payload =>
      obtain ⟨before, hnow, harrived, -⟩ := hcurrent key armed h
      have hreply := isReply_of_header? hheader
      have harrived' : Arrived c.trace before payload :=
        harrived payload (by simp [above, Activity.asker?, Activity.reply?, hreply])
      refine ⟨before, hnow.concat rfl, ?_, fun _ _ => ⟨payload, harrived'.concat _, ?_, ?_⟩⟩
      · intro data hdata
        refine (harrived data ?_).concat _
        simpa [above, Activity.asker?] using .inr hdata
      · rw [Core.log_trace, lastReply_concat]
        rfl
      · obtain ⟨j, -, hj⟩ := harrived'
        obtain ⟨key', -, hechoes⟩ := echoes_of_served (throughout_concat.mp hC).1 hj
        exact storedKey_store (of_decide_eq_true hechoes).2 c.storageBuffer
  -- a new request, with nothing received since
  | @ask s c call hwaits key =>
    intro key' armed h
    obtain ⟨rfl, rfl⟩ : key = key' ∧ false = armed := by
      simpa [asker_cons, Activity.asker?] using h
    refine ⟨c.trace, ⟨[], by simp, rfl⟩, ?_, fun h => Bool.noConfusion h⟩
    rintro payload ⟨⟩
  | arm key =>
    intro key' armed h
    obtain ⟨rfl, rfl⟩ : key = key' ∧ true = armed := by
      simpa [asker_cons, Activity.asker?] using h
    obtain ⟨before, hnow, -, -⟩ := hcurrent key false rfl
    refine ⟨before, hnow, ?_, fun _ h => Bool.noConfusion h⟩
    rintro payload ⟨⟩
  -- behind the only request nobody asks
  | accept key | giveUp key =>
    have hnone := hk.alone
    rw [askers_cons] at hnone
    intro key' armed h
    rw [asker_eq_none (by simpa [Activity.asker?] using hnone)] at h
    cases h
  -- nothing of a reply moves in the other transitions
  | leave | enter | enterWait | drain | skip | skipHandler | handlerReturns | methodReturns =>
    exact hk.quiet (by simp [asker_cons, Activity.asker?])
      (by simp [above, Activity.asker?, Activity.reply?]) (.inl rfl) (by simp) rfl
  | pass item | skipDetect item | ignore item =>
    refine hk.quiet (by simp [asker_cons, Activity.asker?]) ?_ (.inl rfl) (fun h => h) rfl
    cases item <;> simp_all [above, Activity.asker?, Activity.reply?]
  | refresh item | detect item | callDetect item | queue item | dispatch item =>
    refine hk.quiet (by simp [asker_cons, Activity.asker?]) ?_ (.inr ⟨_, rfl, rfl, rfl⟩)
      (fun h => h) rfl
    cases item <;> simp_all [above, Activity.asker?, Activity.reply?]
  | onDetect ha | callAtOnce ha | call ha | refuse ha =>
    refine hk.quiet ?_ ?_ (.inr ⟨_, rfl, rfl, rfl⟩) (fun h => h) rfl
    · rcases ha.eq with rfl | rfl <;> simp [asker_cons, Activity.asker?]
    · rcases ha.eq with rfl | rfl <;> simp [above, Activity.asker?, Activity.reply?]
  | _ =>
    exact hk.quiet (by simp [asker_cons, Activity.asker?])
      (by simp [above, Activity.asker?, Activity.reply?]) (.inr ⟨_, rfl, rfl, rfl⟩)
      (fun h => h) rfl

theorem alone_step (h : Step k k') (hshape : Shape k) (hk : Agreed k)
    (hC : Throughout (fun before e => served before e = true) k'.2.trace) :
    askers k'.1 ≤ 1 := by
  have halone := hk.alone
  cases h with
  | @ask s c call =>
    have hopen : openWaits c.trace = 0 := of_decide_eq_true (throughout_concat.mp hC).2
    rw [hshape.openWaits_eq] at hopen
    -- beneath the innermost activity a request in progress is an open wait
    have hle : askers s ≤ waits s := by
      refine List.countP_mono_left fun a ha hasker => ?_
      have hcalls := hk.nested a ha
      cases a with
      | asking key | concluding key => cases hcalls
      | waiting key => rfl
      | _ => cases hasker
    have hzero : waits s = 0 := by simpa [Activity.isWait] using hopen
    have hnone : askers s = 0 := Nat.le_zero.mp (hle.trans_eq hzero)
    rw [askers_cons, askers_cons, hnone]
    exact Nat.le_refl 1
  | onDetect ha | callAtOnce ha | call ha | refuse ha =>
    rcases ha.eq with rfl | rfl
    · simpa [askers_cons, Activity.asker?] using halone
    · simpa [askers_cons, Activity.asker?] using halone
  | accept | giveUp =>
    rw [askers_cons] at halone
    exact (Nat.le_add_right _ _).trans halone
  | _ => simpa [askers_cons, Activity.asker?] using halone

theorem answered_step (h : Step k k') (hk : Agreed k)
    (hC : Throughout (fun before e => served before e = true) k'.2.trace) :
    Throughout (fun before e => ∀ key, e = .accepted key → answers before key) k'.2.trace := by
  have hanswered := hk.answered
  cases h with
  | @accept s c key hready haccepts =>
    refine throughout_concat.mpr ⟨hanswered, ?_⟩
    rintro key' ⟨⟩
    obtain ⟨earlier, hcurrent, -, hstored⟩ := hk.current key true rfl
    obtain ⟨payload, ⟨j, hle, hj⟩, hlast, hkey⟩ := hstored rfl hready
    obtain ⟨key', hrequest, hechoes⟩ := echoes_of_served (throughout_concat.mp hC).1 hj
    obtain rfl : key' = key := by
      rw [← echoed_eq hechoes, ← hkey, storedKey_of_accepts haccepts]
    exact ⟨earlier, j, payload, hcurrent, hle, hj, hlast, hrequest⟩
  | _ => simpa [throughout_concat, Core.processing] using hanswered

theorem step (h : Step k k') (hshape : Shape k)
    (hC : Throughout (fun before e => served before e = true) k'.2.trace) (hk : Agreed k) :
    Agreed k' where
  nested := nested_step h hk.nested
  alone := hk.alone_step h hshape hC
  current := hk.current_step h hshape hC
  answered := hk.answered_step h hC

end Agreed

theorem agreed_powerUp : Agreed ([.main], .powerUp) where
  nested := by
    rintro a ⟨⟩
  alone := Nat.zero_le 1
  current := by
    rintro key armed ⟨⟩
  answered := throughout_nil

/-- **An accepted reply answers a request of the same kind.**  In a run in which requests come one
after another and the ESP answers them in order, each after any delay, a request that accepts
a reply accepts one that was received since the request was written.  It answers this request,
or an earlier one with the same header and opcode that was not answered when this one was
written. -/
theorem World.Reachable.accepts_answer {w : World} (h : w.Reachable)
    (hserved : Throughout (fun before e => served before e = true) w.trace) :
    ∀ before key after, w.trace = before ++ .accepted key :: after →
      ∃ earlier j payload, Current before earlier key ∧
        (replies before)[j]? = some payload ∧ lastReply before = some payload.dropLast ∧
        (j = (requests earlier).length ∨
          (replies earlier).length ≤ j ∧ (requests earlier)[j]? = some key) := by
  obtain ⟨s, -, hagreed⟩ :=
    h.invariant agreed_powerUp (fun _ _ h hshape hC hk => hk.step h hshape hC) hserved
  intro before key after htrace
  obtain ⟨earlier, j, payload, hcurrent, hle, hj, hlast, hrequest⟩ :=
    hagreed.answered before _ after htrace key rfl
  refine ⟨earlier, j, payload, hcurrent, hj, hlast, ?_⟩
  obtain ⟨behind, rfl, hbehind⟩ := hcurrent
  have hrequests : requests (earlier ++ .request key :: behind) = requests earlier ++ [key] := by
    rw [requests_append, ← List.singleton_append, requests_append, hbehind, List.append_nil]
    rfl
  rw [hrequests, List.getElem?_append] at hrequest
  -- the reply has the number of an earlier request, or that of the request itself
  by_cases hlt : j < (requests earlier).length
  · rw [if_pos hlt] at hrequest
    exact .inr ⟨hle, hrequest⟩
  · rw [if_neg hlt] at hrequest
    have := (List.getElem?_eq_some_iff.mp hrequest).1
    rw [List.length_singleton] at this
    exact .inl (by omega)

/-- The request was accepted. -/
def Event.isAccepted : Event → Bool
  | accepted _ => true
  | _ => false

/-- The reply to `format()` arrives at once.  Irreducible, so that runs over it are evaluated only
where this is asked for. -/
@[irreducible] def promptSchedule : List Tick :=
  ⟨0, [0x24, 0x00, 0x07, 0xAA, 0x55, 0x34, 0x34, 0x03, 0x01, 0xFD]⟩ :: List.replicate 50 ⟨0, []⟩

theorem accepts_answer_promptSchedule : ∃ w : World, w.Reachable ∧
    w.trace.any Event.isAccepted = true ∧
    ∀ before key after, w.trace = before ++ .accepted key :: after →
      ∃ earlier j payload, Current before earlier key ∧
        (replies before)[j]? = some payload ∧ lastReply before = some payload.dropLast ∧
        (j = (requests earlier).length ∨
          (replies earlier).length ≤ j ∧ (requests earlier)[j]? = some key) := by
  obtain ⟨w, hw, haccepted, hserved⟩ := @exists_reachable promptSchedule [] (fun _ _ => 0) 1
    [.user (.call (.spiffs anyObject .format))]
    (fun w => w.trace.any Event.isAccepted = true ∧
      Throughout (fun before e => served before e = true) w.trace)
    (by decide +kernel)
  exact ⟨w, hw, haccepted, World.Reachable.accepts_answer hw hserved⟩

/-! ## The late reply -/

/-- The accepted reply is the answer to the last request. -/
def ownAnswer (before : List Event) : Event → Bool
  | .accepted _ => (replies before)[(requests before).length - 1]?.any fun payload =>
      lastReply before = some payload.dropLast
  | _ => true

/-- The first of two calls of `format()` times out, and its reply arrives while the second one
waits.  Irreducible, so that runs over it are evaluated only where this is asked for. -/
@[irreducible] def lateSchedule : List Tick :=
  List.replicate 10 ⟨0, []⟩ ++ [⟨40000, []⟩] ++ List.replicate 10 ⟨0, []⟩ ++
    [⟨0, [0x24, 0x00, 0x07, 0xAA, 0x55, 0x34, 0x34, 0x03, 0x01, 0xFD]⟩] ++
    List.replicate 50 ⟨0, []⟩

/-- The second call accepts the answer to the first one. -/
theorem late_reply_accepted : ¬∀ w : World, w.Reachable →
    Throughout (fun before e => served before e = true) w.trace →
    Throughout (fun before e => ownAnswer before e = true) w.trace := by
  intro h
  obtain ⟨w, hw, hserved, hanswer⟩ := @exists_reachable lateSchedule [] (fun _ _ => 0) 1
    [.user (.call (.spiffs anyObject .format)), .user (.call (.spiffs anyObject .format))]
    (fun w => Throughout (fun before e => served before e = true) w.trace ∧
      ¬Throughout (fun before e => ownAnswer before e = true) w.trace)
    (by decide +kernel)
  exact hanswer (h w hw hserved)

end Teensquitto
