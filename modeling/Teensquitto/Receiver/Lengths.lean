import Teensquitto.Receiver.Checked
import Teensquitto.Receiver.Settling

/-!
# Malformed lengths

A packet of length 0 or 1, and a frame that is shorter than its header, its sub-code and its
embedded lengths call for, make the receiver use indices outside its buffer.

## Main definitions

* `PacketSafe`, `QueueSafe`: the packet, or the queued frame, that a call of `events()` handles is
  long enough
* `CallSafe`: the condition on a call

## Main results

* `settles_checkedEvents`: a call comes to an end once the clock advances
* `malformed_lengths_iff`: a call returns with all its indices checked exactly under the condition
* `empty_packet_stored_outside`: the byte behind a packet of length 0 is stored outside its buffer
-/

namespace Teensquitto

/-! ## Processing without handlers -/

/-- The action stays inside the arrays it writes, and its loops end. -/
def Performable (w : World) (len : ℕ) : Action → Prop
  | .reply _ => len ≠ 0 ∧ len ≤ 512
  | .queue => w.queue.row w.queue.tail + 2 + len ≤ 16 * 302
  | .udp (some d) => d.length.toNat ≤ 256
  | .print => len ≠ 0
  | _ => True

instance (w : World) (len : ℕ) (action : Action) : Decidable (Performable w len action) :=
  match action with
  | .reply _ => inferInstanceAs (Decidable (_ ∧ _))
  | .queue | .udp (some _) => inferInstanceAs (Decidable (_ ≤ _))
  | .print => inferInstanceAs (Decidable (_ ≠ _))
  | .latency | .dispatch _ | .udp none | .status _ _ | .restart => inferInstanceAs (Decidable True)

section Processing

variable {user : Prog Unit} {src : Source} {len : ℕ} {w : World}

theorem ends_invoke (hnone : w.handlers.present = fun _ => false) (slot : Slot)
    (args : List Datum) {Q : Unit → World → Prop} {E : Halt → World → Prop} :
    (invoke user slot args).Ends w Q E ↔ Q () w := by
  rw [invoke, EStateM.ends_bind, EStateM.ends_get, hnone]
  exact Iff.rfl

/-- What the switch finds as before the call. -/
structure Unswitched (w w' : World) : Prop where
  handlers : w'.handlers = w.handlers
  pendingData : w'.pendingData = w.pendingData
  queue : w'.queue = w.queue

/-- An action is performable before the switch if it is at the call. -/
theorem Unswitched.performable_iff {w' : World} (h : Unswitched w w') (action : Action) :
    Performable w' len action ↔ Performable w len action := by
  cases action with
  | queue => rw [Performable, Performable, h.queue]
  | udp datagram =>
    cases datagram with
    | none => exact Iff.rfl
    | some d => exact Iff.rfl
  | reply bytes => exact Iff.rfl
  | latency => exact Iff.rfl
  | dispatch invocation => exact Iff.rfl
  | status header value => exact Iff.rfl
  | restart => exact Iff.rfl
  | print => exact Iff.rfl

/-- Up to the switch nothing but the clock stops the run. -/
theorem ends_entrance (hnone : w.handlers.present = fun _ => false)
    (hheader : ∀ w, ∃ header, World.header? w src = some header) :
    (entrance user src len).Ends w (fun _ w' => Unswitched w w') fun e _ => e = .exhausted := by
  -- The detection brings the library online, from two places; without handlers this calls nothing.
  have honline (w : World) (hnone : w.handlers.present = fun _ => false) :
      (bringOnline user).Ends w (fun _ w' => Unswitched w w') fun e _ => e = .exhausted := by
    unfold bringOnline delay
    rw [EStateM.ends_bind, log, EStateM.ends_modify, EStateM.ends_bind, EStateM.ends_modify,
      EStateM.ends_bind, EStateM.ends_bind]
    refine ends_tick_of (fun t ticks _ => ?_) rfl
    rw [EStateM.ends_modify]
    refine (ends_invoke ?_ _ _).mpr ⟨rfl, rfl, rfl⟩
    exact hnone
  unfold entrance refresh
  rw [EStateM.ends_bind, EStateM.ends_bind]
  refine ends_millis_of (fun now t ticks _ => ?_) rfl
  rw [EStateM.ends_bind, EStateM.ends_get, EStateM.ends_bind, log, EStateM.ends_modify,
    EStateM.ends_modify, detection, EStateM.ends_bind, EStateM.ends_get, EStateM.ends_ite]
  split
  · obtain ⟨header, hheader⟩ := hheader _
    rw [EStateM.ends_bind, readHeader, EStateM.ends_bind, EStateM.ends_get, hheader]
    rw [EStateM.ends_pure, EStateM.ends_ite]
    split
    · refine EStateM.Ends.mono (honline _ ?_) ?_ fun _ _ h => h
      · exact hnone
      · exact fun _ _ h => ⟨h.handlers, h.pendingData, h.queue⟩
    · exact ⟨rfl, rfl, rfl⟩
  · refine EStateM.Ends.mono (honline _ ?_) ?_ fun _ _ h => h
    · exact hnone
    · exact fun _ _ h => ⟨h.handlers, h.pendingData, h.queue⟩

theorem keepSet_false (invocation : Option Invocation) :
    keepSet (fun _ => false) invocation = none := by
  cases invocation with
  | none => rfl
  | some i => exact (keepSet_some _ i.1 i.2).trans (if_neg Bool.false_ne_true)

/-- Without handlers no handler is called. -/
theorem invocation_eq_none {debug pending : Bool} {data : Memory UInt8}
    {invocation : Option Invocation}
    (h : (frameFields debug pending (fun _ => false) len).value data = .dispatch invocation) :
    invocation = none := by
  have hasync (header : UInt16) (h : (asyncFields (fun _ => false) header len).value data =
      .dispatch invocation) : invocation = none := by
    simp -implicitDefEqProofs only [asyncFields, Tracked.value_ite, Tracked.value_bind,
      Tracked.value_pure, value_mqttFields, value_wifiFields, value_webSocketFields,
      keepSet_false] at h
    split_ifs at h <;> exact (Action.dispatch.inj h).symm
  simp -implicitDefEqProofs only [frameFields, Tracked.value_ite, Tracked.value_bind,
    Tracked.value_pure] at h
  split_ifs at h
  exact hasync _ h

theorem ends_perform (hnone : w.handlers.present = fun _ => false) {action : Action}
    (hcall : ∀ invocation, action = .dispatch invocation → invocation = none)
    (h : Performable w len action) :
    (perform user src len action).Ends w (fun _ _ => True) fun e _ => e = .exhausted := by
  cases action with
  | reply bytes =>
    have hfits : ¬(len = 0 ∨ 512 < len) := not_or.mpr ⟨h.1, Nat.not_lt.mpr h.2⟩
    rw [perform, putReply, if_neg hfits]
    exact trivial
  | latency =>
    rw [perform, latencyFrame, EStateM.ends_bind]
    exact ends_millis_of (fun _ _ _ _ => trivial) rfl
  | queue =>
    rw [perform, queueFrame, EStateM.ends_bind, EStateM.ends_get, if_neg (Nat.not_lt.mpr h)]
    exact trivial
  | dispatch invocation =>
    obtain rfl := hcall invocation rfl
    exact trivial
  | udp datagram =>
    cases datagram with
    | none => exact trivial
    | some d =>
      rw [perform, putDatagram, if_neg (Nat.not_lt.mpr h), EStateM.ends_bind]
      refine (ends_invoke ?_ _ _).mpr trivial
      exact hnone
  | status header value => exact trivial
  | restart => exact trivial
  | print =>
    rw [perform, if_neg h]
    exact trivial

theorem ensures_perform {action : Action} (h : ¬Performable w len action) :
    (perform user src len action).Ensures w fun _ _ => False := by
  cases action with
  | reply bytes =>
    have hfits : len = 0 ∨ 512 < len := by
      by_contra hfits
      obtain ⟨hpos, hle⟩ := not_or.mp hfits
      exact h ⟨hpos, Nat.not_lt.mp hle⟩
    rw [perform, putReply, if_pos hfits]
    exact trivial
  | queue =>
    rw [perform, queueFrame, EStateM.Ensures, EStateM.ends_bind, EStateM.ends_get,
      if_pos (Nat.lt_of_not_le h)]
    exact trivial
  | udp datagram =>
    cases datagram with
    | none => exact absurd trivial h
    | some d =>
      rw [perform, putDatagram, if_pos (Nat.lt_of_not_le h)]
      exact trivial
  | print =>
    rw [perform, if_pos (not_not.mp h)]
    exact trivial
  | latency => exact absurd trivial h
  | dispatch invocation => exact absurd trivial h
  | status header value => exact absurd trivial h
  | restart => exact absurd trivial h

/-- The switch reads inside the buffer, and performs the action. -/
def SwitchSafe (debug : Bool) (src : Source) (len : ℕ) (w : World) : Prop :=
  (src.queued = true ∨ w.neededLength debug src len ≤ len) ∧
    Performable w len ((w.fields debug len).value (w.dataAt src))

variable {debug : Bool}

theorem ends_checkedProcess (hnone : w.handlers.present = fun _ => false)
    (hheader : ∀ w, ∃ header, World.header? w src = some header)
    (h : ∀ w', Unswitched w w' → SwitchSafe debug src len w') :
    (checkedProcess debug user src len).Ends w (fun _ _ => True) fun e _ => e = .exhausted := by
  refine (ends_entrance hnone hheader).bind fun _ w' hw' => ?_
  obtain ⟨hreads, hperform⟩ := h w' hw'
  have hnone' : w'.handlers.present = fun _ => false := by rw [hw'.handlers, hnone]
  obtain ⟨header, hheader⟩ := hheader w'
  rw [EStateM.ends_bind, EStateM.ends_get, if_pos hreads,
    EStateM.ends_congr (switchHeader_run debug hheader)]
  refine ends_perform hnone' (fun invocation hcall => ?_) hperform
  rw [hnone'] at hcall
  exact invocation_eq_none hcall

theorem ensures_checkedProcess (hnone : w.handlers.present = fun _ => false)
    (hheader : ∀ w, ∃ header, World.header? w src = some header)
    (h : ∀ w', Unswitched w w' → ¬SwitchSafe debug src len w') :
    (checkedProcess debug user src len).Ensures w fun _ _ => False := by
  have hentrance : (entrance user src len).Ensures w fun _ w' => Unswitched w w' :=
    (ends_entrance hnone hheader).mono (fun _ _ h => h) fun _ _ _ => trivial
  refine hentrance.bind fun _ w' hw' => ?_
  obtain ⟨header, hheader⟩ := hheader w'
  rw [EStateM.Ensures, EStateM.ends_bind, EStateM.ends_get, EStateM.ends_ite]
  split
  · next hreads =>
    rw [EStateM.ends_congr (switchHeader_run debug hheader)]
    exact ensures_perform fun hperform => h w' hw' ⟨hreads, hperform⟩
  · trivial

/-! ## The condition -/

/-- The bytes of a frame. -/
def frameBytes (payload : List UInt8) : Memory UInt8 := fun i => payload.getD i 0

/-- The frame is as long as it has to be, and its action stays inside the arrays. -/
def FrameSafe (debug : Bool) (w : World) (payload : List UInt8) : Prop :=
  neededLength (fun _ => false) (frameBytes payload) debug w.pendingData payload.length ≤
    payload.length ∧
  Performable w payload.length
    ((frameFields debug w.pendingData (fun _ => false) payload.length).value (frameBytes payload))

/-- What lies behind the frame makes no difference if it is not read. -/
theorem frameSafe_iff {w' : World} (hnone : w.handlers.present = fun _ => false)
    (hw' : Unswitched w w') (payload : List UInt8) :
    SwitchSafe debug (.uart payload) payload.length w' ↔ FrameSafe debug w payload := by
  let m : Fields Action := frameFields debug w.pendingData (fun _ => false) payload.length
  have hagree : ∀ i < payload.length, w'.dataAt (.uart payload) i = frameBytes payload i := by
    intro i hi
    simp only [World.dataAt, frameBytes, List.getD_eq_getElem?_getD, List.getElem?_eq_getElem hi,
      Option.getD_some]
  -- The fields read the same bytes of two memories that agree below the length.
  have hreads (d d' : Memory UInt8) (h : ∀ i < payload.length, d' i = d i)
      (hle : m.extent d ≤ payload.length) : m.extent d' ≤ payload.length ∧
        m.value d' = m.value d := by
    have hlt := (Tracked.extent_le_iff d m).mp hle
    have hsame : ∀ i ∈ m.reads d, d' i = d i := fun i hi => h i (hlt i hi)
    rw [Tracked.extent, m.reads_congr hsame]
    exact ⟨hle, m.value_congr hsame⟩
  have hfields : w'.fields debug payload.length = m := by
    rw [World.fields, hw'.pendingData, hw'.handlers, hnone]
  rw [SwitchSafe, FrameSafe, World.neededLength, hw'.pendingData, hw'.handlers, hnone,
    ← extent_frameFields, ← extent_frameFields, hfields, hw'.performable_iff]
  constructor
  · rintro ⟨hfits | hfits, hperform⟩
    · exact absurd hfits Bool.false_ne_true
    · obtain ⟨hfits', hvalue⟩ := hreads _ _ (fun i hi => (hagree i hi).symm) hfits
      exact ⟨hfits', hvalue ▸ hperform⟩
  · rintro ⟨hfits, hperform⟩
    obtain ⟨hfits', hvalue⟩ := hreads _ _ hagree hfits
    exact ⟨.inr hfits', hvalue ▸ hperform⟩

/-- The first queued frame, if it is processed. -/
def QueueSafe (debug : Bool) (w : World) : Prop :=
  w.pendingData = false → w.queue.available > 0 →
    Performable w w.queue.lengthFront.toNat
      ((frameFields debug false (fun _ => false) w.queue.lengthFront.toNat).value
        (w.dataAt (.row w.queue.front)))

theorem switchSafe_row_iff {w' : World} (hnone : w.handlers.present = fun _ => false)
    (hpending : w.pendingData = false) (hw' : Unswitched w w') :
    SwitchSafe debug (.row w.queue.front) w.queue.lengthFront.toNat w' ↔
      Performable w w.queue.lengthFront.toNat
        ((frameFields debug false (fun _ => false) w.queue.lengthFront.toNat).value
          (w.dataAt (.row w.queue.front))) := by
  have hdata : w'.dataAt (.row w.queue.front) = w.dataAt (.row w.queue.front) := by
    rw [World.dataAt, World.dataAt, hw'.queue]
  have hfields : w'.fields debug w.queue.lengthFront.toNat =
      frameFields debug false (fun _ => false) w.queue.lengthFront.toNat := by
    rw [World.fields, hw'.pendingData, hw'.handlers, hnone, hpending]
  rw [SwitchSafe, hfields, hdata, hw'.performable_iff]
  exact and_iff_right (.inl rfl)

theorem ends_drainQueue (hnone : w.handlers.present = fun _ => false) (h : QueueSafe debug w) :
    (drainQueue (checkedProcess debug user)).Ends w (fun _ _ => True)
      fun e _ => e = .exhausted := by
  unfold drainQueue
  rw [EStateM.ends_bind, EStateM.ends_get, EStateM.ends_ite]
  split
  · next hdrain =>
    rw [Bool.and_eq_true, Bool.not_eq_true', decide_eq_true_eq] at hdrain
    obtain ⟨hpending, havailable⟩ := hdrain
    refine EStateM.Ends.bind (Q := fun _ _ => True) ?_ fun _ _ _ => trivial
    refine ends_checkedProcess hnone (fun _ => ⟨_, rfl⟩) fun w' hw' => ?_
    exact (switchSafe_row_iff hnone hpending hw').mpr (h hpending havailable)
  · exact trivial

theorem ensures_drainQueue (hnone : w.handlers.present = fun _ => false) (h : ¬QueueSafe debug w) :
    (drainQueue (checkedProcess debug user)).Ensures w fun _ _ => False := by
  unfold QueueSafe at h
  push Not at h
  obtain ⟨hpending, havailable, h⟩ := h
  have hdrain : (!w.pendingData && decide (w.queue.available > 0)) = true := by
    rw [hpending, decide_eq_true havailable]
    rfl
  unfold drainQueue
  rw [EStateM.Ensures, EStateM.ends_bind, EStateM.ends_get, EStateM.ends_ite, if_pos hdrain]
  refine EStateM.Ensures.bind (Q := fun _ _ => False) ?_ fun _ _ h => h.elim
  refine ensures_checkedProcess hnone (fun _ => ⟨_, rfl⟩) fun w' hw' => ?_
  exact mt (switchSafe_row_iff hnone hpending hw').mp h

end Processing

/-! ## Packets -/

section Packets

variable {w : World} {debug : Bool}

/-- The reads of the header: the declared length, and what they leave in the port. -/
def readLength (rx : List UInt8) (t₁ t₂ t₃ : Tick) : ℕ × List UInt8 :=
  let two := (rx ++ t₁.arrived).tail ++ t₂.arrived
  let one := two.tail ++ t₃.arrived
  ((frameSize two.head? one.head?).toNat, one.tail)

/-- The packet that comes in time behind the wait for its header: its declared length, and the
next bytes of the stream. -/
def World.packet? (w : World) : Option (ℕ × List UInt8) :=
  match w.ticks with
  | t₁ :: t₂ :: t₃ :: stamp :: ticks =>
    let size := (readLength w.rx t₁ t₂ t₃).1
    let rx := (readLength w.rx t₁ t₂ t₃).2 ++ stamp.arrived
    if InTime size rx 0 ticks then some (size, (rx ++ arrivals ticks).take size) else none
  | _ => none

/-- A packet that comes in time is long enough, also for the action of its frame. -/
def PacketSafe (debug : Bool) (w : World) : Prop :=
  ∀ size payload, w.packet? = some (size, payload) →
    2 ≤ size ∧ (Closed payload → FrameSafe debug w payload)

/-- The comparison of a packet. -/
theorem ends_checkedVerdict {payload : List UInt8} (hne : payload ≠ [])
    {Q : Reception → World → Prop} {E : Halt → World → Prop}
    (hframe : Closed payload → Q (.frame payload) w)
    (hnak : ¬Closed payload → 2 ≤ payload.length → ∀ sent, Q .rejected { w with sent := sent })
    (hshort : ¬Closed payload → ¬2 ≤ payload.length → E .undefined w) :
    (checkedVerdict payload.length (.of payload.length payload)).Ends w Q E := by
  have hlen := List.length_pos_iff.mpr hne
  have hverdict : (Buffer.of payload.length payload).bytes.getD (payload.length - 1) 0 =
      (Buffer.of payload.length payload).checksum ↔ Closed payload := getD_eq_iff_closed hne
  unfold checkedVerdict verdict
  by_cases hclosed : Closed payload
  · rw [if_pos (.inl (hverdict.mpr hclosed)), if_neg (by omega),
      if_neg (not_not_intro (hverdict.mpr hclosed))]
    exact hframe hclosed
  · by_cases htwo : 2 ≤ payload.length
    · rw [if_pos (.inr htwo), if_neg (by omega), if_pos (mt hverdict.mp hclosed)]
      exact hnak hclosed htwo _
    · rw [if_neg (not_or.mpr ⟨mt hverdict.mp hclosed, htwo⟩)]
      exact hshort hclosed htwo

theorem ends_checkedBody_short {Q : Reception → World → Prop} (h : w.ticks.length < 4) :
    checkedBody.Ends w Q fun e _ => e = .exhausted := by
  unfold checkedBody
  rw [EStateM.ends_bind]
  refine ends_read_of (fun _ t₁ ticks₁ rx₁ hticks₁ => ?_) rfl
  rw [EStateM.ends_bind]
  refine ends_read_of (fun high t₂ ticks₂ rx₂ hticks₂ => ?_) rfl
  rw [EStateM.ends_bind]
  refine ends_read_of (fun low t₃ ticks₃ rx₃ hticks₃ => ?_) rfl
  obtain rfl : ticks₁ = t₂ :: ticks₂ := hticks₂
  obtain rfl : ticks₂ = t₃ :: ticks₃ := hticks₃
  rw [hticks₁] at h
  obtain rfl : ticks₃ = [] := by
    rw [← List.length_eq_zero_iff]
    simp only [List.length_cons] at h
    omega
  rw [EStateM.ends_bind]
  exact (ends_millis_nil rfl).mpr rfl

/-- From the time stamp the packet is received. -/
theorem ends_checkedBody_cons {t₁ t₂ t₃ stamp : Tick} {ticks : List Tick}
    (hticks : w.ticks = t₁ :: t₂ :: t₃ :: stamp :: ticks) {size : ℕ} {rx : List UInt8}
    (hlength : readLength w.rx t₁ t₂ t₃ = (size, rx)) : ∃ c, ∀ Q E, checkedBody.Ends w Q E ↔
      (EStateM.iterate (throw .exhausted) (checkedRound size) (ticks.length + 1)
        (.of size [], UInt32.ofNat c)).Ends (w.withPort c ticks (rx ++ stamp.arrived)) Q E := by
  refine ⟨w.clock + t₁.elapsed + t₂.elapsed + t₃.elapsed + stamp.elapsed, fun Q E => ?_⟩
  have hof : Buffer.of size [] = ⟨[], 0⟩ := by
    rw [Buffer.of, List.take_nil]
    rfl
  obtain ⟨rfl, rfl⟩ := Prod.mk.inj hlength
  rw [checkedBody, EStateM.ends_bind, ends_read_cons hticks, EStateM.ends_bind, ends_read_cons rfl,
    EStateM.ends_bind, ends_read_cons rfl, EStateM.ends_bind, ends_millis_cons rfl, hof]
  exact Iff.rfl.trans (by rw [checkedReceive_eq, loop, EStateM.ends_bind, EStateM.ends_get]; rfl)

theorem packet?_cons {t₁ t₂ t₃ stamp : Tick} {ticks : List Tick}
    (hticks : w.ticks = t₁ :: t₂ :: t₃ :: stamp :: ticks) {size : ℕ} {rx : List UInt8}
    (hlength : readLength w.rx t₁ t₂ t₃ = (size, rx)) :
    w.packet? = if InTime size (rx ++ stamp.arrived) 0 ticks then
      some (size, (rx ++ stamp.arrived ++ arrivals ticks).take size) else none := by
  unfold World.packet?
  rw [hticks]
  dsimp only
  rw [hlength]

/-- A packet has its readings. -/
theorem exists_of_packet? {size : ℕ} {payload : List UInt8}
    (hpacket : w.packet? = some (size, payload)) : ∃ ticks rx c,
      InTime size rx 0 ticks ∧ payload = (rx ++ arrivals ticks).take size ∧
      ∀ Q E, checkedBody.Ends w Q E ↔
        (EStateM.iterate (throw .exhausted) (checkedRound size) (ticks.length + 1)
          (.of size [], UInt32.ofNat c)).Ends (w.withPort c ticks rx) Q E := by
  match hticks : w.ticks with
  | [] | [_] | [_, _] | [_, _, _] =>
    unfold World.packet? at hpacket
    rw [hticks] at hpacket
    cases hpacket
  | t₁ :: t₂ :: t₃ :: stamp :: ticks =>
    obtain ⟨size', rx, hlength⟩ : ∃ size rx, readLength w.rx t₁ t₂ t₃ = (size, rx) := ⟨_, _, rfl⟩
    obtain ⟨c, hends⟩ := ends_checkedBody_cons hticks hlength
    rw [packet?_cons hticks hlength] at hpacket
    split at hpacket
    · next hin =>
      obtain ⟨rfl, rfl⟩ := Prod.mk.inj (Option.some.inj hpacket)
      exact ⟨ticks, _, c, hin, rfl, hends⟩
    · cases hpacket

/-- A packet in time ends with the comparison of its bytes. -/
theorem ends_checkedBody_of_packet {size : ℕ} {payload : List UInt8}
    (hpacket : w.packet? = some (size, payload)) (hpos : size ≠ 0) {Q : Reception → World → Prop}
    {E : Halt → World → Prop} (hverdict : ∀ w', Unswitched w w' → payload.length = size →
      (checkedVerdict size (.of size payload)).Ends w' Q E) : checkedBody.Ends w Q E := by
  obtain ⟨ticks, rx, c, hin, rfl, hends⟩ := exists_of_packet? hpacket
  obtain ⟨n, rfl⟩ := Nat.exists_eq_succ_of_ne_zero hpos
  rw [hends]
  refine @ends_receive_of_inTime _ _ _ _ c 0 _ n [] (Nat.lt_succ_self _) ?_ rfl hin ?_
  · exact Nat.zero_add _
  · intro w' hw' hlength
    refine hverdict w' ?_ hlength
    rw [hw']
    exact ⟨rfl, rfl, rfl⟩

/-- Other packets are given up. -/
theorem ends_checkedBody_of_none (hpacket : w.packet? = none) :
    checkedBody.Ends w (fun result _ => result = .expired) fun e _ => e = .exhausted := by
  match hticks : w.ticks with
  | [] | [_] | [_, _] | [_, _, _] =>
    refine ends_checkedBody_short ?_
    rw [hticks]
    simp
  | t₁ :: t₂ :: t₃ :: stamp :: ticks =>
    obtain ⟨size, rx, hlength⟩ : ∃ size rx, readLength w.rx t₁ t₂ t₃ = (size, rx) := ⟨_, _, rfl⟩
    obtain ⟨c, hends⟩ := ends_checkedBody_cons hticks hlength
    rw [packet?_cons hticks hlength] at hpacket
    split at hpacket
    · cases hpacket
    · next hin =>
      rw [hends]
      exact @ends_receive_of_not_inTime _ _ c 0 _ _ [] (Nat.zero_add _) rfl hin

/-- What the receiver found is handled. -/
def Reception.Safe (debug : Bool) (w w' : World) : Reception → Prop
  | .frame payload => Unswitched w w' ∧ 2 ≤ payload.length ∧ FrameSafe debug w payload
  | .nothing | .flushed => Unswitched w w' ∧ QueueSafe debug w
  | .rejected | .expired | .ack _ => True

/-- What the receiver found is not handled. -/
def Reception.Unsafe (debug : Bool) (w w' : World) : Reception → Prop
  | .frame payload => Unswitched w w' ∧ (payload.length < 2 ∨ ¬FrameSafe debug w payload)
  | .nothing | .flushed => Unswitched w w' ∧ ¬QueueSafe debug w
  | .rejected | .expired | .ack _ => False

theorem ends_checkedBody (h : PacketSafe debug w) :
    checkedBody.Ends w (fun result w' => result.Safe debug w w') fun e _ => e = .exhausted := by
  match hpacket : w.packet? with
  | none =>
    refine (ends_checkedBody_of_none hpacket).mono ?_ fun _ _ he => he
    rintro _ _ rfl
    trivial
  | some (size, payload) =>
    obtain ⟨htwo, hframe⟩ := h size payload hpacket
    refine ends_checkedBody_of_packet hpacket (by omega) fun w' hw' hlength => ?_
    subst hlength
    refine ends_checkedVerdict (List.length_pos_iff.mp (by omega)) ?_ ?_ ?_
    · exact fun hclosed => ⟨hw', htwo, hframe hclosed⟩
    · exact fun _ _ _ => trivial
    · exact fun _ hshort => absurd htwo hshort

theorem ensures_checkedBody (h : ¬PacketSafe debug w) :
    checkedBody.Ensures w fun result w' => result.Unsafe debug w w' := by
  unfold PacketSafe at h
  push Not at h
  obtain ⟨size, payload, hpacket, h⟩ := h
  by_cases hzero : size = 0
  · subst hzero
    obtain ⟨ticks, rx, c, hin, rfl, hends⟩ := exists_of_packet? hpacket
    rw [EStateM.Ensures, hends]
    refine EStateM.Ensures.mono (Q := fun _ _ => False) ?_ fun _ _ hfalse => hfalse.elim
    exact ensures_receive_zero (s := w.withPort c ticks rx) (c := c) (t := 0) rfl hin
  · refine ends_checkedBody_of_packet hpacket hzero fun w' hw' hlength => ?_
    subst hlength
    refine ends_checkedVerdict (List.ne_nil_of_length_pos (Nat.pos_of_ne_zero hzero)) ?_ ?_ ?_
    · intro hclosed
      refine ⟨hw', ?_⟩
      by_cases htwo : 2 ≤ payload.length
      · exact .inr (h htwo).2
      · exact .inl (Nat.lt_of_not_le htwo)
    · exact fun hopen htwo _ => absurd (h htwo).1 hopen
    · exact fun _ _ => trivial

end Packets

/-! ## The call -/

section Found

variable {w : World} {debug : Bool} {user : Prog Unit}

theorem Unswitched.refl (w : World) : Unswitched w w := ⟨rfl, rfl, rfl⟩

theorem Unswitched.trans {w' w'' : World} (h : Unswitched w w') (h' : Unswitched w' w'') :
    Unswitched w w'' where
  handlers := h'.handlers.trans h.handlers
  pendingData := h'.pendingData.trans h.pendingData
  queue := h'.queue.trans h.queue

theorem Unswitched.queueSafe_iff {w' : World} (h : Unswitched w w') :
    QueueSafe debug w' ↔ QueueSafe debug w := by
  have hdata : w'.dataAt (.row w'.queue.front) = w.dataAt (.row w.queue.front) := by
    rw [World.dataAt, World.dataAt, h.queue]
  rw [QueueSafe, QueueSafe, h.pendingData, hdata, h.performable_iff, h.queue]

/-- A frame of fewer than two bytes ends before its header does. -/
theorem ensures_checkedProcess_short {payload : List UInt8} (h : payload.length < 2) (w : World) :
    (checkedProcess debug user (.uart payload) payload.length).Ensures w fun _ _ => False := by
  refine EStateM.Ends.bind_of_forall (fun _ w₁ => ?_) fun _ _ => trivial
  have htwo := two_le_neededLength w₁ debug (.uart payload) payload.length
  have hshort : ¬((Source.uart payload).queued = true ∨
      w₁.neededLength debug (.uart payload) payload.length ≤ payload.length) := by
    rintro (hqueued | hle)
    · exact Bool.false_ne_true hqueued
    · omega
  rw [EStateM.ends_bind, EStateM.ends_get, if_neg hshort]
  exact trivial

theorem exists_header {payload : List UInt8} (h : 2 ≤ payload.length) (w : World) :
    ∃ header, w.header? (.uart payload) = some header := by
  match payload, h with
  | a :: b :: _, _ => exact ⟨Bytes.join a b, rfl⟩

theorem ends_checkedFound {w' : World} {result : Reception}
    (hnone : w.handlers.present = fun _ => false) (h : result.Safe debug w w') :
    (checkedFound debug user result).Ends w' (fun _ _ => True) fun e _ => e = .exhausted := by
  have hdrain (h : Unswitched w w' ∧ QueueSafe debug w) :
      (do drainQueue (checkedProcess debug user); return 0 : Prog UInt8).Ends w' (fun _ _ => True)
        fun e _ => e = .exhausted := by
    have hnone' : w'.handlers.present = fun _ => false := by rw [h.1.handlers, hnone]
    exact (ends_drainQueue hnone' (h.1.queueSafe_iff.mpr h.2)).bind fun _ _ _ => trivial
  cases result with
  | frame payload =>
    obtain ⟨hw', htwo, hframe⟩ := h
    have hnone' : w'.handlers.present = fun _ => false := by rw [hw'.handlers, hnone]
    rw [checkedFound, EStateM.ends_bind, log, EStateM.ends_modify]
    refine EStateM.Ends.bind (Q := fun _ _ => True) ?_ fun _ _ _ => trivial
    refine ends_checkedProcess hnone' (exists_header htwo) fun w'' hw'' => ?_
    refine (frameSafe_iff hnone (hw'.trans ?_) payload).mpr hframe
    exact ⟨hw''.handlers, hw''.pendingData, hw''.queue⟩
  | nothing => exact hdrain h
  | flushed => exact hdrain h
  | rejected => trivial
  | expired => trivial
  | ack b => trivial

theorem ensures_checkedFound {w' : World} {result : Reception}
    (hnone : w.handlers.present = fun _ => false) (h : result.Unsafe debug w w') :
    (checkedFound debug user result).Ensures w' fun _ _ => False := by
  have hdrain (h : Unswitched w w' ∧ ¬QueueSafe debug w) :
      (do drainQueue (checkedProcess debug user); return 0 : Prog UInt8).Ensures w'
        fun _ _ => False := by
    have hnone' : w'.handlers.present = fun _ => false := by rw [h.1.handlers, hnone]
    refine EStateM.Ensures.bind (Q := fun _ _ => False) ?_ fun _ _ h => h.elim
    exact ensures_drainQueue hnone' (mt h.1.queueSafe_iff.mp h.2)
  cases result with
  | frame payload =>
    obtain ⟨hw', hframe⟩ := h
    have hnone' : w'.handlers.present = fun _ => false := by rw [hw'.handlers, hnone]
    rw [checkedFound, EStateM.Ensures, EStateM.ends_bind, log, EStateM.ends_modify]
    refine EStateM.Ensures.bind (Q := fun _ _ => False) ?_ fun _ _ h => h.elim
    by_cases htwo : payload.length < 2
    · exact ensures_checkedProcess_short htwo _
    · have hfails := hframe.resolve_left htwo
      refine ensures_checkedProcess hnone' (exists_header (Nat.le_of_not_lt htwo))
        fun w'' hw'' => ?_
      refine mt (frameSafe_iff hnone (hw'.trans ?_) payload).mp hfails
      exact ⟨hw''.handlers, hw''.pendingData, hw''.queue⟩
  | nothing => exact hdrain h
  | flushed => exact hdrain h
  | rejected => exact h.elim
  | expired => exact h.elim
  | ack b => exact h.elim

end Found

/-- What comes behind the wait for a header is handled. -/
def CallSafe (debug : Bool) (w : World) : Option (Option UInt8) → Prop
  | some (some 0x24) => PacketSafe debug w
  | some (some 0x21) => True
  | _ => QueueSafe debug w

section Call

variable {w w₁ : World} {debug : Bool} {user : Prog Unit} {b : Option (Option UInt8)}

theorem ends_byteLoop {β : Type} {take : β → UInt8 → Prog β} {full : β → Bool}
    {finish : β → Prog Reception} {Q : Reception → Prop}
    (htake : ∀ b byte w, (take b byte).Ends w (fun _ _ => True) fun e _ => e = .exhausted)
    (hfinish : ∀ b w, (finish b).Ends w (fun result _ => Q result) fun e _ => e = .exhausted)
    (hexpired : Q .expired) (b : β) (timeout : UInt32) (w : World) :
    (byteLoop take full finish b timeout).Ends w (fun result _ => Q result)
      fun e _ => e = .exhausted := by
  have hnext (b : β) (timeout : UInt32) (w : World) :
      (nextByte take b timeout).Ends w (fun _ _ => True) fun e _ => e = .exhausted := by
    unfold nextByte
    rw [EStateM.ends_bind]
    refine ends_available_of (fun n t ticks _ => ?_) rfl
    rw [EStateM.ends_ite]
    split
    · rw [EStateM.ends_bind]
      refine ends_millis_of (fun now t ticks _ => ?_) rfl
      rw [EStateM.ends_bind]
      refine ends_read_of (fun byte t ticks rx _ => ?_) rfl
      exact (htake b _ _).bind fun _ _ _ => trivial
    · exact trivial
  unfold byteLoop
  rw [loop, EStateM.ends_bind, EStateM.ends_get]
  -- Whatever a round takes, only the end of the readings stops it.
  refine EStateM.Ends.iterate (I := fun _ _ => True) ?_
    (fun _ _ _ => (EStateM.ends_throw _).mpr rfl) _ trivial
  rintro ⟨b, timeout⟩ w -
  rw [EStateM.ends_bind]
  refine ends_millis_of (fun now t ticks _ => ?_) rfl
  rw [EStateM.ends_ite]
  split
  · refine (hnext b timeout _).bind fun r w₁ _ => ?_
    rw [EStateM.ends_ite]
    split
    · exact (hfinish r.1 w₁).bind fun _ _ h => h
    · exact trivial
  · exact hexpired

theorem ends_acknowledgement (w : World) : acknowledgement.Ends w
    (fun result _ => result = .expired ∨ ∃ b, result = .ack b) fun e _ => e = .exhausted := by
  unfold acknowledgement
  rw [EStateM.ends_bind]
  refine ends_read_of (fun _ t ticks rx _ => ?_) rfl
  rw [EStateM.ends_bind]
  refine ends_millis_of (fun timeout t ticks _ => ?_) rfl
  refine ends_byteLoop (Q := fun result => result = .expired ∨ ∃ b, result = .ack b) ?_ ?_ ?_ _ _ _
  · exact fun _ _ _ => trivial
  · exact fun _ _ => .inr ⟨_, rfl⟩
  · exact .inl rfl

/-- Without a packet at most a byte is dropped. -/
theorem checkedReceiveBody_cases (debug : Bool) (b : Option (Option UInt8)) :
    b = some (some 0x24) ∨ b = some (some 0x21) ∨
      (∀ w, CallSafe debug w b ↔ QueueSafe debug w) ∧
        (checkedReceiveBody b = pure .nothing ∨
          checkedReceiveBody b = read >>= fun _ => pure .flushed) := by
  match b with
  | none => exact .inr (.inr ⟨fun _ => Iff.rfl, .inl rfl⟩)
  | some none => exact .inr (.inr ⟨fun _ => Iff.rfl, .inr rfl⟩)
  | some (some x) =>
    by_cases hcommand : x = 0x24
    · exact .inl (by rw [hcommand])
    · by_cases hack : x = 0x21
      · exact .inr (.inl (by rw [hack]))
      · refine .inr (.inr ⟨fun w => ?_, .inr ?_⟩)
        · unfold CallSafe
          split
          · next h => exact absurd (Option.some.inj (Option.some.inj h)) hcommand
          · next h => exact absurd (Option.some.inj (Option.some.inj h)) hack
          · exact Iff.rfl
        · unfold checkedReceiveBody receiveBody
          split
          · next h => exact absurd (Option.some.inj (Option.some.inj h)) hcommand
          · split
            · next h => exact absurd (Option.some.inj (Option.some.inj h)) hcommand
            · next h => exact absurd (Option.some.inj (Option.some.inj h)) hack
            · rfl
            · next h => cases h

theorem ends_checkedReceiveBody (h : CallSafe debug w b) : (checkedReceiveBody b).Ends w
    (fun result w' => result.Safe debug w w') fun e _ => e = .exhausted := by
  obtain rfl | rfl | ⟨hsafe, hnothing | hflushed⟩ := checkedReceiveBody_cases debug b
  · exact ends_checkedBody h
  · refine (ends_acknowledgement w).mono ?_ fun _ _ he => he
    rintro _ _ (rfl | ⟨b, rfl⟩)
    · trivial
    · trivial
  · rw [hnothing]
    exact ⟨.refl w, (hsafe w).mp h⟩
  · rw [hflushed, EStateM.ends_bind]
    exact ends_read_of (fun _ _ _ _ _ => ⟨⟨rfl, rfl, rfl⟩, (hsafe w).mp h⟩) rfl

theorem ensures_checkedReceiveBody (h : ¬CallSafe debug w b) : (checkedReceiveBody b).Ensures w
    fun result w' => result.Unsafe debug w w' := by
  obtain rfl | rfl | ⟨hsafe, hnothing | hflushed⟩ := checkedReceiveBody_cases debug b
  · exact ensures_checkedBody h
  · exact absurd trivial h
  · rw [hnothing]
    exact ⟨.refl w, mt (hsafe w).mpr h⟩
  · rw [hflushed, EStateM.Ensures, EStateM.ends_bind]
    exact ends_read_of (fun _ _ _ _ _ => ⟨⟨rfl, rfl, rfl⟩, mt (hsafe w).mpr h⟩) trivial

end Call

/-! ## The call comes to an end -/

section Settling

variable {σ : ℕ → Tick} {w : World} {k : ℕ} {debug : Bool} {user : Prog Unit} {src : Source}
  {len : ℕ}

/-- No handler is set. -/
def World.Bare (w : World) : Prop := w.handlers.present = fun _ => false

theorem settles_invoke (hnone : w.Bare) (slot : Slot) (args : List Datum) :
    Settles σ (invoke user slot args) w k fun _ w' _ => w'.Bare := by
  refine .get_bind (fun _ => rfl) (.ite (fun hset => ?_) fun _ => .pure hnone)
  rw [hnone] at hset
  exact absurd hset Bool.false_ne_true

theorem settles_bringOnline (hnone : w.Bare) :
    Settles σ (bringOnline user) w k fun _ w' _ => w'.Bare := by
  refine Settles.bind (Q := fun _ w' _ => w'.Bare) (.modify (fun _ => rfl) hnone)
    fun _ w₁ k₁ h₁ => ?_
  refine Settles.bind (Q := fun _ w' _ => w'.Bare) (.modify (fun _ => rfl) h₁) fun _ w₂ k₂ h₂ => ?_
  refine Settles.bind (Q := fun _ w' _ => w'.Bare) ?_ fun _ w₃ k₃ h₃ => settles_invoke h₃ _ _
  refine settles_tick.bind ?_
  rintro _ w₃ k₃ ⟨rfl, rfl⟩
  exact .modify (fun _ => rfl) h₂

theorem settles_entrance (hnone : w.Bare) :
    Settles σ (entrance user src len) w k fun _ w' _ => w'.Bare := by
  refine Settles.bind (Q := fun _ w' _ => w'.Bare) ?_ fun _ w₁ k₁ h₁ => ?_
  · refine settles_millis.bind ?_
    rintro now w₁ k₁ ⟨rfl, rfl, rfl⟩
    refine .get_bind (fun _ => rfl) ?_
    refine Settles.bind (Q := fun _ w' _ => w'.Bare) (.modify (fun _ => rfl) hnone) ?_
    exact fun _ w₂ k₂ h₂ => .modify (fun _ => rfl) h₂
  · refine .get_bind (fun _ => rfl) (.ite (fun _ => ?_) fun _ => settles_bringOnline h₁)
    refine Settles.bind (Q := fun _ w' _ => w'.Bare) ?_ fun header w₂ k₂ h₂ => ?_
    · refine .get_bind (fun _ => rfl) ?_
      cases w₁.header? src with
      | some header => exact .pure h₁
      | none => exact .throw Halt.noConfusion
    · exact .ite (fun _ => settles_bringOnline h₂) fun _ => .pure h₂

theorem settles_perform (hnone : w.Bare) {action : Action}
    (hcall : ∀ invocation, action = .dispatch invocation → invocation = none) :
    Settles σ (perform user src len action) w k fun _ _ _ => True := by
  have hdispatch : Settles σ (logDispatch src len) w k fun _ w' _ => w'.Bare :=
    .get_bind (fun _ => rfl) (.modify (fun _ => rfl) hnone)
  cases action with
  | reply bytes =>
    refine .ite (fun _ => .throw Halt.noConfusion) fun _ => ?_
    exact (settles_log _).bind fun _ _ _ _ => .modify (fun _ => rfl) trivial
  | latency => exact settles_millis.bind fun _ _ _ _ => .modify (fun _ => rfl) trivial
  | queue =>
    refine .get_bind (fun _ => rfl) (.ite (fun _ => .throw Halt.noConfusion) fun _ => ?_)
    exact (settles_log _).bind fun _ _ _ _ => .modify (fun _ => rfl) trivial
  | dispatch invocation =>
    obtain rfl := hcall invocation rfl
    exact hdispatch.bind fun _ _ _ _ => .pure trivial
  | udp datagram =>
    refine hdispatch.bind fun _ w₁ k₁ h₁ => ?_
    cases datagram with
    | none => exact .pure trivial
    | some d =>
      refine .ite (fun _ => .throw Halt.noConfusion) fun _ => ?_
      refine Settles.bind (Q := fun _ w' _ => w'.Bare) (.modify (fun _ => rfl) h₁) ?_
      exact fun _ w₂ k₂ h₂ => (settles_invoke h₂ _ _).mono fun _ _ _ _ => trivial
  | status header value =>
    refine .modify (fun n => ?_) trivial
    unfold setStatus
    split
    · by_cases hvalue : value = 6
      · rw [if_pos hvalue, if_pos hvalue]
        rfl
      · rw [if_neg hvalue, if_neg hvalue]
        rfl
    all_goals rfl
  | restart => exact .pure trivial
  | print => exact .ite (fun _ => .throw Halt.noConfusion) fun _ => .pure trivial

theorem settles_switchHeader (debug : Bool) (hnone : w.Bare) :
    Settles σ (switchHeader user src len) w k fun _ _ _ => True := by
  cases hheader : w.header? src with
  | none =>
    refine @Settles.congr _ _ _ _ _ (throw .undefined) _ (fun n => ?_) (.throw Halt.noConfusion)
    have hover : (w.over σ k n).header? src = none := hheader
    unfold switchHeader readHeader
    rw [EStateM.run_bind, EStateM.run_bind, EStateM.run_get]
    simp only [hover]
    rfl
  | some header =>
    let action := (w.fields debug len).value (w.dataAt src)
    refine @Settles.congr _ _ _ _ _ (perform user src len action) _ (fun n => ?_) ?_
    · exact @switchHeader_run user src len (w.over σ k n) debug header hheader
    · refine settles_perform hnone fun invocation hcall => ?_
      have hfields : (frameFields debug w.pendingData (fun _ => false) len).value (w.dataAt src) =
          .dispatch invocation := by
        rw [← hcall, ← hnone]
        rfl
      exact invocation_eq_none hfields

theorem settles_checkedProcess (hnone : w.Bare) :
    Settles σ (checkedProcess debug user src len) w k fun _ _ _ => True := by
  refine (settles_entrance hnone).bind fun _ w₁ k₁ h₁ => .get_bind (fun _ => rfl) ?_
  exact .ite (fun _ => settles_switchHeader debug h₁) fun _ => .throw Halt.noConfusion

/-- The receiver hands a frame on or looks at the queue. -/
def Reception.Handled : Reception → Prop
  | .frame _ | .nothing | .flushed => True
  | .rejected | .expired | .ack _ => False

theorem settles_checkedFound {result : Reception} (hnone : result.Handled → w.Bare) :
    Settles σ (checkedFound debug user result) w k fun _ _ _ => True := by
  have hdrain (hnone : w.Bare) : Settles σ (drainQueue (checkedProcess debug user)) w k
      fun _ _ _ => True := by
    refine .get_bind (fun _ => rfl) (.ite (fun _ => ?_) fun _ => .pure trivial)
    refine (settles_checkedProcess hnone).bind fun _ w₁ k₁ _ => (settles_log _).bind ?_
    exact fun _ w₂ k₂ _ => .modify (fun _ => rfl) trivial
  cases result with
  | frame payload =>
    refine Settles.bind (Q := fun _ w' _ => w'.Bare) (.modify (fun _ => rfl) (hnone trivial)) ?_
    intro _ w₁ k₁ h₁
    exact (settles_checkedProcess h₁).bind fun _ _ _ _ => .pure trivial
  | nothing => exact (hdrain (hnone trivial)).bind fun _ _ _ _ => .pure trivial
  | flushed => exact (hdrain (hnone trivial)).bind fun _ _ _ _ => .pure trivial
  | rejected => exact .pure trivial
  | expired => exact .pure trivial
  | ack b => exact .pure trivial

theorem settles_checkedBody (hσ : Advances σ) : Settles σ checkedBody w k fun _ _ _ => True := by
  refine settles_read.bind fun _ w₁ k₁ _ => settles_read.bind fun high w₂ k₂ _ => ?_
  refine settles_read.bind fun low w₃ k₃ _ => settles_stamp fun stamp i w₄ hclock => ?_
  refine settles_byteLoop (μ := fun b => (frameSize high low).toNat - b.bytes.length) hσ ?take
    ?finish (Nat.le_succ i) hclock
  case take =>
    intro b byte w k
    refine .ite (fun hlt => .pure ⟨rfl, rfl, .inl ?_⟩) fun _ => .throw Halt.noConfusion
    rw [Buffer.take, List.length_append, List.length_singleton]
    omega
  case finish =>
    intro b w k
    refine .ite (fun _ => ?_) fun _ => .throw Halt.noConfusion
    refine .ite (fun _ => .throw Halt.noConfusion) fun _ =>
      .ite (fun _ => ?_) fun _ => .pure trivial
    exact .get_bind (fun _ => rfl) ((settles_sendNak _ _).bind fun _ _ _ _ => .pure trivial)

theorem settles_checkedReceiveBody (hσ : Advances σ) (b : Option (Option UInt8)) :
    Settles σ (checkedReceiveBody b) w k fun _ _ _ => True := by
  obtain rfl | rfl | ⟨-, hnothing | hflushed⟩ := checkedReceiveBody_cases false b
  · exact settles_checkedBody hσ
  · exact settles_acknowledgement hσ
  · rw [hnothing]
    exact .pure trivial
  · rw [hflushed]
    exact settles_read.bind fun _ _ _ _ => .pure trivial

/-- What is handled is handled with the members of before. -/
theorem ensures_checkedReceiveBody_bare (hnone : w.Bare) (b : Option (Option UInt8)) :
    (checkedReceiveBody b).Ensures w fun result w' => result.Handled → w'.Bare := by
  have hbare {w' : World} (h : Unswitched w w') : w'.Bare := by
    rw [World.Bare, h.handlers]
    exact hnone
  by_cases h : CallSafe false w b
  · refine (ends_checkedReceiveBody h).mono (fun result w' hsafe hhandled => ?_)
      fun _ _ _ => trivial
    cases result with
    | frame payload => exact hbare hsafe.1
    | nothing => exact hbare hsafe.1
    | flushed => exact hbare hsafe.1
    | rejected => exact hhandled.elim
    | expired => exact hhandled.elim
    | ack b => exact hhandled.elim
  · refine (ensures_checkedReceiveBody h).mono fun result w' hfails hhandled => ?_
    cases result with
    | frame payload => exact hbare hfails.1
    | nothing => exact hbare hfails.1
    | flushed => exact hbare hfails.1
    | rejected => exact hhandled.elim
    | expired => exact hhandled.elim
    | ack b => exact hhandled.elim

end Settling

/-! ## The wait for the header -/

section Header

variable {w : World}

theorem ends_syncController :
    syncController.Ends w (fun _ w' => w'.handlers = w.handlers) fun e _ => e = .exhausted := by
  unfold syncController
  rw [EStateM.ends_bind, EStateM.ends_get, EStateM.ends_ite]
  split
  · exact rfl
  · rw [EStateM.ends_bind]
    refine ends_millis_of (fun now t ticks _ => ?_) rfl
    rw [EStateM.ends_ite]
    split
    · unfold probe
      rw [EStateM.ends_bind]
      refine ends_millis_of (fun interval t ticks _ => ?_) rfl
      rw [EStateM.ends_bind, EStateM.ends_modify, EStateM.ends_bind, send, EStateM.ends_modify,
        EStateM.ends_bind, EStateM.ends_get, EStateM.ends_bind]
      exact ends_millis_of (fun check t ticks _ => rfl) rfl
    · exact rfl

theorem ends_offlineCheck :
    offlineCheck.Ends w (fun _ w' => w'.handlers = w.handlers) fun e _ => e = .exhausted := by
  unfold offlineCheck timeoutCheck
  refine EStateM.Ends.bind (Q := fun _ w' => w'.handlers = w.handlers) ?_ fun _ w₁ h => ?last
  case last =>
    rw [EStateM.ends_bind, EStateM.ends_get]
    exact h
  rw [EStateM.ends_bind, EStateM.ends_get, EStateM.ends_ite]
  split
  · rw [EStateM.ends_bind]
    refine ends_millis_of (fun now t ticks _ => ?_) rfl
    rw [EStateM.ends_ite]
    split
    · exact rfl
    · exact rfl
  · exact rfl

theorem ends_headerWait (timeout : UInt32) : (headerWait timeout).Ends w
    (fun _ w' => w'.handlers = w.handlers) fun e _ => e = .exhausted := by
  unfold headerWait
  rw [loop, EStateM.ends_bind, EStateM.ends_get]
  refine EStateM.Ends.iterate (I := fun _ s => s.handlers = w.handlers) ?_
    (fun _ _ _ => (EStateM.ends_throw _).mpr rfl) _ rfl
  rintro _ s hs
  rw [EStateM.ends_bind]
  refine ends_millis_of (fun now t ticks _ => ?_) rfl
  rw [EStateM.ends_ite]
  split
  · rw [EStateM.ends_bind]
    refine ends_available_of (fun n t ticks _ => ?_) rfl
    rw [EStateM.ends_ite]
    split
    · exact hs
    · exact hs
  · exact hs

theorem ends_awaitHeader :
    awaitHeader.Ends w (fun _ w' => w'.handlers = w.handlers) fun e _ => e = .exhausted := by
  unfold awaitHeader
  rw [EStateM.ends_bind]
  refine ends_available_of (fun n t ticks _ => ?_) rfl
  rw [EStateM.ends_ite]
  split
  · rw [EStateM.ends_bind, peek, EStateM.ends_bind]
    refine ends_tick_of (fun t' ticks' _ => ?_) rfl
    rw [EStateM.ends_bind, EStateM.ends_get, EStateM.ends_pure, EStateM.ends_ite]
    split
    · rw [EStateM.ends_bind]
      refine ends_millis_of (fun timeout t ticks _ => ?_) rfl
      exact (ends_headerWait timeout).bind fun _ _ h => h
    · exact rfl
  · exact rfl

theorem ends_checks :
    checks.Ends w (fun _ w' => w'.handlers = w.handlers) fun e _ => e = .exhausted :=
  ends_syncController.bind fun _ _ h =>
    ends_offlineCheck.mono (fun _ _ h' => h'.trans h) fun _ _ he => he

end Header

section Main

variable {σ : ℕ → Tick} {w : World}

theorem World.Bare.congr {w' : World} (hnone : w.Bare) (h : w'.handlers = w.handlers) :
    w'.Bare := by
  rw [World.Bare, h]
  exact hnone

theorem settles_checkedEvents (hσ : Advances σ) (hnone : w.Bare) (debug : Bool)
    (user : Prog Unit) (k : ℕ) :
    Settles σ (checkedEvents debug user) w k fun _ _ _ => True := by
  have hchecks : Settles σ checks w k fun _ w' _ => True ∧ w'.Bare := by
    refine settles_checks.and_ensures (fun n => ?_) fun _ _ _ _ h => h
    exact ends_checks.mono (fun _ _ h => hnone.congr h) fun _ _ _ => trivial
  refine hchecks.bind ?_
  rintro _ w₁ k₁ ⟨-, h₁⟩
  have hheader : Settles σ awaitHeader w₁ k₁ fun _ w' _ => True ∧ w'.Bare := by
    refine (settles_awaitHeader hσ).and_ensures (fun n => ?_) fun _ _ _ _ h => h
    exact ends_awaitHeader.mono (fun _ _ h => h₁.congr h) fun _ _ _ => trivial
  refine hheader.bind ?_
  rintro b w₂ k₂ ⟨-, h₂⟩
  have hbody : Settles σ (checkedReceiveBody b) w₂ k₂
      fun result w' _ => True ∧ (result.Handled → w'.Bare) := by
    refine (settles_checkedReceiveBody hσ b).and_ensures (fun n => ?_) fun _ _ _ _ h => h
    exact ensures_checkedReceiveBody_bare (w := w₂.over σ k₂ n) h₂ b
  refine hbody.bind ?_
  rintro result w₃ k₃ ⟨-, h₃⟩
  exact settles_checkedFound h₃

theorem ends_checks_awaitHeader : (checks >>= fun _ => awaitHeader).Ends w
    (fun _ w' => w'.handlers = w.handlers) fun e _ => e = .exhausted :=
  ends_checks.bind fun _ _ h => ends_awaitHeader.mono (fun _ _ h' => h'.trans h) fun _ _ he => he

section Call

variable {w₁ : World} {b : Option (Option UInt8)} {debug : Bool} {user : Prog Unit}

/-- The call from the end of the wait for the header. -/
theorem ends_checkedEvents_iff (hrun : (do checks; awaitHeader).run w = .ok b w₁)
    {Q : UInt8 → World → Prop} {E : Halt → World → Prop} :
    (checkedEvents debug user).Ends w Q E ↔
      (checkedReceiveBody b >>= checkedFound debug user).Ends w₁ Q E := by
  have hsplit : checkedEvents debug user = (checks >>= fun _ => awaitHeader) >>= fun b =>
      checkedReceiveBody b >>= checkedFound debug user := by
    rw [bind_assoc]
    rfl
  rw [hsplit, EStateM.ends_bind, EStateM.ends_of_ok hrun]

theorem ends_checkedEvents (hrun : (do checks; awaitHeader).run w = .ok b w₁) (hnone : w₁.Bare)
    (hsafe : CallSafe debug w₁ b) :
    (checkedEvents debug user).Ends w (fun _ _ => True) fun e _ => e = .exhausted := by
  rw [ends_checkedEvents_iff hrun]
  exact (ends_checkedReceiveBody hsafe).bind fun _ _ h => ends_checkedFound hnone h

theorem not_returns_checkedEvents (hrun : (do checks; awaitHeader).run w = .ok b w₁)
    (hnone : w₁.Bare) (hfails : ¬CallSafe debug w₁ b) {Q : UInt8 → World → Prop} :
    ¬(checkedEvents debug user).Returns w Q := by
  have hensures : (checkedEvents debug user).Ensures w fun _ _ => False := by
    rw [EStateM.Ensures, ends_checkedEvents_iff hrun]
    exact (ensures_checkedReceiveBody hfails).bind fun _ _ h => ensures_checkedFound hnone h
  exact EStateM.Ensures.not_returns (hensures.mono fun _ _ h => h.elim)

end Call

/-- **Malformed lengths.**  Once the clock advances, a call of `events()` without handlers returns,
with all its indices into `uartBuffer` checked, exactly when the packet that it receives is long
enough, and so is the frame. -/
theorem malformed_lengths_iff (hσ : Advances σ) (hnone : w.Bare) (debug : Bool)
    (user : Prog Unit) : ∃ N, ∀ n ≥ N, ∃ b w₁,
      (do checks; awaitHeader).run (w.over σ 0 n) = .ok b w₁ ∧
      ((checkedEvents debug user).Returns (w.over σ 0 n)
        (fun r w' => (events user).run (w.over σ 0 n) = .ok r w') ↔ CallSafe debug w₁ b) := by
  have hheader : Settles σ (checks >>= fun _ => awaitHeader) w 0 fun _ _ _ => True :=
    settles_checks.bind fun _ _ _ _ => settles_awaitHeader hσ
  obtain ⟨N₁, hN₁⟩ := hheader.ends
  obtain ⟨N₂, hN₂⟩ := (settles_checkedEvents hσ hnone debug user 0).ends
  refine ⟨max N₁ N₂, fun n hn => ?_⟩
  have hreturns : (checks >>= fun _ => awaitHeader).Returns (w.over σ 0 n)
      fun _ w' => w'.handlers = w.handlers := by
    refine ((hN₁ n (le_of_max_le_left hn)).and ends_checks_awaitHeader).mono ?_ ?_
    · exact fun _ _ h => h.2
    · exact fun _ _ h => absurd h.2 h.1
  obtain ⟨b, w₁, hrun, hhandlers⟩ := hreturns.exists_ok
  have hbare : w₁.Bare := hnone.congr hhandlers
  refine ⟨b, w₁, hrun, fun hcall => ?_, fun hsafe => ?_⟩
  · by_contra hfails
    exact not_returns_checkedEvents hrun hbare hfails hcall
  · refine (checks_events debug user).returns (Q := fun _ _ => True) ?_
    refine ((hN₂ n (le_of_max_le_right hn)).and (ends_checkedEvents hrun hbare hsafe)).mono ?_ ?_
    · exact fun _ _ _ => trivial
    · exact fun _ _ h => absurd h.2 h.1

end Main

/-- A packet of length 0, and another byte; every reading takes a millisecond. -/
def emptyPacket : ℕ → Tick
  | 0 => ⟨0, [0x24, 0x00, 0x00, 0x00]⟩
  | _ + 1 => ⟨1, []⟩

theorem advances_emptyPacket : Advances emptyPacket := by
  refine advances_of_unbounded _ (fun i => ?_) fun t => ⟨t + 1, ?_⟩
  · cases i with
    | zero => exact Nat.two_pow_pos 30
    | succ i => exact Nat.one_lt_two_pow (by decide)
  · induction t with
    | zero => exact Nat.zero_le _
    | succ t ih =>
      rw [time_succ]
      exact Nat.succ_le_succ ih

theorem malformed_lengths_iff_emptyPacket : ∃ N, ∀ n ≥ N, ∃ b w₁,
    (do checks; awaitHeader).run
      ((World.powerUp [] [] fun _ _ => 0).over emptyPacket 0 n) = .ok b w₁ ∧
    ((checkedEvents true (pure ())).Returns
      ((World.powerUp [] [] fun _ _ => 0).over emptyPacket 0 n)
      (fun r w' => (events (pure ())).run
        ((World.powerUp [] [] fun _ _ => 0).over emptyPacket 0 n) = .ok r w') ↔
      CallSafe true w₁ b) :=
  @malformed_lengths_iff _ (.powerUp [] [] fun _ _ => 0) advances_emptyPacket rfl true (pure ())

/-- The empty packet is there when the wait for its header ends. -/
theorem returns_awaitHeader_emptyPacket (n : ℕ) :
    (checks >>= fun _ => awaitHeader).Returns
      ((World.powerUp [] [] fun _ _ => 0).over emptyPacket 0 (n + 20)) fun b w₁ =>
        b = some (some 0x24) ∧ w₁.Bare ∧ w₁.rx = [0x24, 0x00, 0x00, 0x00] ∧
          w₁.ticks = (List.range' 6 (n + 14)).map emptyPacket := by
  unfold checks syncController offlineCheck timeoutCheck awaitHeader peek headerWait loop
  -- the library is online, and 5000 ms have not passed
  rw [EStateM.Returns, EStateM.ends_bind, EStateM.ends_bind, EStateM.ends_bind, EStateM.ends_get,
    EStateM.ends_ite, if_pos (by rfl), EStateM.ends_pure, EStateM.ends_bind, EStateM.ends_bind,
    EStateM.ends_get, EStateM.ends_ite, if_pos (by rfl), EStateM.ends_bind,
    ends_millis_cons (by rfl), EStateM.ends_ite,
    if_neg (by change ¬UInt32.ofNat 0 - 0 > 5000; decide), EStateM.ends_pure, EStateM.ends_bind,
    EStateM.ends_get, log, EStateM.ends_modify]
  rw [EStateM.ends_bind, ends_available_cons (by rfl), EStateM.ends_ite,
    if_pos (by exact Nat.succ_pos _), EStateM.ends_bind, EStateM.ends_bind, ends_tick_cons (by rfl),
    EStateM.ends_bind, EStateM.ends_get, EStateM.ends_pure, EStateM.ends_ite, if_pos (by rfl)]
  -- four bytes end the wait in its first round
  rw [EStateM.ends_bind, ends_millis_cons (by rfl), EStateM.ends_bind, EStateM.ends_bind,
    EStateM.ends_get, EStateM.iterate_succ, EStateM.ends_bind, EStateM.ends_bind,
    ends_millis_cons (by rfl), EStateM.ends_ite,
    if_pos (by change UInt32.ofNat 4 - UInt32.ofNat 3 < 100; decide), EStateM.ends_bind,
    ends_available_cons (by rfl), EStateM.ends_ite, if_neg (by change ¬4 < 4; decide)]
  exact ⟨rfl, rfl, rfl, rfl⟩

/-- A packet of length 0 has no byte: the one behind its header is stored outside its buffer. -/
theorem empty_packet_stored_outside : ¬∀ (σ : ℕ → Tick) (w : World) (debug : Bool)
    (user : Prog Unit), Advances σ → w.Bare → ∃ N, ∀ n ≥ N,
      (checkedEvents debug user).Returns (w.over σ 0 n)
        fun r w' => (events user).run (w.over σ 0 n) = .ok r w' := by
  intro hall
  obtain ⟨N, hN⟩ := hall emptyPacket (.powerUp [] [] fun _ _ => 0) true (pure ())
    advances_emptyPacket rfl
  obtain ⟨_, w₁, hrun, rfl, hbare, hrx, hticks⟩ :=
    (returns_awaitHeader_emptyPacket N).exists_ok
  have hin : InTime 0 [0x00] 0 ((List.range' 10 (N + 10)).map emptyPacket) := by
    change InTime 0 [0x00] 0
      (emptyPacket 10 :: emptyPacket 11 :: (List.range' 12 (N + 8)).map emptyPacket)
    refine inTime_cons_cons.mpr ⟨by decide, ?_⟩
    rw [if_neg (by decide)]
    exact ⟨_, _, _, rfl, .inl (Nat.zero_le 1)⟩
  have hpacket : w₁.packet? = some (0, []) := by
    have hlength : readLength w₁.rx (emptyPacket 6) (emptyPacket 7) (emptyPacket 8) =
        (0, [0x00]) := by
      rw [hrx]
      rfl
    rw [packet?_cons hticks hlength]
    exact if_pos hin
  refine not_returns_checkedEvents hrun hbare (fun hsafe => ?_) (hN (N + 20) (Nat.le_add_right _ _))
  exact absurd (hsafe 0 [] hpacket).1 (by decide)

end Teensquitto
