import Teensquitto.Receiver.Calm
import Teensquitto.Receiver.Packets

/-!
# Parsing a stream of packets

A stream is a concatenation of command packets, acknowledgements and other bytes.  Over a
timely schedule, calls of `events()` hand the payloads of its command packets to
`processing_data` in stream order, whatever `processing_data` is, as long as it leaves the
receiver alone.

## Main definitions

* `Segment`: a piece of a stream
* `Opaque`: what is assumed of `processing_data`
* `listen`: calls of `events()` until the stream is drained

## Main results

* `returns_uart`: one call of the receiver takes the first segment
* `listen_parses_stream`: a stream is parsed into its command packets
-/

namespace Teensquitto

/-- A piece of a stream. -/
inductive Segment
  /-- A command packet with a checksum. -/
  | command (payload : List UInt8) (hlen : 3 ≤ payload.length ∧ payload.length ≤ 65535)
    (closed : Closed payload)
  /-- A `!` and four bytes. -/
  | group (a b c d : UInt8)
  /-- A byte that starts no packet. -/
  | noise (x : UInt8) (h : x ≠ 0x24 ∧ x ≠ 0x21)

namespace Segment

/-- The bytes of a segment. -/
def bytes : Segment → List UInt8
  | command payload _ _ => commandBytes payload
  | group a b c d => [0x21, a, b, c, d]
  | noise x _ => [x]

/-- The payload of a command packet. -/
def payload? : Segment → Option (List UInt8)
  | command payload _ _ => some payload
  | _ => none

/-- The four bytes of an acknowledgement. -/
def group? : Segment → Option (List UInt8)
  | group a b c d => some [a, b, c, d]
  | _ => none

/-- What the receiver makes of a segment. -/
def Reads : Segment → Reception → Prop
  | command payload _ _, r => r = .frame payload
  | group _ _ _ _, r => ∃ b, r = .ack b
  | noise _ _, r => r = .flushed

/-- `ack_nak_buf` after a segment. -/
def acknowledge (seg : Segment) (buf : Memory UInt8) : Memory UInt8 :=
  (seg.group?).elim buf (buf.store 0)

/-- The length of a command packet comes within its limit; `rest` follows the segment. -/
def Prompt (seg : Segment) (rest : List UInt8) (ticks : List Tick) : Prop :=
  ∀ payload ∈ seg.payload?, Teensquitto.Prompt (payload ++ rest).length ticks

theorem bytes_ne_nil (seg : Segment) : seg.bytes ≠ [] := by
  cases seg <;> simp [bytes, commandBytes]

end Segment

/-- The bytes of a list of segments. -/
def streamBytes (segs : List Segment) : List UInt8 := segs.flatMap Segment.bytes

@[simp] theorem streamBytes_cons (seg : Segment) (segs : List Segment) :
    streamBytes (seg :: segs) = seg.bytes ++ streamBytes segs := rfl

theorem streamBytes_eq_nil {segs : List Segment} (h : streamBytes segs = []) : segs = [] := by
  cases segs with
  | nil => rfl
  | cons seg segs => exact absurd (List.append_eq_nil_iff.mp h).1 seg.bytes_ne_nil

/-! ## `processing_data` as a black box -/

/-- What is assumed of `processing_data`: on the payloads in question, and on the queued
frames, it returns after at most `cost` readings and leaves the port, the NAKs and
`ack_nak_buf` alone; `Idle` is what it needs of the members it uses.  Its calls can be told from
the state: one on a payload turns `seen` into `note seen payload`, one on a queued frame does not
change it, and the receiver does not either. -/
structure Opaque {σ : Type} (process : Source → ℕ → Prog Unit) (payloads : List (List UInt8))
    (Idle : World → Prop) (cost : ℕ) (seen : World → σ) (note : σ → List UInt8 → σ) : Prop where
  stable : ∀ w w', w'.own = w.own → Idle w → Idle w'
  same : ∀ w w', w'.own = w.own → w'.handled = w.handled → seen w' = seen w
  uart : ∀ payload ∈ payloads, ∀ w, Idle w → cost ≤ w.ticks.length →
    (process (.uart payload) payload.length).Returns w fun _ w' =>
      Moves cost w w' ∧ Silent w w' ∧ Idle w' ∧ seen w' = note (seen w) payload
  row : ∀ w, Idle w → w.pendingData = false → 0 < w.queue.available → cost ≤ w.ticks.length →
    (process (.row w.queue.front) w.queue.lengthFront.toNat).Returns w fun _ w' =>
      Moves cost w w' ∧ Silent w w' ∧ Idle { w' with queue := w'.queue.popFront } ∧
        seen { w' with queue := w'.queue.popFront } = seen w

/-- A payload is put behind the others. -/
def appendPayload (payloads : List (List UInt8)) (payload : List UInt8) : List (List UInt8) :=
  payloads ++ [payload]

theorem foldl_appendPayload (payloads payloads' : List (List UInt8)) :
    payloads'.foldl appendPayload payloads = payloads ++ payloads' := by
  induction payloads' generalizing payloads with
  | nil => exact (List.append_nil _).symm
  | cons payload payloads' ih =>
    rw [List.foldl_cons, ih, appendPayload, List.append_assoc, List.singleton_append]

theorem Opaque.mono {σ : Type} {process : Source → ℕ → Prog Unit}
    {payloads payloads' : List (List UInt8)} {Idle : World → Prop} {cost : ℕ} {seen : World → σ}
    {note : σ → List UInt8 → σ} (h : Opaque process payloads Idle cost seen note)
    (hsub : ∀ p ∈ payloads', p ∈ payloads) : Opaque process payloads' Idle cost seen note :=
  ⟨h.stable, h.same, fun p hp => h.uart p (hsub p hp), h.row⟩

/-- What the receiver logs does not change what is seen of the calls. -/
theorem Opaque.same_log {σ : Type} {process : Source → ℕ → Prog Unit}
    {payloads : List (List UInt8)} {Idle : World → Prop} {cost : ℕ} {seen : World → σ}
    {note : σ → List UInt8 → σ} (h : Opaque process payloads Idle cost seen note) (w : World)
    {e : Event} (he : e.handled? = none) :
    seen { w with trace := w.trace ++ [e] } = seen w :=
  h.same w _ rfl (handled_snoc_of_none w he)

/-- `processing_data` is such a black box at rest, on harmless payloads; its calls are logged. -/
theorem opaque_processingData {user : Prog Unit} {payloads : List (List UInt8)}
    (h : ∀ payload ∈ payloads, Harmless payload) :
    Opaque (processingData user) payloads AtRest 3 World.handled appendPayload where
  stable w w' hown hw := by
    have hhandlers : w'.own.handlers = w.own.handlers := congrArg World.handlers hown
    have hpending : w'.own.pendingData = w.own.pendingData := congrArg World.pendingData hown
    have hqueue : w'.own.queue = w.own.queue := congrArg World.queue hown
    exact ⟨fun slot => (congrArg (·.present slot) hhandlers).trans (hw.handlers slot),
      hpending.trans hw.pending, (congrArg (·.available) hqueue).trans hw.queue⟩
  same _ _ _ hhandled := hhandled
  uart payload hmem _ hrest hlen := returns_processingData (h payload hmem) hrest hlen
  row w hw _ hpos _ := absurd hpos (by rw [hw.queue]; decide)

/-! ## The receiver -/

/-- What a segment changes. -/
structure Taken (seg : Segment) (w w' : World) : Prop where
  own : w'.own = w.own
  naks : w'.naks = w.naks
  received : w'.received = w.received
  handled : w'.handled = w.handled
  ack : w'.ackNakBuf = seg.acknowledge w.ackNakBuf

/-- **One call of the receiver** finds an empty port, or takes the first segment. -/
theorem returns_uart {sched : List Tick} {seg : Segment} {rest : List UInt8} {n : ℕ} {s : World}
    (htimely : Timely sched) (hprompt : seg.Prompt rest sched)
    (hd : Delivers sched (seg.bytes ++ rest) [] s.rx s.ticks
      (4 * seg.bytes.length + n + 9)) :
    uart.Returns s fun r s' =>
      (r = .nothing ∧ s'.rx = [] ∧ Calm s s' ∧ Moves 1 s s' ∧
        s'.ticks.length < s.ticks.length) ∨
      (seg.Reads r ∧ Taken seg s s' ∧ Delivers sched rest [] s'.rx s'.ticks n) := by
  unfold uart
  rw [EStateM.Returns, EStateM.ends_bind]
  refine returns_available (w := s) (c := s.clock) hd fun t ts hts hd₁ => ?_
  rw [EStateM.ends_ite]
  split
  case isFalse hzero =>
    -- One reading of the port is all that an empty port costs.
    have hnil : s.rx ++ t.arrived = [] := List.length_eq_zero_iff.mp (by omega)
    refine .inl ⟨rfl, hnil, ⟨⟨⟨rfl, rfl, rfl⟩, rfl⟩, rfl⟩, ⟨[t], hts, ?_, Nat.le_refl 1⟩, ?_⟩
    · simp [World.withPort]
    · rw [hts]
      exact Nat.lt_succ_self _
  case isTrue hpos =>
    have hne : s.rx ++ t.arrived ≠ [] := List.ne_nil_of_length_pos hpos
    rw [EStateM.ends_bind]
    refine returns_peek hd₁ fun t₂ ts₂ _ hd₂ => ?_
    have hne₂ : s.rx ++ t.arrived ++ t₂.arrived ≠ [] := List.append_ne_nil_of_left_ne_nil hne _
    -- The first byte tells the three kinds of segments apart.
    cases seg with
    | command payload hlen closed =>
      obtain ⟨hhead, -⟩ := Delivers.read hd₂ hne₂
      rw [hhead]
      refine (returns_commandPacket (n := n) htimely (hprompt payload rfl) closed hlen.2 ?_
        hne₂).mono ?_
      · refine hd₂.stamp.mono ?_
        simp only [Segment.bytes, commandBytes, List.length_cons]
        omega
      · rintro _ _ ⟨rfl, c, window, ts₃, r, rfl, hd₃⟩
        exact .inr ⟨rfl, ⟨rfl, rfl, rfl, rfl, rfl⟩, hd₃.stamp⟩
    | group a b c d =>
      obtain ⟨hhead, -⟩ := Delivers.read hd₂ hne₂
      rw [hhead]
      refine (@returns_acknowledgement _ [a, b, c, d] rest _ _ n _ _ htimely rfl ?_ hne₂).mono ?_
      · refine hd₂.stamp.mono ?_
        simp only [Segment.bytes, List.length_cons, List.length_nil]
        omega
      · rintro _ _ ⟨hack, c, window, ts₃, r, rfl, hd₃⟩
        exact .inr ⟨hack, ⟨rfl, rfl, rfl, rfl, rfl⟩, hd₃.stamp⟩
    | noise x h =>
      obtain ⟨hhead, -⟩ := Delivers.read hd₂ hne₂
      rw [hhead]
      split
      · next heq => exact absurd (Option.some.inj heq) h.1
      · next heq => exact absurd (Option.some.inj heq) h.2
      · rw [EStateM.ends_bind]
        refine returns_read hd₂ hne₂ fun t₃ ts₃ _ hd₃ => ?_
        exact .inr ⟨rfl, ⟨rfl, rfl, rfl, rfl, rfl⟩, hd₃.stamp.mono (by omega)⟩

/-! ## A call of `events()` -/

section Events

variable {σ : Type} {process : Source → ℕ → Prog Unit} {payloads : List (List UInt8)}
  {Idle : World → Prop} {cost : ℕ} {seen : World → σ} {note : σ → List UInt8 → σ}

/-- The spare readings needed with the bytes of `segs` to come: an idle call costs at most
`cost`, and is followed by one that takes a segment. -/
def budget (cost : ℕ) (segs : List Segment) : ℕ :=
  (segs.map fun seg => 4 * seg.bytes.length + 13 + 2 * cost).sum

@[simp] theorem budget_cons (cost : ℕ) (seg : Segment) (segs : List Segment) :
    budget cost (seg :: segs) = 4 * seg.bytes.length + 13 + 2 * cost + budget cost segs := rfl

/-- The readings kept for an idle call. -/
def reserve (cost : ℕ) (rx : List UInt8) : ℕ := if rx = [] then cost else 0

theorem reserve_le (cost : ℕ) (rx : List UInt8) : reserve cost rx ≤ cost := by
  unfold reserve
  split <;> omega

/-- The queue branch leaves the receiver alone. -/
theorem returns_drainQueue (hop : Opaque process payloads Idle cost seen note) {w : World}
    (hidle : Idle w) (hlen : cost ≤ w.ticks.length) :
    (drainQueue process).Returns w fun _ w' =>
      Moves cost w w' ∧ Silent w w' ∧ Idle w' ∧ seen w' = seen w := by
  unfold drainQueue
  rw [EStateM.Returns, EStateM.ends_bind, EStateM.ends_get, EStateM.ends_ite]
  split
  · next hcond =>
    rw [Bool.and_eq_true, Bool.not_eq_true', decide_eq_true_iff] at hcond
    rw [EStateM.ends_bind]
    refine EStateM.Returns.mono (hop.row w hidle hcond.1 hcond.2 hlen) ?_
    rintro ⟨⟩ w' ⟨hmoves, hsilent, hidle', hseen⟩
    rw [EStateM.ends_bind, log, EStateM.ends_modify, EStateM.ends_modify]
    refine ⟨hmoves, ⟨hsilent.naks, ?_, hsilent.ack⟩,
      hop.stable { w' with queue := w'.queue.popFront } _ rfl hidle', ?_⟩
    · exact (received_snoc w' (by simp)).trans hsilent.received
    · exact (hop.same_log { w' with queue := w'.queue.popFront } (e := .popped) rfl).trans hseen
  · exact ⟨(Moves.zero rfl rfl).mono (Nat.zero_le cost), refl_of Silent w, hidle, rfl⟩

/-- **A call of `events()`** finds an empty port, or takes the first segment. -/
theorem returns_eventsWith (hop : Opaque process payloads Idle cost seen note) {sched : List Tick}
    {rest : List UInt8} {n : ℕ} {w : World} (seg : Segment)
    (hseg : ∀ p ∈ seg.payload?, p ∈ payloads) (htimely : Timely sched)
    (hprompt : seg.Prompt rest sched) (hidle : Idle w)
    (hd : Delivers sched (seg.bytes ++ rest) [] w.rx w.ticks
      (4 * seg.bytes.length + 13 + 2 * cost + n + reserve cost w.rx)) :
    (eventsWith process).Returns w fun _ w' => Idle w' ∧ w'.naks = w.naks ∧
      ((seen w' = seen w ∧ w'.received = w.received ∧ w'.ackNakBuf = w.ackNakBuf ∧
          w'.ticks.length < w.ticks.length ∧ Delivers sched (seg.bytes ++ rest) [] w'.rx w'.ticks
            (4 * seg.bytes.length + 13 + 2 * cost + n + reserve cost w'.rx)) ∨
        (seen w' = seg.payload?.elim (seen w) (note (seen w)) ∧
          w'.received = w.received ++ seg.payload?.toList ∧
          w'.ackNakBuf = seg.acknowledge w.ackNakBuf ∧
          Delivers sched rest [] w'.rx w'.ticks (n + cost))) := by
  have hchecks : Idles 4 (do syncController; offlineCheck) :=
    idles_syncController.bind fun _ => idles_offlineCheck
  have hlen := hd.spare_le.trans (spare_le_length _)
  unfold eventsWith
  rw [← bind_assoc, EStateM.Returns, EStateM.ends_bind]
  refine EStateM.Returns.mono (hchecks w trivial (by omega)) ?_
  rintro ⟨⟩ w₂ ⟨hm₂, hc₂, -⟩
  have hd₂ := hm₂.delivers (hd.mono (m := 4 * seg.bytes.length + (n + 2 * cost) + 9 + 4) (by omega))
  rw [EStateM.ends_bind]
  refine EStateM.Returns.mono (returns_uart htimely hprompt hd₂) ?_
  rintro r w₃ (⟨rfl, hrx₃, hc₃, hm₃, hlt₃⟩ | ⟨hreads, htaken, hd₃⟩)
  · -- nothing has arrived: the readings so far cost nothing
    have hc := trans_of Calm hc₂ hc₃
    have hm := hm₂.trans hm₃
    have hrx₀ : w.rx = [] := by
      obtain ⟨used, -, hrx, -⟩ := hm
      exact (List.append_eq_nil_iff.mp (hrx ▸ hrx₃)).1
    have hne : seg.bytes ++ rest ≠ [] := List.append_ne_nil_of_left_ne_nil seg.bytes_ne_nil rest
    have hd₃ := hm.delivers_of_nil hd hrx₃ hne
    rw [reserve, if_pos hrx₀] at hd₃
    have hlen₃ := hd₃.spare_le.trans (spare_le_length _)
    have hidle₃ := hop.stable _ _ hc.own hidle
    simp only [EStateM.ends_bind, EStateM.ends_pure]
    refine EStateM.Returns.mono (returns_drainQueue hop hidle₃ (by omega)) ?_
    rintro ⟨⟩ w₄ ⟨hm₄, hs₄, hidle₄, hseen₄⟩
    have hseen := hseen₄.trans (hop.same _ _ hc.own hc.handled)
    have hs := trans_of Silent hc.toSilent hs₄
    refine ⟨hidle₄, hs.naks, .inl ⟨hseen, hs.received, hs.ack, ?_, ?_⟩⟩
    · obtain ⟨used, h₂, -⟩ := hm₂
      obtain ⟨used', h₄, -⟩ := hm₄
      have h₂ := congrArg List.length h₂
      have h₄ := congrArg List.length h₄
      rw [List.length_append] at h₂ h₄
      omega
    · by_cases hnil : w₄.rx = []
      · rw [reserve, if_pos hnil]
        exact hm₄.delivers_of_nil hd₃ hnil hne
      · rw [reserve, if_neg hnil]
        exact hm₄.delivers hd₃
  · have hidle₃ := hop.stable _ _ (htaken.own.trans hc₂.own) hidle
    have hnaks := htaken.naks.trans hc₂.naks
    have hreceived := htaken.received.trans hc₂.received
    have hseen := hop.same _ _ (htaken.own.trans hc₂.own) (htaken.handled.trans hc₂.handled)
    have hack : w₃.ackNakBuf = seg.acknowledge w.ackNakBuf := by rw [htaken.ack, hc₂.ack]
    have hlen₃ := hd₃.spare_le.trans (spare_le_length _)
    cases seg with
    | command payload hsize closed =>
      obtain rfl : r = .frame payload := hreads
      simp only [EStateM.ends_bind, EStateM.ends_pure, log, EStateM.ends_modify]
      refine EStateM.Returns.mono (hop.uart payload (hseg payload rfl) _
        (hop.stable w₃ _ rfl hidle₃) (Nat.le_trans (by omega) hlen₃)) ?_
      rintro ⟨⟩ w₄ ⟨hm₄, hs₄, hidle₄, hseen₄⟩
      refine ⟨hidle₄, hs₄.naks.trans hnaks, .inr ⟨?_, ?_, hs₄.ack.trans hack, ?_⟩⟩
      · rw [hseen₄, hop.same_log w₃ rfl, hseen]
        rfl
      · rw [hs₄.received, ← hreceived]
        simp [World.received, Segment.payload?]
      · exact hm₄.delivers (n := n + cost) (hd₃.mono (by omega))
    | group a b c d =>
      obtain ⟨x, rfl⟩ := hreads
      refine ⟨hidle₃, hnaks, .inr ⟨hseen, ?_, hack, hd₃.mono (by omega)⟩⟩
      simpa [Segment.payload?] using hreceived
    | noise x h =>
      obtain rfl : r = .flushed := hreads
      simp only [EStateM.ends_bind, EStateM.ends_pure]
      refine EStateM.Returns.mono (returns_drainQueue hop hidle₃ (by omega)) ?_
      rintro ⟨⟩ w₄ ⟨hm₄, hs₄, hidle₄, hseen₄⟩
      refine ⟨hidle₄, hs₄.naks.trans hnaks, .inr ⟨hseen₄.trans hseen, ?_, hs₄.ack.trans hack, ?_⟩⟩
      · rw [hs₄.received, hreceived]
        simp [Segment.payload?]
      · exact hm₄.delivers (n := n + cost) (hd₃.mono (by omega))

/-! ## Calls until the stream is drained -/

/-- At most `n` calls of `events()`, until the stream is drained. -/
def listen (process : Source → ℕ → Prog Unit) : ℕ → Prog Unit
  | 0 => return
  | n + 1 => do
    let w ← get
    if w.stream = [] then return
    else
      let _ ← eventsWith process
      listen process n

/-- The last acknowledgement of a stream, over `old` from before. -/
def lastGroup (old : List UInt8) (segs : List Segment) : List UInt8 :=
  (segs.filterMap Segment.group?).getLastD old

theorem load_acknowledge (seg : Segment) (buf : Memory UInt8) :
    (seg.acknowledge buf).load 0 4 = lastGroup (buf.load 0 4) [seg] := by
  cases seg with
  | command payload hlen closed => rfl
  | group a b c d => exact Memory.load_store buf 0 [a, b, c, d]
  | noise x h => rfl

theorem lastGroup_cons (old : List UInt8) (seg : Segment) (segs : List Segment) :
    lastGroup old (seg :: segs) = lastGroup (lastGroup old [seg]) segs := by
  unfold lastGroup
  cases seg with
  | group a b c d => exact List.getLastD_cons
  | command payload hlen closed => rfl
  | noise x h => rfl

theorem listen_of_stream_eq_nil {w : World} (h : w.stream = []) {Q : Unit → World → Prop}
    (hQ : Q () w) (n : ℕ) : (listen process n).Returns w Q := by
  cases n with
  | zero => exact hQ
  | succ n =>
    unfold listen
    rw [EStateM.Returns, EStateM.ends_bind, EStateM.ends_get, EStateM.ends_ite, if_pos h]
    exact hQ

theorem listen_of_returns {w : World} (h : w.stream ≠ []) {Q : Unit → World → Prop}
    {P : UInt8 → World → Prop} (hcall : (eventsWith process).Returns w P)
    (hrest : ∀ b w', P b w' → ∃ n, (listen process n).Returns w' Q) :
    ∃ n, (listen process n).Returns w Q := by
  obtain ⟨b, w', hrun, hP⟩ := hcall.exists_ok
  obtain ⟨n, hn⟩ := hrest b w' hP
  refine ⟨n + 1, ?_⟩
  unfold listen
  rw [EStateM.Returns, EStateM.ends_bind, EStateM.ends_get, EStateM.ends_ite, if_neg h,
    EStateM.ends_bind]
  unfold EStateM.Ends
  rw [hrun]
  exact hn

/-- No limit of the receiver is reached while the segments are delivered. -/
structure Punctual (segs : List Segment) (sched : List Tick) : Prop where
  timely : Timely sched
  prompt : ∀ before seg after, segs = before ++ seg :: after →
    seg.Prompt (streamBytes after) sched

theorem Punctual.tail {seg : Segment} {segs : List Segment} {sched : List Tick}
    (h : Punctual (seg :: segs) sched) : Punctual segs sched :=
  ⟨h.timely, fun before seg' after hsplit => h.prompt (seg :: before) seg' after (by
    rw [hsplit, List.cons_append])⟩

/-- The induction behind `listen_parses_stream`: the schedule may have begun before. -/
theorem listen_of_delivers {segs : List Segment} {sched : List Tick} {w : World}
    (hop : Opaque process (segs.filterMap Segment.payload?) Idle cost seen note) (hidle : Idle w)
    (hsched : Punctual segs sched)
    (hd : Delivers sched (streamBytes segs) [] w.rx w.ticks (budget cost segs + cost)) :
    ∃ n, (listen process n).Returns w fun _ w' =>
      w'.stream = [] ∧ seen w' = (segs.filterMap Segment.payload?).foldl note (seen w) ∧
        w'.received = w.received ++ segs.filterMap Segment.payload? ∧
        w'.naks = w.naks ∧ w'.ackNakBuf.load 0 4 = lastGroup (w.ackNakBuf.load 0 4) segs := by
  induction segs generalizing w with
  | nil => exact ⟨0, listen_of_stream_eq_nil hd.stream ⟨hd.stream, rfl, by simp, rfl, rfl⟩ 0⟩
  | cons seg segs ih =>
    replace hd : Delivers sched (seg.bytes ++ streamBytes segs) [] w.rx w.ticks
        (4 * seg.bytes.length + 13 + 2 * cost + budget cost segs + reserve cost w.rx) :=
      hd.mono (Nat.add_le_add_left (reserve_le cost w.rx) _)
    -- idle calls come first; each shortens the schedule
    induction hlen : w.ticks.length using Nat.strong_induction_on generalizing w with
    | h k ihk =>
      subst hlen
      have hne : w.stream ≠ [] := by
        rw [World.stream, hd.stream]
        exact List.append_ne_nil_of_left_ne_nil seg.bytes_ne_nil _
      have hcall := returns_eventsWith hop seg
        (fun p hp => List.mem_filterMap.mpr ⟨seg, List.mem_cons_self, hp⟩) hsched.timely
        (hsched.prompt [] seg segs rfl) hidle hd
      refine listen_of_returns hne hcall fun b w' h => ?_
      obtain ⟨hidle', hnaks,
        ⟨hseen, hreceived, hack, hlt, hd'⟩ | ⟨hseen, hreceived, hack, hd'⟩⟩ := h
      · obtain ⟨n, hn⟩ := ihk _ hlt hidle' hd' rfl
        exact ⟨n, by rwa [hseen, hreceived, hnaks, hack] at hn⟩
      · have hsub : ∀ p ∈ segs.filterMap Segment.payload?,
            p ∈ (seg :: segs).filterMap Segment.payload? := by
          intro p hp
          rw [List.mem_filterMap] at hp ⊢
          obtain ⟨seg', hmem, hp⟩ := hp
          exact ⟨seg', List.mem_cons_of_mem _ hmem, hp⟩
        obtain ⟨n, hn⟩ := ih (hop.mono hsub) hidle' hsched.tail hd'
        refine ⟨n, hn.mono fun _ w'' hw => ?_⟩
        obtain ⟨hstream, hseen', hreceived', hnaks', hack'⟩ := hw
        refine ⟨hstream, ?_, ?_, hnaks'.trans hnaks, ?_⟩
        · rw [hseen', hseen]
          cases hp : seg.payload? <;> simp [hp]
        · rw [hreceived', hreceived, List.append_assoc]
          cases hp : seg.payload? <;> simp [hp]
        · rw [hack', hack, load_acknowledge, ← lastGroup_cons]

/-- **A stream is parsed into its segments.**  When no limit is reached and enough readings
are left behind the last arrival, calls of `events()` drain the stream; the receiver has then
called `processing_data`, whose calls can be told from the state, once for each command packet, in
stream order and with its payload, no NAK was sent, and `ack_nak_buf` holds the last
acknowledgement. -/
theorem listen_parses_stream {calls : World → List (List UInt8)} {segs : List Segment} {w : World}
    (hop : Opaque process (segs.filterMap Segment.payload?) Idle cost calls appendPayload)
    (hidle : Idle w) (hstream : w.stream = streamBytes segs) (hsched : Punctual segs w.ticks)
    (hspare : budget cost segs + cost ≤ spare w.ticks) :
    ∃ n, (listen process n).Returns w fun _ w' =>
      w'.stream = [] ∧ calls w' = calls w ++ segs.filterMap Segment.payload? ∧
        w'.received = w.received ++ segs.filterMap Segment.payload? ∧
        w'.naks = w.naks ∧ w'.ackNakBuf.load 0 4 = lastGroup (w.ackNakBuf.load 0 4) segs := by
  obtain ⟨n, hn⟩ := listen_of_delivers hop hidle hsched ⟨hstream, List.suffix_rfl, hspare⟩
  rw [foldl_appendPayload] at hn
  exact ⟨n, hn⟩

end Events

/-! ## A split delivery -/

theorem punctual_of_elapsed_lt {segs : List Segment} {sched : List Tick}
    (h : elapsed sched < 100) : Punctual segs sched := by
  have hlt : ∀ before window t after, sched = before ++ window ++ t :: after →
      elapsed (window ++ [t]) < 100 := by
    rintro before window t after rfl
    rw [List.append_cons, List.append_assoc before, elapsed_append, elapsed_append] at h
    omega
  exact ⟨fun before window t after hsplit htime => absurd htime
      (Nat.not_le_of_gt (hlt before window t after hsplit)),
    fun _ _ _ _ _ _ before window t after hsplit _ htime => absurd htime
      (Nat.not_le_of_gt (hlt before window t after hsplit))⟩

/-- A status frame whose payload holds a `$`, between a stray byte and an acknowledgement. -/
def splitSegments : List Segment :=
  [.noise 0x00 (by decide), .command [0x72, 0x72, 0x24, 0x24] (by decide) (by decide),
    .group 6 1 2 3]

/-- The segments come in two parts, before quiet readings. -/
def splitSchedule : List Tick :=
  [⟨5, [0x00, 0x24, 0x00]⟩, ⟨60, [0x04, 0x72, 0x72, 0x24, 0x24, 0x21, 6, 1, 2, 3]⟩] ++
    quiet 160

theorem listen_parses_splitSchedule :
    ∃ n, (listen (processingData (pure ())) n).Returns
      (World.powerUp splitSchedule [] fun _ _ => 0) fun _ w' =>
        w'.stream = [] ∧ w'.handled = [[0x72, 0x72, 0x24, 0x24]] ∧
          w'.received = [[0x72, 0x72, 0x24, 0x24]] ∧ w'.naks = [] ∧
          w'.ackNakBuf.load 0 4 = [6, 1, 2, 3] := by
  have hstream : (World.powerUp splitSchedule [] fun _ _ => 0).stream =
      streamBytes splitSegments := by
    change arrivals splitSchedule = _
    rw [splitSchedule, arrivals_append, arrivals_quiet]
    rfl
  have hspare : budget 3 splitSegments + 3 ≤ spare splitSchedule := by
    refine Nat.le_trans ?_ (length_le_spare_append _ (arrivals_quiet 160))
    rw [length_quiet]
    decide
  have helapsed : elapsed splitSchedule < 100 := by
    rw [splitSchedule, elapsed_append, elapsed_quiet]
    decide
  refine listen_parses_stream (opaque_processingData fun payload hmem => ?_)
    ⟨fun _ => rfl, rfl, rfl⟩ hstream (punctual_of_elapsed_lt helapsed) hspare
  obtain rfl : payload = [0x72, 0x72, 0x24, 0x24] := List.mem_singleton.mp hmem
  exact ⟨by decide, by decide, by decide⟩

end Teensquitto
