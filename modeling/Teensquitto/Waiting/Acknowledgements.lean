import Teensquitto.Device.Library
import Teensquitto.Receiver.Truncation

/-!
# What `WFAN` reports

`WFAN` waits until a call of `events()` returns the first byte of an acknowledgement, and then looks
at the other three in `ack_nak_buf`.  A timeout of the receiver returns the same byte as a NAK, and
the buffer holds what earlier acknowledgements, or the beginning of one, have left there.

## Main definitions

* `receive`: `events()`, returning what the receiver found
* `wfanTurns`: `WFAN` with the calls of `events()` it made
* `Reported`: the result stands for an acknowledgement that came during the call

## Main results

* `eventsWith_eq_code`, `wfan_eq_fst`: the source's functions
* `ensures_acknowledgement`: the five bytes an acknowledgement takes
* `wfan_reports_iff`: when `WFAN` reports only what arrived
-/

namespace Teensquitto

/-- The byte `events()` returns. -/
def Reception.code : Reception → UInt8
  | .frame _ | .rejected => 0x24
  | .expired => 0x15
  | .ack b => b
  | .nothing | .flushed => 0

/-- What `events()` does with what the receiver found. -/
def handle (process : Source → ℕ → Prog Unit) : Reception → Prog Unit
  | .frame payload => do
    log (.received payload)
    process (.uart payload) payload.length
  | .nothing | .flushed => drainQueue process
  | .rejected | .expired | .ack _ => pure ()

/-- `events()`, returning what the receiver found. -/
def receive (process : Source → ℕ → Prog Unit) : Prog Reception := do
  checks
  let r ← uart
  handle process r
  return r

theorem eventsWith_eq_code (process : Source → ℕ → Prog Unit) :
    eventsWith process = Reception.code <$> receive process := by
  rw [eventsWith_eq, receive, map_bind]
  refine bind_congr fun _ => ?_
  rw [map_bind]
  refine bind_congr fun r => ?_
  cases r with
  | frame payload => simp only [handle, bind_assoc, map_bind, map_pure, Reception.code]
  | nothing | flushed => simp only [handle, map_bind, map_pure, Reception.code]
  | rejected | expired | ack b => rfl

/-- A call of `events()` in the loop of `WFAN`. -/
structure Turn where
  before : World
  reception : Reception
  after : World

/-- `WFAN`, returning also the calls of `events()` it made. -/
def wfanTurns (process : Source → ℕ → Prog Unit) (remote : UInt8) (val timeoutMs : UInt16) :
    Prog (Int8 × List Turn) := do
  let timeout ← millis
  loop (fun turns => do
    let now ← millis
    if now - timeout < timeoutMs.toUInt32 then
      let before ← get
      let reception ← receive process
      let after ← get
      let turns := turns ++ [⟨before, reception, after⟩]
      if reception.code = 0x06 && after.acknowledges remote val then return .inr (1, turns)
      else if reception.code = 0x15 && after.acknowledges remote val then return .inr (0, turns)
      else return .inl turns
    else return .inr (-1, turns)) []

theorem wfan_eq_fst (process : Source → ℕ → Prog Unit) (remote : UInt8) (val timeoutMs : UInt16) :
    wfan (eventsWith process) remote val timeoutMs =
      Prod.fst <$> wfanTurns process remote val timeoutMs := by
  rw [wfan, wfanTurns, map_bind]
  refine bind_congr fun timeout => ?_
  rw [loop, loop, map_bind]
  refine bind_congr fun w => ?_
  refine EStateM.iterate_map (fun _ => ()) Prod.fst (fun turns => ?_) _ []
  rw [map_bind]
  refine bind_congr fun now => ?_
  split
  · simp only [eventsWith_eq_code, bind_map_left, map_bind]
    -- reading the state once more changes nothing
    refine Eq.trans (b := get >>= fun _ => receive process >>= _) rfl ?_
    refine bind_congr fun before => bind_congr fun reception => bind_congr fun after => ?_
    split
    · rfl
    · split
      · rfl
      · rfl
  · rfl

/-! ## The bytes of an acknowledgement -/

section Receiver

/-- The first bytes of `ack_nak_buf` are those that were taken from the stream since `w`. -/
def Collected (w : World) (n : ℕ) (s : World) : Prop := w.stream = s.ackNakBuf.load 0 n ++ s.stream

namespace Collected

variable {w s s' : World} {n : ℕ}

theorem drifts (h : Collected w n s) (hdrifts : Drifts s s') : Collected w n s' := by
  rw [Collected, hdrifts.stream, show s'.ackNakBuf = s.ackNakBuf by rw [hdrifts.own]; rfl]
  exact h

/-- One more byte is taken and stored. -/
theorem take (h : Collected w n s) {x : UInt8} (hown : s' = s.withPort s'.clock s'.ticks s'.rx)
    (hstream : s.stream = x :: s'.stream) :
    Collected w (n + 1) { s' with ackNakBuf := s'.ackNakBuf.set n x } := by
  have hbuf : s'.ackNakBuf = s.ackNakBuf := by
    rw [hown]
    rfl
  have hload : (s.ackNakBuf.set n x).load 0 (n + 1) = s.ackNakBuf.load 0 n ++ [x] := by
    rw [Memory.load_succ, Nat.zero_add, Memory.set_self]
    congr 1
    exact Memory.load_store_of_disjoint _ _ (Or.inl (Nat.zero_add n).le)
  have hstream' : ({ s' with ackNakBuf := s'.ackNakBuf.set n x } : World).stream = s'.stream := rfl
  rw [Collected, hstream', hbuf, hload, h, hstream, List.append_assoc, List.singleton_append]

end Collected

/-- A round stores the next byte of the stream, or none. -/
theorem ensures_nextByte_acknowledgeByte {w s : World} {n : ℕ} (h : Collected w n s)
    (timeout : UInt32) : (nextByte acknowledgeByte n timeout).Ensures s fun r s' =>
      (r.1 = n ∨ r.1 = n + 1) ∧ Collected w r.1 s' := by
  unfold nextByte
  refine (ensures_available s).bind ?_
  rintro m s₁ ⟨h₁, rfl⟩
  rw [EStateM.Ensures, EStateM.ends_ite]
  split
  · next hpos =>
    refine (ensures_millis s₁).bind fun stamp s₂ h₂ => ?_
    have hrx : s₂.rx ≠ [] := by
      obtain ⟨l, hl⟩ := h₂.rx
      rw [← hl]
      exact List.append_ne_nil_of_left_ne_nil (List.ne_nil_of_length_pos hpos) l
    refine (ensures_read_of_ne_nil s₂ hrx).bind ?_
    rintro _ s₃ ⟨hown, x, rfl, hstream⟩
    exact ⟨Or.inr rfl, ((h.drifts h₁).drifts h₂).take hown hstream⟩
  · exact ⟨Or.inl rfl, h.drifts h₁⟩

/-- **An acknowledgement** that is complete took the next five bytes of the stream, and its last
four are in `ack_nak_buf`. -/
theorem ensures_acknowledgement {w : World} (hrx : w.rx.head? = some 0x21) :
    acknowledgement.Ensures w fun r w' => ∀ b, r = .ack b →
      w.stream = 0x21 :: (w'.ackNakBuf.load 0 4 ++ w'.stream) ∧ b = w'.ackNakBuf 0 := by
  have hne : w.rx ≠ [] := by
    intro hnil
    rw [hnil] at hrx
    cases hrx
  unfold acknowledgement
  refine (ensures_read_of_ne_nil w hne).bind ?_
  rintro _ w₁ ⟨-, x, rfl, hstream⟩
  obtain rfl : x = 0x21 := by
    have hhead := congrArg List.head? hstream
    rw [World.stream, List.head?_append, hrx] at hhead
    exact (Option.some.inj hhead).symm
  refine (ensures_millis w₁).bind fun timeout w₂ h₂ => ?_
  unfold byteLoop loop
  rw [EStateM.Ensures, EStateM.ends_bind, EStateM.ends_get]
  have hstart : Collected w₁ 0 w₁ := rfl
  -- Fewer than four bytes are stored, each behind the one before.
  refine EStateM.Ensures.iterate (I := fun p s => p.1 < 4 ∧ Collected w₁ p.1 s) ?_ _
    ⟨Nat.zero_lt_succ 3, hstart.drifts h₂⟩
  rintro ⟨n, timeout⟩ s ⟨hlt, hcollected⟩
  dsimp only at hlt hcollected ⊢
  refine (ensures_millis s).bind fun now s₁ h₁ => ?_
  rw [EStateM.Ensures, EStateM.ends_ite]
  split
  · refine (ensures_nextByte_acknowledgeByte (hcollected.drifts h₁) timeout).bind ?_
    rintro ⟨m, stamp⟩ s₂ ⟨hm, hcollected₂⟩
    dsimp only at hm hcollected₂ ⊢
    rw [EStateM.Ensures, EStateM.ends_ite]
    split
    · next hfull =>
      obtain rfl : m = 4 := by
        have := of_decide_eq_true hfull
        omega
      rintro b hb
      rw [hstream, hcollected₂]
      exact ⟨rfl, (Reception.ack.inj hb).symm⟩
    · next hopen =>
      refine ⟨?_, hcollected₂⟩
      simpa using hopen
  · rintro b hb
    cases hb

/-- A command packet is no acknowledgement. -/
theorem ensures_commandPacket (w : World) :
    commandPacket.Ensures w fun r _ => ∀ b, r ≠ .ack b := by
  unfold commandPacket receiveLoop byteLoop loop
  refine .bind_of_forall (fun timeout w₁ => ?_) fun _ _ => trivial
  refine .bind_of_forall (fun _ w₂ => ?_) fun _ _ => trivial
  refine .bind_of_forall (fun _ w₃ => ?_) fun _ _ => trivial
  refine .bind_of_forall (fun high w₄ => ?_) fun _ _ => trivial
  refine .bind_of_forall (fun low w₅ => ?_) fun _ _ => trivial
  refine .bind_of_forall (fun timeout w₆ => ?_) fun _ _ => trivial
  rw [EStateM.ends_bind, EStateM.ends_get]
  refine EStateM.Ensures.iterate (I := fun _ _ => True) ?_ _ trivial
  rintro ⟨b, timeout⟩ s -
  refine .bind_of_forall (fun now s₁ => ?_) fun _ _ => trivial
  rw [EStateM.ends_ite]
  split
  · refine .bind_of_forall (fun p s₂ => ?_) fun _ _ => trivial
    rw [EStateM.ends_ite]
    split
    · refine (ensures_verdict p.1 s₂).bind ?_
      rintro r s₃ ⟨rfl | rfl, -⟩
      · rintro b hb
        cases hb
      · rintro b hb
        cases hb
    · trivial
  · rintro b hb
    cases hb

/-- What the receiver reports as an acknowledgement it has taken from the stream. -/
def AckTaken (w : World) (r : Reception) (w' : World) : Prop :=
  ∀ b, r = .ack b →
    w.stream = 0x21 :: (w'.ackNakBuf.load 0 4 ++ w'.stream) ∧ b = w'.ackNakBuf 0

theorem ackTaken_of_ne {w w' : World} {r : Reception} (h : ∀ b, r ≠ .ack b) : AckTaken w r w' :=
  fun b hb => absurd hb (h b)

theorem AckTaken.of_stream {w w₁ w' : World} {r : Reception} (h : AckTaken w₁ r w')
    (hstream : w₁.stream = w.stream) : AckTaken w r w' := by
  intro b hb
  rw [← hstream]
  exact h b hb

theorem ensures_uart (w : World) : uart.Ensures w fun r w' => AckTaken w r w' := by
  unfold uart
  refine (ensures_available w).bind ?_
  rintro n w₁ ⟨h₁, rfl⟩
  rw [EStateM.Ensures, EStateM.ends_ite]
  split
  · refine (ensures_peek w₁).bind ?_
    rintro byte w₂ ⟨h₂, rfl⟩
    split
    · refine (ensures_commandPacket w₂).mono fun r w' h => ackTaken_of_ne h
    · next hmarker =>
      refine (ensures_acknowledgement hmarker).mono fun r w' h => ?_
      exact AckTaken.of_stream h (h₁.trans h₂).stream
    · refine .bind_of_forall (fun _ w₃ => ?_) fun _ _ => trivial
      exact ackTaken_of_ne fun _ => Reception.noConfusion
  · exact ackTaken_of_ne fun _ => Reception.noConfusion

theorem ensures_receive_ackTaken (process : Source → ℕ → Prog Unit) (w : World) :
    (receive process).Ensures w fun r w' => AckTaken w r w' := by
  unfold receive
  refine (ensures_checks w).bind fun _ w₁ h₁ => ?_
  refine (ensures_uart w₁).bind fun r w₂ h₂ => ?_
  have htaken := h₂.of_stream h₁.stream
  cases r with
  | ack b => exact htaken
  | nothing | flushed | rejected | expired | frame payload =>
    refine .bind_of_forall (fun _ w₃ => ?_) fun _ _ => trivial
    exact ackTaken_of_ne fun _ => Reception.noConfusion

end Receiver

/-! ## The result -/

/-- The call took an acknowledgement of this frame, with the first byte `b`. -/
def Turn.Took (t : Turn) (b remote : UInt8) (val : UInt16) : Prop :=
  t.reception = .ack b ∧
    t.before.stream = 0x21 :: b :: remote :: Bytes.high val :: Bytes.low val :: t.after.stream

/-- The receiver timed out, and the last bytes of `ack_nak_buf` are those of this frame. -/
def Turn.Mistaken (t : Turn) (remote : UInt8) (val : UInt16) : Prop :=
  t.reception = .expired ∧ t.after.acknowledges remote val = true

/-- The result stands for an acknowledgement that came during the call. -/
structure Reported (remote : UInt8) (val : UInt16) (r : Int8) (turns : List Turn) : Prop where
  ack : r = 1 → ∃ t ∈ turns, t.Took 0x06 remote val
  nak : r = 0 → ∃ t ∈ turns, t.Took 0x15 remote val
  /-- The call of `events()` that decided did not time out. -/
  timeout : r = 0 ∨ r = 1 → ∀ t ∈ turns.getLast?, t.reception ≠ .expired

section Result

variable {remote : UInt8} {val : UInt16}

theorem acknowledges_iff {w : World} : w.acknowledges remote val = true ↔
    w.ackNakBuf 1 = remote ∧ w.ackNakBuf 2 = Bytes.high val ∧ w.ackNakBuf 3 = Bytes.low val := by
  rw [World.acknowledges, Bool.and_eq_true, decide_eq_true_eq, decide_eq_true_eq]
  constructor
  · rintro ⟨hremote, rfl⟩
    exact ⟨hremote, (Bytes.high_join _ _).symm, (Bytes.low_join _ _).symm⟩
  · rintro ⟨hremote, hhigh, hlow⟩
    rw [hhigh, hlow, Bytes.join_split]
    exact ⟨hremote, rfl⟩

theorem took_of_ackTaken {t : Turn} {b : UInt8} (hack : AckTaken t.before t.reception t.after)
    (hb : t.reception = .ack b) (h : t.after.acknowledges remote val = true) :
    t.Took b remote val := by
  obtain ⟨hstream, rfl⟩ := hack b hb
  obtain ⟨hremote, hhigh, hlow⟩ := acknowledges_iff.mp h
  refine ⟨hb, ?_⟩
  rw [hstream, ← hremote, ← hhigh, ← hlow]
  rfl

/-- The byte of an acknowledgement is returned for one. -/
theorem Reception.eq_ack_of_code {r : Reception} (h : r.code = 0x06) : r = .ack 0x06 := by
  cases r with
  | ack b => rw [show b = 0x06 from h]
  | nothing | flushed => exact absurd (show (0 : UInt8) = 0x06 from h) (by decide)
  | rejected | frame payload => exact absurd (show (0x24 : UInt8) = 0x06 from h) (by decide)
  | expired => exact absurd h (by decide)

/-- The byte of a NAK is also returned for a timeout. -/
theorem Reception.eq_nak_or_expired_of_code {r : Reception} (h : r.code = 0x15) :
    r = .ack 0x15 ∨ r = .expired := by
  cases r with
  | ack b =>
    left
    rw [show b = 0x15 from h]
  | expired => exact Or.inr rfl
  | nothing | flushed => exact absurd (show (0 : UInt8) = 0x15 from h) (by decide)
  | rejected | frame payload => exact absurd (show (0x24 : UInt8) = 0x15 from h) (by decide)

section Turns

variable {turns : List Turn} {t : Turn} (hturns : ∀ x ∈ turns, ¬x.Mistaken remote val)

include hturns

theorem not_mistaken_concat (ht : ¬t.Mistaken remote val) :
    ∀ x ∈ turns ++ [t], ¬x.Mistaken remote val := by
  intro x hx
  rw [List.mem_append, List.mem_singleton] at hx
  rcases hx with hx | rfl
  · exact hturns x hx
  · exact ht

/-- The limit is over. -/
theorem reported_of_limit :
    Reported remote val (-1) turns ↔ ∀ x ∈ turns, ¬x.Mistaken remote val := by
  have hone : (-1 : Int8) ≠ 1 := by decide
  have hzero : (-1 : Int8) ≠ 0 := by decide
  refine iff_of_true ⟨fun h => absurd h hone, fun h => absurd h hzero, ?_⟩ hturns
  rintro (h | h)
  · exact absurd h hzero
  · exact absurd h hone

/-- An acknowledgement took its bytes from the stream. -/
theorem reported_of_ack {b : UInt8} {r : Int8} (hr : r = 1 ∧ b = 0x06 ∨ r = 0 ∧ b = 0x15)
    (htook : t.Took b remote val) :
    Reported remote val r (turns ++ [t]) ↔ ∀ x ∈ turns ++ [t], ¬x.Mistaken remote val := by
  have hmem : t ∈ turns ++ [t] := List.mem_append_right _ (List.mem_singleton_self t)
  have hin : t.reception ≠ .expired := by
    rw [htook.1]
    nofun
  refine iff_of_true ⟨?_, ?_, ?_⟩ (not_mistaken_concat hturns fun h => hin h.1)
  · rintro rfl
    obtain ⟨-, rfl⟩ | ⟨h, -⟩ := hr
    · exact ⟨t, hmem, htook⟩
    · exact absurd h (by decide)
  · rintro rfl
    obtain ⟨h, -⟩ | ⟨-, rfl⟩ := hr
    · exact absurd h (by decide)
    · exact ⟨t, hmem, htook⟩
  · intro _ x hx
    rw [List.getLast?_concat, Option.mem_some_iff] at hx
    rwa [← hx]

omit hturns in
/-- A timeout that is taken for a NAK. -/
theorem reported_of_mistaken (ht : t.Mistaken remote val) :
    Reported remote val 0 (turns ++ [t]) ↔ ∀ x ∈ turns ++ [t], ¬x.Mistaken remote val := by
  have hmem : t ∈ turns ++ [t] := List.mem_append_right _ (List.mem_singleton_self t)
  refine iff_of_false (fun h => ?_) fun h => h t hmem ht
  exact h.timeout (Or.inl rfl) t (by rw [List.getLast?_concat, Option.mem_some_iff]) ht.1

end Turns

/-- **`WFAN` reports only what arrived** exactly when `events()` never times out while the last
bytes of `ack_nak_buf` are those of the frame. -/
theorem wfan_reports_iff (process : Source → ℕ → Prog Unit) (remote : UInt8)
    (val timeoutMs : UInt16) (w : World) :
    wfan (eventsWith process) remote val timeoutMs =
        Prod.fst <$> wfanTurns process remote val timeoutMs ∧
      (wfanTurns process remote val timeoutMs).Ensures w fun result _ =>
        Reported remote val result.1 result.2 ↔ ∀ t ∈ result.2, ¬t.Mistaken remote val := by
  refine ⟨wfan_eq_fst process remote val timeoutMs, ?_⟩
  unfold wfanTurns loop
  refine .bind_of_forall (fun timeout w₁ => ?_) fun _ _ => trivial
  rw [EStateM.ends_bind, EStateM.ends_get]
  -- As long as the loop goes on no timeout was taken for a NAK.
  refine EStateM.Ensures.iterate (I := fun turns _ => ∀ t ∈ turns, ¬t.Mistaken remote val) ?_ _
    (List.forall_mem_nil _)
  intro turns s hturns
  refine .bind_of_forall (fun now s₁ => ?_) fun _ _ => trivial
  rw [EStateM.ends_ite]
  split
  · rw [EStateM.ends_bind, EStateM.ends_get]
    refine (ensures_receive_ackTaken process s₁).bind fun r s₂ hack => ?_
    rw [EStateM.Ensures, EStateM.ends_bind, EStateM.ends_get, EStateM.ends_ite]
    simp only [Bool.and_eq_true, decide_eq_true_eq]
    split
    · next h =>
      have hr := Reception.eq_ack_of_code h.1
      exact reported_of_ack hturns (Or.inl ⟨rfl, rfl⟩) (took_of_ackTaken hack hr h.2)
    · rw [EStateM.ends_ite]
      split
      · next h =>
        rcases Reception.eq_nak_or_expired_of_code h.1 with hr | hr
        · exact reported_of_ack hturns (Or.inr ⟨rfl, rfl⟩) (took_of_ackTaken hack hr h.2)
        · exact reported_of_mistaken ⟨hr, h.2⟩
      · next h =>
        refine not_mistaken_concat hturns ?_
        rintro ⟨hr, hbuf⟩
        exact h ⟨by rw [show r = .expired from hr]; rfl, hbuf⟩
  · exact reported_of_limit hturns

end Result

/-- The frame is acknowledged, and behind the acknowledgement comes a `!` that nothing follows.
Irreducible, so that runs over it are evaluated only where this is asked for. -/
@[irreducible] def truncatedSchedule : List Tick :=
  ⟨1, [0x21, 0x06, 0x05, 0x12, 0x34]⟩ :: quiet 22 ++ ⟨1, [0x21]⟩ :: List.replicate 10 ⟨60, []⟩

/-- `WFAN` is called once more for a frame that was acknowledged, and returns 0 on the strength of
a timeout. -/
theorem wfan_reports_stale :
    ¬∀ (process : Source → ℕ → Prog Unit) (remote : UInt8) (val timeoutMs : UInt16) (w : World),
      (wfanTurns process remote val timeoutMs).Ensures w fun result _ =>
        Reported remote val result.1 result.2 := by
  intro hall
  have hstale : (wfanTurns (processingData (pure ())) 0x05 0x1234 1000).Returns
      (.powerUp truncatedSchedule [] fun _ _ => 0) fun _ w =>
        (wfanTurns (processingData (pure ())) 0x05 0x1234 1000).Returns w fun result _ =>
          result.1 = 0 ∧ result.2.getLast?.map Turn.reception = some .expired := by decide +kernel
  obtain ⟨_, w, -, hsecond⟩ := hstale.exists_ok
  obtain ⟨result, w', hrun, hzero, hlast⟩ := hsecond.exists_ok
  obtain ⟨t, ht, hexpired⟩ := Option.map_eq_some_iff.mp hlast
  exact ((hall _ _ _ _ w).of_ok hrun).timeout (Or.inl hzero) t ht hexpired

end Teensquitto
