import Teensquitto.Receiver.Corruption

/-!
# Truncated headers

The wait for the header of a packet ends after 100 ms, also with bytes of the length missing.
The receiver then reads -1 for these, takes it for the length 65535, and waits another 100 ms for
the bytes of this packet.  What arrives in the meantime is taken.

## Main definitions

* `awaitHeader`, `receiveBody`: the receiver up to the end of the wait, and from there
* `TimesOut`: the outcome of a clean timeout
* `Lapses`, `Subsides`: no byte arrives before the second wait is over

## Main results

* `returns_receive_iff`: when the second wait takes no byte
* `truncated_header_iff`: a truncated header is a clean timeout exactly when no byte arrives
* `truncated_header_swallows`: a frame that arrives behind a truncated header is lost
-/

namespace Teensquitto

/-! ## The two parts of the receiver -/

/-- The receiver up to the end of the wait for the header: the byte a packet would start with,
if one is there. -/
def awaitHeader : Prog (Option (Option UInt8)) := do
  if (← available) > 0 then
    let b ← peek
    if b = some 0x24 then
      let timeout ← millis
      headerWait timeout
    return some b
  else return none

/-- The receiver from the end of the wait. -/
def receiveBody : Option (Option UInt8) → Prog Reception
  | some (some 0x24) => commandBody
  | some (some 0x21) => acknowledgement
  | some _ => do
    let _ ← read
    return .flushed
  | none => return .nothing

theorem uart_eq : uart = awaitHeader >>= receiveBody := by
  unfold uart awaitHeader
  rw [bind_assoc]
  congr 1
  funext n
  by_cases hpos : n > 0
  · simp only [if_pos hpos, bind_assoc]
    congr 1
    funext b
    -- `uart` tells the two markers apart in two steps, `receiveBody` in one match.
    by_cases hb : b = some 0x24
    · subst hb
      simp only [commandPacket, commandBody, receiveBody, if_true, bind_assoc, pure_bind]
    · simp only [if_neg hb, pure_bind]
      split
      · exact absurd rfl hb
      · rfl
      · next hgroup =>
        unfold receiveBody
        split
        · next h => exact absurd (Option.some.inj h) hb
        · next h => exact absurd (Option.some.inj h) hgroup
        · rfl
        · next h => cases h
  · simp only [if_neg hpos, pure_bind, receiveBody]

/-! ## The second wait -/

/-- A round of the loop that receives the bytes of a command packet. -/
abbrev receiveRound (size : ℕ) : Buffer × UInt32 → Prog ((Buffer × UInt32) ⊕ Reception) :=
  byteRound (fun b byte => return Buffer.take size b byte) (fun b => size ≤ b.bytes.length)
    (verdict size)

theorem receiveLoop_eq (size : ℕ) (timeout : UInt32) :
    receiveLoop size timeout = loop (receiveRound size) (⟨[], 0⟩, timeout) :=
  byteLoop_eq _ _

section SecondWait

variable {size : ℕ} {s : World}

theorem ensures_verdict (b : Buffer) (s : World) : (verdict size b).Ensures s fun result s' =>
    (result = .rejected ∨ result = .frame b.bytes) ∧ s'.stream = s.stream := by
  unfold verdict
  rw [EStateM.Ensures, EStateM.ends_ite]
  split
  · trivial
  · rw [EStateM.ends_ite]
    split
    · exact ⟨.inl rfl, rfl⟩
    · exact ⟨.inr rfl, rfl⟩

theorem ensures_nextByte {β : Type} {take : β → UInt8 → β} (b : β) (timeout : UInt32)
    (s : World) : (nextByte (fun b byte => return take b byte) b timeout).Ensures s fun _ s' =>
      s'.stream.length ≤ s.stream.length := by
  unfold nextByte
  refine (ensures_available s).bind ?_
  rintro n s₁ ⟨h₁, rfl⟩
  rw [EStateM.Ensures, EStateM.ends_ite]
  split
  · refine (ensures_millis s₁).bind fun stamp s₂ h₂ => ?_
    refine (ensures_read s₂).bind ?_
    rintro byte s₃ ⟨-, hread⟩
    have h := (h₁.trans h₂).stream
    change s₃.stream.length ≤ s.stream.length
    rw [← h]
    rcases hread with ⟨-, -, hstream⟩ | ⟨x, -, hstream⟩
    · rw [hstream]
    · rw [hstream, List.length_cons]
      exact Nat.le_succ _
  · exact (congrArg List.length h₁.stream).le

/-- The end of a round takes no bytes. -/
theorem ensures_full (b : Buffer) (timeout : UInt32) (s : World) :
    (if decide (size ≤ b.bytes.length) then do
        let r ← verdict size b
        return .inr r
      else return .inl (b, timeout) : Prog ((Buffer × UInt32) ⊕ Reception)).Ensures s
      fun _ s' => s'.stream.length ≤ s.stream.length := by
  rw [EStateM.Ensures, EStateM.ends_ite]
  split
  · exact (ensures_verdict b s).bind fun _ _ h => (congrArg List.length h.2).le
  · exact Nat.le_refl _

theorem ensures_receiveRound (b : Buffer × UInt32) (s : World) :
    (receiveRound size b).Ensures s fun _ s' => s'.stream.length ≤ s.stream.length := by
  obtain ⟨b, timeout⟩ := b
  unfold receiveRound byteRound
  refine (ensures_millis s).bind fun now s₁ h₁ => ?_
  have hlen := congrArg List.length h₁.stream
  rw [EStateM.Ensures, EStateM.ends_ite]
  split
  · refine (ensures_nextByte b timeout s₁).bind fun b s₂ h₂ => ?_
    exact (ensures_full b.1 b.2 s₂).mono fun _ s₃ h₃ => (h₃.trans h₂).trans hlen.le
  · exact hlen.le

theorem ensures_receive (n : ℕ) (b : Buffer × UInt32) (s : World) :
    (EStateM.iterate (throw .exhausted) (receiveRound size) n b).Ensures s fun _ s' =>
      s'.stream.length ≤ s.stream.length := by
  refine EStateM.Ensures.iterate (I := fun _ s' => s'.stream.length ≤ s.stream.length) ?_ n
    (Nat.le_refl _)
  intro b s₁ h₁
  refine (ensures_receiveRound b s₁).mono fun r s₂ h₂ => ?_
  cases r with
  | inl b => exact h₂.trans h₁
  | inr r => exact h₂.trans h₁

variable {m a : Tick} {ticks : List Tick} {timeout : UInt32}

/-- A byte in the port is taken. -/
theorem ensures_receive_lt (n : ℕ) (b : Buffer) (hticks : s.ticks = m :: a :: ticks)
    (htime : UInt32.ofNat (s.clock + m.elapsed) - timeout < 100)
    (hbyte : s.rx ++ m.arrived ++ a.arrived ≠ []) :
    (EStateM.iterate (throw .exhausted) (receiveRound size) n (b, timeout)).Ensures s fun _ s' =>
      s'.stream.length < s.stream.length := by
  cases n with
  | zero => trivial
  | succ n =>
    have hround : (receiveRound size (b, timeout)).Ensures s fun _ s' =>
        s'.stream.length < s.stream.length := by
      have h₁ : Drifts s (s.advance m (a :: ticks)) := .advance hticks
      have h₂ : Drifts (s.advance m (a :: ticks)) ((s.advance m (a :: ticks)).advance a ticks) :=
        .advance rfl
      unfold receiveRound byteRound
      rw [EStateM.Ensures, EStateM.ends_bind, ends_millis_cons hticks, EStateM.ends_ite,
        if_pos htime]
      refine EStateM.Ensures.bind (Q := fun _ s' => s'.stream.length < s.stream.length) ?_
        fun b s₂ hlt => (ensures_full b.1 b.2 s₂).mono fun _ s₃ h₃ => h₃.trans_lt hlt
      have hpos : ((s.advance m (a :: ticks)).rx ++ a.arrived).length > 0 :=
        List.length_pos_iff.mpr hbyte
      unfold nextByte
      rw [EStateM.Ensures, EStateM.ends_bind, ends_available_cons rfl, EStateM.ends_ite,
        if_pos hpos]
      refine (ensures_millis _).bind fun stamp s₃ h₃ => ?_
      have hne : s₃.rx ≠ [] := by
        obtain ⟨l, hl⟩ := h₃.rx
        rw [← hl]
        exact List.append_ne_nil_of_left_ne_nil hbyte l
      refine (ensures_read_of_ne_nil s₃ hne).bind ?_
      rintro _ s₄ ⟨-, x, rfl, hstream⟩
      change s₄.stream.length < s.stream.length
      rw [← ((h₁.trans h₂).trans h₃).stream, hstream]
      exact Nat.lt_succ_self _
    rw [EStateM.iterate_succ]
    refine hround.bind fun r s₁ h₁ => ?_
    cases r with
    | inl b => exact (ensures_receive n b s₁).mono fun _ _ h₂ => h₂.trans_lt h₁
    | inr r => exact h₁

/-- The second wait is over before a byte is found: `rx` is in the port, and `ms` milliseconds
have passed since the time stamp.  Every round reads the clock, then the port. -/
def Lapses : List UInt8 → ℕ → List Tick → Prop
  | _, _, [] => False
  | _, ms, [m] => ¬UInt32.ofNat (ms + m.elapsed) < 100
  | rx, ms, m :: a :: ticks =>
    UInt32.ofNat (ms + m.elapsed) < 100 → rx ++ m.arrived ++ a.arrived = [] ∧
      Lapses [] (ms + m.elapsed + a.elapsed) ticks

instance : ∀ rx ms ticks, Decidable (Lapses rx ms ticks)
  | _, _, [] => inferInstanceAs (Decidable False)
  | _, ms, [m] => inferInstanceAs (Decidable (¬UInt32.ofNat (ms + m.elapsed) < 100))
  | _, ms, m :: a :: ticks =>
    have := instDecidableLapses [] (ms + m.elapsed + a.elapsed) ticks
    inferInstanceAs (Decidable (_ → _ ∧ _))

/-- The packet was given up, and nothing was taken since the given state. -/
def GivenUp (s : World) (result : Reception) (s' : World) : Prop :=
  result = .expired ∧ s'.sent = s.sent ++ [[0x21, 0x15, 0x00, 0xFF, 0xFF]] ∧ s'.stream = s.stream

/-- **The second wait takes no byte** exactly when it is over before a byte is found. -/
theorem returns_receive_iff (hsize : 0 < size) {n stamp t : ℕ} (hn : s.ticks.length < n)
    (hclock : s.clock = stamp + t) :
    (EStateM.iterate (throw .exhausted) (receiveRound size) n
      (⟨[], 0⟩, UInt32.ofNat stamp)).Returns s (GivenUp s) ↔ Lapses s.rx t s.ticks := by
  -- On the fuel: while the port stays empty a round leaves the buffer empty and the stream as it
  -- is.
  induction n generalizing s t with
  | zero => exact absurd hn (Nat.not_lt_zero _)
  | succ n ih =>
    rw [EStateM.iterate_succ, EStateM.Returns, EStateM.ends_bind]
    cases hticks : s.ticks with
    | nil => rw [receiveRound, byteRound, EStateM.ends_bind, ends_millis_nil hticks, Lapses]
    | cons m ticks =>
      by_cases htime : UInt32.ofNat (t + m.elapsed) < 100
      · cases ticks with
        | nil =>
          rw [receiveRound, byteRound, EStateM.ends_bind, ends_millis_cons hticks,
            EStateM.ends_ite, if_pos ((limit_iff_of_clock hclock).mpr htime), EStateM.ends_bind,
            nextByte, EStateM.ends_bind, ends_available_nil rfl, Lapses]
          exact iff_of_false id (not_not_intro htime)
        | cons a ticks =>
          by_cases hbyte : s.rx ++ m.arrived ++ a.arrived = []
          · let s₂ := s.withPort (stamp + (t + m.elapsed + a.elapsed)) ticks []
            have hstream : s₂.stream = s.stream := by
              rw [World.stream, World.stream, hticks, arrivals_cons, arrivals_cons,
                ← List.append_assoc, ← List.append_assoc, hbyte]
              rfl
            have hgiven : GivenUp s = GivenUp s₂ := by
              funext result s'
              rw [GivenUp, GivenUp, hstream]
              rfl
            have hopen : ¬decide (size ≤ (⟨[], 0⟩ : Buffer).bytes.length) = true := by
              rw [decide_eq_true_eq]
              exact Nat.not_le_of_gt hsize
            rw [ends_byteRound_nil hticks hclock htime hbyte, if_neg hopen, hgiven, Lapses]
            rw [hticks, List.length_cons, List.length_cons] at hn
            refine (ih (s := s₂) (t := t + m.elapsed + a.elapsed) ?_ rfl).trans ?_
            · exact Nat.lt_of_succ_lt (Nat.lt_of_succ_lt_succ hn)
            · exact ⟨fun h _ => ⟨hbyte, h⟩, fun h => (h htime).2⟩
          · -- A byte in the port is taken, so that the stream is shorter than it was.
            have hlt := @ensures_receive_lt size _ _ _ _ _ (n + 1) ⟨[], 0⟩ hticks
              ((limit_iff_of_clock hclock).mpr htime) hbyte
            rw [← EStateM.ends_bind, ← EStateM.iterate_succ]
            refine iff_of_false (EStateM.Ensures.not_returns (hlt.mono ?_)) ?_
            · rintro result s' hlt ⟨-, -, hstream⟩
              exact hlt.ne (congrArg List.length hstream)
            · exact fun h => hbyte (h htime).1
      · have hover : Lapses s.rx t (m :: ticks) := by
          cases ticks with
          | nil => exact htime
          | cons a ticks => exact fun h => absurd h htime
        refine iff_of_true ?_ hover
        rw [ends_byteRound_late hticks hclock htime]
        exact ⟨rfl, rfl, (Drifts.advance hticks).stream⟩

end SecondWait

/-! ## Truncated headers -/

/-- No byte arrives at the three reads of the header, nor before the second wait is over. -/
def Subsides : List Tick → Prop
  | t₁ :: t₂ :: t₃ :: stamp :: ticks =>
    t₁.arrived ++ t₂.arrived ++ t₃.arrived = [] ∧ Lapses stamp.arrived 0 ticks
  | _ => False

instance : DecidablePred Subsides
  | [] | [_] | [_, _] | [_, _, _] => inferInstanceAs (Decidable False)
  | _ :: _ :: _ :: _ :: _ => inferInstanceAs (Decidable (_ ∧ _))

section Truncated

variable {s : World} {l : List UInt8}

/-- The packet was given up, and nothing was taken that arrived since the given state. -/
def TimedOut (s : World) (result : Reception) (s' : World) : Prop :=
  result = .expired ∧ s'.sent = s.sent ++ [[0x21, 0x15, 0x00, 0xFF, 0xFF]] ∧
    s'.stream = arrivals s.ticks

theorem returns_commandBody_iff (hrx : s.rx = 0x24 :: l) (hl : l.length < 2) :
    commandBody.Returns s (TimedOut s) ↔ Subsides s.ticks := by
  match hticks : s.ticks with
  | [] =>
    rw [commandBody, EStateM.Returns, EStateM.ends_bind, ends_read_nil hticks]
    exact Iff.rfl
  | [t₁] =>
    rw [commandBody, EStateM.Returns, EStateM.ends_bind, ends_read_cons hticks, EStateM.ends_bind,
      ends_read_nil rfl]
    exact Iff.rfl
  | [t₁, t₂] =>
    rw [commandBody, EStateM.Returns, EStateM.ends_bind, ends_read_cons hticks, EStateM.ends_bind,
      ends_read_cons rfl, EStateM.ends_bind, ends_read_nil rfl]
    exact Iff.rfl
  | [t₁, t₂, t₃] =>
    rw [commandBody, EStateM.Returns, EStateM.ends_bind, ends_read_cons hticks, EStateM.ends_bind,
      ends_read_cons rfl, EStateM.ends_bind, ends_read_cons rfl, EStateM.ends_bind,
      ends_millis_nil rfl]
    exact Iff.rfl
  | t₁ :: t₂ :: t₃ :: stamp :: ticks =>
    rw [commandBody, EStateM.Returns, EStateM.ends_bind, ends_read_cons hticks, EStateM.ends_bind,
      ends_read_cons rfl, EStateM.ends_bind, ends_read_cons rfl, EStateM.ends_bind,
      ends_millis_cons rfl, hrx]
    let c := s.clock + t₁.elapsed + t₂.elapsed + t₃.elapsed + stamp.elapsed
    let two := l ++ t₁.arrived ++ t₂.arrived
    let left := (two.tail ++ t₃.arrived).tail
    change (receiveLoop (frameSize two.head? (two.tail ++ t₃.arrived).head?).toNat
      (UInt32.ofNat c)).Returns (s.withPort c ticks (left ++ stamp.arrived)) (TimedOut s) ↔ _
    rw [receiveLoop_eq, loop, EStateM.Returns, EStateM.ends_bind, EStateM.ends_get]
    by_cases hquiet : t₁.arrived ++ t₂.arrived ++ t₃.arrived = []
    · obtain ⟨hquiet₁₂, hquiet₃⟩ := List.append_eq_nil_iff.mp hquiet
      obtain ⟨hquiet₁, hquiet₂⟩ := List.append_eq_nil_iff.mp hquiet₁₂
      -- at most the high byte of the length was there
      have htail : two.tail ++ t₃.arrived = [] := by
        have hlen : l.tail.length = 0 := by
          rw [List.length_tail]
          omega
        simp only [two, hquiet₁, hquiet₂, hquiet₃, List.append_nil]
        exact List.length_eq_zero_iff.mp hlen
      have hleft : left = [] := by
        simp only [left, htail, List.tail_nil]
      have hsize : (frameSize two.head? none).toNat = 65535 := rfl
      have hstream : arrivals s.ticks = stamp.arrived ++ arrivals ticks := by
        simp only [hticks, arrivals_cons, hquiet₁, hquiet₂, hquiet₃, List.nil_append]
      have hgiven : TimedOut s = GivenUp (s.withPort c ticks stamp.arrived) := by
        funext result s'
        rw [TimedOut, hstream]
        rfl
      rw [htail, List.head?_nil, hsize, hleft, List.nil_append, hgiven]
      refine (returns_receive_iff (t := 0) (by decide) (Nat.lt_succ_self _) rfl).trans ?_
      exact ⟨fun h => ⟨hquiet, h⟩, fun h => h.2⟩
    · refine iff_of_false (EStateM.Ensures.not_returns ((ensures_receive _ _ _).mono ?_))
        fun h => hquiet h.1
      rintro result s' hle ⟨-, -, hstream⟩
      have hlen : 0 < (t₁.arrived ++ t₂.arrived ++ t₃.arrived).length :=
        List.length_pos_iff.mpr hquiet
      rw [hstream, hticks, World.stream] at hle
      simp only [two, left, World.withPort, arrivals_cons, List.length_append,
        List.length_tail] at hle hlen
      omega

/-- A command packet is a frame, rejected, or given up. -/
def Reception.ofCommand : Reception → Prop
  | .frame _ | .rejected | .expired => True
  | _ => False

theorem ensures_commandBody_ofCommand (s : World) :
    commandBody.Ensures s fun result _ => result.ofCommand := by
  have hround (size : ℕ) (b : Buffer × UInt32) (s : World) : (receiveRound size b).Ensures s
      fun r _ => r.elim (fun _ => True) Reception.ofCommand := by
    obtain ⟨b, timeout⟩ := b
    refine EStateM.Ends.bind_of_forall (fun now s₁ => ?_) fun _ _ => trivial
    rw [EStateM.ends_ite]
    split
    · refine EStateM.Ends.bind_of_forall (fun b s₂ => ?_) fun _ _ => trivial
      rw [EStateM.ends_ite]
      split
      · refine (ensures_verdict b.1 s₂).bind ?_
        rintro result s₃ ⟨rfl | rfl, -⟩
        · exact trivial
        · exact trivial
      · exact trivial
    · exact trivial
  have hreceive (size : ℕ) (timeout : UInt32) (s : World) :
      (receiveLoop size timeout).Ensures s fun result _ => result.ofCommand := by
    rw [receiveLoop_eq, loop, EStateM.Ensures, EStateM.ends_bind, EStateM.ends_get]
    exact EStateM.Ensures.iterate (I := fun _ _ => True) (fun b s _ => hround size b s) _ trivial
  refine EStateM.Ends.bind_of_forall (fun _ s₁ => ?_) fun _ _ => trivial
  refine EStateM.Ends.bind_of_forall (fun high s₂ => ?_) fun _ _ => trivial
  refine EStateM.Ends.bind_of_forall (fun low s₃ => ?_) fun _ _ => trivial
  exact EStateM.Ends.bind_of_forall (fun timeout s₄ => hreceive _ timeout s₄) fun _ _ => trivial

end Truncated

/-- The call sent the NAK of a timeout and took nothing that arrived since the given state, so that
a frame that arrives then is handed to `processing_data` by the next call. -/
structure TimesOut (s : World) (b : UInt8) (w : World) : Prop where
  value : b = 0x15
  nak : w.sent = s.sent ++ [[0x21, 0x15, 0x00, 0xFF, 0xFF]]
  stream : w.stream = arrivals s.ticks
  next : HandsOn w

section Events

variable {w w₁ : World} {l : List UInt8}

/-- **A truncated header is a clean timeout** exactly when no byte arrives from the end of the
wait for the header to the end of the second wait. -/
theorem truncated_header_iff
    (hwait : (do checks; awaitHeader).run w = .ok (some (some 0x24)) w₁)
    (hrx : w₁.rx = 0x24 :: l) (hl : l.length < 2) (process : Source → ℕ → Prog Unit) :
    (eventsWith process).Returns w (TimesOut w₁) ↔ Subsides w₁.ticks := by
  rw [← returns_commandBody_iff hrx hl]
  rw [EStateM.run_bind] at hwait
  cases hchecks : checks.run w with
  | error e s =>
    rw [hchecks] at hwait
    cases hwait
  | ok u s =>
    rw [hchecks] at hwait
    simp only at hwait
    rw [eventsWith_eq, uart_eq, EStateM.Returns, EStateM.ends_bind, EStateM.ends_of_ok hchecks,
      bind_assoc, EStateM.ends_bind, EStateM.ends_of_ok hwait, EStateM.ends_bind, receiveBody]
    -- Behind a `$` the receiver returns a frame, a rejection or a timeout; only the last is clean.
    have hkind := ensures_commandBody_ofCommand w₁
    cases hbody : commandBody.run w₁ with
    | error e s =>
      rw [EStateM.ends_of_error hbody, EStateM.Returns, EStateM.ends_of_error hbody]
    | ok result s =>
      rw [EStateM.ends_of_ok hbody, EStateM.Returns, EStateM.ends_of_ok hbody]
      cases result with
      | frame payload =>
        refine iff_of_false (EStateM.Ensures.not_returns ?_) fun h => Reception.noConfusion h.1
        refine EStateM.Ends.bind_of_forall (fun _ s₁ => ?_) fun _ _ => trivial
        refine EStateM.Ends.bind_of_forall (fun _ s₂ => ?_) fun _ _ => trivial
        exact fun h => absurd h.value (by decide)
      | rejected =>
        exact iff_of_false (fun h => absurd h.value (by decide)) fun h => Reception.noConfusion h.1
      | expired =>
        exact ⟨fun h => ⟨rfl, h.nak, h.stream⟩, fun h => ⟨rfl, h.2.1, h.2.2, handsOn s⟩⟩
      | ack b => exact (hkind.of_ok hbody).elim
      | nothing => exact (hkind.of_ok hbody).elim
      | flushed => exact (hkind.of_ok hbody).elim

end Events

/-! ## A frame behind a truncated header -/

/-- A `$` and nothing else for 100 ms; a status frame arrives a given time after this wait.
Irreducible, so that runs over it are evaluated only where this is asked for. -/
@[irreducible] def frameAfter (ms : ℕ) : World :=
  .powerUp ([⟨0, []⟩, ⟨0, [0x24]⟩] ++ quiet 4 ++ [⟨100, []⟩] ++ quiet 4 ++
    [⟨ms, commandBytes [0x72, 0x72, 0x06, 0x06]⟩] ++ quiet 28 ++
    List.replicate 2 ⟨100, []⟩) [] fun _ _ => 0

/-- The wait for the header ends with a `$` in the port. -/
theorem exists_awaitHeader {P : World → Prop} {w : World}
    (h : (do checks; awaitHeader).Returns w fun b w₁ =>
      b = some (some 0x24) ∧ w₁.rx = [0x24] ∧ P w₁) :
    ∃ w₁, (do checks; awaitHeader).run w = .ok (some (some 0x24)) w₁ ∧ w₁.rx = [0x24] ∧ P w₁ := by
  obtain ⟨_, w₁, hrun, rfl, hrx, hP⟩ := h.exists_ok
  exact ⟨w₁, hrun, hrx, hP⟩

theorem truncated_header_iff_late : ∃ w₁, w₁.rx = [0x24] ∧
    (eventsWith fun _ _ => pure ()).Returns (frameAfter 120) (TimesOut w₁) := by
  obtain ⟨w₁, hrun, hrx, hquiet⟩ := @exists_awaitHeader (fun w₁ => Subsides w₁.ticks)
    (frameAfter 120) (by decide +kernel)
  exact ⟨w₁, hrx, (truncated_header_iff hrun hrx (by decide) _).mpr hquiet⟩

/-- A frame that starts 20 ms after the wait for a truncated header is swallowed. -/
theorem truncated_header_swallows : ¬∀ (w w₁ w' : World) (l frame : List UInt8) (b : UInt8),
    (do checks; awaitHeader).run w = .ok (some (some 0x24)) w₁ → w₁.rx = 0x24 :: l →
    l.length < 2 → Closed frame → arrivals w₁.ticks = commandBytes frame →
    (events (pure ())).run w = .ok b w' → TimesOut w₁ b w' := by
  intro hall
  obtain ⟨w₁, hrun, hrx, hframe⟩ := @exists_awaitHeader
    (fun w₁ => arrivals w₁.ticks = commandBytes [0x72, 0x72, 0x06, 0x06])
    (frameAfter 20) (by decide +kernel)
  have hcall : (events (pure ())).Returns (frameAfter 20) fun _ w' => w'.stream = [] := by
    decide +kernel
  obtain ⟨b, w', hrun', hnil⟩ := hcall.exists_ok
  have hout := hall _ w₁ w' [] _ b hrun hrx (by decide) (by decide) hframe hrun'
  rw [hout.stream, hframe] at hnil
  cases hnil

end Teensquitto
