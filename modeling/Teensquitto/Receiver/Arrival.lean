import Teensquitto.Receiver.Readings

/-!
# Packets that arrive in time

A schedule alone decides whether a packet is received: a byte is found in the port, the wait for
the header ends with the length of the packet there, and no gap before a byte of its payload
reaches 100 ms.

## Main definitions

* `InTime`: the bytes of a packet come in time
* `awaited`: the wait for the header of a packet
* `Arrives`: a packet arrives in time

## Main results

* `exists_byteLoop_of_inTime`: the loop takes the bytes that come in time
* `ends_byteLoop_of_not_inTime`: any other packet is given up
* `Arrives.uart_run`: a packet that arrives in time is received whole
-/

namespace Teensquitto

/-- The time since a stamp. -/
theorem ofNat_add_sub (stamp ms : ℕ) :
    UInt32.ofNat (stamp + ms) - UInt32.ofNat stamp = UInt32.ofNat ms := by
  apply UInt32.toNat_inj.mp
  simp only [UInt32.toNat_sub, UInt32.toNat_ofNat']
  omega

/-- The state after a NAK. -/
def World.naked (w : World) (a b : UInt8) : World :=
  { w with sent := w.sent ++ [[0x21, 0x15, 0x00, a, b]] }

/-! ## The bytes of a packet -/

/-- `n` more bytes come in time: `rx` is in the port, and `ms` milliseconds have passed since the
time stamp.  Every round reads the clock, then the port; with a byte there it takes a new time
stamp, then the byte. -/
def InTime : ℕ → List UInt8 → ℕ → List Tick → Prop
  | n, rx, ms, m :: a :: ticks =>
    UInt32.ofNat (ms + m.elapsed) < 100 ∧
      if rx ++ m.arrived ++ a.arrived = [] then
        n = 0 ∨ InTime n [] (ms + m.elapsed + a.elapsed) ticks
      else
        match ticks with
        | stamp :: r :: ticks => n ≤ 1 ∨ InTime (n - 1)
            (rx ++ m.arrived ++ a.arrived ++ stamp.arrived ++ r.arrived).tail r.elapsed ticks
        | _ => False
  | _, _, _, _ => False

instance instDecidableInTime : ∀ n rx ms ticks, Decidable (InTime n rx ms ticks)
  | _, _, _, [] | _, _, _, [_] => inferInstanceAs (Decidable False)
  | n, rx, ms, [m, a] =>
    have := instDecidableInTime n [] (ms + m.elapsed + a.elapsed) []
    inferInstanceAs (Decidable (_ ∧ if rx ++ m.arrived ++ a.arrived = [] then _ ∨ _ else _))
  | n, rx, ms, [m, a, t] =>
    have := instDecidableInTime n [] (ms + m.elapsed + a.elapsed) [t]
    inferInstanceAs (Decidable (_ ∧ if rx ++ m.arrived ++ a.arrived = [] then _ ∨ _ else _))
  | n, rx, ms, m :: a :: stamp :: r :: ticks =>
    have := instDecidableInTime n [] (ms + m.elapsed + a.elapsed) (stamp :: r :: ticks)
    have := instDecidableInTime (n - 1)
      (rx ++ m.arrived ++ a.arrived ++ stamp.arrived ++ r.arrived).tail r.elapsed ticks
    inferInstanceAs (Decidable (_ ∧ if rx ++ m.arrived ++ a.arrived = [] then _ ∨ _ else _ ∨ _))

theorem inTime_cons_cons {n ms : ℕ} {rx : List UInt8} {m a : Tick} {ticks : List Tick} :
    InTime n rx ms (m :: a :: ticks) ↔ UInt32.ofNat (ms + m.elapsed) < 100 ∧
      if rx ++ m.arrived ++ a.arrived = [] then
        n = 0 ∨ InTime n [] (ms + m.elapsed + a.elapsed) ticks
      else ∃ stamp r ticks', ticks = stamp :: r :: ticks' ∧ (n ≤ 1 ∨ InTime (n - 1)
        (rx ++ m.arrived ++ a.arrived ++ stamp.arrived ++ r.arrived).tail r.elapsed ticks') := by
  match ticks with
  | [] | [_] => simp [InTime]
  | stamp :: r :: ticks => simp [InTime]

section ByteLoop

variable {β : Type} {take : β → UInt8 → Prog β} {full : β → Bool} {finish : β → Prog Reception}

/-- A round of the loop that receives the bytes of a packet. -/
def byteRound (take : β → UInt8 → Prog β) (full : β → Bool) (finish : β → Prog Reception) :
    β × UInt32 → Prog ((β × UInt32) ⊕ Reception)
  | (b, timeout) => do
    let now ← millis
    if now - timeout < 100 then
      let (b, timeout) ← nextByte take b timeout
      if full b then
        let r ← finish b
        return .inr r
      else return .inl (b, timeout)
    else
      sendNak 0xFF 0xFF
      return .inr .expired

theorem byteLoop_eq (b : β) (timeout : UInt32) :
    byteLoop take full finish b timeout = loop (byteRound take full finish) (b, timeout) := by
  unfold byteLoop
  congr 1

variable {E : Halt → World → Prop} {R : (β × UInt32) ⊕ Reception → World → Prop}
  {m a stamp r : Tick} {ticks : List Tick} {s : World} {c t : ℕ} {b : β}

theorem limit_iff_of_clock (hclock : s.clock = c + t) :
    UInt32.ofNat (s.clock + m.elapsed) - UInt32.ofNat c < 100 ↔
      UInt32.ofNat (t + m.elapsed) < 100 := by
  rw [hclock, Nat.add_assoc, ofNat_add_sub]

/-- A round behind the limit. -/
theorem ends_byteRound_late (hticks : s.ticks = m :: ticks) (hclock : s.clock = c + t)
    (htime : ¬UInt32.ofNat (t + m.elapsed) < 100) :
    (byteRound take full finish (b, UInt32.ofNat c)).Ends s R E ↔
      R (.inr .expired) ((s.advance m ticks).naked 0xFF 0xFF) := by
  rw [byteRound, EStateM.ends_bind, ends_millis_cons hticks, EStateM.ends_ite,
    if_neg (mt (limit_iff_of_clock hclock).mp htime)]
  exact Iff.rfl

/-- A round that finds no byte. -/
theorem ends_byteRound_nil (hticks : s.ticks = m :: a :: ticks) (hclock : s.clock = c + t)
    (htime : UInt32.ofNat (t + m.elapsed) < 100) (hnone : s.rx ++ m.arrived ++ a.arrived = []) :
    (byteRound take full finish (b, UInt32.ofNat c)).Ends s R E ↔
      if full b then
        (finish b).Ends (s.withPort (c + (t + m.elapsed + a.elapsed)) ticks [])
          (fun result s => R (.inr result) s) E
      else R (.inl (b, UInt32.ofNat c))
        (s.withPort (c + (t + m.elapsed + a.elapsed)) ticks []) := by
  have hpos : ¬((s.advance m (a :: ticks)).rx ++ a.arrived).length > 0 := by
    change ¬(s.rx ++ m.arrived ++ a.arrived).length > 0
    rw [hnone]
    exact Nat.lt_irrefl 0
  have hport : (s.advance m (a :: ticks)).advance a ticks =
      s.withPort (c + (t + m.elapsed + a.elapsed)) ticks [] := by
    rw [World.advance, World.advance, hclock, hnone]
    simp only [Nat.add_assoc]
    rfl
  rw [byteRound, EStateM.ends_bind, ends_millis_cons hticks, EStateM.ends_ite,
    if_pos ((limit_iff_of_clock hclock).mpr htime), EStateM.ends_bind, nextByte, EStateM.ends_bind,
    ends_available_cons rfl, EStateM.ends_ite, if_neg hpos, EStateM.ends_pure, hport]
  simp only [EStateM.ends_ite, EStateM.ends_bind, EStateM.ends_pure]

/-- A round that takes a byte. -/
theorem ends_byteRound_cons {rest : List UInt8} {x : UInt8}
    (hticks : s.ticks = m :: a :: stamp :: r :: ticks) (hclock : s.clock = c + t)
    (htime : UInt32.ofNat (t + m.elapsed) < 100)
    (hbyte : s.rx ++ m.arrived ++ a.arrived = x :: rest) :
    (byteRound take full finish (b, UInt32.ofNat c)).Ends s R E ↔
      (take b x).Ends
        (s.withPort (c + (t + m.elapsed + a.elapsed + stamp.elapsed) + r.elapsed) ticks
          (rest ++ stamp.arrived ++ r.arrived))
        (fun b s => if full b then (finish b).Ends s (fun result s => R (.inr result) s) E
          else R (.inl (b, UInt32.ofNat (c + (t + m.elapsed + a.elapsed + stamp.elapsed)))) s)
        E := by
  have hpos : ((s.advance m (a :: stamp :: r :: ticks)).rx ++ a.arrived).length > 0 := by
    change (s.rx ++ m.arrived ++ a.arrived).length > 0
    rw [hbyte]
    exact Nat.succ_pos _
  have hclock' : s.clock + m.elapsed + a.elapsed + stamp.elapsed =
      c + (t + m.elapsed + a.elapsed + stamp.elapsed) := by
    rw [hclock]
    omega
  have hport : s.rx ++ m.arrived ++ a.arrived ++ stamp.arrived ++ r.arrived =
      x :: (rest ++ stamp.arrived ++ r.arrived) := by
    rw [hbyte]
    simp only [List.cons_append]
  have hread {Q : Option UInt8 → World → Prop} : read.Ends
      (((s.advance m (a :: stamp :: r :: ticks)).advance a (stamp :: r :: ticks)).advance stamp
        (r :: ticks)) Q E ↔
      Q (some x) (s.withPort (c + (t + m.elapsed + a.elapsed + stamp.elapsed) + r.elapsed) ticks
        (rest ++ stamp.arrived ++ r.arrived)) := by
    rw [ends_read_cons rfl]
    change Q (s.rx ++ m.arrived ++ a.arrived ++ stamp.arrived ++ r.arrived).head?
      (s.withPort (s.clock + m.elapsed + a.elapsed + stamp.elapsed + r.elapsed) ticks
        (s.rx ++ m.arrived ++ a.arrived ++ stamp.arrived ++ r.arrived).tail) ↔ _
    rw [hport, hclock']
    exact Iff.rfl
  rw [byteRound, EStateM.ends_bind, ends_millis_cons hticks, EStateM.ends_ite,
    if_pos ((limit_iff_of_clock hclock).mpr htime), EStateM.ends_bind, nextByte, EStateM.ends_bind,
    ends_available_cons rfl, EStateM.ends_ite, if_pos hpos, EStateM.ends_bind,
    ends_millis_cons rfl, EStateM.ends_bind, hread, EStateM.ends_bind]
  have hstamp : ((s.advance m (a :: stamp :: r :: ticks)).advance a (stamp :: r :: ticks)).clock +
      stamp.elapsed = c + (t + m.elapsed + a.elapsed + stamp.elapsed) := hclock'
  simp only [hstamp, Option.getD_some, EStateM.ends_pure, EStateM.ends_ite, EStateM.ends_bind]

/-- Without the readings for a byte, the round stops. -/
theorem ends_byteRound_short (hticks : s.ticks = m :: a :: ticks) (hclock : s.clock = c + t)
    (htime : UInt32.ofNat (t + m.elapsed) < 100) (hbyte : s.rx ++ m.arrived ++ a.arrived ≠ [])
    (hshort : ticks.length < 2) :
    (byteRound take full finish (b, UInt32.ofNat c)).Ends s R fun e _ => e = .exhausted := by
  have hpos : ((s.advance m (a :: ticks)).rx ++ a.arrived).length > 0 :=
    List.length_pos_iff.mpr hbyte
  rw [byteRound, EStateM.ends_bind, ends_millis_cons hticks, EStateM.ends_ite,
    if_pos ((limit_iff_of_clock hclock).mpr htime), EStateM.ends_bind, nextByte, EStateM.ends_bind,
    ends_available_cons rfl, EStateM.ends_ite, if_pos hpos, EStateM.ends_bind]
  rcases ticks with _ | ⟨stamp, _ | ⟨r, ticks⟩⟩
  · exact (ends_millis_nil rfl).mpr rfl
  · rw [ends_millis_cons rfl, EStateM.ends_bind]
    exact (ends_read_nil rfl).mpr rfl
  · simp only [List.length_cons] at hshort
    omega

/-- The buffer `of bytes` holds `bytes`, and is full with `size` of them. -/
structure Fills (take : β → UInt8 → Prog β) (full : β → Bool) (size : ℕ)
    (of : List UInt8 → β) : Prop where
  take : ∀ bytes x, bytes.length < size → take (of bytes) x = pure (of (bytes ++ [x]))
  full : ∀ bytes, full (of bytes) = true ↔ size ≤ bytes.length

variable {size : ℕ} {of : List UInt8 → β}

/-- **A packet whose bytes come in time is received whole**: the bytes to come are the next ones of
the stream, and it ends with `finish` in a state that has them taken. -/
theorem exists_byteLoop_of_inTime (hfills : Fills take full size of) {f n : ℕ}
    {bytes : List UInt8} (hf : s.ticks.length < f) (hsize : bytes.length + (n + 1) = size)
    (hclock : s.clock = c + t) (hin : InTime (n + 1) s.rx t s.ticks) :
    ∃ clock ticks rx, s.stream = s.stream.take (n + 1) ++ (s.withPort clock ticks rx).stream ∧
      (s.stream.take (n + 1)).length = n + 1 ∧ ∀ (Q : Reception → World → Prop) E,
      (finish (of (bytes ++ s.stream.take (n + 1)))).Ends (s.withPort clock ticks rx) Q E →
        (EStateM.iterate (throw .exhausted) (byteRound take full finish) f
          (of bytes, UInt32.ofNat c)).Ends s Q E := by
  -- On the fuel: `bytes` are received, `n + 1` are to come, and `t` milliseconds have passed since
  -- the last byte.
  induction f generalizing s n bytes c t with
  | zero => exact absurd hf (Nat.not_lt_zero _)
  | succ f ih =>
    match hticks : s.ticks with
    | [] | [_] =>
      rw [hticks] at hin
      simp [InTime] at hin
    | m :: a :: ticks =>
      rw [hticks, inTime_cons_cons] at hin
      obtain ⟨htime, hin⟩ := hin
      rw [hticks] at hf
      by_cases hnone : s.rx ++ m.arrived ++ a.arrived = []
      · rw [if_pos hnone] at hin
        have hopen : ¬full (of bytes) = true := fun h => by
          have := (hfills.full bytes).mp h
          omega
        have hstream : (s.withPort (c + (t + m.elapsed + a.elapsed)) ticks []).stream =
            s.stream := by
          rw [World.stream, World.stream, hticks, arrivals_cons, arrivals_cons,
            ← List.append_assoc, ← List.append_assoc, hnone]
          rfl
        -- Without a byte the clock of the limit goes on; with one it starts again at the time
        -- stamp.
        obtain ⟨clock, ticks', rx, hsplit, hlen, hends⟩ := @ih
          (s.withPort (c + (t + m.elapsed + a.elapsed)) ticks []) c (t + m.elapsed + a.elapsed) n
          bytes (by simp only [World.withPort_ticks, List.length_cons] at hf ⊢; omega) hsize rfl
          (hin.resolve_left (Nat.succ_ne_zero n))
        rw [hstream] at hsplit hlen
        refine ⟨clock, ticks', rx, hsplit, hlen, fun Q E hfinish => ?_⟩
        rw [EStateM.iterate_succ, EStateM.ends_bind,
          ends_byteRound_nil hticks hclock htime hnone, if_neg hopen]
        exact hends Q E (by rwa [hstream])
      · rw [if_neg hnone] at hin
        obtain ⟨x, rest, hbyte⟩ := List.exists_cons_of_ne_nil hnone
        obtain ⟨stamp, r, ticks, rfl, hin⟩ := hin
        have hstream : s.stream = x :: (s.withPort (c + (t + m.elapsed + a.elapsed +
            stamp.elapsed) + r.elapsed) ticks (rest ++ stamp.arrived ++ r.arrived)).stream := by
          rw [World.stream, World.stream, hticks]
          simp only [arrivals_cons, ← List.append_assoc, hbyte]
          simp only [List.cons_append]
          rfl
        have htake := hfills.take bytes x (by omega)
        cases n with
        | zero =>
          have hfull : full (of (bytes ++ [x])) = true := by
            rw [hfills.full, List.length_append, List.length_singleton]
            omega
          refine ⟨c + (t + m.elapsed + a.elapsed + stamp.elapsed) + r.elapsed, ticks,
            rest ++ stamp.arrived ++ r.arrived, ?_, ?_, fun Q E hfinish => ?_⟩
          · rw [hstream, List.take_succ_cons, List.take_zero, List.singleton_append]
          · rw [hstream, List.take_succ_cons, List.take_zero, List.length_singleton]
          · rw [EStateM.iterate_succ, EStateM.ends_bind,
              ends_byteRound_cons hticks hclock htime hbyte, htake, EStateM.ends_pure, if_pos hfull]
            rw [hstream, List.take_succ_cons, List.take_zero] at hfinish
            exact hfinish
        | succ n =>
          have hopen : ¬full (of (bytes ++ [x])) = true := fun h => by
            have := (hfills.full _).mp h
            rw [List.length_append, List.length_singleton] at this
            omega
          have hrest := hin.resolve_left (by omega)
          rw [hbyte] at hrest
          obtain ⟨clock, ticks', rx, hsplit, hlen, hends⟩ := @ih
            (s.withPort (c + (t + m.elapsed + a.elapsed + stamp.elapsed) + r.elapsed) ticks
              (rest ++ stamp.arrived ++ r.arrived)) _ r.elapsed n (bytes ++ [x])
            (by simp only [World.withPort_ticks, List.length_cons] at hf ⊢; omega)
            (by rw [List.length_append, List.length_singleton]; omega) rfl hrest
          refine ⟨clock, ticks', rx, ?_, ?_, fun Q E hfinish => ?_⟩
          · rw [hstream, List.take_succ_cons, List.cons_append]
            exact congrArg (x :: ·) hsplit
          · rw [hstream, List.take_succ_cons, List.length_cons, hlen]
          · rw [EStateM.iterate_succ, EStateM.ends_bind,
              ends_byteRound_cons hticks hclock htime hbyte, htake, EStateM.ends_pure,
              if_neg hopen]
            rw [hstream, List.take_succ_cons, List.append_cons] at hfinish
            exact hends Q E hfinish

/-- A packet whose bytes do not come in time is given up. -/
theorem ends_byteLoop_of_not_inTime (hfills : Fills take full size of) {f n : ℕ}
    {bytes : List UInt8} (hsize : bytes.length + n = size) (hclock : s.clock = c + t)
    (hin : ¬InTime n s.rx t s.ticks) :
    (EStateM.iterate (throw .exhausted) (byteRound take full finish) f
      (of bytes, UInt32.ofNat c)).Ends s (fun result _ => result = .expired)
        fun e _ => e = .exhausted := by
  -- The same induction; a state without the readings for a round stops the run instead.
  induction f generalizing s n bytes c t with
  | zero => exact rfl
  | succ f ih =>
    rw [EStateM.iterate_succ, EStateM.ends_bind]
    cases hticks : s.ticks with
    | nil =>
      rw [byteRound, EStateM.ends_bind, ends_millis_nil hticks]
    | cons m ticks =>
      by_cases htime : UInt32.ofNat (t + m.elapsed) < 100
      · cases ticks with
        | nil =>
          rw [byteRound, EStateM.ends_bind, ends_millis_cons hticks, EStateM.ends_ite,
            if_pos ((limit_iff_of_clock hclock).mpr htime), EStateM.ends_bind, nextByte,
            EStateM.ends_bind, ends_available_nil rfl]
        | cons a ticks =>
          rw [hticks, inTime_cons_cons] at hin
          by_cases hnone : s.rx ++ m.arrived ++ a.arrived = []
          · have hrest : ¬(n = 0 ∨ InTime n [] (t + m.elapsed + a.elapsed) ticks) := by
              intro h
              exact hin ⟨htime, by rwa [if_pos hnone]⟩
            obtain ⟨hn, hrest⟩ := not_or.mp hrest
            have hopen : ¬full (of bytes) = true := fun h => by
              have := (hfills.full bytes).mp h
              omega
            rw [ends_byteRound_nil hticks hclock htime hnone, if_neg hopen]
            exact ih hsize rfl hrest
          · obtain ⟨x, rest, hbyte⟩ := List.exists_cons_of_ne_nil hnone
            rcases ticks with _ | ⟨stamp, _ | ⟨r, ticks⟩⟩
            · exact ends_byteRound_short hticks hclock htime hnone (by simp)
            · exact ends_byteRound_short hticks hclock htime hnone (by simp)
            · have hrest : ¬(n ≤ 1 ∨ InTime (n - 1) (rest ++ stamp.arrived ++ r.arrived)
                  r.elapsed ticks) := by
                intro h
                refine hin ⟨htime, ?_⟩
                rw [if_neg hnone]
                refine ⟨stamp, r, ticks, rfl, ?_⟩
                rw [hbyte]
                exact h
              obtain ⟨hn, hrest⟩ := not_or.mp hrest
              have hopen : ¬full (of (bytes ++ [x])) = true := fun h => by
                have := (hfills.full _).mp h
                rw [List.length_append, List.length_singleton] at this
                omega
              rw [ends_byteRound_cons hticks hclock htime hbyte, hfills.take bytes x (by omega),
                EStateM.ends_pure, if_neg hopen]
              refine ih (n := n - 1) (t := r.elapsed) ?_ rfl hrest
              rw [List.length_append, List.length_singleton]
              omega
      · rw [ends_byteRound_late hticks hclock htime]
        exact rfl

end ByteLoop

/-- The bytes stored and their checksum. -/
def Buffer.of (size : ℕ) (bytes : List UInt8) : Buffer :=
  ⟨bytes, Bytes.xorSum (bytes.take (size - 1))⟩

theorem Buffer.take_of {size : ℕ} {bytes : List UInt8} (h : bytes.length < size) (x : UInt8) :
    (Buffer.of size bytes).take size x = .of size (bytes ++ [x]) := by
  have htake : Buffer.take _ ⟨bytes, _⟩ x = ⟨bytes ++ [x], _⟩ :=
    Buffer.take_eq (rfl : bytes ++ x :: List.replicate (size - bytes.length - 1) 0 = _)
  have hlen : (bytes ++ x :: List.replicate (size - bytes.length - 1) 0).length = size := by
    rw [List.length_append, List.length_cons, List.length_replicate]
    omega
  rw [hlen] at htake
  exact htake

theorem fills_receiveLoop (size : ℕ) :
    Fills (fun b byte => return Buffer.take size b byte) (fun b => size ≤ b.bytes.length) size
      (Buffer.of size) :=
  ⟨fun _ x h => congrArg pure (Buffer.take_of h x), fun _ => decide_eq_true_iff⟩

/-! ## The wait for the header -/

/-- The wait for the header of a packet: `rx` is in the port, and `ms` milliseconds have passed
since the time stamp.  Every round reads the clock, then the port.  The result is the port behind
the wait, and the readings left. -/
def awaited : List UInt8 → ℕ → List Tick → Option (List UInt8 × List Tick)
  | _, _, [] => none
  | rx, ms, [m] =>
    if UInt32.ofNat (ms + m.elapsed) < 100 then none else some (rx ++ m.arrived, [])
  | rx, ms, m :: a :: ticks =>
    if UInt32.ofNat (ms + m.elapsed) < 100 then
      if (rx ++ m.arrived ++ a.arrived).length < 4 then
        awaited (rx ++ m.arrived ++ a.arrived) (ms + m.elapsed + a.elapsed) ticks
      else some (rx ++ m.arrived ++ a.arrived, ticks)
    else some (rx ++ m.arrived, a :: ticks)

/-- The wait takes no byte. -/
theorem stream_awaited {rx rx' : List UInt8} {ms : ℕ} {ticks ticks' : List Tick}
    (h : awaited rx ms ticks = some (rx', ticks')) :
    rx' ++ arrivals ticks' = rx ++ arrivals ticks ∧ rx <+: rx' := by
  fun_induction awaited rx ms ticks with
  | case1 => cases h
  | case2 => cases h
  | case3 rx ms m htime =>
    obtain ⟨rfl, rfl⟩ := Prod.mk.inj (Option.some.inj h)
    exact ⟨by simp, List.prefix_append _ _⟩
  | case4 rx ms m a ticks htime hfew ih =>
    obtain ⟨hstream, hprefix⟩ := ih h
    refine ⟨by simp [hstream], List.IsPrefix.trans ?_ hprefix⟩
    rw [List.append_assoc]
    exact List.prefix_append _ _
  | case5 rx ms m a ticks htime hmany =>
    obtain ⟨rfl, rfl⟩ := Prod.mk.inj (Option.some.inj h)
    refine ⟨by simp, ?_⟩
    rw [List.append_assoc]
    exact List.prefix_append _ _
  | case6 rx ms m a ticks htime =>
    obtain ⟨rfl, rfl⟩ := Prod.mk.inj (Option.some.inj h)
    exact ⟨by simp, List.prefix_append _ _⟩

section HeaderWait

variable {s : World} {c t : ℕ}

/-- A round of the wait. -/
def headerRound (timeout : UInt32) (_ : Unit) : Prog (Unit ⊕ Unit) := do
  let now ← millis
  if now - timeout < 100 then
    if (← available) < 4 then return .inl () else return .inr ()
  else return .inr ()

theorem headerWait_eq (timeout : UInt32) : headerWait timeout = loop (headerRound timeout) () := rfl

variable {m a : Tick} {ticks : List Tick} {Q : Unit ⊕ Unit → World → Prop}
  {E : Halt → World → Prop}

/-- A round behind the limit. -/
theorem ends_headerRound_late (hticks : s.ticks = m :: ticks) (hclock : s.clock = c + t)
    (htime : ¬UInt32.ofNat (t + m.elapsed) < 100) :
    (headerRound (UInt32.ofNat c) ()).Ends s Q E ↔ Q (.inr ()) (s.advance m ticks) := by
  rw [headerRound, EStateM.ends_bind, ends_millis_cons hticks, EStateM.ends_ite,
    if_neg (mt (limit_iff_of_clock hclock).mp htime)]
  exact Iff.rfl

/-- A round that counts the bytes in the port. -/
theorem ends_headerRound_cons (hticks : s.ticks = m :: a :: ticks) (hclock : s.clock = c + t)
    (htime : UInt32.ofNat (t + m.elapsed) < 100) :
    (headerRound (UInt32.ofNat c) ()).Ends s Q E ↔
      if (s.rx ++ m.arrived ++ a.arrived).length < 4 then
        Q (.inl ()) ((s.advance m (a :: ticks)).advance a ticks)
      else Q (.inr ()) ((s.advance m (a :: ticks)).advance a ticks) := by
  rw [headerRound, EStateM.ends_bind, ends_millis_cons hticks, EStateM.ends_ite,
    if_pos ((limit_iff_of_clock hclock).mpr htime), EStateM.ends_bind, ends_available_cons rfl,
    EStateM.ends_ite]
  exact Iff.rfl

/-- **The wait ends** as the schedule says. -/
theorem exists_headerRounds {f : ℕ} {rx : List UInt8} {ticks : List Tick}
    (hf : s.ticks.length < f) (hclock : s.clock = c + t)
    (h : awaited s.rx t s.ticks = some (rx, ticks)) :
    ∃ clock, ∀ (Q : Unit → World → Prop) E, Q () (s.withPort clock ticks rx) →
      (EStateM.iterate (throw .exhausted) (headerRound (UInt32.ofNat c)) f ()).Ends s Q E := by
  induction f generalizing s t with
  | zero => exact absurd hf (Nat.not_lt_zero _)
  | succ f ih =>
    have hlate {m : Tick} {later : List Tick} (hticks : s.ticks = m :: later)
        (htime : ¬UInt32.ofNat (t + m.elapsed) < 100)
        (h : some (s.rx ++ m.arrived, later) = some (rx, ticks)) :
        ∃ clock, ∀ (Q : Unit → World → Prop) E, Q () (s.withPort clock ticks rx) →
          (EStateM.iterate (throw .exhausted) (headerRound (UInt32.ofNat c)) (f + 1) ()).Ends s
            Q E := by
      obtain ⟨rfl, rfl⟩ := Prod.mk.inj (Option.some.inj h)
      refine ⟨s.clock + m.elapsed, fun Q E hQ => ?_⟩
      rw [EStateM.iterate_succ, EStateM.ends_bind, ends_headerRound_late hticks hclock htime]
      exact hQ
    match hticks : s.ticks with
    | [] =>
      rw [hticks] at h
      cases h
    | [m] =>
      rw [hticks, awaited] at h
      by_cases htime : UInt32.ofNat (t + m.elapsed) < 100
      · rw [if_pos htime] at h
        cases h
      · rw [if_neg htime] at h
        exact hlate hticks htime h
    | m :: a :: later =>
      rw [hticks, awaited] at h
      by_cases htime : UInt32.ofNat (t + m.elapsed) < 100
      · rw [if_pos htime] at h
        by_cases hfew : (s.rx ++ m.arrived ++ a.arrived).length < 4
        · rw [if_pos hfew] at h
          rw [hticks, List.length_cons, List.length_cons] at hf
          obtain ⟨clock, hends⟩ := @ih ((s.advance m (a :: later)).advance a later)
            (t + m.elapsed + a.elapsed) (Nat.lt_of_succ_lt (Nat.lt_of_succ_lt_succ hf))
            (by simp only [World.advance, hclock, Nat.add_assoc]) h
          refine ⟨clock, fun Q E hQ => ?_⟩
          rw [EStateM.iterate_succ, EStateM.ends_bind, ends_headerRound_cons hticks hclock htime,
            if_pos hfew]
          exact hends Q E hQ
        · rw [if_neg hfew] at h
          obtain ⟨rfl, rfl⟩ := Prod.mk.inj (Option.some.inj h)
          refine ⟨s.clock + m.elapsed + a.elapsed, fun Q E hQ => ?_⟩
          rw [EStateM.iterate_succ, EStateM.ends_bind, ends_headerRound_cons hticks hclock htime,
            if_neg hfew]
          exact hQ
      · rw [if_neg htime] at h
        exact hlate hticks htime h

end HeaderWait

/-! ## Packets -/

/-- The length of a packet is there when it is read, and its `n` bytes come in time behind a new
time stamp. -/
def LengthArrives (n : ℕ) (rx : List UInt8) : List Tick → Prop
  | t₁ :: t₂ :: t₃ :: stamp :: ticks =>
    2 ≤ (rx ++ t₁.arrived ++ t₂.arrived).length ∧
      3 ≤ (rx ++ t₁.arrived ++ t₂.arrived ++ t₃.arrived).length ∧
      InTime n ((rx ++ t₁.arrived ++ t₂.arrived ++ t₃.arrived ++ stamp.arrived).drop 3) 0 ticks
  | _ => False

instance (n : ℕ) (rx : List UInt8) : DecidablePred (LengthArrives n rx)
  | [] | [_] | [_, _] | [_, _, _] => inferInstanceAs (Decidable False)
  | _ :: _ :: _ :: _ :: _ => inferInstanceAs (Decidable (_ ∧ _ ∧ _))

/-- **A packet with `n` bytes arrives in time**, with `rx` in the port: a byte is found there, its
length is there behind the wait for the header, and its bytes come in time. -/
def Arrives (n : ℕ) (rx : List UInt8) : List Tick → Prop
  | a :: p :: m :: ticks => rx ++ a.arrived ≠ [] ∧
      ∃ r ∈ awaited (rx ++ a.arrived ++ p.arrived ++ m.arrived) 0 ticks, LengthArrives n r.1 r.2
  | _ => False

instance (n : ℕ) (rx : List UInt8) : DecidablePred (Arrives n rx)
  | [] | [_] | [_, _] => inferInstanceAs (Decidable False)
  | _ :: _ :: _ :: _ => inferInstanceAs (Decidable (_ ∧ ∃ r ∈ awaited _ _ _, _))

/-- A command packet from the end of the wait. -/
def commandBody : Prog Reception := do
  let _ ← read
  let high ← read
  let low ← read
  let timeout ← millis
  receiveLoop (frameSize high low).toNat timeout

theorem commandPacket_eq : commandPacket = (do
    let timeout ← millis
    headerWait timeout
    commandBody) := rfl

section Packets

variable {w : World} {payload rest : List UInt8}

/-- The length is read, and the bytes are received. -/
theorem exists_receiveLoop_of_inTime {s : World} {c : ℕ} (hne : payload ≠ [])
    (hclock : s.clock = c) (hstream : s.stream = payload ++ rest)
    (hin : InTime payload.length s.rx 0 s.ticks) :
    ∃ clock ticks rx, (s.withPort clock ticks rx).stream = rest ∧
      ∀ (Q : Reception → World → Prop) E,
        (verdict payload.length (.of payload.length payload)).Ends (s.withPort clock ticks rx) Q E →
          (receiveLoop payload.length (UInt32.ofNat c)).Ends s Q E := by
  obtain ⟨n, hn⟩ := Nat.exists_eq_succ_of_ne_zero (mt List.length_eq_zero_iff.mp hne)
  have htake : s.stream.take (n + 1) = payload := by
    rw [hstream, List.take_left' hn]
  obtain ⟨clock, ticks, rx, hsplit, -, hends⟩ := @exists_byteLoop_of_inTime _ _ _
    (verdict payload.length) s c 0 _ _ (fills_receiveLoop payload.length) _ n []
    (Nat.lt_succ_self _) (by rw [hn]; exact Nat.zero_add _) hclock (by rwa [hn] at hin)
  rw [htake, hstream] at hsplit
  rw [htake, List.nil_append] at hends
  refine ⟨clock, ticks, rx, (List.append_cancel_left hsplit).symm, fun Q E h => ?_⟩
  have hof : Buffer.of payload.length [] = ⟨[], 0⟩ := by
    rw [Buffer.of, List.take_nil]
    rfl
  rw [receiveLoop, byteLoop_eq, loop, EStateM.ends_bind, EStateM.ends_get, ← hof]
  exact hends Q E h

/-- Behind the wait the packet is received. -/
theorem LengthArrives.exists_commandBody (h : LengthArrives payload.length w.rx w.ticks)
    (hne : payload ≠ []) (hlen : payload.length ≤ 65535) (hrx : w.rx ≠ [])
    (hstream : w.stream = commandBytes payload ++ rest) :
    ∃ clock ticks rx, (w.withPort clock ticks rx).stream = rest ∧
      ∀ (Q : Reception → World → Prop) E,
        (verdict payload.length (.of payload.length payload)).Ends (w.withPort clock ticks rx) Q E →
          commandBody.Ends w Q E := by
  match hticks : w.ticks with
  | [] | [_] | [_, _] | [_, _, _] =>
    rw [hticks] at h
    exact h.elim
  | t₁ :: t₂ :: t₃ :: stamp :: ticks =>
    rw [hticks] at h
    obtain ⟨htwo, hthree, hin⟩ := h
    rw [World.stream, hticks, commandBytes] at hstream
    simp only [arrivals_cons, List.cons_append, ← List.append_assoc] at hstream
    -- The bytes in the port at the three reads are the first ones of the stream.
    obtain ⟨l₁, hl₁⟩ : ∃ l, w.rx ++ t₁.arrived = 0x24 :: l := by
      obtain ⟨x, l, hl⟩ := List.exists_cons_of_ne_nil
        (List.append_ne_nil_of_left_ne_nil hrx t₁.arrived)
      rw [hl] at hstream
      simp only [List.cons_append] at hstream
      exact ⟨l, by rw [hl, (List.cons.inj hstream).1]⟩
    rw [hl₁] at hstream htwo hthree hin
    simp only [List.cons_append, List.cons.injEq, true_and] at hstream
    obtain ⟨l₂, hl₂⟩ : ∃ l, l₁ ++ t₂.arrived = Bytes.high (UInt16.ofNat payload.length) :: l := by
      obtain ⟨x, l, hl⟩ := List.exists_cons_of_length_pos (l := l₁ ++ t₂.arrived) (by
        simp only [List.cons_append, List.length_cons] at htwo
        omega)
      rw [hl] at hstream
      simp only [List.cons_append] at hstream
      exact ⟨l, by rw [hl, (List.cons.inj hstream).1]⟩
    simp only [List.cons_append, hl₂] at hstream hthree hin
    simp only [List.cons.injEq, true_and] at hstream
    obtain ⟨l₃, hl₃⟩ : ∃ l, l₂ ++ t₃.arrived = Bytes.low (UInt16.ofNat payload.length) :: l := by
      obtain ⟨x, l, hl⟩ := List.exists_cons_of_length_pos (l := l₂ ++ t₃.arrived) (by
        simp only [List.length_cons] at hthree
        omega)
      rw [hl] at hstream
      simp only [List.cons_append] at hstream
      exact ⟨l, by rw [hl, (List.cons.inj hstream).1]⟩
    simp only [List.cons_append, hl₃] at hstream hin
    simp only [List.cons.injEq, true_and] at hstream
    let c := w.clock + t₁.elapsed + t₂.elapsed + t₃.elapsed + stamp.elapsed
    obtain ⟨clock, ticks', rx, hrest, hends⟩ := @exists_receiveLoop_of_inTime payload rest
      (w.withPort c ticks (l₃ ++ stamp.arrived)) c hne rfl hstream hin
    refine ⟨clock, ticks', rx, hrest, fun Q E hQ => ?_⟩
    rw [commandBody, EStateM.ends_bind, ends_read_cons hticks, EStateM.ends_bind,
      ends_read_cons rfl, EStateM.ends_bind, ends_read_cons rfl, EStateM.ends_bind,
      ends_millis_cons rfl]
    simp only [World.withPort, hl₁, List.tail_cons, hl₂, hl₃, List.head?_cons]
    rw [frameSize_length hlen]
    exact hends Q E hQ

/-- **A packet that arrives in time is received whole**, and its checksum is compared. -/
theorem Arrives.uart_run (h : Arrives payload.length w.rx w.ticks) (hne : payload ≠ [])
    (hlen : payload.length ≤ 65535) (hstream : w.stream = commandBytes payload ++ rest) :
    ∃ clock ticks rx, (w.withPort clock ticks rx).stream = rest ∧
      uart.run w = (verdict payload.length (.of payload.length payload)).run
        (w.withPort clock ticks rx) := by
  match hticks : w.ticks with
  | [] | [_] | [_, _] =>
    rw [hticks] at h
    exact h.elim
  | a :: p :: m :: ticks =>
    rw [hticks] at h
    obtain ⟨hfirst, ⟨rx₂, ticks₂⟩, hwait, hlength⟩ := h
    have hpos := List.length_pos_iff.mpr hfirst
    rw [World.stream, hticks] at hstream
    simp only [arrivals_cons, ← List.append_assoc] at hstream
    -- The packet starts with its `$`.
    obtain ⟨l, hl⟩ : ∃ l, w.rx ++ a.arrived = 0x24 :: l := by
      obtain ⟨x, l, hl⟩ := List.exists_cons_of_ne_nil hfirst
      rw [hl, commandBytes] at hstream
      simp only [List.cons_append] at hstream
      exact ⟨l, by rw [hl, (List.cons.inj hstream).1]⟩
    obtain ⟨hstream₂, hprefix⟩ := stream_awaited hwait
    rw [hstream] at hstream₂
    have hrx₂ : rx₂ ≠ [] := by
      obtain ⟨l', hl'⟩ := hprefix
      rw [← hl', hl]
      simp
    let c := w.clock + a.elapsed + p.elapsed + m.elapsed
    let w₁ := w.withPort c ticks (w.rx ++ a.arrived ++ p.arrived ++ m.arrived)
    obtain ⟨clock₂, hheader⟩ := @exists_headerRounds w₁ c 0 (ticks.length + 1) rx₂ ticks₂
      (Nat.lt_succ_self _) rfl hwait
    obtain ⟨clock, ticks', rx, hrest, hbody⟩ := @LengthArrives.exists_commandBody
      (w₁.withPort clock₂ ticks₂ rx₂) payload rest hlength hne hlen hrx₂ hstream₂
    refine ⟨clock, ticks', rx, hrest, EStateM.run_eq_of_ends fun Q E hQ => ?_⟩
    rw [uart, EStateM.ends_bind, ends_available_cons hticks, EStateM.ends_ite, if_pos hpos,
      EStateM.ends_bind, ends_peek_cons rfl]
    have hhead : ((w.advance a (p :: m :: ticks)).rx ++ p.arrived).head? = some 0x24 := by
      change (w.rx ++ a.arrived ++ p.arrived).head? = some 0x24
      rw [hl]
      rfl
    rw [hhead]
    simp only
    rw [commandPacket_eq, EStateM.ends_bind, ends_millis_cons rfl, EStateM.ends_bind,
      headerWait_eq, loop, EStateM.ends_bind, EStateM.ends_get]
    exact hheader _ E (hbody Q E hQ)

end Packets

end Teensquitto
