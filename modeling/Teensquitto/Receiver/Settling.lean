import Teensquitto.Receiver.Truncation

/-!
# Runs over an unending schedule

A schedule of all readings to come has no end.  A program settles when it comes to its result
after finitely many of them; a wait loop settles because the clock advances.

## Main definitions

* `World.over`: a state over a part of an unending schedule
* `Settles`: a program comes to its result, or stops for a reason of its own
* `Advances`: the clock advances

## Main results

* `Settles.bind`, `settles_loop`: sequences and loops
* `settles_headerWait`, `settles_byteLoop`: the loops of the receiver
-/

namespace Teensquitto

variable {α β γ : Type} (σ : ℕ → Tick)

/-- The state with `n` readings to come, from the `k`-th one of a schedule. -/
def World.over (w : World) (k n : ℕ) : World := { w with ticks := (List.range' k n).map σ }

/-- The program uses finitely many readings, from the `k`-th one on, and returns within `Q` or
stops for another reason than that the readings are used up. -/
def Settles (m : Prog α) (w : World) (k : ℕ) (Q : α → World → ℕ → Prop) : Prop :=
  ∃ c, (∃ (a : α) (w' : World), Q a w' (k + c) ∧
      ∀ n, m.run (w.over σ k (n + c)) = .ok a (w'.over σ (k + c) n)) ∨
    ∃ (e : Halt) (w' : World), e ≠ .exhausted ∧
      ∀ n, m.run (w.over σ k (n + c)) = .error e (w'.over σ (k + c) n)

namespace Settles

variable {σ} {w : World} {k : ℕ}

theorem pure {a : α} {Q : α → World → ℕ → Prop} (h : Q a w k) :
    Settles σ (pure a) w k Q :=
  ⟨0, .inl ⟨a, w, h, fun _ => rfl⟩⟩

theorem throw {e : Halt} (h : e ≠ .exhausted) {Q : α → World → ℕ → Prop} :
    Settles σ (throw e) w k Q :=
  ⟨0, .inr ⟨e, w, h, fun _ => rfl⟩⟩

theorem modify {f : World → World} {Q : PUnit → World → ℕ → Prop}
    (hf : ∀ n, f (w.over σ k n) = (f w).over σ k n) (h : Q ⟨⟩ (f w) k) :
    Settles σ (modify f) w k Q := by
  refine ⟨0, .inl ⟨⟨⟩, f w, h, fun n => ?_⟩⟩
  change EStateM.Result.ok _ (f (w.over σ k n)) = _
  rw [hf]
  rfl

/-- A program that reads the state, but not the readings to come. -/
theorem get_bind {f : World → Prog α} {Q : α → World → ℕ → Prop}
    (hf : ∀ n, f (w.over σ k n) = f w) (h : Settles σ (f w) w k Q) :
    Settles σ (MonadState.get >>= f) w k Q := by
  have hrun (n : ℕ) : (MonadState.get >>= f).run (w.over σ k n) = (f w).run (w.over σ k n) := by
    rw [← hf n]
    rfl
  obtain ⟨c, ⟨a, w', ha, hok⟩ | ⟨e, w', he, herror⟩⟩ := h
  · exact ⟨c, .inl ⟨a, w', ha, fun n => (hrun _).trans (hok n)⟩⟩
  · exact ⟨c, .inr ⟨e, w', he, fun n => (hrun _).trans (herror n)⟩⟩

theorem mono {m : Prog α} {Q Q' : α → World → ℕ → Prop} (h : Settles σ m w k Q)
    (hQ : ∀ a w' k', Q a w' k' → Q' a w' k') : Settles σ m w k Q' := by
  obtain ⟨c, ⟨a, w', ha, hok⟩ | ⟨e, w', he, herror⟩⟩ := h
  · exact ⟨c, .inl ⟨a, w', hQ _ _ _ ha, hok⟩⟩
  · exact ⟨c, .inr ⟨e, w', he, herror⟩⟩

/-- What every run ensures may be added. -/
theorem and_ensures {m : Prog α} {Q : α → World → ℕ → Prop} {P : α → World → Prop}
    (h : Settles σ m w k Q) (hP : ∀ n, m.Ensures (w.over σ k n) P)
    (hover : ∀ a w' k' n, P a (w'.over σ k' n) → P a w') :
    Settles σ m w k fun a w' k' => Q a w' k' ∧ P a w' := by
  obtain ⟨c, ⟨a, w', ha, hok⟩ | ⟨e, w', he, herror⟩⟩ := h
  · exact ⟨c, .inl ⟨a, w', ⟨ha, hover _ _ _ _ ((hP _).of_ok (hok 0))⟩, hok⟩⟩
  · exact ⟨c, .inr ⟨e, w', he, herror⟩⟩

/-- Programs with the same runs settle alike. -/
theorem congr {m m' : Prog α} {Q : α → World → ℕ → Prop}
    (h : ∀ n, m.run (w.over σ k n) = m'.run (w.over σ k n)) (h' : Settles σ m' w k Q) :
    Settles σ m w k Q := by
  obtain ⟨c, ⟨a, w', ha, hok⟩ | ⟨e, w', he, herror⟩⟩ := h'
  · exact ⟨c, .inl ⟨a, w', ha, fun n => (h _).trans (hok n)⟩⟩
  · exact ⟨c, .inr ⟨e, w', he, fun n => (h _).trans (herror n)⟩⟩

/-- From some number on the readings suffice. -/
theorem ends {m : Prog α} {Q : α → World → ℕ → Prop} (h : Settles σ m w k Q) :
    ∃ N, ∀ n ≥ N, m.Ends (w.over σ k n) (fun _ _ => True) fun e _ => e ≠ .exhausted := by
  obtain ⟨c, h⟩ := h
  refine ⟨c, fun n hn => ?_⟩
  obtain ⟨d, rfl⟩ := Nat.exists_eq_add_of_le' hn
  rcases h with ⟨a, w', -, hok⟩ | ⟨e, w', he, herror⟩
  · rw [EStateM.ends_of_ok (hok d)]
    trivial
  · rw [EStateM.ends_of_error (herror d)]
    exact he

theorem bind {m : Prog α} {f : α → Prog β} {Q : α → World → ℕ → Prop}
    {R : β → World → ℕ → Prop} (h : Settles σ m w k Q)
    (hf : ∀ a w' k', Q a w' k' → Settles σ (f a) w' k' R) : Settles σ (m >>= f) w k R := by
  obtain ⟨c, ⟨a, w', ha, hok⟩ | ⟨e, w', he, herror⟩⟩ := h
  · have hrun (c' n : ℕ) : (m >>= f).run (w.over σ k (n + (c' + c))) =
        (f a).run (w'.over σ (k + c) (n + c')) := by
      rw [← Nat.add_assoc, EStateM.run_bind, hok]
    obtain ⟨c', ⟨b, w'', hb, hok'⟩ | ⟨e, w'', he, herror⟩⟩ := hf a w' _ ha
    · rw [Nat.add_assoc, Nat.add_comm c] at hb
      refine ⟨c' + c, .inl ⟨b, w'', hb, fun n => ?_⟩⟩
      rw [hrun, hok', Nat.add_assoc, Nat.add_comm c]
    · refine ⟨c' + c, .inr ⟨e, w'', he, fun n => ?_⟩⟩
      rw [hrun, herror, Nat.add_assoc, Nat.add_comm c]
  · refine ⟨c, .inr ⟨e, w', he, fun n => ?_⟩⟩
    rw [EStateM.run_bind, herror]

theorem ite {c : Prop} [Decidable c] {m m' : Prog α} {Q : α → World → ℕ → Prop}
    (h : c → Settles σ m w k Q) (h' : ¬c → Settles σ m' w k Q) :
    Settles σ (if c then m else m') w k Q := by
  by_cases hc : c
  · rw [if_pos hc]
    exact h hc
  · rw [if_neg hc]
    exact h' hc

end Settles

/-! ## Readings -/

section Readings

variable {σ} {w : World} {k : ℕ}

/-- The state after a reading. -/
def World.pass (w : World) (t : Tick) : World := w.advance t w.ticks

theorem settles_tick : Settles σ tick w k fun _ w' k' => w' = w.pass (σ k) ∧ k' = k + 1 :=
  ⟨1, .inl ⟨(), w.pass (σ k), ⟨rfl, rfl⟩, fun _ => rfl⟩⟩

theorem settles_millis : Settles σ millis w k fun now w' k' =>
    now = UInt32.ofNat (w.clock + (σ k).elapsed) ∧ w' = w.pass (σ k) ∧ k' = k + 1 :=
  ⟨1, .inl ⟨_, w.pass (σ k), ⟨rfl, rfl, rfl⟩, fun _ => rfl⟩⟩

theorem settles_available : Settles σ available w k fun _ w' k' =>
    w' = w.pass (σ k) ∧ k' = k + 1 :=
  ⟨1, .inl ⟨(w.rx ++ (σ k).arrived).length, w.pass (σ k), ⟨rfl, rfl⟩, fun _ => rfl⟩⟩

theorem settles_peek : Settles σ peek w k fun _ w' k' => w' = w.pass (σ k) ∧ k' = k + 1 :=
  ⟨1, .inl ⟨(w.rx ++ (σ k).arrived).head?, w.pass (σ k), ⟨rfl, rfl⟩, fun _ => rfl⟩⟩

theorem settles_read : Settles σ read w k fun _ w' k' =>
    w'.clock = w.clock + (σ k).elapsed ∧ k' = k + 1 :=
  ⟨1, .inl ⟨(w.rx ++ (σ k).arrived).head?,
    { w.pass (σ k) with rx := (w.rx ++ (σ k).arrived).tail }, ⟨rfl, rfl⟩, fun _ => rfl⟩⟩

end Readings

/-! ## Loops -/

/-- More rounds than a loop needs make no difference. -/
theorem iterate_run_of_ne_exhausted {body : β → Prog (β ⊕ γ)} {n : ℕ} {b : β} {w : World}
    (d : ℕ) (h : ∀ w', (EStateM.iterate (throw .exhausted) body n b).run w ≠ .error .exhausted w') :
    (EStateM.iterate (throw .exhausted) body (n + d) b).run w =
      (EStateM.iterate (throw .exhausted) body n b).run w := by
  induction n generalizing b w with
  | zero => exact absurd rfl (h w)
  | succ n ih =>
    rw [Nat.succ_add, EStateM.iterate_succ, EStateM.iterate_succ, EStateM.run_bind,
      EStateM.run_bind]
    rw [EStateM.iterate_succ, EStateM.run_bind] at h
    cases hbody : (body b).run w with
    | error e w₁ => rfl
    | ok r w₁ =>
      rw [hbody] at h
      cases r with
      | inl b' => exact ih h
      | inr c => rfl

section Loop

variable {σ} {w : World} {k : ℕ}

/-- A loop settles when its round settles and, if it goes on, has used a reading and leaves a
loop that settles. -/
theorem settles_loop {body : β → Prog (β ⊕ γ)} {b : β} {Q : γ → World → ℕ → Prop}
    (h : Settles σ (body b) w k fun r w' k' =>
      r.elim (fun b' => k < k' ∧ Settles σ (loop body b') w' k' Q) (Q · w' k')) :
    Settles σ (loop body b) w k Q := by
  have hloop (b : β) (w : World) (k n : ℕ) : (loop body b).run (w.over σ k n) =
      (EStateM.iterate (throw .exhausted) body (n + 1) b).run (w.over σ k n) := by
    have hlen : (w.over σ k n).ticks.length = n := by
      rw [World.over, List.length_map, List.length_range']
    rw [loop, EStateM.run_bind, EStateM.run_get]
    simp only [hlen]
  obtain ⟨c, ⟨r, w', hr, hok⟩ | ⟨e, w', he, herror⟩⟩ := h
  · cases r with
    | inr r =>
      refine ⟨c, .inl ⟨r, w', hr, fun n => ?_⟩⟩
      rw [hloop, EStateM.iterate_succ, EStateM.run_bind, hok]
      rfl
    | inl b' =>
      obtain ⟨hlt, c', h'⟩ := hr
      -- the round used a reading, so that the rounds left are enough
      have hrest (n : ℕ) (hne : ∀ w₁, (loop body b').run (w'.over σ (k + c) (n + c')) ≠
          .error .exhausted w₁) : (loop body b).run (w.over σ k (n + (c' + c))) =
            (loop body b').run (w'.over σ (k + c) (n + c')) := by
        obtain ⟨d, rfl⟩ : ∃ d, c = d + 1 := ⟨c - 1, by omega⟩
        rw [hloop] at hne
        have hmore := iterate_run_of_ne_exhausted d hne
        rw [hloop, hloop, ← hmore, EStateM.iterate_succ, EStateM.run_bind, ← Nat.add_assoc, hok]
        simp only [Sum.elim_inl]
        congr 2
        omega
      rcases h' with ⟨a, w'', ha, hok'⟩ | ⟨e, w'', he, herror'⟩
      · refine ⟨c' + c, .inl ⟨a, w'', ?_, fun n => ?_⟩⟩
        · rwa [Nat.add_comm c', ← Nat.add_assoc]
        · have hne : ∀ w₁, (loop body b').run (w'.over σ (k + c) (n + c')) ≠
              .error .exhausted w₁ := by
            intro w₁ h
            rw [hok'] at h
            cases h
          rw [hrest n hne, hok', Nat.add_assoc, Nat.add_comm c]
      · refine ⟨c' + c, .inr ⟨e, w'', he, fun n => ?_⟩⟩
        have hne : ∀ w₁, (loop body b').run (w'.over σ (k + c) (n + c')) ≠
            .error .exhausted w₁ := by
          intro w₁ h
          rw [herror'] at h
          cases h
          exact he rfl
        rw [hrest n hne, herror', Nat.add_assoc, Nat.add_comm c]
  · refine ⟨c, .inr ⟨e, w', he, fun n => ?_⟩⟩
    rw [hloop, EStateM.iterate_succ, EStateM.run_bind, herror]

end Loop

/-! ## The clock -/

/-- The milliseconds of the first `n` readings. -/
def time (n : ℕ) : ℕ := elapsed ((List.range n).map σ)

/-- The clock advances: behind every reading there are two in a row at which `millis()` shows that
100 ms have passed since. -/
def Advances : Prop :=
  ∀ i, ∃ j, i ≤ j ∧ ¬UInt32.ofNat (time σ j - time σ i) < 100 ∧
    ¬UInt32.ofNat (time σ (j + 1) - time σ i) < 100

@[simp] theorem time_succ (n : ℕ) : time σ (n + 1) = time σ n + (σ n).elapsed := by
  rw [time, time, List.range_succ, List.map_append, elapsed_append]
  rfl

theorem time_le {m n : ℕ} (h : m ≤ n) : time σ m ≤ time σ n := by
  induction n, h using Nat.le_induction with
  | base => exact Nat.le_refl _
  | succ n _ ih =>
    rw [time_succ]
    exact ih.trans (Nat.le_add_right _ _)

/-- A clock advances that has no bound and less than twelve days between two readings. -/
theorem advances_of_unbounded (hstep : ∀ i, (σ i).elapsed < 2 ^ 30)
    (hunbounded : ∀ t, ∃ n, t ≤ time σ n) : Advances σ := by
  intro i
  -- the first reading that is late enough
  have hlate : ∃ j, time σ i + 100 ≤ time σ j := hunbounded _
  classical
  let j := Nat.find hlate
  have hj : time σ i + 100 ≤ time σ j := Nat.find_spec hlate
  have hij : i < j := by
    by_contra hle
    have := time_le σ (Nat.le_of_not_lt hle)
    omega
  obtain ⟨p, hp⟩ : ∃ p, j = p + 1 := ⟨j - 1, by omega⟩
  have hbefore : time σ p < time σ i + 100 := Nat.lt_of_not_le (Nat.find_min hlate (by omega))
  have hsum : time σ j = time σ p + (σ p).elapsed := by rw [hp, time_succ]
  have hp' := hstep p
  have hj' := hstep j
  have hshown (d : ℕ) (hd : 100 ≤ d) (hd' : d < 2 ^ 32) : ¬UInt32.ofNat d < 100 := by
    rw [UInt32.lt_iff_toNat_lt, UInt32.toNat_ofNat_of_lt' hd']
    exact Nat.not_lt.mpr hd
  refine ⟨j, hij.le, hshown _ (by omega) (by omega), hshown _ ?_ ?_⟩
  · rw [time_succ]
    omega
  · rw [time_succ]
    omega

section Waiting

/-- The clock of a state whose last time stamp was taken before the `i`-th reading. -/
def Clocked (stamp i : ℕ) (w : World) (k : ℕ) : Prop :=
  i ≤ k ∧ w.clock + time σ i = stamp + time σ k

variable {σ} {w : World} {i j k : ℕ} {stamp : ℕ}

/-- What a reading of the clock shows. -/
theorem Clocked.sub (h : Clocked σ stamp i w k) :
    UInt32.ofNat (w.clock + (σ k).elapsed) - UInt32.ofNat stamp =
      UInt32.ofNat (time σ (k + 1) - time σ i) := by
  have hle := time_le σ h.1
  have hclock := h.2
  have hsum : w.clock + (σ k).elapsed = stamp + (time σ (k + 1) - time σ i) := by
    rw [time_succ]
    omega
  rw [hsum, ofNat_add_sub]

theorem Clocked.next (h : Clocked σ stamp i w k) {w' : World}
    (hclock : w'.clock = w.clock + (σ k).elapsed) : Clocked σ stamp i w' (k + 1) := by
  refine ⟨h.1.trans (Nat.le_succ k), ?_⟩
  have := h.2
  rw [hclock, time_succ]
  omega

/-- The readings up to which a wait goes on: the limit is met at one of the next two. -/
def Due (σ : ℕ → Tick) (i j : ℕ) : Prop :=
  ¬UInt32.ofNat (time σ j - time σ i) < 100 ∧ ¬UInt32.ofNat (time σ (j + 1) - time σ i) < 100

/-- Within the limit, the limit is two readings nearer. -/
theorem Due.lt (h : Due σ i j) (hk : k ≤ j)
    (htime : UInt32.ofNat (time σ (k + 1) - time σ i) < 100) : k + 2 ≤ j := by
  rcases Nat.lt_trichotomy (k + 1) j with hlt | rfl | hgt
  · exact hlt
  · exact absurd htime h.1
  · obtain rfl : k = j := by omega
    exact absurd htime h.2

theorem Advances.exists_due (h : Advances σ) (i : ℕ) : ∃ j, i + 1 ≤ j ∧ Due σ i j := by
  obtain ⟨j, hle, hj, hj'⟩ := h i
  refine ⟨j, ?_, hj, hj'⟩
  rcases Nat.eq_or_lt_of_le hle with rfl | hlt
  · rw [Nat.sub_self] at hj
    exact absurd (by decide) hj
  · exact hlt

/-- The wait for the header settles. -/
theorem settles_headerWait (hj : Due σ i j) (hk : k ≤ j) (hclock : Clocked σ stamp i w k) :
    Settles σ (headerWait (UInt32.ofNat stamp)) w k fun _ _ _ => True := by
  unfold headerWait
  induction hd : j - k using Nat.strong_induction_on generalizing w k with
  | h d ih =>
    subst hd
    refine settles_loop (settles_millis.bind ?_)
    rintro now w₁ k₁ ⟨rfl, rfl, rfl⟩
    rw [hclock.sub]
    refine .ite (fun htime => ?_) fun _ => .pure trivial
    refine settles_available.bind ?_
    rintro n w₂ k₂ ⟨rfl, rfl⟩
    have hlt := hj.lt hk htime
    refine .ite (fun _ => .pure ⟨?_, ?_⟩) fun _ => .pure trivial
    · omega
    · exact ih _ (by omega) hlt ((hclock.next rfl).next rfl) rfl

variable {β : Type} {take : β → UInt8 → Prog β} {full : β → Bool} {finish : β → Prog Reception}
  {μ : β → ℕ}

/-- A round of the receive loop: with a byte, fewer are left and a new time stamp is taken. -/
theorem settles_nextByte (hclock : Clocked σ stamp i w k) (b : β)
    (htake : ∀ byte w k, Settles σ (take b byte) w k fun b' w' k' =>
      w'.clock = w.clock ∧ k' = k ∧ (μ b' < μ b ∨ full b' = true)) :
    Settles σ (nextByte take b (UInt32.ofNat stamp)) w k fun r w' k' => k < k' ∧
      ((r = (b, UInt32.ofNat stamp) ∧ k' = k + 1 ∧ Clocked σ stamp i w' k') ∨
        (μ r.1 < μ b ∨ full r.1 = true) ∧ ∃ stamp' i', r.2 = UInt32.ofNat stamp' ∧ k' ≤ i' + 1 ∧
          Clocked σ stamp' i' w' k') := by
  unfold nextByte
  refine settles_available.bind ?_
  rintro n w₁ k₁ ⟨rfl, rfl⟩
  refine .ite (fun _ => ?_) fun _ => .pure ⟨Nat.lt_succ_self k, .inl ⟨rfl, rfl, hclock.next rfl⟩⟩
  refine settles_millis.bind ?_
  rintro stamp' w₂ k₂ ⟨rfl, rfl, rfl⟩
  refine settles_read.bind ?_
  rintro byte w₃ k₃ ⟨hclock₃, rfl⟩
  refine (htake _ w₃ _).bind ?_
  rintro b' w₄ k₄ ⟨hclock₄, rfl, hless⟩
  refine .pure ⟨by omega, .inr ⟨hless, _, k + 1 + 1, rfl, Nat.le_refl _, ?_⟩⟩
  have hstart : Clocked σ ((w.pass (σ k)).clock + (σ (k + 1)).elapsed) (k + 1 + 1)
      ((w.pass (σ k)).pass (σ (k + 1))) (k + 1 + 1) := ⟨Nat.le_refl _, rfl⟩
  exact hstart.next (hclock₄.trans hclock₃)

/-- **The receive loop settles**: either a byte is taken, and fewer are left, or the limit is
nearer. -/
theorem settles_byteLoop (hσ : Advances σ)
    (htake : ∀ b byte w k, Settles σ (take b byte) w k fun b' w' k' =>
      w'.clock = w.clock ∧ k' = k ∧ (μ b' < μ b ∨ full b' = true))
    (hfinish : ∀ b w k, Settles σ (finish b) w k fun _ _ _ => True) {b : β}
    (hk : k ≤ i + 1) (hclock : Clocked σ stamp i w k) :
    Settles σ (byteLoop take full finish b (UInt32.ofNat stamp)) w k fun _ _ _ => True := by
  unfold byteLoop
  -- Outside on the bytes that are left, inside on the readings to the one at which the limit is
  -- over.
  induction hm : μ b using Nat.strong_induction_on generalizing b w k i stamp with
  | h m ihm =>
    subst hm
    obtain ⟨j, hij, hj⟩ := hσ.exists_due i
    have hkj := hk.trans hij
    clear hk hij
    induction hd : j - k using Nat.strong_induction_on generalizing w k with
    | h d ihd =>
      subst hd
      refine settles_loop (settles_millis.bind ?_)
      rintro now w₁ k₁ ⟨rfl, rfl, rfl⟩
      dsimp only
      rw [hclock.sub]
      refine .ite (fun htime => ?_) fun _ => ?late
      case late =>
        exact Settles.bind (Q := fun _ _ _ => True) (.modify (fun _ => rfl) trivial)
          fun _ _ _ _ => .pure trivial
      have hlt := hj.lt hkj htime
      refine (settles_nextByte (hclock.next rfl) b (htake b)).bind ?_
      rintro ⟨b', timeout⟩ w₂ k₂ ⟨hnext, hround⟩
      refine .ite (fun _ => ?_) fun hopen => .pure ⟨by omega, ?_⟩
      · exact (hfinish b' w₂ k₂).bind fun _ _ _ _ => .pure trivial
      · rcases hround with ⟨hsame, rfl, hclock'⟩ | ⟨hless, stamp', i', rfl, hk', hclock'⟩
        · obtain ⟨rfl, rfl⟩ := Prod.mk.inj hsame
          exact ihd _ (by omega) hclock' hlt rfl
        · exact ihm _ (hless.resolve_right hopen) hk' hclock' rfl

end Waiting

/-! ## The receiver -/

section Receiver

variable {σ} {w : World} {k : ℕ}

/-- A reading of the clock is a time stamp. -/
theorem settles_stamp {f : UInt32 → Prog α} {Q : α → World → ℕ → Prop}
    (h : ∀ stamp i w', Clocked σ stamp i w' i → Settles σ (f (UInt32.ofNat stamp)) w' i Q) :
    Settles σ (millis >>= f) w k Q := by
  refine settles_millis.bind ?_
  rintro now w' k' ⟨rfl, rfl, rfl⟩
  exact h _ _ _ ⟨Nat.le_refl _, rfl⟩

theorem settles_log (e : Event) : Settles σ (log e) w k fun _ _ _ => True :=
  .modify (fun _ => rfl) trivial

theorem settles_sendNak (a b : UInt8) : Settles σ (sendNak a b) w k fun _ _ _ => True :=
  .modify (fun _ => rfl) trivial

theorem settles_syncController : Settles σ syncController w k fun _ _ _ => True := by
  refine .get_bind (fun _ => rfl) (.ite (fun _ => .pure trivial) fun _ => ?_)
  refine settles_millis.bind fun now w₁ k₁ _ => .ite (fun _ => ?_) fun _ => .pure trivial
  refine settles_millis.bind fun interval w₂ k₂ _ => ?_
  refine Settles.bind (Q := fun _ _ _ => True) (.modify (fun _ => rfl) trivial) fun _ w₃ k₃ _ => ?_
  refine Settles.bind (Q := fun _ _ _ => True) (.modify (fun _ => rfl) trivial) fun _ w₄ k₄ _ => ?_
  refine .get_bind (fun _ => rfl) (settles_millis.bind fun check w₅ k₅ _ => ?_)
  exact Settles.bind (Q := fun _ _ _ => True) (.modify (fun _ => rfl) trivial)
    fun _ _ _ _ => .modify (fun _ => rfl) trivial

theorem settles_offlineCheck : Settles σ offlineCheck w k fun _ _ _ => True := by
  refine Settles.bind (Q := fun _ _ _ => True) ?_ fun _ w₁ k₁ _ => ?_
  · refine .get_bind (fun _ => rfl) (.ite (fun _ => ?_) fun _ => .pure trivial)
    refine settles_millis.bind fun now w₁ k₁ _ => .ite (fun _ => ?_) fun _ => .pure trivial
    exact Settles.bind (Q := fun _ _ _ => True) (.modify (fun _ => rfl) trivial)
      fun _ _ _ _ => settles_log _
  · exact .get_bind (fun _ => rfl) (settles_log _)

theorem settles_checks : Settles σ checks w k fun _ _ _ => True :=
  settles_syncController.bind fun _ _ _ _ => settles_offlineCheck

theorem settles_awaitHeader (hσ : Advances σ) :
    Settles σ awaitHeader w k fun _ _ _ => True := by
  refine settles_available.bind fun n w₁ k₁ _ => .ite (fun _ => ?_) fun _ => .pure trivial
  refine settles_peek.bind fun b w₂ k₂ _ => .ite (fun _ => ?_) fun _ => .pure trivial
  refine settles_stamp fun stamp i w₃ hclock => ?_
  obtain ⟨j, hij, hj⟩ := hσ.exists_due i
  exact (settles_headerWait hj (Nat.le_of_succ_le hij) hclock).bind fun _ _ _ _ => .pure trivial

theorem settles_acknowledgement (hσ : Advances σ) :
    Settles σ acknowledgement w k fun _ _ _ => True := by
  refine settles_read.bind fun _ w₁ k₁ _ => ?_
  refine settles_stamp fun stamp i w₂ hclock => ?_
  refine settles_byteLoop (μ := fun pointer => 4 - pointer) hσ ?take ?finish (Nat.le_succ i) hclock
  case take =>
    intro pointer byte w k
    refine Settles.bind (Q := fun _ w' k' => w'.clock = w.clock ∧ k' = k)
      (.modify (fun _ => rfl) ⟨rfl, rfl⟩) ?_
    rintro _ w' k' ⟨hclock, rfl⟩
    refine .pure ⟨hclock, rfl, ?_⟩
    rw [decide_eq_true_eq]
    omega
  case finish => exact fun _ w k => .get_bind (fun _ => rfl) (.pure trivial)

end Receiver

end Teensquitto
