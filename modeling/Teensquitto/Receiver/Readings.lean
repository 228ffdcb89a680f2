import Teensquitto.Receiver.Packets

/-!
# Readings at any time

Whatever the schedule, a reading of the clock or the port only lets bytes come in, and `read()`
takes the first byte of the stream.

## Main definitions

* `Drifts`: time passes and bytes come in

## Main results

* `ensures_millis`, `ensures_available`, `ensures_peek`, `ensures_read`: one reading
* `ensures_headerWait`: the wait for the header of a packet
-/

namespace Teensquitto

/-- Time passes and bytes come in: only clock and port change, and the stream does not. -/
structure Drifts (w w' : World) : Prop where
  own : w' = w.withPort w'.clock w'.ticks w'.rx
  stream : w'.stream = w.stream
  rx : w.rx <+: w'.rx

namespace Drifts

variable {w w' w'' : World}

theorem refl (w : World) : Drifts w w := ⟨rfl, rfl, List.prefix_rfl⟩

theorem trans (h : Drifts w w') (h' : Drifts w' w'') : Drifts w w'' where
  own := by
    rw [h'.own, h.own]
    rfl
  stream := h'.stream.trans h.stream
  rx := h.rx.trans h'.rx

theorem advance {t : Tick} {ticks : List Tick} (hticks : w.ticks = t :: ticks) :
    Drifts w (w.advance t ticks) where
  own := rfl
  stream := by
    rw [World.stream, World.stream, hticks, arrivals_cons, ← List.append_assoc]
    rfl
  rx := List.prefix_append _ _

end Drifts

/-! ## One reading -/

section Run

variable {w : World} {t : Tick} {ticks : List Tick} {E : Halt → World → Prop}

theorem ends_tick_cons {Q : Unit → World → Prop} (h : w.ticks = t :: ticks) :
    tick.Ends w Q E ↔ Q () (w.advance t ticks) := by
  unfold tick
  rw [EStateM.ends_bind, EStateM.ends_get]
  simp only [h]
  exact Iff.rfl

theorem ends_tick_nil {Q : Unit → World → Prop} (h : w.ticks = []) :
    tick.Ends w Q E ↔ E .exhausted w := by
  unfold tick
  rw [EStateM.ends_bind, EStateM.ends_get]
  simp only [h]
  exact Iff.rfl

theorem ends_millis_cons {Q : UInt32 → World → Prop} (h : w.ticks = t :: ticks) :
    millis.Ends w Q E ↔ Q (UInt32.ofNat (w.clock + t.elapsed)) (w.advance t ticks) := by
  unfold millis
  rw [EStateM.ends_bind, ends_tick_cons h]
  exact Iff.rfl

theorem ends_millis_nil {Q : UInt32 → World → Prop} (h : w.ticks = []) :
    millis.Ends w Q E ↔ E .exhausted w := by
  unfold millis
  rw [EStateM.ends_bind, ends_tick_nil h]

theorem ends_available_cons {Q : ℕ → World → Prop} (h : w.ticks = t :: ticks) :
    available.Ends w Q E ↔ Q (w.rx ++ t.arrived).length (w.advance t ticks) := by
  unfold available
  rw [EStateM.ends_bind, ends_tick_cons h]
  exact Iff.rfl

theorem ends_available_nil {Q : ℕ → World → Prop} (h : w.ticks = []) :
    available.Ends w Q E ↔ E .exhausted w := by
  unfold available
  rw [EStateM.ends_bind, ends_tick_nil h]

theorem ends_peek_cons {Q : Option UInt8 → World → Prop} (h : w.ticks = t :: ticks) :
    peek.Ends w Q E ↔ Q (w.rx ++ t.arrived).head? (w.advance t ticks) := by
  unfold peek
  rw [EStateM.ends_bind, ends_tick_cons h]
  exact Iff.rfl

theorem ends_read_cons {Q : Option UInt8 → World → Prop} (h : w.ticks = t :: ticks) :
    read.Ends w Q E ↔ Q (w.rx ++ t.arrived).head?
      (w.withPort (w.clock + t.elapsed) ticks (w.rx ++ t.arrived).tail) := by
  unfold read
  rw [EStateM.ends_bind, ends_tick_cons h]
  exact Iff.rfl

theorem ends_read_nil {Q : Option UInt8 → World → Prop} (h : w.ticks = []) :
    read.Ends w Q E ↔ E .exhausted w := by
  unfold read
  rw [EStateM.ends_bind, ends_tick_nil h]

/-- A reading lets time pass, or there is none left. -/
theorem ends_tick_of {Q : Unit → World → Prop}
    (hQ : ∀ t ticks, w.ticks = t :: ticks → Q () (w.advance t ticks)) (hE : E .exhausted w) :
    tick.Ends w Q E := by
  cases hticks : w.ticks with
  | nil => exact (ends_tick_nil hticks).mpr hE
  | cons t ticks => exact (ends_tick_cons hticks).mpr (hQ t ticks hticks)

theorem ends_millis_of {Q : UInt32 → World → Prop}
    (hQ : ∀ now t ticks, w.ticks = t :: ticks → Q now (w.advance t ticks)) (hE : E .exhausted w) :
    millis.Ends w Q E :=
  (EStateM.ends_bind _ _).mpr (ends_tick_of (fun t ticks hticks => hQ _ t ticks hticks) hE)

theorem ends_available_of {Q : ℕ → World → Prop}
    (hQ : ∀ n t ticks, w.ticks = t :: ticks → Q n (w.advance t ticks)) (hE : E .exhausted w) :
    available.Ends w Q E :=
  (EStateM.ends_bind _ _).mpr (ends_tick_of (fun t ticks hticks => hQ _ t ticks hticks) hE)

theorem ends_read_of {Q : Option UInt8 → World → Prop}
    (hQ : ∀ b t ticks rx, w.ticks = t :: ticks →
      Q b (w.withPort (w.clock + t.elapsed) ticks rx)) (hE : E .exhausted w) :
    read.Ends w Q E :=
  (EStateM.ends_bind _ _).mpr (ends_tick_of (fun t ticks hticks => hQ _ t ticks _ hticks) hE)

end Run

section Readings

variable (w : World)

theorem ensures_tick : tick.Ensures w fun _ w' => Drifts w w' := by
  cases hticks : w.ticks with
  | nil =>
    rw [EStateM.Ensures, ends_tick_nil hticks]
    trivial
  | cons t ticks =>
    rw [EStateM.Ensures, ends_tick_cons hticks]
    exact Drifts.advance hticks

theorem ensures_millis : millis.Ensures w fun _ w' => Drifts w w' :=
  (ensures_tick w).bind fun _ _ h => h

theorem ensures_available : available.Ensures w fun n w' => Drifts w w' ∧ n = w'.rx.length :=
  (ensures_tick w).bind fun _ _ h => ⟨h, rfl⟩

theorem ensures_peek : peek.Ensures w fun b w' => Drifts w w' ∧ b = w'.rx.head? :=
  (ensures_tick w).bind fun _ _ h => ⟨h, rfl⟩

/-- `read()` takes the first byte of the stream, or finds none in the port. -/
theorem ensures_read : read.Ensures w fun b w' =>
    w' = w.withPort w'.clock w'.ticks w'.rx ∧
      ((b = none ∧ w.rx = [] ∧ w'.stream = w.stream) ∨
        ∃ x, b = some x ∧ w.stream = x :: w'.stream) := by
  refine (ensures_tick w).bind fun _ w₁ h => ?_
  rw [EStateM.Ensures, EStateM.ends_bind, EStateM.ends_get, EStateM.ends_bind, EStateM.ends_set]
  refine ⟨?_, ?_⟩
  · rw [h.own]
    rfl
  · cases hrx : w₁.rx with
    | nil =>
      refine .inl ⟨rfl, List.prefix_nil.mp (hrx ▸ h.rx), ?_⟩
      rw [← h.stream, World.stream, World.stream, hrx]
      rfl
    | cons x l =>
      refine .inr ⟨x, rfl, ?_⟩
      rw [← h.stream, World.stream, hrx]
      rfl

/-- With a byte in the port, `read()` takes it. -/
theorem ensures_read_of_ne_nil (h : w.rx ≠ []) : read.Ensures w fun b w' =>
    w' = w.withPort w'.clock w'.ticks w'.rx ∧ ∃ x, b = some x ∧ w.stream = x :: w'.stream := by
  refine (ensures_read w).mono ?_
  rintro b w' ⟨hown, ⟨-, hnil, -⟩ | hread⟩
  · exact absurd hnil h
  · exact ⟨hown, hread⟩

end Readings

/-! ## The wait for a header -/

theorem ensures_headerWait (timeout : UInt32) (w : World) :
    (headerWait timeout).Ensures w fun _ w' => Drifts w w' := by
  unfold headerWait loop
  rw [EStateM.Ensures, EStateM.ends_bind, EStateM.ends_get]
  refine EStateM.Ensures.iterate (I := fun _ s => Drifts w s) ?_ _ (Drifts.refl w)
  rintro ⟨⟩ s hs
  refine (ensures_millis s).bind fun now s₁ h₁ => ?_
  rw [EStateM.Ensures, EStateM.ends_ite]
  split
  · refine (ensures_available s₁).bind ?_
    rintro n s₂ ⟨h₂, -⟩
    rw [EStateM.Ensures, EStateM.ends_ite]
    split
    · exact (hs.trans h₁).trans h₂
    · exact (hs.trans h₁).trans h₂
  · exact hs.trans h₁

end Teensquitto
