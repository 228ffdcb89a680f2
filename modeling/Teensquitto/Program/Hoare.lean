import Mathlib.Order.Defs.Unbundled
import Mathlib.Tactic.Common

/-!
# Postconditions of stateful programs

A program of `EStateM ε σ` started in a state returns a value or stops for a reason, and
in both cases leaves a state.  `Ends` is the judgement about both outcomes; its rules
follow the program text.  `Along` is the special case of a relation between the state
before and the state after.

## Main definitions

* `EStateM.Ends`: where a program ends when it is started in a given state
* `EStateM.Returns`: the case of a program that returns
* `EStateM.Ensures`: the case of a program that may stop
* `EStateM.Along`: every run moves the state along a relation
* `EStateM.iterate`: a loop with a bound on its rounds

## Main results

* `EStateM.ends_bind`: the rule of sequencing
* `EStateM.Ends.iterate`, `EStateM.Ends.iterate_of_lt`: the rules of loops
* `EStateM.Along.bind`, `EStateM.Along.iterate`: a preorder is followed by sequences and loops
-/

namespace EStateM

variable {ε σ α β γ : Type}

/-- Started in `s`, the program returns within `Q` or stops within `E`. -/
def Ends (m : EStateM ε σ α) (s : σ) (Q : α → σ → Prop) (E : ε → σ → Prop) : Prop :=
  match m.run s with
  | .ok a s' => Q a s'
  | .error e s' => E e s'

instance {m : EStateM ε σ α} {s : σ} {Q : α → σ → Prop} {E : ε → σ → Prop}
    [∀ a s', Decidable (Q a s')] [∀ e s', Decidable (E e s')] : Decidable (m.Ends s Q E) :=
  match h : m.run s with
  | .ok a s' => decidable_of_iff (Q a s') (by unfold Ends; rw [h])
  | .error e s' => decidable_of_iff (E e s') (by unfold Ends; rw [h])

section Rules

variable {s : σ} {Q Q' : α → σ → Prop} {R : β → σ → Prop} {E E' : ε → σ → Prop}

@[simp] theorem ends_pure (a : α) : (pure a : EStateM ε σ α).Ends s Q E ↔ Q a s := Iff.rfl

@[simp] theorem ends_throw (e : ε) : (throw e : EStateM ε σ α).Ends s Q E ↔ E e s := Iff.rfl

@[simp] theorem ends_get {Q : σ → σ → Prop} : (get : EStateM ε σ σ).Ends s Q E ↔ Q s s := Iff.rfl

@[simp] theorem ends_set {Q : PUnit → σ → Prop} (s' : σ) :
    (set s' : EStateM ε σ PUnit).Ends s Q E ↔ Q ⟨⟩ s' := Iff.rfl

@[simp] theorem ends_modify {Q : PUnit → σ → Prop} (f : σ → σ) :
    (modify f : EStateM ε σ PUnit).Ends s Q E ↔ Q ⟨⟩ (f s) := Iff.rfl

/-- A sequence ends where its second part ends. -/
@[simp] theorem ends_bind (m : EStateM ε σ α) (f : α → EStateM ε σ β) :
    (m >>= f).Ends s R E ↔ m.Ends s (fun a s' => (f a).Ends s' R E) E := by
  simp only [Ends, run_bind]
  cases m.run s with
  | ok a s' => rfl
  | error e s' => rfl

@[simp] theorem ends_map (m : EStateM ε σ α) (f : α → β) :
    (f <$> m).Ends s R E ↔ m.Ends s (fun a s' => R (f a) s') E := by
  rw [← bind_pure_comp, ends_bind]
  rfl

theorem ends_ite (c : Prop) [Decidable c] (m m' : EStateM ε σ α) :
    (if c then m else m').Ends s Q E ↔ if c then m.Ends s Q E else m'.Ends s Q E := by
  split <;> rfl

theorem Ends.mono {m : EStateM ε σ α} (h : m.Ends s Q E) (hQ : ∀ a s', Q a s' → Q' a s')
    (hE : ∀ e s', E e s' → E' e s') : m.Ends s Q' E' := by
  unfold Ends at h ⊢
  cases hrun : m.run s with
  | ok a s' => rw [hrun] at h; exact hQ a s' h
  | error e s' => rw [hrun] at h; exact hE e s' h

theorem Ends.bind {m : EStateM ε σ α} {f : α → EStateM ε σ β} (h : m.Ends s Q E)
    (hf : ∀ a s', Q a s' → (f a).Ends s' R E) : (m >>= f).Ends s R E := by
  rw [ends_bind]
  exact h.mono hf fun _ _ he => he

/-- What the second part of a sequence ensures from every state, the sequence ensures. -/
theorem Ends.bind_of_forall {m : EStateM ε σ α} {f : α → EStateM ε σ β}
    (hf : ∀ a s', (f a).Ends s' R E) (hE : ∀ e s', E e s') : (m >>= f).Ends s R E := by
  rw [ends_bind]
  unfold Ends
  cases m.run s with
  | ok a s' => exact hf a s'
  | error e s' => exact hE e s'

theorem Ends.and {m : EStateM ε σ α} (h : m.Ends s Q E) (h' : m.Ends s Q' E') :
    m.Ends s (fun a s' => Q a s' ∧ Q' a s') (fun e s' => E e s' ∧ E' e s') := by
  unfold Ends at h h' ⊢
  cases hrun : m.run s with
  | ok a s' => rw [hrun] at h h'; exact ⟨h, h'⟩
  | error e s' => rw [hrun] at h h'; exact ⟨h, h'⟩

theorem ends_congr {m m' : EStateM ε σ α} (h : m.run s = m'.run s) :
    m.Ends s Q E ↔ m'.Ends s Q E := by
  unfold Ends
  rw [h]

theorem ends_of_ok {m : EStateM ε σ α} {a : α} {s' : σ} (hrun : m.run s = .ok a s') :
    m.Ends s Q E ↔ Q a s' := by
  unfold Ends
  rw [hrun]

theorem ends_of_error {m : EStateM ε σ α} {e : ε} {s' : σ} (hrun : m.run s = .error e s') :
    m.Ends s Q E ↔ E e s' := by
  unfold Ends
  rw [hrun]

theorem Ends.of_ok {m : EStateM ε σ α} (h : m.Ends s Q E) {a : α} {s' : σ}
    (hrun : m.run s = .ok a s') : Q a s' :=
  (ends_of_ok hrun).mp h

theorem Ends.of_error {m : EStateM ε σ α} (h : m.Ends s Q E) {e : ε} {s' : σ}
    (hrun : m.run s = .error e s') : E e s' :=
  (ends_of_error hrun).mp h

/-- A program that ends as another one does runs as it does. -/
theorem run_eq_of_ends {m m' : EStateM ε σ α} {s s' : σ}
    (h : ∀ Q E, m'.Ends s' Q E → m.Ends s Q E) : m.run s = m'.run s' := by
  have hends := h (fun a t => m'.run s' = .ok a t) (fun e t => m'.run s' = .error e t) <| by
    unfold Ends
    cases hrun : m'.run s' with
    | ok a t => rfl
    | error e t => rfl
  unfold Ends at hends
  cases hrun : m.run s with
  | ok a t =>
    rw [hrun] at hends
    exact hends.symm
  | error e t =>
    rw [hrun] at hends
    exact hends.symm

/-- A program leaves some state, whether it returns or stops. -/
theorem Ends.exists_final {m : EStateM ε σ α} {P : σ → Prop}
    (h : m.Ends s (fun _ => P) fun _ => P) : ∃ s', P s' := by
  unfold Ends at h
  cases hrun : m.run s with
  | ok a s' => rw [hrun] at h; exact ⟨s', h⟩
  | error e s' => rw [hrun] at h; exact ⟨s', h⟩

end Rules

/-! ## Loops -/

/-- Repeat `body` until it returns on the right, for at most `n` rounds; after the last
round the loop stops as `exhausted` does. -/
def iterate (exhausted : EStateM ε σ γ) (body : β → EStateM ε σ (β ⊕ γ)) :
    ℕ → β → EStateM ε σ γ
  | 0, _ => exhausted
  | n + 1, b => do
    match ← body b with
    | .inl b' => iterate exhausted body n b'
    | .inr c => pure c

theorem iterate_succ (exhausted : EStateM ε σ γ) (body : β → EStateM ε σ (β ⊕ γ)) (n : ℕ)
    (b : β) : iterate exhausted body (n + 1) b =
      body b >>= Sum.elim (iterate exhausted body n) pure := by
  rw [iterate]
  congr 1
  funext r
  cases r <;> rfl

/-- Two loops whose rounds agree up to a translation of what is passed on and returned. -/
theorem iterate_map {β' γ' : Type} {e : ε} {body : β → EStateM ε σ (β ⊕ γ)}
    {body' : β' → EStateM ε σ (β' ⊕ γ')} (f : β' → β) (g : γ' → γ)
    (h : ∀ b, body (f b) = Sum.map f g <$> body' b) (n : ℕ) (b : β') :
    iterate (throw e) body n (f b) = g <$> iterate (throw e) body' n b := by
  induction n generalizing b with
  | zero => rfl
  | succ n ih =>
    rw [iterate_succ, iterate_succ, h, bind_map_left, map_bind]
    congr 1
    funext r
    cases r with
    | inl b' => exact ih b'
    | inr c => rfl

/-- A loop ends within `Q` when every round keeps the invariant or ends within `Q`. -/
theorem Ends.iterate {exhausted : EStateM ε σ γ} {body : β → EStateM ε σ (β ⊕ γ)}
    {I : β → σ → Prop} {Q : γ → σ → Prop} {E : ε → σ → Prop}
    (hbody : ∀ b s, I b s → (body b).Ends s (fun r s' => r.elim (I · s') (Q · s')) E)
    (hstop : ∀ b s, I b s → exhausted.Ends s Q E) (n : ℕ) {b : β} {s : σ} (h : I b s) :
    (EStateM.iterate exhausted body n b).Ends s Q E := by
  induction n generalizing b s with
  | zero => exact hstop b s h
  | succ n ih =>
    rw [iterate_succ]
    refine (hbody b s h).bind fun r s' hr => ?_
    cases r with
    | inl b' => exact ih hr
    | inr c => exact hr

/-- A loop whose rounds lower a measure of the state ends before its bound is reached. -/
theorem Ends.iterate_of_lt {exhausted : EStateM ε σ γ} {body : β → EStateM ε σ (β ⊕ γ)}
    {I : β → σ → Prop} {μ : σ → ℕ} {Q : γ → σ → Prop} {E : ε → σ → Prop}
    (hbody : ∀ b s, I b s →
      (body b).Ends s (fun r s' => r.elim (fun b' => I b' s' ∧ μ s' < μ s) (Q · s')) E)
    {n : ℕ} {b : β} {s : σ} (h : I b s) (hn : μ s < n) :
    (EStateM.iterate exhausted body n b).Ends s Q E := by
  induction n generalizing b s with
  | zero => exact absurd hn (Nat.not_lt_zero _)
  | succ n ih =>
    rw [iterate_succ]
    refine (hbody b s h).bind fun r s' hr => ?_
    cases r with
    | inl b' => exact ih hr.1 (Nat.lt_of_lt_of_le hr.2 (Nat.le_of_lt_succ hn))
    | inr c => exact hr

/-! ## Runs that return -/

/-- Started in `s`, the program returns within `Q`. -/
abbrev Returns (m : EStateM ε σ α) (s : σ) (Q : α → σ → Prop) : Prop :=
  m.Ends s Q fun _ _ => False

section Returns

variable {s : σ} {Q Q' : α → σ → Prop} {R : β → σ → Prop}

theorem Returns.mono {m : EStateM ε σ α} (h : m.Returns s Q) (hQ : ∀ a s', Q a s' → Q' a s') :
    m.Returns s Q' :=
  Ends.mono h hQ fun _ _ he => he

theorem Returns.exists_ok {m : EStateM ε σ α} (h : m.Returns s Q) :
    ∃ a s', m.run s = .ok a s' ∧ Q a s' := by
  unfold Returns Ends at h
  cases hrun : m.run s with
  | ok a s' => rw [hrun] at h; exact ⟨a, s', rfl, h⟩
  | error e s' => rw [hrun] at h; exact h.elim

end Returns

/-! ## Programs that may stop -/

/-- If the program returns, it does so within `Q`. -/
abbrev Ensures (m : EStateM ε σ α) (s : σ) (Q : α → σ → Prop) : Prop :=
  m.Ends s Q fun _ _ => True

section Ensures

variable {s : σ} {Q Q' : α → σ → Prop} {R : β → σ → Prop}

theorem Ensures.mono {m : EStateM ε σ α} (h : m.Ensures s Q) (hQ : ∀ a s', Q a s' → Q' a s') :
    m.Ensures s Q' :=
  Ends.mono h hQ fun _ _ he => he

theorem Ensures.bind {m : EStateM ε σ α} {f : α → EStateM ε σ β} (h : m.Ensures s Q)
    (hf : ∀ a s', Q a s' → (f a).Ensures s' R) : (m >>= f).Ensures s R :=
  Ends.bind h hf

/-- A program does not return within what it excludes. -/
theorem Ensures.not_returns {m : EStateM ε σ α} (h : m.Ensures s fun a s' => ¬Q a s') :
    ¬m.Returns s Q := by
  intro hreturns
  obtain ⟨a, s', hrun, ha⟩ := hreturns.exists_ok
  exact h.of_ok hrun ha

/-- A loop keeps its invariant until it returns. -/
theorem Ensures.iterate {e : ε} {body : β → EStateM ε σ (β ⊕ γ)} {I : β → σ → Prop}
    {Q : γ → σ → Prop}
    (hbody : ∀ b s, I b s → (body b).Ensures s fun r s' => r.elim (I · s') (Q · s'))
    (n : ℕ) {b : β} {s : σ} (h : I b s) :
    (EStateM.iterate (throw e) body n b).Ensures s Q :=
  Ends.iterate hbody (fun _ _ _ => (ends_throw e).mpr trivial) n h

end Ensures

/-! ## Relations between the state before and after -/

/-- Every run, also one that stops, moves the state along `R`. -/
def Along (R : σ → σ → Prop) (m : EStateM ε σ α) : Prop :=
  ∀ s, m.Ends s (fun _ s' => R s s') (fun _ s' => R s s')

section Along

variable {R : σ → σ → Prop}

theorem Along.modify {f : σ → σ} (h : ∀ s, R s (f s)) :
    (modify f : EStateM ε σ PUnit).Along R := fun s => h s

/-- A program that reads the state first may be judged at that state. -/
theorem Along.get_bind {f : σ → EStateM ε σ α}
    (h : ∀ s, (f s).Ends s (fun _ s' => R s s') (fun _ s' => R s s')) :
    (MonadState.get >>= f).Along R := h

theorem Along.ite {c : Prop} [Decidable c] {m m' : EStateM ε σ α} (h : m.Along R)
    (h' : m'.Along R) : (if c then m else m').Along R := by
  split
  · exact h
  · exact h'

variable [IsPreorder σ R]

theorem Along.pure (a : α) : (pure a : EStateM ε σ α).Along R := fun s => refl_of R s

theorem Along.throw (e : ε) : (throw e : EStateM ε σ α).Along R := fun s => refl_of R s

theorem Along.get : (get : EStateM ε σ σ).Along R := fun s => refl_of R s

theorem Along.bind {m : EStateM ε σ α} {f : α → EStateM ε σ β} (h : m.Along R)
    (hf : ∀ a, (f a).Along R) : (m >>= f).Along R := by
  intro s
  rw [ends_bind]
  refine (h s).mono (fun a s₁ h₁ => ?_) fun _ _ h₁ => h₁
  exact (hf a s₁).mono (fun _ _ h₂ => trans_of R h₁ h₂) fun _ _ h₂ => trans_of R h₁ h₂

theorem Along.map {m : EStateM ε σ α} (f : α → β) (h : m.Along R) : (f <$> m).Along R := by
  rw [← bind_pure_comp]
  exact h.bind fun a => Along.pure (f a)

theorem Along.iterate {exhausted : EStateM ε σ γ} {body : β → EStateM ε σ (β ⊕ γ)}
    (hstop : exhausted.Along R) (hbody : ∀ b, (body b).Along R) (n : ℕ) (b : β) :
    (EStateM.iterate exhausted body n b).Along R := by
  induction n generalizing b with
  | zero => exact hstop
  | succ n ih =>
    rw [iterate_succ]
    refine (hbody b).bind fun r => ?_
    cases r with
    | inl b' => exact ih b'
    | inr c => exact Along.pure c

end Along

end EStateM
