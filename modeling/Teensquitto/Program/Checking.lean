import Teensquitto.Program.Hoare

/-!
# Programs with checks

A program is compared with the same program under additional checks, which stop it.  Where the
checked program returns, the program itself returns the same.

## Main definitions

* `EStateM.Checks`: a checked program and the program it checks

## Main results

* `EStateM.Checks.bind`, `EStateM.Checks.iterate`: checked sequences and loops
-/

namespace EStateM

variable {ε σ α β γ : Type}

/-- Where the checked program `m` returns, `m'` returns the same. -/
def Checks (m m' : EStateM ε σ α) : Prop :=
  ∀ s a s', m.run s = .ok a s' → m'.run s = .ok a s'

namespace Checks

theorem refl (m : EStateM ε σ α) : m.Checks m := fun _ _ _ h => h

/-- A check that fails. -/
theorem throw (e : ε) (m : EStateM ε σ α) : (throw e : EStateM ε σ α).Checks m := by
  rintro s a s' ⟨⟩

theorem bind {m m' : EStateM ε σ α} {f f' : α → EStateM ε σ β} (h : m.Checks m')
    (hf : ∀ a, (f a).Checks (f' a)) : (m >>= f).Checks (m' >>= f') := by
  intro s b s₂ hrun
  rw [run_bind] at hrun ⊢
  cases hm : m.run s with
  | error e s₁ =>
    rw [hm] at hrun
    cases hrun
  | ok a s₁ =>
    rw [hm] at hrun
    rw [h s a s₁ hm]
    exact hf a s₁ b s₂ hrun

theorem ite {c : Prop} [Decidable c] {m m' n n' : EStateM ε σ α} (h : m.Checks n)
    (h' : m'.Checks n') : (if c then m else m').Checks (if c then n else n') := by
  split
  · exact h
  · exact h'

/-- A check before a program. -/
theorem guard {c : Prop} [Decidable c] {m n : EStateM ε σ α} {e : ε} (h : m.Checks n) :
    (if c then m else MonadExcept.throw e).Checks n := by
  split
  · exact h
  · exact throw e n

/-- A checked program that returns shows what the program returns. -/
theorem returns {m m' : EStateM ε σ α} (h : m.Checks m') {s : σ} {Q : α → σ → Prop}
    (hm : m.Returns s Q) : m.Returns s fun a s' => m'.run s = .ok a s' := by
  obtain ⟨a, s', hrun, -⟩ := hm.exists_ok
  exact (ends_of_ok hrun).mpr (h s a s' hrun)

theorem iterate {exhausted : EStateM ε σ γ} {body body' : β → EStateM ε σ (β ⊕ γ)}
    (h : ∀ b, (body b).Checks (body' b)) (n : ℕ) (b : β) :
    (EStateM.iterate exhausted body n b).Checks (EStateM.iterate exhausted body' n b) := by
  induction n generalizing b with
  | zero => exact refl exhausted
  | succ n ih =>
    rw [iterate_succ, iterate_succ]
    refine (h b).bind fun r => ?_
    cases r with
    | inl b' => exact ih b'
    | inr c => exact refl _

end Checks

end EStateM
