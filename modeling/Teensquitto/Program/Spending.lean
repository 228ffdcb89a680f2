import Teensquitto.Program.Hoare

/-!
# Programs that spend from a budget

A budget says of a state that so many units are left, in each of a family of accounts.  A program
that spends at most `b` units leaves `n` of the units `n + b` it finds, whichever account they are
in, and does not stop for lack of them.

## Main definitions

* `EStateM.IsBudget`: whoever has units left has fewer left
* `EStateM.Spends`: a program spends at most so many units

## Main results

* `EStateM.Spends.bind`, `EStateM.Spends.forM`, `EStateM.Spends.mapM`: what sequences spend
-/

namespace EStateM

variable {ε σ ι α β γ : Type}

/-- Whoever has units left has fewer left. -/
class IsBudget (P : ι → ℕ → σ → Prop) : Prop where
  le : ∀ {i m n s}, P i n s → m ≤ n → P i m s

/-- The program spends at most `b` units, and stops only as `E` says. -/
def Spends (P : ι → ℕ → σ → Prop) (E : ε → σ → Prop) (m : EStateM ε σ α) (b : ℕ) : Prop :=
  ∀ i n s, P i (n + b) s → m.Ends s (fun _ => P i n) E

variable {P : ι → ℕ → σ → Prop} {E : ε → σ → Prop}

namespace Spends

theorem throw {e : ε} (h : ∀ s, E e s) (b : ℕ) : Spends P E (throw e : EStateM ε σ α) b :=
  fun _ _ s _ => h s

/-- A change of the state that no account notices. -/
theorem modify {f : σ → σ} (h : ∀ i n s, P i n s → P i n (f s)) :
    Spends P E (modify f : EStateM ε σ PUnit) 0 :=
  fun i n s hs => h i n s hs

/-- A program that reads the state may spend as much as from any state it reads. -/
theorem get_bind {f : σ → EStateM ε σ α} {b : ℕ} (h : ∀ s, Spends P E (f s) b) :
    Spends P E (MonadState.get >>= f) b :=
  fun i n s hs => h s i n s hs

theorem ite {c : Prop} [Decidable c] {m m' : EStateM ε σ α} {b : ℕ} (h : c → Spends P E m b)
    (h' : ¬c → Spends P E m' b) : Spends P E (if c then m else m') b := by
  by_cases hc : c
  · rw [if_pos hc]
    exact h hc
  · rw [if_neg hc]
    exact h' hc

theorem bind {m : EStateM ε σ α} {f : α → EStateM ε σ β} {b b' : ℕ} (h : Spends P E m b)
    (hf : ∀ a, Spends P E (f a) b') : Spends P E (m >>= f) (b + b') := by
  intro i n s hs
  rw [Nat.add_comm b, ← Nat.add_assoc] at hs
  exact (h i (n + b') s hs).bind fun a s' hs' => hf a i n s' hs'

/-- The first part spends nothing. -/
theorem free_bind {m : EStateM ε σ α} {f : α → EStateM ε σ β} {b : ℕ} (h : Spends P E m 0)
    (hf : ∀ a, Spends P E (f a) b) : Spends P E (m >>= f) b := by
  rw [← Nat.zero_add b]
  exact h.bind hf

/-- The second part spends nothing. -/
theorem bind_free {m : EStateM ε σ α} {f : α → EStateM ε σ β} {b : ℕ} (h : Spends P E m b)
    (hf : ∀ a, Spends P E (f a) 0) : Spends P E (m >>= f) b :=
  h.bind hf

variable [IsBudget P]

theorem mono {m : EStateM ε σ α} {b b' : ℕ} (h : Spends P E m b) (hle : b ≤ b') :
    Spends P E m b' :=
  fun i n s hs => h i n s (IsBudget.le hs (Nat.add_le_add_left hle n))

theorem pure (a : α) (b : ℕ) : Spends P E (pure a : EStateM ε σ α) b :=
  fun _ n _ hs => IsBudget.le hs (Nat.le_add_right n b)

theorem map {m : EStateM ε σ α} {b : ℕ} (f : α → β) (h : Spends P E m b) :
    Spends P E (f <$> m) b := by
  rw [← bind_pure_comp]
  exact h.bind_free fun a => pure (f a) 0

/-- A sequence spends for each of its elements. -/
theorem forM {f : α → EStateM ε σ PUnit} {b : ℕ} {l : List α} (h : ∀ a ∈ l, Spends P E (f a) b) :
    Spends P E (l.forM f) (l.length * b) := by
  induction l with
  | nil => exact pure _ _
  | cons a l ih =>
    refine ((h a List.mem_cons_self).bind fun _ =>
      ih fun a' ha' => h a' (List.mem_cons_of_mem a ha')).mono (Nat.le_of_eq ?_)
    rw [List.length_cons, Nat.succ_mul, Nat.add_comm]

theorem mapM {f : α → EStateM ε σ β} {b : ℕ} {l : List α} (h : ∀ a ∈ l, Spends P E (f a) b) :
    Spends P E (l.mapM f) (l.length * b) := by
  induction l with
  | nil => exact pure _ _
  | cons a l ih =>
    rw [List.mapM_cons]
    have hrest := ih fun a' ha' => h a' (List.mem_cons_of_mem a ha')
    have hall := (h a List.mem_cons_self).bind fun b' => hrest.bind_free fun l' => pure (b' :: l') 0
    refine hall.mono (Nat.le_of_eq ?_)
    rw [List.length_cons, Nat.succ_mul, Nat.add_comm]

end Spends

end EStateM
