import Teensquitto.Program.Hoare
import Mathlib.Data.Sum.Basic

/-!
# Programs run in a state and in its image

Two programs are run, one in a state and one in the image of this state under a map.  The second
run mirrors the first when it returns a related value, or stops for the same reason, and ends in
the image of the state that the first ends in.

## Main definitions

* `EStateM.Mirrors`: the relation of two programs

## Main results

* `EStateM.Mirrors.bind`, `EStateM.Mirrors.iterate`: sequences and loops
* `EStateM.Mirrors.forM`, `EStateM.Mirrors.mapM`: a program for every element of a list
-/

namespace EStateM

variable {ε σ α β γ α' β' γ' : Type} {f : σ → σ}

/-- Run in the image of a state, `q` mirrors what `p` does in the state. -/
def Mirrors (f : σ → σ) (R : α → α' → Prop) (p : EStateM ε σ α) (q : EStateM ε σ α') : Prop :=
  ∀ s, p.Ends s (fun a s' => ∃ a', q.run (f s) = .ok a' (f s') ∧ R a a')
    fun e s' => q.run (f s) = .error e (f s')

section Rules

variable {R : α → α' → Prop} {S : β → β' → Prop} {T : γ → γ' → Prop}

theorem Mirrors.pure {a : α} {a' : α'} (h : R a a') :
    Mirrors f R (pure a : EStateM ε σ α) (pure a') :=
  fun _ => ⟨a', rfl, h⟩

theorem Mirrors.throw (e : ε) : Mirrors f R (throw e : EStateM ε σ α) (throw e) := fun _ => rfl

theorem Mirrors.bind {p : EStateM ε σ α} {q : EStateM ε σ α'} {g : α → EStateM ε σ β}
    {k : α' → EStateM ε σ β'} (h : Mirrors f R p q)
    (hg : ∀ a a', R a a' → Mirrors f S (g a) (k a')) : Mirrors f S (p >>= g) (q >>= k) := by
  intro s
  rw [ends_bind]
  refine (h s).mono (fun a s' ha => ?_) fun e s' he => ?_
  · obtain ⟨a', hrun, ha⟩ := ha
    rw [run_bind, hrun]
    exact hg a a' ha s'
  · rw [run_bind, he]

/-- The first parts return the same value. -/
theorem Mirrors.bind_eq {p q : EStateM ε σ α} {g : α → EStateM ε σ β} {k : α → EStateM ε σ β'}
    (h : Mirrors f Eq p q) (hg : ∀ a, Mirrors f S (g a) (k a)) :
    Mirrors f S (p >>= g) (q >>= k) := by
  refine h.bind ?_
  rintro a _ rfl
  exact hg a

/-- The programs read the state, and its image. -/
theorem Mirrors.get_bind {g : σ → EStateM ε σ β} {k : σ → EStateM ε σ β'}
    (h : ∀ s, Mirrors f S (g s) (k (f s))) :
    Mirrors f S (MonadState.get >>= g) (MonadState.get >>= k) :=
  fun s => h s s

theorem Mirrors.modify {m m' : σ → σ} (h : ∀ s, m' (f s) = f (m s)) :
    Mirrors f Eq (modify m : EStateM ε σ PUnit) (modify m') := by
  intro s
  refine ⟨⟨⟩, ?_, rfl⟩
  rw [run_modify, h]

theorem Mirrors.set {t t' : σ} (h : t' = f t) :
    Mirrors f Eq (set t : EStateM ε σ PUnit) (set t') := by
  subst h
  exact fun _ => ⟨⟨⟩, rfl, rfl⟩

theorem Mirrors.ite {c c' : Prop} [Decidable c] [Decidable c'] {p p' : EStateM ε σ α}
    {q q' : EStateM ε σ α'} (hc : c' ↔ c) (h : Mirrors f R p q) (h' : Mirrors f R p' q') :
    Mirrors f R (if c then p else p') (if c' then q else q') := by
  by_cases hp : c
  · rw [if_pos hp, if_pos (hc.mpr hp)]
    exact h
  · rw [if_neg hp, if_neg (mt hc.mp hp)]
    exact h'

/-- Rounds that mirror each other make loops that do. -/
theorem Mirrors.iterate {exhausted : EStateM ε σ γ} {exhausted' : EStateM ε σ γ'}
    {body : β → EStateM ε σ (β ⊕ γ)} {body' : β' → EStateM ε σ (β' ⊕ γ')}
    (hstop : Mirrors f T exhausted exhausted')
    (hbody : ∀ b b', S b b' → Mirrors f (Sum.LiftRel S T) (body b) (body' b')) (n : ℕ) {b : β}
    {b' : β'} (h : S b b') :
    Mirrors f T (EStateM.iterate exhausted body n b) (EStateM.iterate exhausted' body' n b') := by
  induction n generalizing b b' with
  | zero => exact hstop
  | succ n ih =>
    rw [iterate_succ, iterate_succ]
    refine (hbody b b' h).bind fun r r' hr => ?_
    cases hr with
    | inl hb => exact ih hb
    | inr hc => exact .pure hc

theorem Mirrors.forM {p q : β → EStateM ε σ PUnit} (h : ∀ b, Mirrors f Eq (p b) (q b))
    (l : List β) : Mirrors f Eq (l.forM p) (l.forM q) := by
  induction l with
  | nil => exact .pure rfl
  | cons b l ih => exact (h b).bind_eq fun _ => ih

theorem Mirrors.mapM {p q : β → EStateM ε σ α} (h : ∀ b, Mirrors f Eq (p b) (q b))
    (l : List β) : Mirrors f Eq (l.mapM p) (l.mapM q) := by
  induction l with
  | nil => exact .pure rfl
  | cons b l ih =>
    rw [List.mapM_cons, List.mapM_cons]
    exact (h b).bind_eq fun a => ih.bind_eq fun as => .pure rfl

end Rules

end EStateM
