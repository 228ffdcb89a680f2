import Mathlib.Logic.Relation
import Teensquitto.Program.Hoare

/-!
# Programs that change their state in single steps

When every run of a program is a sequence of single changes, what each change keeps the program
keeps.  Some changes are possible only from states with a property that no change takes away; a
program whose runs start there may make them as well.

## Main definitions

* `EStateM.Preserves`: every change keeps a property of the state
* `EStateM.Given`: a sequence of changes, from states with a property

## Main results

* `EStateM.Along.keeps`: the rule of invariants
* `EStateM.Preserves.imp`: properties that are kept as long as another one is not lost
* `EStateM.Along.of_given`: a property that holds at the start need not be carried along
-/

namespace EStateM

open Relation

variable {ε σ α : Type} {r R R' : σ → σ → Prop} {P Q : σ → Prop} {m : EStateM ε σ α} {s s' : σ}

theorem Along.mono (h : m.Along R) (hR : ∀ s s', R s s' → R' s s') : m.Along R' := fun s =>
  (h s).mono (fun _ s' => hR s s') fun _ s' => hR s s'

/-- Every change keeps the property. -/
def Preserves (r : σ → σ → Prop) (P : σ → Prop) : Prop := ∀ s s', r s s' → P s → P s'

namespace Preserves

/-- What one change keeps, all changes keep. -/
theorem steps (h : Preserves r P) (hr : ReflTransGen r s s') (hs : P s) : P s' := by
  induction hr with
  | refl => exact hs
  | tail _ hstep ih => exact h _ _ hstep ih

theorem and (h : Preserves r P) (h' : Preserves r Q) : Preserves r fun s => P s ∧ Q s :=
  fun s s' hr hs => ⟨h s s' hr hs.1, h' s s' hr hs.2⟩

/-- A property that is kept as long as another one holds behind the change, when that one cannot
begin to hold. -/
theorem imp (hback : ∀ s s', r s s' → P s' → P s) (h : ∀ s s', r s s' → P s' → Q s → Q s') :
    Preserves r fun s => P s → Q s :=
  fun s s' hr hs hP => h s s' hr hP (hs (hback s s' hr hP))

end Preserves

/-- **The rule of invariants.** -/
theorem Along.keeps (h : m.Along (ReflTransGen r)) (hP : Preserves r P) (hs : P s) :
    m.Ends s (fun _ => P) fun _ => P :=
  (h s).mono (fun _ _ hr => hP.steps hr hs) fun _ _ hr => hP.steps hr hs

/-- A sequence of changes, from a state with the property. -/
def Given (P : σ → Prop) (r : σ → σ → Prop) (s s' : σ) : Prop := P s → ReflTransGen r s s'

theorem Given.isPreorder (h : Preserves r P) : IsPreorder σ (Given P r) where
  refl _ _ := ReflTransGen.refl
  trans _ _ _ hr hr' hs := (hr hs).trans (hr' (h.steps (hr hs) hs))

theorem Along.given (h : m.Along (ReflTransGen r)) : m.Along (Given P r) :=
  h.mono fun _ _ hr _ => hr

/-- A program may make the changes that the property allows where it holds. -/
theorem Along.of_given (h : m.Along (Given P r)) (hs : P s) :
    m.Ends s (fun _ s' => ReflTransGen r s s') fun _ s' => ReflTransGen r s s' :=
  (h s).mono (fun _ _ hr => hr hs) fun _ _ hr => hr hs

end EStateM
