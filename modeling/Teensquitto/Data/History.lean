import Mathlib.Data.List.Basic
import Mathlib.Tactic.Common

/-!
# Properties of histories

A history is a list that grows at its end.  A property of its entries, each judged with the
entries before it, holds throughout a longer history when it holds throughout the shorter
one and of the entries that were added.

## Main definitions

* `Throughout`: every entry has a property, given the entries before it

## Main results

* `throughout_concat`: what one more entry has to satisfy
-/

universe u

variable {α : Type u} {P Q : List α → α → Prop} {l l' : List α} {a : α}

/-- Every entry has the property, given the entries before it. -/
def Throughout (P : List α → α → Prop) (l : List α) : Prop :=
  ∀ before a after, l = before ++ a :: after → P before a

theorem throughout_nil : Throughout P [] := by
  intro before a after h
  simp at h

theorem Throughout.of_append (h : Throughout P (l ++ l')) : Throughout P l := by
  rintro before a after rfl
  exact h before a (after ++ l') (by simp)

theorem Throughout.of_prefix (h : Throughout P l') (hl : l <+: l') : Throughout P l := by
  obtain ⟨added, rfl⟩ := hl
  exact h.of_append

theorem throughout_concat : Throughout P (l ++ [a]) ↔ Throughout P l ∧ P l a := by
  refine ⟨fun h => ⟨h.of_append, h l a [] rfl⟩, ?_⟩
  rintro ⟨hl, ha⟩ before b after h
  rcases List.eq_nil_or_concat after with rfl | ⟨after, c, rfl⟩
  · obtain ⟨rfl, hab⟩ := List.append_inj' h rfl
    obtain rfl : a = b := (List.cons.inj hab).1
    exact ha
  · rw [List.concat_eq_append, ← List.cons_append, ← List.append_assoc] at h
    exact hl before b after (List.append_inj' h rfl).1

theorem Throughout.mono (h : Throughout P l) (hPQ : ∀ before a, P before a → Q before a) :
    Throughout Q l :=
  fun before a after hl => hPQ before a (h before a after hl)

/-- The entries are judged by their positions. -/
theorem throughout_iff_getElem :
    Throughout P l ↔ ∀ i (h : i < l.length), P (l.take i) l[i] := by
  constructor
  · intro h i hi
    exact h _ _ (l.drop (i + 1)) (by rw [List.getElem_cons_drop, List.take_append_drop])
  · rintro h before a after rfl
    simpa using h before.length (by simp)

instance [∀ before a, Decidable (P before a)] (l : List α) : Decidable (Throughout P l) :=
  decidable_of_iff _ throughout_iff_getElem.symm
