import Mathlib.Logic.Relation
import Teensquitto.Program.Hoare

/-!
# Programs that follow a transition system

A program is compared with a transition system whose states pair a control stack with an
abstraction of the program's state.  The program follows the system when every run of it, also
one that stops early, is a sequence of transitions that replaces the top `pre` of the stack
by `post`, over whatever lies beneath.

## Main definitions

* `EStateM.FollowsAt`: a program follows the system from a given state
* `EStateM.Follows`: it does so from every state

## Main results

* `EStateM.FollowsAt.bind`, `EStateM.FollowsAt.modify_bind`: the rules of sequencing
* `EStateM.FollowsAt.frame`: a program does not see the stack beneath
* `EStateM.Follows.iterate`, `EStateM.Follows.forM`: the rules of loops
-/

namespace EStateM

open Relation

variable {ε σ α β γ A K : Type} (abs : σ → K) (R : List A × K → List A × K → Prop)

/-- Every run from `s` leads the system from the stack `pre` to the stack `post`, or stops
in some state that the system reaches. -/
def FollowsAt (m : EStateM ε σ α) (s : σ) (pre : List A) (post : α → List A) : Prop :=
  ∀ rest, m.Ends s
    (fun a s' => ReflTransGen R (pre ++ rest, abs s) (post a ++ rest, abs s'))
    (fun _ s' => ∃ stack, ReflTransGen R (pre ++ rest, abs s) (stack, abs s'))

/-- Every run leads the system from the stack `pre` to the stack `post`. -/
def Follows (m : EStateM ε σ α) (pre : List A) (post : α → List A) : Prop :=
  ∀ s, m.FollowsAt abs R s pre post

variable {abs R}

namespace FollowsAt

variable {s : σ} {pre mid : List A}

theorem pure (a : α) {post : α → List A} :
    (pure a : EStateM ε σ α).FollowsAt abs R s (post a) post :=
  fun _ => ReflTransGen.refl

theorem throw (e : ε) {post : α → List A} :
    (throw e : EStateM ε σ α).FollowsAt abs R s pre post :=
  fun rest => ⟨pre ++ rest, ReflTransGen.refl⟩

/-- A program that reads the state first may be judged at that state. -/
theorem get_bind {f : σ → EStateM ε σ β} {post : β → List A}
    (h : (f s).FollowsAt abs R s pre post) :
    (MonadState.get >>= f).FollowsAt abs R s pre post := h

theorem ite {c : Prop} [Decidable c] {m m' : EStateM ε σ α} {post : α → List A}
    (h : c → m.FollowsAt abs R s pre post) (h' : ¬c → m'.FollowsAt abs R s pre post) :
    (if c then m else m').FollowsAt abs R s pre post := by
  by_cases hc : c
  · rw [if_pos hc]
    exact h hc
  · rw [if_neg hc]
    exact h' hc

/-- Two changes of the state that are one transition. -/
theorem of_modify_modify {f f' : σ → σ} {post : PUnit → List A}
    (h : ∀ rest, ReflTransGen R (pre ++ rest, abs s) (post ⟨⟩ ++ rest, abs (f' (f s)))) :
    (modify f >>= fun _ => modify f' : EStateM ε σ PUnit).FollowsAt abs R s pre post := h

/-- Transitions before the program. -/
theorem of_reaches {s₀ : σ} {m : EStateM ε σ α} {post : α → List A}
    (h : ∀ rest, ReflTransGen R (pre ++ rest, abs s₀) (mid ++ rest, abs s))
    (hm : m.FollowsAt abs R s mid post) (rest : List A) :
    m.Ends s (fun a s' => ReflTransGen R (pre ++ rest, abs s₀) (post a ++ rest, abs s'))
      (fun _ s' => ∃ stack, ReflTransGen R (pre ++ rest, abs s₀) (stack, abs s')) :=
  (hm rest).mono (fun _ _ h' => (h rest).trans h') fun _ _ h' => h'.imp fun _ => (h rest).trans

/-- Transitions that the program does not show. -/
theorem silent {m : EStateM ε σ α} {post : α → List A}
    (h : ∀ rest, ReflTransGen R (pre ++ rest, abs s) (mid ++ rest, abs s))
    (hm : m.FollowsAt abs R s mid post) : m.FollowsAt abs R s pre post :=
  of_reaches h hm

theorem modify_bind {f : σ → σ} {g : PUnit → EStateM ε σ β} {post : β → List A}
    (h : ∀ rest, ReflTransGen R (pre ++ rest, abs s) (mid ++ rest, abs (f s)))
    (hg : (g ⟨⟩).FollowsAt abs R (f s) mid post) :
    (modify f >>= g : EStateM ε σ β).FollowsAt abs R s pre post :=
  fun rest => of_reaches h hg rest

theorem modify_modify_bind {f f' : σ → σ} {g : PUnit → EStateM ε σ β} {post : β → List A}
    (h : ∀ rest, ReflTransGen R (pre ++ rest, abs s) (mid ++ rest, abs (f' (f s))))
    (hg : (g ⟨⟩).FollowsAt abs R (f' (f s)) mid post) :
    (modify f >>= fun _ => modify f' >>= g : EStateM ε σ β).FollowsAt abs R s pre post :=
  fun rest => of_reaches h hg rest

theorem bind {m : EStateM ε σ α} {f : α → EStateM ε σ β} {mid : α → List A}
    {post : β → List A} (h : m.FollowsAt abs R s pre mid)
    (hf : ∀ a, (f a).Follows abs R (mid a) post) :
    (m >>= f).FollowsAt abs R s pre post := by
  intro rest
  refine (ends_bind m f).mpr ((h rest).mono (fun a s' hs => ?_) fun _ _ hs => hs)
  exact (hf a s' rest).mono (fun _ _ hs' => hs.trans hs') fun _ _ hs' =>
    hs'.imp fun _ => hs.trans

/-- A sequence whose second part depends on how the first one ends. -/
theorem bind_of_ends {m : EStateM ε σ α} {f : α → EStateM ε σ β} {mid : α → List A}
    {post : β → List A} {Q : α → σ → Prop} (h : m.FollowsAt abs R s pre mid)
    (hQ : m.Ends s Q fun _ _ => True)
    (hf : ∀ a s', Q a s' → (f a).FollowsAt abs R s' (mid a) post) :
    (m >>= f).FollowsAt abs R s pre post := by
  intro rest
  refine (ends_bind m f).mpr (((h rest).and hQ).mono ?_ fun _ _ hs => hs.1)
  rintro a s' ⟨hs, ha⟩
  exact (hf a s' ha rest).mono (fun _ _ hs' => hs.trans hs') fun _ _ hs' =>
    hs'.imp fun _ => hs.trans

/-- Transitions behind the program that it does not show. -/
theorem followed_by {m : EStateM ε σ α} {mid post : α → List A}
    (h : m.FollowsAt abs R s pre mid)
    (hpost : ∀ a s rest, ReflTransGen R (mid a ++ rest, abs s) (post a ++ rest, abs s)) :
    m.FollowsAt abs R s pre post :=
  fun rest => (h rest).mono (fun a s' hs => hs.trans (hpost a s' rest)) fun _ _ hs => hs

/-- A program does not see the stack beneath. -/
theorem frame {m : EStateM ε σ α} {post : α → List A} (h : m.FollowsAt abs R s pre post)
    (beneath : List A) :
    m.FollowsAt abs R s (pre ++ beneath) fun a => post a ++ beneath := by
  intro rest
  simpa only [List.append_assoc] using h (beneath ++ rest)

end FollowsAt

namespace Follows

variable {pre : List A}

theorem pure (a : α) {post : α → List A} :
    (pure a : EStateM ε σ α).Follows abs R (post a) post :=
  fun _ => FollowsAt.pure a

theorem get_bind {f : σ → EStateM ε σ β} {post : β → List A}
    (h : ∀ s, (f s).FollowsAt abs R s pre post) :
    (MonadState.get >>= f).Follows abs R pre post := h

theorem ite {c : Prop} [Decidable c] {m m' : EStateM ε σ α} {post : α → List A}
    (h : m.Follows abs R pre post) (h' : m'.Follows abs R pre post) :
    (if c then m else m').Follows abs R pre post :=
  fun s => FollowsAt.ite (fun _ => h s) fun _ => h' s

theorem bind {m : EStateM ε σ α} {f : α → EStateM ε σ β} {mid : α → List A}
    {post : β → List A} (h : m.Follows abs R pre mid)
    (hf : ∀ a, (f a).Follows abs R (mid a) post) : (m >>= f).Follows abs R pre post :=
  fun s => (h s).bind hf

/-- A program along a relation that transitions cover leaves the stack alone. -/
theorem of_along {S : σ → σ → Prop} {m : EStateM ε σ α} (h : m.Along S)
    (hS : ∀ s s', S s s' → ∀ stack, ReflTransGen R (stack, abs s) (stack, abs s'))
    (pre : List A) : m.Follows abs R pre fun _ => pre :=
  fun s _ => (h s).mono (fun _ s' hs => hS s s' hs _) fun _ s' hs => ⟨_, hS s s' hs _⟩

/-- A loop whose rounds keep the stack. -/
theorem iterate {exhausted : EStateM ε σ γ} {body : β → EStateM ε σ (β ⊕ γ)}
    {post : γ → List A} (hstop : exhausted.Follows abs R pre post)
    (hbody : ∀ b, (body b).Follows abs R pre (Sum.elim (fun _ => pre) post)) (n : ℕ) (b : β) :
    (EStateM.iterate exhausted body n b).Follows abs R pre post := by
  induction n generalizing b with
  | zero => exact hstop
  | succ n ih =>
    rw [iterate_succ]
    refine (hbody b).bind fun r => ?_
    cases r with
    | inl b' => exact ih b'
    | inr c => exact Follows.pure c

/-- A list of programs that keep the stack. -/
theorem forM {l : List β} {f : β → EStateM ε σ PUnit}
    (h : ∀ b ∈ l, (f b).Follows abs R pre fun _ => pre) :
    (l.forM f).Follows abs R pre fun _ => pre := by
  induction l with
  | nil => exact fun _ _ => ReflTransGen.refl
  | cons b l ih =>
    refine (h b List.mem_cons_self).bind fun _ => ?_
    exact ih fun b' hb' => h b' (List.mem_cons_of_mem b hb')

end Follows

end EStateM
