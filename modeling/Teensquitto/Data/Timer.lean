import Mathlib.Data.UInt
import Mathlib.Tactic.Common

/-!
# Timers on a clock that wraps around

A program keeps the low 32 bits of a time, and compares the low 32 bits of the time that has passed
since with a limit.  It looks at the clock now and then, at most `pace` milliseconds after the look
before.  Whatever the stamp was at the start, the limit is found exceeded soon after it has passed.

## Main definitions

* `Timer.age`: the time since a stamp, as its low 32 bits tell it
* `Timer.Runs`: a timer that was not found expired since a start

## Main results

* `Timer.Runs.goes_on`: it runs on when a look does not find it expired
* `Timer.Runs.le_of_expired`: when it is found expired at the latest
-/

namespace Timer

/-- The time since a stamp, as far as 32 bits tell. -/
def age (clock : ℕ) (stamp : UInt32) : ℕ := (UInt32.ofNat clock - stamp).toNat

variable {clock ms ms' limit pace start : ℕ} {stamp : UInt32}

theorem age_add (h : age clock stamp + ms < 2 ^ 32) :
    age (clock + ms) stamp = age clock stamp + ms := by
  unfold age at h ⊢
  simp only [UInt32.toNat_sub, UInt32.toNat_ofNat'] at h ⊢
  omega

/-- A timer since `start`: nobody has looked at it, or it had not expired at the last look, a `pace`
ago at most. -/
def Runs (limit pace start : ℕ) (stamp : UInt32) (clock : ℕ) : Prop :=
  clock ≤ start ∨ age clock stamp ≤ limit + pace ∧ clock ≤ start + pace + age clock stamp

namespace Runs

theorem le (h : Runs limit pace start stamp clock) : clock ≤ start + limit + 2 * pace := by
  rcases h with hstart | ⟨hage, hclock⟩
  · omega
  · omega

/-- A look that does not find the timer expired. -/
theorem goes_on (h : Runs limit pace start stamp clock) (hfit : limit + 2 * pace < 2 ^ 32)
    (hms : ms ≤ pace) (hms' : ms' ≤ pace) (hage : age (clock + ms) stamp ≤ limit) :
    Runs limit pace start stamp (clock + ms + ms') := by
  have hlater : age (clock + ms + ms') stamp = age (clock + ms) stamp + ms' := age_add (by omega)
  refine .inr ⟨by omega, ?_⟩
  rcases h with hstart | ⟨hbefore, hclock⟩
  · omega
  · have hnow : age (clock + ms) stamp = age clock stamp + ms := age_add (by omega)
    omega

/-- A look that finds the timer expired. -/
theorem le_of_expired (h : Runs limit pace start stamp clock) (hms : ms ≤ pace) :
    clock + ms ≤ start + limit + 3 * pace := by
  have hclock := h.le
  omega

end Runs

end Timer
