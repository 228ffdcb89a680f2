import Teensquitto.Protocol.Loopback

/-!
# The rate of the probes

A probe is written when the low 32 bits of the time since the one before exceed 250, and its time is
taken behind that test.  However the clock runs over, two probes are therefore at least 251 ms
apart.

## Main definitions

* `World.probes`: the number of probes that were written
* `World.Spaced`: the time of the last probe, and how many there can be before it

## Main results

* `preserves_spaced`: the step of the invariant
* `probes_spaced`: the rate over every part of every run
-/

namespace Teensquitto

open EStateM

/-- The number of probes that were written. -/
def World.probes (w : World) : ℕ := w.sent.count probeBlock

/-- No other block is a probe. -/
theorem Command.emit_ne_probeBlock (c : Command) (garbage : Memory UInt8) :
    c.emit garbage ≠ probeBlock := by
  intro heq
  have hlen := congrArg List.length heq
  rw [c.length_emit] at hlen
  have hthree := c.three_le_payload
  have hsize := c.length_payload
  have hsix : probeBlock.length = 6 := rfl
  omega

theorem count_snoc_of_ne {block : List UInt8} (sent : List (List UInt8)) (h : block ≠ probeBlock) :
    (sent ++ [block]).count probeBlock = sent.count probeBlock := by
  rw [List.count_append, List.count_singleton, if_neg (by simpa using h), Nat.add_zero]

/-- `_esp_sync_interval` is the time `t` of the last probe, and up to then there were at most `n`
probes and one for each 251 ms since the time `c`. -/
def World.Spaced (n c : ℕ) (w : World) : Prop :=
  ∃ t, w.espSyncInterval = UInt32.ofNat t ∧ t ≤ w.clock ∧ c + 251 * w.probes ≤ t + 251 * n

/-- What a change may do to the clock, the probes and the time of the last one. -/
inductive World.Paces (w w' : World) : Prop
  /-- Time may pass, no probe is written. -/
  | quiet (hclock : w.clock ≤ w'.clock) (hprobes : w'.probes = w.probes)
    (hinterval : w'.espSyncInterval = w.espSyncInterval)
  /-- A probe is written behind the test, and its time is taken. -/
  | probe (s t : ℕ) (hs : w.clock ≤ s) (hlate : UInt32.ofNat s - w.espSyncInterval > 250)
    (ht : s ≤ t) (hclock : w'.clock = t) (hprobes : w'.probes = w.probes + 1)
    (hinterval : w'.espSyncInterval = UInt32.ofNat t)

theorem Effect.paces {w w' : World} (h : Effect w w') : w.Paces w' := by
  cases h with
  | advance t ticks => exact .quiet (Nat.le_add_right _ _) rfl rfl
  | delay ms => exact .quiet (Nat.le_add_right _ _) rfl rfl
  | nak a b => exact .quiet le_rfl (count_snoc_of_ne _ (by simp [probeBlock])) rfl
  | probe t t' ticks ticks' hoffline hlate =>
    refine .probe (w.clock + t.elapsed) (w.clock + t.elapsed + t'.elapsed) (Nat.le_add_right _ _)
      hlate (Nat.le_add_right _ _) rfl ?_ rfl
    exact (List.count_append ..).trans (congrArg _ List.count_singleton_self)
  | command c cmd garbage hcall hstage =>
    exact .quiet le_rfl (count_snoc_of_ne _ (cmd.emit_ne_probeBlock garbage)) rfl
  | update c change command garbage hcall hstage =>
    exact .quiet le_rfl (count_snoc_of_ne _ (Command.emit_ne_probeBlock _ garbage)) rfl
  | status src hsrc hheader hstatus =>
    obtain ⟨_, _, _, _, _, heq⟩ := exists_statusFrame_eq src w
    rw [heq]
    exact .quiet le_rfl rfl rfl
  | _ => exact .quiet le_rfl rfl rfl

/-- The low 32 bits exceed 250 only if so much time has passed. -/
theorem late_of_sub_gt {s t : ℕ} (hle : t ≤ s) (h : UInt32.ofNat s - UInt32.ofNat t > 250) :
    t + 251 ≤ s := by
  have hsub : (250 : UInt32).toNat < (UInt32.ofNat s - UInt32.ofNat t).toNat := h
  rw [UInt32.toNat_sub, UInt32.toNat_ofNat', UInt32.toNat_ofNat'] at hsub
  have hnum : (250 : UInt32).toNat = 250 := rfl
  omega

/-- A probe is at least 251 ms behind the one before. -/
theorem preserves_spaced (n c : ℕ) : Preserves Effect (World.Spaced n c) := by
  rintro w w' h ⟨t, hinterval, hle, hspaced⟩
  cases h.paces with
  | quiet hclock hprobes hkept =>
    exact ⟨t, hkept.trans hinterval, hle.trans hclock, hprobes ▸ hspaced⟩
  | probe s t' hs hlate ht hclock hprobes htaken =>
    have hlate' := late_of_sub_gt (hle.trans hs) (hinterval ▸ hlate)
    refine ⟨t', htaken, hclock.ge, ?_⟩
    calc c + 251 * w'.probes = c + 251 * w.probes + 251 := by
          rw [hprobes, Nat.mul_succ, Nat.add_assoc]
      _ ≤ t + 251 * n + 251 := Nat.add_le_add_right hspaced 251
      _ = t + 251 + 251 * n := Nat.add_right_comm _ _ _
      _ ≤ t' + 251 * n := Nat.add_le_add_right (hlate'.trans ht) _

/-- Since a state: no probe yet, or the probes are spaced behind the first. -/
def World.Since (w₀ w : World) : Prop :=
  w₀.clock ≤ w.clock ∧ (w.probes = w₀.probes ∨ w.Spaced (w₀.probes + 1) w₀.clock)

theorem preserves_since (w₀ : World) : Preserves Effect w₀.Since := by
  rintro w w' h ⟨hclock₀, hprobes₀⟩
  rcases hprobes₀ with hnone | hspaced
  · cases h.paces with
    | quiet hclock hprobes _ => exact ⟨hclock₀.trans hclock, .inl (hprobes.trans hnone)⟩
    | probe s t hs hlate ht hclock hprobes htaken =>
      -- nothing is known about the time of the first one but the clock
      refine ⟨by omega, .inr ⟨t, htaken, hclock.ge, ?_⟩⟩
      rw [hprobes, hnone]
      omega
  · refine ⟨hclock₀.trans ?_, .inr (preserves_spaced _ _ w w' h hspaced)⟩
    cases h.paces with
    | quiet hclock _ _ => exact hclock
    | probe s t hs hlate ht hclock _ _ => omega

/-- The probes that are written between two states: one for each 251 ms, and one more. -/
theorem World.Since.probes_le {w₀ w : World} (h : w₀.Since w) :
    w₀.clock + 251 * w.probes ≤ w.clock + 251 * (w₀.probes + 1) := by
  obtain ⟨hclock, hnone | ⟨t, -, hle, hspaced⟩⟩ := h
  · rw [hnone]
    omega
  · exact hspaced.trans (Nat.add_le_add_right hle _)

/-- **The rate of the probes**, over every run from every state: in the time that passes at most one
probe is written for each 251 ms, and one more; since power-up not even that one. -/
theorem probes_spaced (w : World) (depth : ℕ) (ops : List LibraryOp) :
    (library depth ops).Ends w
      (fun _ w' => w.clock + 251 * w'.probes ≤ w'.clock + 251 * (w.probes + 1))
      (fun _ w' => w.clock + 251 * w'.probes ≤ w'.clock + 251 * (w.probes + 1)) ∧
    Always fun w' => 251 * w'.probes ≤ w'.clock := by
  constructor
  · have hsince := (effects_library depth ops).keeps (preserves_since w) ⟨le_rfl, .inl rfl⟩
    exact hsince.mono (fun _ _ h => h.probes_le) fun _ _ h => h.probes_le
  · intro ticks scripts stray depth ops
    have hspaced := always_of_preserves (fun _ _ _ => ⟨0, rfl, le_rfl, le_rfl⟩)
      (preserves_spaced 0 0) ticks scripts stray depth ops
    have hle : ∀ w : World, w.Spaced 0 0 → 251 * w.probes ≤ w.clock := by
      rintro w ⟨t, -, hle, hspaced⟩
      omega
    exact hspaced.mono (fun _ => hle) fun _ => hle

end Teensquitto
