import Teensquitto.Device.Running

/-!
# What a run writes to the port

The blocks that a run writes are the probes and NAKs of `events()` and the frames of the
methods it calls.

## Main definitions

* `Sends`: the blocks written between two states
* `Among`, `SendsOwn`: some of them are told from the others
* `Duty`: the blocks that `events()` writes of itself

## Main results

* `sends_events`: `events()` writes these and what the handlers write
* `Call.run_sendsFor`: a call writes one frame at most for each block of the method that it enters,
  and what the `events()` of its waits write
-/

namespace Teensquitto

open EStateM

/-- All blocks written between two states are among `S`. -/
def Sends (S : List UInt8 → Prop) (w w' : World) : Prop :=
  ∃ blocks, w'.sent = w.sent ++ blocks ∧ ∀ b ∈ blocks, S b

variable {S T : List UInt8 → Prop}

instance : IsPreorder World (Sends S) where
  refl w := ⟨[], by simp⟩
  trans := by
    rintro w w' w'' ⟨blocks, hsent, hS⟩ ⟨blocks', hsent', hS'⟩
    refine ⟨blocks ++ blocks', by rw [hsent', hsent, List.append_assoc], fun b hb => ?_⟩
    rcases List.mem_append.mp hb with hb | hb
    · exact hS b hb
    · exact hS' b hb

theorem Sends.of_eq {w w' : World} (h : w'.sent = w.sent) : Sends S w w' :=
  ⟨[], by simp [h]⟩

theorem Sends.mono {w w' : World} (h : Sends S w w') (hS : ∀ b, S b → T b) : Sends T w w' := by
  obtain ⟨blocks, hsent, hb⟩ := h
  exact ⟨blocks, hsent, fun b hmem => hS b (hb b hmem)⟩

theorem sends_requests : BearsRequests (Sends S) where
  internal _ _ h := Sends.of_eq h.sent
  advance _ _ _ := Sends.of_eq rfl

/-- Writing a block that is among `S`. -/
theorem sends_append {block : List UInt8} (h : S block) (w : World) :
    Sends S w { w with sent := w.sent ++ [block] } :=
  ⟨[block], rfl, List.forall_mem_singleton.mpr h⟩

/-! ## The blocks of `events()` -/

/-- The blocks that `events()` writes of itself: a probe or a NAK. -/
inductive Duty : List UInt8 → Prop
  | probe : Duty [0x24, 0x00, 0x03, 0x7E, 0x7E, 0x00]
  | nak (a b : UInt8) : Duty [0x21, 0x15, 0x00, a, b]

theorem bearsEvents_sends (hS : ∀ block, Duty block → S block) : BearsEvents (Sends S) where
  toBearsRequests := sends_requests
  delay _ _ := Sends.of_eq rfl
  sendNak w x y := sends_append (hS _ (.nak x y)) w
  probe := by
    refine sends_requests.along_millis.bind fun interval => ?_
    refine Along.bind (sends_requests.along_modify fun _ => ⟨rfl, rfl, rfl, rfl, rfl⟩) fun _ => ?_
    refine Along.bind (Along.modify (sends_append (hS _ .probe))) fun _ => ?_
    refine along_get_bind fun w => sends_requests.along_millis.bind fun check => ?_
    refine Along.bind (Along.modify fun _ => Sends.of_eq rfl) fun _ => ?_
    exact Along.modify fun _ => Sends.of_eq rfl
  latencyFrame := by
    refine sends_requests.along_millis.bind fun _ => along_get_bind fun w => ?_
    refine Along.bind (Along.modify fun _ => Sends.of_eq rfl) fun _ => ?_
    exact Along.modify fun _ => Sends.of_eq rfl

/-- `events()` writes probes, NAKs, and what the handlers write. -/
theorem sends_events {user : Prog Unit} (huser : user.Along (Sends S)) :
    (events user).Along (Sends fun block => Duty block ∨ S block) :=
  (bearsEvents_sends fun _ => .inl).along_events fun w =>
    (huser w).mono (fun _ _ h => h.mono fun _ => .inr) fun _ _ h => h.mono fun _ => .inr

/-! ## The blocks of a call -/

/-- Among the blocks are `own`, in their order; the others are among `S`. -/
inductive Among (S : List UInt8 → Prop) : List (List UInt8) → List (List UInt8) → Prop
  | nil : Among S [] []
  | own {own blocks} (block : List UInt8) (h : Among S own blocks) :
    Among S (block :: own) (block :: blocks)
  | other {own blocks} {block : List UInt8} (hblock : S block) (h : Among S own blocks) :
    Among S own (block :: blocks)

theorem Among.append {own own' blocks blocks' : List (List UInt8)} (h : Among S own blocks)
    (h' : Among S own' blocks') : Among S (own ++ own') (blocks ++ blocks') := by
  induction h with
  | nil => exact h'
  | own block _ ih => exact .own block ih
  | other hblock _ ih => exact .other hblock ih

theorem among_of_forall {blocks : List (List UInt8)} (h : ∀ block ∈ blocks, S block) :
    Among S [] blocks := by
  induction blocks with
  | nil => exact .nil
  | cons block blocks ih =>
    obtain ⟨hblock, hblocks⟩ := List.forall_mem_cons.mp h
    exact .other hblock (ih hblocks)

/-- Between two states `own` is written, in this order, and other blocks among `S`. -/
def SendsOwn (S : List UInt8 → Prop) (own : List (List UInt8)) (w w' : World) : Prop :=
  ∃ blocks, w'.sent = w.sent ++ blocks ∧ Among S own blocks

theorem SendsOwn.trans {own own' : List (List UInt8)} {w w' w'' : World} (h : SendsOwn S own w w')
    (h' : SendsOwn S own' w' w'') : SendsOwn S (own ++ own') w w'' := by
  obtain ⟨blocks, hsent, hamong⟩ := h
  obtain ⟨blocks', hsent', hamong'⟩ := h'
  exact ⟨blocks ++ blocks', by rw [hsent', hsent, List.append_assoc], hamong.append hamong'⟩

theorem Sends.own {w w' : World} (h : Sends S w w') : SendsOwn S [] w w' := by
  obtain ⟨blocks, hsent, hblocks⟩ := h
  exact ⟨blocks, hsent, among_of_forall hblocks⟩

/-- The frames belong to blocks of a method, and are no more than the blocks that write. -/
structure Stage.Owns (stages : List Stage) (own : List (List UInt8)) : Prop where
  length_le : ∀ h, own.length ≤ (stages.filterMap (Stage.command? h)).length
  frames : ∀ frame ∈ own, ∃ stage ∈ stages, ∃ h cmd garbage, stage.command? h = some cmd ∧
    frame = cmd.emit garbage

theorem Stage.owns_nil (stages : List Stage) : Stage.Owns stages [] :=
  ⟨fun _ => Nat.zero_le _, List.forall_mem_nil _⟩

theorem Stage.owns_singleton {stage : Stage} {hs : Handlers} {cmd : Command}
    (hactive : ∀ h, (stage.command? h).isSome = true) (hcmd : stage.command? hs = some cmd)
    (garbage : Memory UInt8) : Stage.Owns [stage] [cmd.emit garbage] where
  length_le h := by
    obtain ⟨cmd', hcmd'⟩ := Option.isSome_iff_exists.mp (hactive h)
    rw [List.filterMap_cons_some hcmd']
    exact Nat.le_add_left 1 _
  frames frame hmem := ⟨stage, List.mem_singleton_self stage, hs, cmd, garbage, hcmd,
    List.mem_singleton.mp hmem⟩

theorem Stage.Owns.append {stages stages' : List Stage} {own own' : List (List UInt8)}
    (h : Stage.Owns stages own) (h' : Stage.Owns stages' own') :
    Stage.Owns (stages ++ stages') (own ++ own') where
  length_le hs := by
    rw [List.filterMap_append, List.length_append, List.length_append]
    exact Nat.add_le_add (h.length_le hs) (h'.length_le hs)
  frames frame hmem := by
    rcases List.mem_append.mp hmem with hmem | hmem
    · obtain ⟨stage, hstage, hframe⟩ := h.frames frame hmem
      exact ⟨stage, List.mem_append_left _ hstage, hframe⟩
    · obtain ⟨stage, hstage, hframe⟩ := h'.frames frame hmem
      exact ⟨stage, List.mem_append_right _ hstage, hframe⟩

/-- Frames of these blocks are written, and other blocks among `S`. -/
def SendsFor (S : List UInt8 → Prop) (stages : List Stage) (w w' : World) : Prop :=
  ∃ own, Stage.Owns stages own ∧ SendsOwn S own w w'

theorem SendsFor.append {stages stages' : List Stage} {w w' w'' : World}
    (h : SendsFor S stages w w') (h' : SendsFor S stages' w' w'') :
    SendsFor S (stages ++ stages') w w'' := by
  obtain ⟨own, howns, hsends⟩ := h
  obtain ⟨own', howns', hsends'⟩ := h'
  exact ⟨own ++ own', howns.append howns', hsends.trans hsends'⟩

theorem Sends.sendsFor {w w' : World} (h : Sends S w w') (stages : List Stage) :
    SendsFor S stages w w' :=
  ⟨[], Stage.owns_nil stages, h.own⟩

section Own

variable {events : Prog Unit} (hevents : events.Along (Sends S))

omit hevents in
/-- A command is written, and what comes then writes blocks among `S`. -/
theorem along_writeCommand_bind {stage : Stage} {h : Handlers} {cmd : Command} {α : Type}
    {f : List UInt8 → Prog α} (hactive : ∀ h, (stage.command? h).isSome = true)
    (hcmd : stage.command? h = some cmd) (hf : ∀ frame, (f frame).Along (Sends S)) :
    (writeCommand cmd >>= f).Along (SendsFor S [stage]) := by
  intro w
  have hwritten : SendsOwn S [cmd.emit (w.stray w.clock)] w
      { w with sent := w.sent ++ [cmd.emit (w.stray w.clock)] } :=
    ⟨_, rfl, .own _ .nil⟩
  rw [writeCommand, ends_bind, ends_bind, ends_get, ends_bind, send, ends_modify, ends_pure]
  exact (hf _ _).mono
    (fun _ _ h => ⟨_, Stage.owns_singleton hactive hcmd _, hwritten.trans h.own⟩)
    fun _ _ h => ⟨_, Stage.owns_singleton hactive hcmd _, hwritten.trans h.own⟩

include hevents

/-- A block writes its frame, and what the `events()` of its wait write. -/
theorem Stage.run_sendsFor (stage : Stage) : (stage.run events).Along (SendsFor S [stage]) := by
  have hnothing (v : Option Value) : (pure v : Prog (Option Value)).Along (SendsFor S [stage]) :=
    fun w => (refl_of (Sends S) w).sendsFor [stage]
  cases stage with
  | request active e =>
    cases active with
    | false => exact hnothing none
    | true =>
      rw [Stage.run, if_pos rfl, Exchange.run, Exchange.answer, bind_assoc]
      refine along_writeCommand_bind (h := .initial) (fun _ => rfl) rfl fun frame => ?_
      exact (sends_requests.along_awaitReply hevents _ _ _).bind fun _ => Along.pure _
  | send active cmd result =>
    cases active with
    | false => exact hnothing none
    | true =>
      exact along_writeCommand_bind (h := .initial) (fun _ => rfl) rfl fun _ => Along.pure result
  | update active change command =>
    cases active with
    | false => exact hnothing none
    | true =>
      -- the frame is the one of the handlers as the block has just changed them
      intro w
      rw [Stage.run, if_pos rfl, ends_bind, ends_modify, ends_bind, ends_get]
      exact along_writeCommand_bind (h := w.handlers) (fun _ => rfl) rfl
        (fun _ => Along.pure none) _
  | undefined active =>
    cases active with
    | false => exact hnothing none
    | true => exact fun w => (refl_of (Sends S) w).sendsFor _

theorem sendsFor_runStages (otherwise : Value) (stages : List Stage) :
    (runStages events otherwise stages).Along (SendsFor S stages) := by
  -- Induction on the blocks: each adds its own frames behind those before it.
  induction stages with
  | nil => exact fun w => (refl_of (Sends S) w).sendsFor []
  | cons stage stages ih =>
    intro w
    rw [runStages, ends_bind]
    refine (Stage.run_sendsFor hevents stage w).mono (fun v w' h => ?_) fun _ w' h => ?_
    · cases v with
      | some v =>
        -- the method has returned, and the blocks behind this one write nothing
        exact h.append ((refl_of (Sends S) w').sendsFor stages)
      | none =>
        exact (ih w').mono (fun _ _ h' => h.append h') fun _ _ h' => h.append h'
    · exact h.append ((refl_of (Sends S) w').sendsFor stages)

/-- **A call writes one frame at most for each block that it enters**, and what the `events()` of
its waits write. -/
theorem Call.run_sendsFor (c : Call) : (c.run events).Along (SendsFor S c.method.stages) := by
  have hstages := sendsFor_runStages hevents c.method.otherwise c.method.stages
  intro w
  rw [Call.run, ends_bind, ends_get, ends_bind, log, ends_modify, Method.run, ends_bind, ends_get]
  cases c.method.guard with
  | none => exact hstages _
  | some v =>
    dsimp only
    split
    · exact hstages _
    · exact (Sends.of_eq (S := S) rfl).sendsFor _

end Own

end Teensquitto
