import Teensquitto.Device.Request

/-!
# Replies to other requests

While a request waits, `storage_buffer` may receive replies to other requests.  The wait the
interface promises passes over every one of them; the wait of the library passes over those
that differ in the header and in the opcode, and gives up at any other.

## Main definitions

* `seekLoop`: the promised wait, which records the replies it passes over
* `Exchange.seek`: a request with the promised wait

## Main results

* `Exchange.answer_accepts_iff`: the library accepts the reply that the promised wait
  accepts exactly when all replies before it are foreign
-/

namespace Teensquitto

/-! ## The promised wait -/

/-- One round of the promised wait: any reply but the awaited one is passed over. -/
def seekRound (events : Prog Unit) (key : Key) (skipped : List (Memory UInt8)) :
    Prog (List (Memory UInt8) ⊕ List (Memory UInt8)) := do
  modify fun w => { w with pendingData := true }
  events
  let w ← get
  if w.dataReadyFlag then
    if accepts w.storageBuffer key then return .inr skipped
    else
      modify fun w => { w with dataReadyFlag := false }
      return .inl (skipped ++ [w.storageBuffer])
  else return .inl skipped

/-- A round behind the time check. -/
def seekBody (events : Prog Unit) (key : Key) (limit : ℕ) (timeout : UInt32)
    (skipped : List (Memory UInt8)) : Prog (List (Memory UInt8) ⊕ List (Memory UInt8)) := do
  let w ← get
  if w.dataReadyFlag then return .inr skipped
  else
    let now ← millis
    let w ← get
    if now - timeout < w.waitLimit limit then seekRound events key skipped
    else return .inr skipped

/-- The promised wait. -/
def seekLoop (events : Prog Unit) (key : Key) (limit : ℕ) (timeout : UInt32) :
    Prog (List (Memory UInt8)) :=
  loop (seekBody events key limit timeout) []

/-- Wait as promised for the reply to a frame that was written. -/
def seekReply (events : Prog Unit) (key : Key) (limit checkLimit : ℕ) :
    Prog (List (Memory UInt8) × Result) := do
  log (.request key)
  let timeout ← millis
  modify fun w => { w with dataReadyFlag := false }
  let skipped ← seekLoop events key limit timeout
  log .waitEnd
  modify fun w => { w with pendingData := false }
  let result ← conclude key checkLimit timeout
  return (skipped, result)

/-- A request with the promised wait: the replies passed over, and the result. -/
def Exchange.seek (events : Prog Unit) (e : Exchange) :
    Prog (List (Memory UInt8) × Result) := do
  let frame ← writeCommand e.command
  seekReply events (keyOf frame) e.limit e.checkLimit

/-- The key of the frame that a request writes in a given state. -/
def Exchange.key (e : Exchange) (w : World) : Key := keyOf (e.command.emit (w.stray w.clock))

/-! ## The two waits side by side -/

/-- An awaited reply is not foreign. -/
theorem foreign_of_accepts {storage : Memory UInt8} {key : Key}
    (h : accepts storage key = true) : foreign storage key = false := by
  simp only [accepts, Bool.and_eq_true, decide_eq_true_iff] at h
  simp [foreign, h.1.2]

section SideBySide

variable {events : Prog Unit} {key : Key} {limit : ℕ} {timeout : UInt32}

/-- The body of `waitLoop`. -/
def waitBody (events : Prog Unit) (key : Key) (limit : ℕ) (timeout : UInt32) :
    Unit → Prog (Unit ⊕ Unit) := fun _ => do
  let w ← get
  if w.dataReadyFlag then return .inr ()
  else
    let now ← millis
    let w ← get
    if now - timeout < w.waitLimit limit then waitRound events key
    else return .inr ()

theorem waitLoop_eq : waitLoop events key limit timeout =
    loop (waitBody events key limit timeout) () := rfl

/-- What a round of the promised wait and a round of the library come to. -/
inductive SameRound (key : Key) (skipped : List (Memory UInt8)) :
    List (Memory UInt8) ⊕ List (Memory UInt8) → World → EStateM.Result Halt World (Unit ⊕ Unit) →
      Prop
  /-- Both go on; no reply has come. -/
  | idle (w : World) : SameRound key skipped (.inl skipped) w (.ok (.inl ()) w)
  /-- Both pass over a foreign reply. -/
  | foreign (w : World) (storage : Memory UInt8) (h : foreign storage key = true) :
    SameRound key skipped (.inl (skipped ++ [storage])) w (.ok (.inl ()) w)
  /-- The promised wait passes over a reply at which the library gives up. -/
  | stopped (w w' : World) (storage : Memory UInt8) (h : Teensquitto.foreign storage key = false)
    (hstorage : w'.storageBuffer = storage) (hreject : accepts storage key = false) :
    SameRound key skipped (.inl (skipped ++ [storage])) w (.ok (.inr ()) w')
  /-- Both end. -/
  | ended (w : World) : SameRound key skipped (.inr skipped) w (.ok (.inr ()) w)

theorem sameRound_seekRound {skipped : List (Memory UInt8)} {w w' : World}
    {r : List (Memory UInt8) ⊕ List (Memory UInt8)}
    (h : (seekRound events key skipped).run w = .ok r w') :
    SameRound key skipped r w' ((waitRound events key).run w) := by
  simp only [seekRound, waitRound, EStateM.run_bind, EStateM.run_modify] at h ⊢
  cases hevents : events.run { w with pendingData := true } with
  | error e w₁ =>
    rw [hevents] at h
    cases h
  | ok u w₁ =>
    rw [hevents] at h
    simp only [EStateM.run_get] at h ⊢
    cases hready : w₁.dataReadyFlag with
    | false =>
      simp only [hready, Bool.false_eq_true, if_false, EStateM.run_pure] at h ⊢
      cases h
      exact .idle _
    | true =>
      simp only [hready, if_true] at h ⊢
      cases haccepts : accepts w₁.storageBuffer key with
      | true =>
        simp only [haccepts, if_true, foreign_of_accepts haccepts, Bool.false_eq_true, if_false,
          EStateM.run_pure] at h ⊢
        cases h
        exact .ended _
      | false =>
        simp only [haccepts, Bool.false_eq_true, if_false, EStateM.run_bind, EStateM.run_modify,
          EStateM.run_pure] at h
        cases h
        cases hforeign : foreign w₁.storageBuffer key with
        | true =>
          simp only [if_true, EStateM.run_bind, EStateM.run_modify, EStateM.run_pure]
          exact .foreign _ _ hforeign
        | false =>
          simp only [Bool.false_eq_true, if_false, EStateM.run_pure]
          exact .stopped _ w₁ _ hforeign rfl haccepts

theorem sameRound_seekBody {skipped : List (Memory UInt8)} {w w' : World}
    {r : List (Memory UInt8) ⊕ List (Memory UInt8)}
    (h : (seekBody events key limit timeout skipped).run w = .ok r w') :
    SameRound key skipped r w' ((waitBody events key limit timeout ()).run w) := by
  simp only [seekBody, waitBody, EStateM.run_bind, EStateM.run_get] at h ⊢
  cases hready : w.dataReadyFlag with
  | true =>
    simp only [hready, if_true, EStateM.run_pure] at h ⊢
    cases h
    exact .ended w
  | false =>
    simp only [hready, Bool.false_eq_true, if_false, EStateM.run_bind] at h ⊢
    cases hmillis : millis.run w with
    | error e w₁ =>
      rw [hmillis] at h
      cases h
    | ok now w₁ =>
      rw [hmillis] at h
      simp only [EStateM.run_get] at h ⊢
      by_cases hlimit : now - timeout < w₁.waitLimit limit
      · rw [if_pos hlimit] at h ⊢
        exact sameRound_seekRound h
      · rw [if_neg hlimit] at h ⊢
        cases h
        exact .ended _

/-- The promised wait only adds to the replies it has passed over.  While these are foreign
the library keeps up with it; at the first other one the library gives up. -/
theorem iterate_seekBody (n : ℕ) {skipped skipped' : List (Memory UInt8)} {w w' : World}
    (h : (EStateM.iterate (throw .exhausted) (seekBody events key limit timeout) n skipped).run w =
      .ok skipped' w') :
    ∃ new, skipped' = skipped ++ new ∧
      (((∀ s ∈ new, foreign s key = true) ∧
        (EStateM.iterate (throw .exhausted) (waitBody events key limit timeout) n ()).run w =
          .ok () w') ∨
      ((∃ s ∈ new, foreign s key = false) ∧ ∃ w'',
        (EStateM.iterate (throw .exhausted) (waitBody events key limit timeout) n ()).run w =
          .ok () w'' ∧ accepts w''.storageBuffer key = false)) := by
  -- On the rounds, side by side: both loops run the same round until one of them ends.
  induction n generalizing skipped w with
  | zero => cases h
  | succ n ih =>
    rw [EStateM.iterate_succ, EStateM.run_bind] at h
    rw [EStateM.iterate_succ, EStateM.run_bind]
    cases hround : (seekBody events key limit timeout skipped).run w with
    | error e w₁ =>
      rw [hround] at h
      cases h
    | ok r w₁ =>
      rw [hround] at h
      have hsame := sameRound_seekBody hround
      generalize (waitBody events key limit timeout ()).run w = outcome at hsame
      cases hsame with
      | idle => exact ih h
      | foreign w₁ storage hforeign =>
        obtain ⟨new, rfl, hnew⟩ := ih h
        refine ⟨storage :: new, List.append_assoc _ _ _, ?_⟩
        rcases hnew with ⟨hall, hrun⟩ | ⟨⟨s, hs, hother⟩, hrun⟩
        · exact .inl ⟨List.forall_mem_cons.mpr ⟨hforeign, hall⟩, hrun⟩
        · exact .inr ⟨⟨s, List.mem_cons_of_mem _ hs, hother⟩, hrun⟩
      | stopped w₁ w₂ storage hother hstorage hreject =>
        obtain ⟨new, rfl, -⟩ := ih h
        refine ⟨storage :: new, List.append_assoc _ _ _,
          .inr ⟨⟨storage, List.mem_cons_self, hother⟩, w₂, rfl, ?_⟩⟩
        rw [hstorage]
        exact hreject
      | ended =>
        cases h
        exact ⟨[], (List.append_nil _).symm, .inl ⟨by simp, rfl⟩⟩

end SideBySide

/-! ## Acceptance -/

/-- With another reply in `storage_buffer` the check behind the loop accepts nothing. -/
theorem conclude_of_rejected {key : Key} {checkLimit : ℕ} {timeout : UInt32} {w w' : World}
    (h : accepts w.storageBuffer key = false) {storage : Memory UInt8} :
    (conclude key checkLimit timeout).run w ≠ .ok (.accepted storage) w' := by
  intro hrun
  have hkeep : millis.Ends w (fun _ w₁ => w₁.storageBuffer = w.storageBuffer) fun _ _ => True := by
    unfold millis tick
    rw [EStateM.ends_bind, EStateM.ends_bind, EStateM.ends_get]
    cases w.ticks with
    | nil => trivial
    | cons t ts => rfl
  have hends : (conclude key checkLimit timeout).Ends w
      (fun r _ => ∀ storage, r ≠ .accepted storage) fun _ _ => True := by
    refine EStateM.Ends.bind hkeep fun now w₁ hw₁ => ?_
    rw [EStateM.ends_bind, EStateM.ends_get, EStateM.ends_ite]
    split
    · exact fun storage => Result.noConfusion
    · rw [EStateM.ends_ite, hw₁, h, Bool.and_false, if_neg Bool.false_ne_true]
      exact fun storage => Result.noConfusion
  exact hends.of_ok hrun storage rfl

/-- An accepted reply is the value of the call. -/
theorem runStages_of_accepted {events : Prog Unit} {e : Exchange} {w w' : World}
    {storage : Memory UInt8} (h : (e.answer events).run w = .ok (.accepted storage) w')
    (otherwise : Value) (stages : List Stage) :
    (runStages events otherwise (.request true e :: stages)).run w = .ok (e.decode storage) w' := by
  simp only [runStages, Stage.run, if_true, Exchange.run, EStateM.run_bind, h, EStateM.run_pure,
    Exchange.value]

/-- The library accepts what the promised wait accepts, or gives up at a reply that is not
foreign and accepts nothing. -/
theorem awaitReply_of_seekReply {events : Prog Unit} {key : Key} {limit checkLimit : ℕ}
    {w w' : World} {skipped : List (Memory UInt8)} {storage : Memory UInt8}
    (h : (seekReply events key limit checkLimit).run w = .ok (skipped, .accepted storage) w') :
    ((∀ s ∈ skipped, foreign s key = true) ∧
      (awaitReply events key limit checkLimit).run w = .ok (.accepted storage) w') ∨
    ((∃ s ∈ skipped, foreign s key = false) ∧
      ∀ storage w'',
        (awaitReply events key limit checkLimit).run w ≠ .ok (.accepted storage) w'') := by
  simp only [seekReply, awaitReply, EStateM.run_bind, run_log] at h ⊢
  cases hmillis : millis.run { w with trace := w.trace ++ [.request key] } with
  | error e w₁ =>
    rw [hmillis] at h
    cases h
  | ok timeout w₁ =>
    rw [hmillis] at h
    simp only [EStateM.run_modify] at h ⊢
    cases hloop : (seekLoop events key limit timeout).run { w₁ with dataReadyFlag := false } with
    | error e w₂ =>
      rw [hloop] at h
      cases h
    | ok skipped' w₂ =>
      rw [hloop] at h
      dsimp only at h
      simp only [seekLoop, loop, EStateM.run_bind, EStateM.run_get] at hloop
      obtain ⟨new, rfl, hnew⟩ := iterate_seekBody _ hloop
      simp only [waitLoop_eq, loop, EStateM.run_bind, EStateM.run_get]
      cases hconclude : (conclude key checkLimit timeout).run
          { w₂ with trace := w₂.trace ++ [.waitEnd], pendingData := false } with
      | error e w₃ =>
        rw [hconclude] at h
        cases h
      | ok result w₃ =>
        rw [hconclude] at h
        cases h
        rcases hnew with ⟨hall, hrun⟩ | ⟨hother, w₂', hrun, hreject⟩
        · rw [hrun]
          exact .inl ⟨hall, hconclude⟩
        · rw [hrun]
          refine .inr ⟨hother, fun storage' w'' => ?_⟩
          -- the two writes behind the loop leave `storage_buffer` as it is
          exact conclude_of_rejected
            (w := { w₂' with trace := w₂'.trace ++ [Event.waitEnd], pendingData := false }) hreject

/-- **A reply is accepted exactly when no reply before it stops the wait.**  Let the promised
wait accept a reply within the limits.  Then the library accepts it too, and the method
returns the value decoded from it, if and only if every reply passed over before differs
from the request in the header and in the opcode. -/
theorem Exchange.answer_accepts_iff (events : Prog Unit) (e : Exchange) {w w' : World}
    {skipped : List (Memory UInt8)} {storage : Memory UInt8}
    (hseek : (e.seek events).run w = .ok (skipped, .accepted storage) w') :
    (∃ w'', (e.answer events).run w = .ok (.accepted storage) w'' ∧
      ∀ otherwise stages, (runStages events otherwise (.request true e :: stages)).run w =
        .ok (e.decode storage) w'') ↔
    ∀ s ∈ skipped, foreign s (e.key w) = true := by
  have hanswer := @awaitReply_of_seekReply events (e.key w) _ _ _ _ _ _ hseek
  constructor
  · rintro ⟨w'', hrun, -⟩
    rcases hanswer with ⟨hall, -⟩ | ⟨-, hnone⟩
    · exact hall
    · exact absurd hrun (hnone storage w'')
  · intro hall
    rcases hanswer with ⟨-, hrun⟩ | ⟨⟨s, hs, hother⟩, -⟩
    · exact ⟨w', hrun, runStages_of_accepted hrun⟩
    · exact absurd (hall s hs) (by rw [hother]; exact Bool.false_ne_true)

/-! ## A reply to an earlier request -/

/-- `events()` of a program whose handlers do nothing. -/
def bareEvents : Prog Unit := do
  let _ ← events (pure ())

def Result.isAccepted : Result → Bool
  | .accepted _ => true
  | _ => false

theorem Result.eq_accepted {r : Result} (h : r.isAccepted = true) :
    ∃ storage, r = .accepted storage := by
  cases r with
  | accepted storage => exact ⟨storage, rfl⟩
  | timedOut => cases h
  | unanswered => cases h

/-- A reply with this header and opcode comes before the one that `format()` waits for.
Irreducible, so that runs from it are evaluated only where this is asked for. -/
@[irreducible] def replyBefore (high low opcode : UInt8) : World :=
  .powerUp (⟨0, [0x24, 0x00, 0x07, 0xAA, 0x55, high, low, opcode, 0x00,
      0xFF ^^^ high ^^^ low ^^^ opcode,
    0x24, 0x00, 0x07, 0xAA, 0x55, 0x34, 0x34, 0x03, 0x01, 0xFD]⟩ ::
    List.replicate 100 ⟨0, []⟩) [] fun _ _ => 0

/-- The reply to `exists()` makes `format()` give up, although its own reply is there. -/
theorem format_gives_up : ¬∀ (c : Call) (e : Exchange), .request true e ∈ c.method.stages →
    ∀ w w' skipped storage,
      (e.seek bareEvents).run w = .ok (skipped, .accepted storage) w' →
      ∃ w'', (e.answer bareEvents).run w = .ok (.accepted storage) w'' := by
  intro h
  have hloses := h (.spiffs { Object.initial with spiffs := true } .format) formatExchange
    (List.mem_singleton.mpr rfl) (replyBefore 0x34 0x34 0x02)
  have hseek : (formatExchange.seek bareEvents).Returns (replyBefore 0x34 0x34 0x02)
      fun r _ => r.2.isAccepted = true := by decide +kernel
  have hanswer : (formatExchange.answer bareEvents).Returns (replyBefore 0x34 0x34 0x02)
      fun r _ => r.isAccepted = false := by decide +kernel
  obtain ⟨⟨skipped, r⟩, w', hrun, haccepted⟩ := hseek.exists_ok
  obtain ⟨storage, rfl⟩ := Result.eq_accepted haccepted
  obtain ⟨w'', hrun'⟩ := hloses _ _ _ hrun
  exact Bool.noConfusion (hanswer.of_ok hrun')

/-- A reply that differs in header and opcode is passed over. -/
theorem format_passes_over_foreign : ∃ storage w'',
    (formatExchange.answer bareEvents).run (replyBefore 0x32 0x32 0x02) =
      .ok (.accepted storage) w'' := by
  have hseek : (formatExchange.seek bareEvents).Returns (replyBefore 0x32 0x32 0x02)
      fun r _ => r.2.isAccepted = true ∧
        ∀ s ∈ r.1, foreign s (formatExchange.key (replyBefore 0x32 0x32 0x02)) = true := by
    decide +kernel
  obtain ⟨⟨skipped, r⟩, w', hrun, haccepted, hall⟩ := hseek.exists_ok
  obtain ⟨storage, rfl⟩ := Result.eq_accepted haccepted
  obtain ⟨w'', hanswer, -⟩ :=
    (Exchange.answer_accepts_iff bareEvents formatExchange hrun).mpr hall
  exact ⟨storage, w'', hanswer⟩

end Teensquitto
