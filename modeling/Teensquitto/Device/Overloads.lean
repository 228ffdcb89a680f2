import Teensquitto.Device.Blocks
import Teensquitto.Method.Overload
import Teensquitto.Wire.Wrapping

/-!
# Overloads side by side

Overloads of one operation, given the same strings, are the same program, but for
`remove(const String&)`, which asks whether the file exists.

## Main definitions

* `Overload.run`: a call of an overload
* `SendsFirst`: a block is the first that is written

## Main results

* `Overload.run_eq`: an overload runs the method that is asked for
* `Overload.run_eq_iff`: when two overloads of one operation agree
-/

namespace Teensquitto

open EStateM

/-- A call of an overload: its own test, then the method it passes its arguments to. -/
def Overload.run (events : Prog Unit) (o : Object) (e : Overload) : Prog Value :=
  if e.passes o then Method.run events (e.call o).method else return .zero

/-! ## The first block -/

/-- The block is the first that is written between two states. -/
def SendsFirst (block : List UInt8) (w w' : World) : Prop :=
  ∃ blocks, w'.sent = w.sent ++ block :: blocks

theorem SendsFirst.trans {block : List UInt8} {S : List UInt8 → Prop} {w w' w'' : World}
    (h : SendsFirst block w w') (h' : Sends S w' w'') : SendsFirst block w w'' := by
  rcases h with ⟨blocks, hsent⟩
  rcases h' with ⟨blocks', hsent', -⟩
  exact ⟨blocks ++ blocks', by rw [hsent', hsent, List.append_assoc, List.cons_append]⟩

theorem SendsFirst.eq {block block' : List UInt8} {w w' : World} (h : SendsFirst block w w')
    (h' : SendsFirst block' w w') : block = block' := by
  rcases h with ⟨blocks, hsent⟩
  rcases h' with ⟨blocks', hsent'⟩
  exact (List.cons.inj (List.append_cancel_left (hsent.symm.trans hsent'))).1

section First

variable {S : List UInt8 → Prop} {events : Prog Unit}

/-- A program that goes on after the first block is written. -/
theorem ends_sendsFirst_bind {α β : Type} {block : List UInt8} {m : Prog α} {f : α → Prog β}
    {w : World}
    (h : m.Ends w (fun _ => SendsFirst block w) fun _ => SendsFirst block w)
    (hf : ∀ a, (f a).Along (Sends S)) :
    (m >>= f).Ends w (fun _ => SendsFirst block w) fun _ => SendsFirst block w := by
  refine h.bind fun a w' hw' => ?_
  exact (hf a w').mono (fun _ _ hs => hw'.trans hs) fun _ _ hs => hw'.trans hs

/-- A block that waits writes its command first. -/
theorem ends_sendsFirst_request (hevents : events.Along (Sends S)) (e : Exchange) (w : World) :
    ((Stage.request true e).run events).Ends w
      (fun _ => SendsFirst (e.command.emit (w.stray w.clock)) w)
      fun _ => SendsFirst (e.command.emit (w.stray w.clock)) w := by
  have hwrite : (writeCommand e.command).Ends w
      (fun _ => SendsFirst (e.command.emit (w.stray w.clock)) w)
      fun _ => SendsFirst (e.command.emit (w.stray w.clock)) w := ⟨[], rfl⟩
  -- what follows the command only appends to the bytes sent
  have hanswer : (e.answer events).Ends w
      (fun _ => SendsFirst (e.command.emit (w.stray w.clock)) w)
      fun _ => SendsFirst (e.command.emit (w.stray w.clock)) w :=
    ends_sendsFirst_bind hwrite fun _ => sends_requests.along_awaitReply hevents _ _ _
  exact ends_sendsFirst_bind (S := S) hanswer fun _ => Along.pure _

theorem ends_sendsFirst_runStages (hevents : events.Along (Sends S)) (e : Exchange)
    {stages : List Stage} {otherwise : Value} (w : World)
    (hstages : (runStages events otherwise stages).Along (Sends S)) :
    (runStages events otherwise (.request true e :: stages)).Ends w
      (fun _ => SendsFirst (e.command.emit (w.stray w.clock)) w)
      fun _ => SendsFirst (e.command.emit (w.stray w.clock)) w := by
  refine ends_sendsFirst_bind (S := S) (ends_sendsFirst_request hevents e w) fun v => ?_
  cases v with
  | some v => exact Along.pure v
  | none => exact hstages

/-- A method whose first block waits writes its command first, once it is past its test for the
ESP. -/
theorem ends_sendsFirst_method (hevents : events.Along (Sends S)) {m : Method} {e : Exchange}
    {stages : List Stage} (hstages : m.stages = .request true e :: stages)
    (hrest : (runStages events m.otherwise stages).Along (Sends S)) {w : World}
    (hguard : m.guard = none ∨ w.espDetected = true) :
    (Method.run events m).Ends w (fun _ => SendsFirst (e.command.emit (w.stray w.clock)) w)
      fun _ => SendsFirst (e.command.emit (w.stray w.clock)) w := by
  have hrun : (runStages events m.otherwise m.stages).Ends w
      (fun _ => SendsFirst (e.command.emit (w.stray w.clock)) w)
      fun _ => SendsFirst (e.command.emit (w.stray w.clock)) w := by
    rw [hstages]
    exact ends_sendsFirst_runStages hevents e w hrest
  rw [Method.run, ends_bind, ends_get]
  rcases hm : m.guard with _ | v
  · exact hrun
  · have hdetected : w.espDetected = true := by
      rcases hguard with hnone | hdetected
      · rw [hm] at hnone
        cases hnone
      · exact hdetected
    simp only [hdetected, if_pos]
    exact hrun

end First

/-! ## Overloads -/

namespace Overload

variable {events : Prog Unit} {o : Object}

/-- A method of one block does nothing while the ESP is not detected, or when the block is not
entered. -/
theorem run_guarded_of_not {active : Bool} {default : Value} (x : Exchange) {w : World}
    (h : active = false ∨ w.espDetected = false) :
    (Method.run events (.guarded default [.request active x])).run w = .ok default w := by
  rw [Method.run, EStateM.run_bind, EStateM.run_get]
  dsimp only [Method.guarded]
  split
  · next hdetected =>
    obtain rfl : active = false := h.resolve_right (ne_false_of_eq_true hdetected)
    rfl
  · rfl

/-- **An overload runs the method that is asked for**, unless it is `remove(const String&)`. -/
theorem run_eq (o : Object) {e : Overload} (h : e.isRemoveString = false) :
    e.run events o = Method.run events (e.operation.method o) := by
  have hmethod := method_call o h
  by_cases hpasses : e.passes o = true
  · rw [run, if_pos hpasses, hmethod]
  -- the overloads with a test of their own test what the method tests behind the ESP
  have hskip : ∀ (active : Bool) (x : Exchange), active = false →
      pure Value.zero = Method.run events (.guarded .zero [.request active x]) := fun _ x hactive =>
    funext fun _ => (run_guarded_of_not x (.inl hactive)).symm
  rw [run, if_neg hpasses]
  have hoff : ∀ b : Bool, (o.wifi != 255) = false → (o.wifi != 255 && b) = false := by
    intro b hb
    rw [hb, Bool.false_and]
  cases e
  case beginChars ssid passphrase channel bssid connect =>
    have hrole : (o.wifi != 255) = false := Bool.eq_false_of_not_eq_true hpasses
    rcases passphrase with _ | passphrase
    · exact hskip _ _ hrole
    rcases bssid with _ | bssid
    · exact hskip _ _ hrole
    · exact hskip _ _ hrole
  case hostnameConstChars => exact hskip _ _ (hoff _ (Bool.eq_false_of_not_eq_true hpasses))
  case hostnameString => exact hskip _ _ (hoff _ (Bool.eq_false_of_not_eq_true hpasses))
  all_goals exact absurd rfl hpasses

/-- `remove(const String&)` runs `exists`. -/
theorem run_eq_of_isRemoveString (events : Prog Unit) (o : Object) {e : Overload}
    (h : e.isRemoveString = true) :
    ∃ path, e.operation = .remove path ∧
      e.run events o = Method.run events (SpiffsCall.method o (.exists path)) := by
  cases e
  case removeString path => exact ⟨cStr path, rfl, rfl⟩
  all_goals cases h

/-- While the ESP is detected, a `SPIFFS` object writes different frames for `exists` and
`remove`. -/
theorem run_exists_ne_remove {S : List UInt8 → Prop} (hevents : events.Along (Sends S))
    (path : CString) (hrole : o.spiffs = true) {w : World} (hdetected : w.espDetected = true) :
    (Method.run events (SpiffsCall.method o (.exists path))).run w ≠
      (Method.run events (SpiffsCall.method o (.remove path))).run w := by
  intro heq
  have hfirst : ∀ {m : Method} (x : Exchange), m = .guarded .zero [.request o.spiffs x] →
      (Method.run events m).Ends w (fun _ => SendsFirst (x.command.emit (w.stray w.clock)) w)
        fun _ => SendsFirst (x.command.emit (w.stray w.clock)) w := by
    rintro _ x rfl
    rw [hrole]
    exact ends_sendsFirst_method hevents rfl (Along.pure _) (.inr hdetected)
  have hexists := hfirst (m := SpiffsCall.method o (.exists path)) _ rfl
  have hremove := hfirst (m := SpiffsCall.method o (.remove path)) _ rfl
  obtain ⟨w', h, h'⟩ := (hexists.and ((ends_congr heq).mpr hremove)).exists_final
  -- one first block is that of `exists`, the other that of `remove`
  exact Command.emit_ne_of_opcode_ne (by rfl) (by rfl) (by rfl) (by rfl) (by rfl) (by rfl)
    (show (0x02 : UInt8) ≠ 0x04 by decide) (h.eq h')

/-- `exists` and `remove` come to the same exactly when neither does anything. -/
theorem run_exists_eq_remove_iff {S : List UInt8 → Prop} (hevents : events.Along (Sends S))
    (path : CString) {w : World} :
    (Method.run events (SpiffsCall.method o (.exists path))).run w =
      (Method.run events (SpiffsCall.method o (.remove path))).run w ↔
      o.spiffs = false ∨ w.espDetected = false := by
  constructor
  · intro heq
    rcases hrole : o.spiffs with _ | _
    · exact .inl rfl
    rcases hdetected : w.espDetected with _ | _
    · exact .inr rfl
    · exact absurd heq (run_exists_ne_remove hevents path hrole hdetected)
  · intro h
    exact (run_guarded_of_not _ h).trans (run_guarded_of_not _ h).symm

/-- **Overloads agree**: two overloads of one operation, given the same strings, return the same
value and leave the same state and the same bytes, unless one of them is `remove(const String&)` on
a `SPIFFS` object while the ESP is detected. -/
theorem run_eq_iff {e e' : Overload} (h : e.operation = e'.operation) (depth : ℕ) (o : Object)
    (w : World) :
    (e.run (polling depth) o).run w = (e'.run (polling depth) o).run w ↔
      e.isRemoveString = e'.isRemoveString ∨ o.spiffs = false ∨ w.espDetected = false := by
  have hevents := sends_polling depth
  rcases he : e.isRemoveString with _ | _ <;> rcases he' : e'.isRemoveString with _ | _
  · -- both run the method of the operation
    rw [run_eq o he, run_eq o he', h]
    simp
  · -- `e'` runs `exists`, `e` runs `remove`
    obtain ⟨path, hop, hrun⟩ := run_eq_of_isRemoveString (polling depth) o he'
    rw [run_eq o he, h, hrun, hop, eq_comm, StringOperation.method]
    simpa using run_exists_eq_remove_iff hevents path
  · obtain ⟨path, hop, hrun⟩ := run_eq_of_isRemoveString (polling depth) o he
    rw [run_eq o he', ← h, hrun, hop, StringOperation.method]
    simpa using run_exists_eq_remove_iff hevents path
  · obtain ⟨path, hop, hrun⟩ := run_eq_of_isRemoveString (polling depth) o he
    obtain ⟨path', hop', hrun'⟩ := run_eq_of_isRemoveString (polling depth) o he'
    rw [hop, hop'] at h
    cases h
    rw [hrun, hrun']
    simp

/-- `rename` from `a` to `b`, with `String`s and with C strings. -/
theorem run_eq_iff_rename :
    ((renameString [0x61] [0x62]).run (polling 1) { Object.initial with spiffs := true }).run
        { World.powerUp [] [] (fun _ _ => 0) with espDetected := true } =
      ((renameChars (cStr [0x61]) (cStr [0x62])).run (polling 1)
        { Object.initial with spiffs := true }).run
        { World.powerUp [] [] (fun _ _ => 0) with espDetected := true } :=
  (run_eq_iff (by rfl) 1 _ _).mpr (.inl rfl)

/-- The two overloads of `remove` write different frames for the file `a`. -/
theorem remove_overloads_differ : ¬∀ e e' : Overload, e.operation = e'.operation →
    ∀ (depth : ℕ) (o : Object) (w : World),
      (e.run (polling depth) o).run w = (e'.run (polling depth) o).run w := by
  intro hall
  exact run_exists_ne_remove (sends_polling 0) (cStr [0x61]) rfl rfl
    (hall (.removeString [0x61]) (.removeChars (cStr [0x61])) rfl 0
      { Object.initial with spiffs := true }
      { World.powerUp [] [] (fun _ _ => 0) with espDetected := true })

end Overload

end Teensquitto
