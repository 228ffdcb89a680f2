import Teensquitto.Device.Events
import Teensquitto.Dispatch.Fields
import Teensquitto.Receiver.Packets

/-!
# Reads behind the end of a frame

No case of the switch in `processing_data` looks at the length of the frame.  A frame that is
shorter than its header, its sub-code and its embedded lengths call for is read up to and behind
its checksum, and so is every MQTT message.

## Main definitions

* `entrance`: `processing_data` up to its switch
* `fieldReads`: what is read of a frame

## Main results

* `fieldReads_lt_iff`: the reads lie below a bound exactly when the needed length does
* `fields_in_frame_iff`: the fields lie before the checksum exactly when the frame is long enough
* `mqtt_message_reads_behind`: an MQTT message is read behind its end
-/

namespace Teensquitto

/-- `processing_data` up to its switch. -/
def entrance (user : Prog Unit) (src : Source) (len : ℕ) : Prog Unit := do
  refresh src len
  detection user src

theorem processingData_eq (user : Prog Unit) (src : Source) (len : ℕ) :
    processingData user src len = (do
      entrance user src len
      switchHeader user src len) := by
  simp only [processingData, entrance, bind_assoc]

/-- The fields of the frame as the switch finds it. -/
def World.fields (w : World) (debug : Bool) (len : ℕ) : Fields Action :=
  frameFields debug w.pendingData w.handlers.present len

/-- The addresses behind `data` that are read: those of the header, before the switch and by it,
and those of the fields. -/
def World.fieldReads (w : World) (debug : Bool) (src : Source) (len : ℕ) : List ℕ :=
  [0, 1] ++ (w.fields debug len).reads (w.dataAt src)

/-- The length that the frame calls for. -/
def World.neededLength (w : World) (debug : Bool) (src : Source) (len : ℕ) : ℕ :=
  Teensquitto.neededLength w.handlers.present (w.dataAt src) debug w.pendingData len

variable {user : Prog Unit} {src : Source} {len : ℕ} {w w₁ : World}

theorem two_le_neededLength (w : World) (debug : Bool) (src : Source) (len : ℕ) :
    2 ≤ w.neededLength debug src len := by
  rw [World.neededLength, ← extent_frameFields, frameFields, Tracked.extent_bind, extent_halfAt]
  exact Nat.le_max_left _ _

/-- The reads lie below a bound exactly when the needed length does. -/
theorem fieldReads_lt_iff (w : World) (debug : Bool) (src : Source) (len : ℕ) {n : ℕ} :
    (∀ i ∈ w.fieldReads debug src len, i < n) ↔ w.neededLength debug src len ≤ n := by
  have hheader := two_le_neededLength w debug src len
  rw [World.fieldReads, List.forall_mem_append, ← Tracked.extent_le_iff, World.fields,
    extent_frameFields]
  constructor
  · exact fun h => h.2
  · intro h
    refine ⟨?_, h⟩
    have htwo := hheader.trans h
    intro i hi
    rcases List.mem_cons.mp hi with rfl | hi
    · omega
    · rw [List.mem_singleton.mp hi]
      omega

/-- **The fields lie before the checksum** exactly when the frame is as long as its header, its
sub-code and its embedded lengths call for; what is read is all that decides about the action. -/
theorem fields_in_frame_iff (debug : Bool) (hlen : 3 ≤ len)
    (hsrc : ∀ payload, src = .uart payload → payload.length = len)
    (henter : (entrance user src len).run w = .ok () w₁) :
    (processingData user src len).run w =
      (perform user src len ((w₁.fields debug len).value (w₁.dataAt src))).run w₁ ∧
    ((∀ i ∈ w₁.fieldReads debug src len, i < len - 1) ↔
      w₁.neededLength debug src len ≤ len - 1) := by
  have hheader : ∃ header, w₁.header? src = some header := by
    match src, hsrc with
    | .uart (_ :: _ :: _), _ => exact ⟨_, rfl⟩
    | .uart [_], hsrc =>
      have := hsrc _ rfl
      rw [List.length_singleton] at this
      omega
    | .uart [], hsrc =>
      have := hsrc _ rfl
      rw [List.length_nil] at this
      omega
    | .row _, _ => exact ⟨_, rfl⟩
  obtain ⟨header, hheader⟩ := hheader
  refine ⟨?_, fieldReads_lt_iff w₁ debug src len⟩
  rw [processingData_eq, EStateM.run_bind, henter]
  exact switchHeader_run debug hheader

/-- A state in which the clock can be read once. -/
@[irreducible] def once : World := .powerUp [⟨5, []⟩] [] fun _ _ => 0

theorem fields_in_frame_iff_status : ∃ w₁ : World,
    ∀ i ∈ w₁.fieldReads true (.uart [0x72, 0x72, 0x06, 0x06]) 4, i < 4 - 1 := by
  have henter : (entrance (pure ()) (.uart [0x72, 0x72, 0x06, 0x06]) 4).Returns once fun _ w₁ =>
      w₁.neededLength true (.uart [0x72, 0x72, 0x06, 0x06]) 4 ≤ 3 := by decide +kernel
  obtain ⟨_, w₁, hrun, hneeded⟩ := henter.exists_ok
  refine ⟨w₁, (fields_in_frame_iff true (by decide) ?_ hrun).2.mpr hneeded⟩
  rintro payload ⟨⟩
  rfl

/-- The message `hi` under the topic `t`. -/
def messageFrame : List UInt8 :=
  [0xAF, 0xAF, 0x05, 0x00, 0x01, 0x00, 0x00, 0x00, 0x00, 0x00, 0x00, 0x02, 0x00, 0x00, 0x00, 0x00,
    0x00, 0x00, 0x00, 0x02, 0x74, 0x68, 0x69, 0x71]

/-- An MQTT message is read behind its end. -/
theorem mqtt_message_reads_behind : ¬∀ (debug : Bool) (user : Prog Unit) (payload : List UInt8)
    (w w₁ : World), Closed payload → 3 ≤ payload.length →
    (entrance user (.uart payload) payload.length).run w = .ok () w₁ →
    ∀ i ∈ w₁.fieldReads debug (.uart payload) payload.length, i < payload.length - 1 := by
  intro hall
  have henter : (entrance (pure ()) (.uart messageFrame) messageFrame.length).Returns once
      fun _ w₁ => ¬w₁.neededLength false (.uart messageFrame) messageFrame.length ≤
        messageFrame.length - 1 := by decide +kernel
  obtain ⟨_, w₁, hrun, hneeded⟩ := henter.exists_ok
  have hreads := hall false _ messageFrame once w₁ (by decide) (by decide) hrun
  exact hneeded ((fieldReads_lt_iff w₁ false _ _).mp hreads)

end Teensquitto
