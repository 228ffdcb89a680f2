import Mathlib.Algebra.Order.BigOperators.Group.List
import Mathlib.Algebra.Order.Ring.Nat
import Mathlib.Tactic.MkIffOfInductiveProp
import Teensquitto.Method.Call
import Teensquitto.Wire.Frames

/-!
# The frames of the methods

All methods but `hostByName` declare `data_pos` wide enough for their fixed arrays, or as a
`uint16_t`, and no command mixes strings with raw bytes.  So the commands of a call are
valid frames, and its strings are recovered, under conditions on its arguments alone.

## Main definitions

* `Method.Writes`: the commands a method may write
* `Call.EmitsValid`, `Call.FramesFit`: all frames of a call are valid, and when they are
* `Call.StringsSurvive`, `Call.StringsFit`: all strings of a call are recovered, and when
  they are

## Main results

* `Call.emitsValid_iff`: when the frames of a call are valid
* `Call.stringsSurvive_iff`: when the strings of a call are recovered
-/

namespace Teensquitto

/-- The command a block may write, with the handlers registered so far. -/
def Stage.command? (h : Handlers) : Stage → Option Command
  | request active e => if active then some e.command else none
  | send active c _ => if active then some c else none
  | update active change command => if active then some (command (change h)) else none
  | undefined _ => none

/-- The commands a method may write. -/
def Method.Writes (m : Method) (h : Handlers) (c : Command) : Prop :=
  ∃ stage ∈ m.stages, stage.command? h = some c

/-- No block with undefined behaviour is entered. -/
def Method.Defined (m : Method) : Prop := ∀ stage ∈ m.stages, stage ≠ .undefined true

/-! ## Regular commands -/

/-- The index is as wide as the array, or a `uint16_t`, and strings and raw bytes are not
mixed. -/
@[mk_iff]
structure Command.Regular (c : Command) : Prop where
  index : c.indexBits = 16 ∨ c.indexBits = 32 ∨ c.indexBits = 8 ∧ c.size ≤ 256
  area : c.text = [] ∨ c.body = []

/-- A block that is defined and writes regular commands only. -/
def Stage.Regular (stage : Stage) : Prop :=
  stage ≠ .undefined true ∧ ∀ h c, stage.command? h = some c → c.Regular

/-- A method of such blocks. -/
def Method.Regular (m : Method) : Prop := ∀ stage ∈ m.stages, stage.Regular

section Regular

@[simp] theorem Stage.regular_ask (active : Bool) (limit : ℕ) (onTimeout : Value)
    (decode : Memory UInt8 → Value) (c : Command) :
    (Stage.ask active limit onTimeout decode c).Regular ↔ (active = true → c.Regular) := by
  simp [Stage.Regular, Stage.ask, Stage.command?]

@[simp] theorem Stage.regular_request (active : Bool) (e : Exchange) :
    (Stage.request active e).Regular ↔ (active = true → e.command.Regular) := by
  simp [Stage.Regular, Stage.command?]

@[simp] theorem Stage.regular_send (active : Bool) (c : Command) (result : Option Value) :
    (Stage.send active c result).Regular ↔ (active = true → c.Regular) := by
  simp [Stage.Regular, Stage.command?]

@[simp] theorem Stage.regular_tell (active : Bool) (c : Command) :
    (Stage.tell active c).Regular ↔ (active = true → c.Regular) :=
  Stage.regular_send active c none

@[simp] theorem Stage.regular_update_const (active : Bool) (change : Handlers → Handlers)
    (c : Command) :
    (Stage.update active change fun _ => c).Regular ↔ (active = true → c.Regular) := by
  simp [Stage.Regular, Stage.command?]

theorem Stage.regular_update {active : Bool} {change : Handlers → Handlers}
    {command : Handlers → Command} (hc : ∀ h, (command h).Regular) :
    (Stage.update active change command).Regular := by
  refine ⟨by simp, fun h c hcommand => ?_⟩
  rw [Stage.command?, Option.ite_none_right_eq_some] at hcommand
  exact Option.some.inj hcommand.2 ▸ hc _

@[simp] theorem Stage.regular_update_mqtt (active : Bool) (change : Handlers → Handlers) :
    (Stage.update active change update_mqtt_handlers).Regular :=
  Stage.regular_update fun _ => ⟨.inl rfl, .inl rfl⟩

@[simp] theorem Stage.regular_update_wifi (active : Bool) (change : Handlers → Handlers) :
    (Stage.update active change update_wifi_handlers).Regular :=
  Stage.regular_update fun _ => ⟨.inl rfl, .inl rfl⟩

@[simp] theorem Stage.regular_undefined (active : Bool) :
    (Stage.undefined active).Regular ↔ active = false := by
  simp [Stage.Regular, Stage.command?]

@[simp] theorem Method.regular_guarded (default : Value) (stages : List Stage) :
    (Method.guarded default stages).Regular ↔ ∀ stage ∈ stages, stage.Regular := Iff.rfl

@[simp] theorem Method.regular_unguarded (default : Value) (stages : List Stage) :
    (Method.unguarded default stages).Regular ↔ ∀ stage ∈ stages, stage.Regular := Iff.rfl

@[simp] theorem Method.regular_mk (guard : Option Value) (stages : List Stage)
    (otherwise : Value) :
    (Method.mk guard stages otherwise).Regular ↔ ∀ stage ∈ stages, stage.Regular := Iff.rfl

theorem SpiffsCall.regular (o : Object) (c : SpiffsCall) : (c.method o).Regular := by
  cases c <;> simp [SpiffsCall.method, Command.regular_iff]

theorem StreamCall.regular (o : Object) (c : StreamCall) : (c.method o).Regular := by
  cases c <;> simp [StreamCall.method, Command.regular_iff]

theorem UdpCall.regular (o : Object) (c : UdpCall) : (c.method o).Regular := by
  cases c <;> simp [UdpCall.method, Command.regular_iff]

theorem ClientCall.regular (o : Object) (c : ClientCall) : (c.method o).Regular := by
  cases c <;> simp [ClientCall.method, Command.regular_iff]

theorem MqttCall.regular (o : Object) (c : MqttCall) : (c.method o).Regular := by
  unfold MqttCall.method
  split <;> simp [Command.regular_iff]

theorem WebSocketCall.regular (o : Object) (c : WebSocketCall) : (c.method o).Regular := by
  cases c <;> simp [WebSocketCall.method, Command.regular_iff]

/-- `hostByName` alone declares a `uint8_t` index over an array of variable length. -/
theorem WiFiCall.regular (o : Object) (c : WiFiCall)
    (hc : ∀ name timeout_ms, c ≠ .hostByName name timeout_ms) : (c.method o).Regular := by
  cases c with
  | hostByName name timeout_ms => exact absurd rfl (hc name timeout_ms)
  | setHostname name =>
    -- the name is checked to have at most 32 characters
    simp only [WiFiCall.method, Method.regular_guarded, List.forall_mem_singleton,
      Stage.regular_ask, Command.regular_iff, Bool.and_eq_true, decide_eq_true_iff]
    exact fun hactive => ⟨.inr (.inr ⟨trivial, by omega⟩), .inr trivial⟩
  | beginNetwork ssid passphrase channel bssid connect =>
    cases passphrase with
    | none => simp [WiFiCall.method, Command.regular_iff]
    | some passphrase => cases bssid <;> simp [WiFiCall.method, Command.regular_iff]
  | _ => simp [WiFiCall.method, Command.regular_iff]

/-- `softAP` alone measures a null pointer. -/
theorem AccessPointCall.regular (o : Object) (c : AccessPointCall)
    (hc : ∀ ssid channel hidden max, c ≠ .softAP ssid none channel hidden max) :
    (c.method o).Regular := by
  cases c with
  | softAP ssid passphrase channel hidden max =>
    cases passphrase with
    | none => exact absurd rfl (hc ssid channel hidden max)
    | some passphrase => simp [AccessPointCall.method, Command.regular_iff]
  | _ => simp [AccessPointCall.method, Command.regular_iff]

theorem EspCall.regular (o : Object) (c : EspCall) : (c.method o).Regular := by
  cases c <;> simp [EspCall.method, Command.regular_iff]

theorem AsyncUdpCall.regular (c : AsyncUdpCall) : c.method.Regular := by
  cases c <;> simp [AsyncUdpCall.method, Command.regular_iff]

end Regular

/-! ## Valid frames -/

/-- The call has no undefined behaviour of its own, and every frame it writes, from an array
of at most 65538 bytes, is valid. -/
def Call.EmitsValid (c : Call) : Prop :=
  c.method.Defined ∧ ∀ h cmd, c.method.Writes h cmd → cmd.size ≤ 65538 → cmd.ValidFrame

/-- The names of `hostByName` have at most 244 characters, the passphrase of `softAP` is not
null, and no array with a `uint16_t` index has 65537 or 65538 bytes. -/
def Call.FramesFit (c : Call) : Prop :=
  match c with
  | .wifi o (.hostByName name _) =>
    o.wifi ≠ 255 → name.strlen + 12 ≤ 65538 → name.strlen ≤ 244
  | .accessPoint o (.softAP _ none _ _ _) => o.wifi = 255
  | _ => ∀ h cmd, c.method.Writes h cmd → cmd.size ≤ 65538 → cmd.indexBits = 16 →
    cmd.size ≤ 65536

/-- The calls with neither an index that is too narrow nor a null pointer. -/
def Call.isRegular : Call → Bool
  | .wifi _ (.hostByName _ _) => false
  | .accessPoint _ (.softAP _ none _ _ _) => false
  | _ => true

theorem Call.regular (c : Call) (hc : c.isRegular = true) : c.method.Regular := by
  cases c with
  | spiffs o call => exact call.regular o
  | stream o call => exact call.regular o
  | udp o call => exact call.regular o
  | client o call => exact call.regular o
  | mqtt o call => exact call.regular o
  | webSocket o call => exact call.regular o
  | wifi o call =>
    refine call.regular o fun name timeout_ms h => ?_
    subst h
    exact absurd hc Bool.false_ne_true
  | accessPoint o call =>
    refine call.regular o fun ssid channel hidden max h => ?_
    subst h
    exact absurd hc Bool.false_ne_true
  | esp o call => exact call.regular o
  | asyncUdp call => exact call.regular

theorem Method.Regular.command {m : Method} (hm : m.Regular) {h : Handlers} {cmd : Command}
    (hw : m.Writes h cmd) : cmd.Regular := by
  obtain ⟨stage, hmem, hcommand⟩ := hw
  exact (hm stage hmem).2 h cmd hcommand

theorem Method.Regular.defined {m : Method} (hm : m.Regular) : m.Defined :=
  fun stage hmem => (hm stage hmem).1

/-- Over a regular command, only an array past a `uint16_t` index is not a valid frame. -/
theorem Command.Regular.validFrame_iff {cmd : Command} (hr : cmd.Regular)
    (hsize : cmd.size ≤ 65538) : cmd.ValidFrame ↔ (cmd.indexBits = 16 → cmd.size ≤ 65536) := by
  rw [Command.validFrame_iff hsize]
  rcases hr.index with h16 | h32 | ⟨h8, hle⟩
  · rw [h16]
    exact ⟨fun hle _ => hle, fun hle => hle rfl⟩
  · rw [h32]
    exact iff_of_true (hsize.trans (by decide)) fun h => absurd h (by decide)
  · rw [h8]
    exact iff_of_true hle fun h => absurd h (by decide)

theorem writes_hostByName_iff {o : Object} {name : CString} {timeout_ms : UInt32}
    {h : Handlers} {cmd : Command} :
    ((WiFiCall.hostByName name timeout_ms).method o).Writes h cmd ↔
      o.wifi ≠ 255 ∧ cmd = hostByNameCommand name timeout_ms := by
  constructor
  · rintro ⟨stage, hmem, hcommand⟩
    obtain rfl := List.mem_singleton.mp hmem
    rw [Stage.ask, Stage.command?, Option.ite_none_right_eq_some] at hcommand
    exact ⟨by simpa using hcommand.1, (Option.some.inj hcommand.2).symm⟩
  · rintro ⟨hrole, rfl⟩
    refine ⟨_, List.mem_singleton_self _, ?_⟩
    rw [Stage.ask, Stage.command?, if_pos (by simpa using hrole)]
    rfl

theorem defined_softAP_none_iff (o : Object) (ssid : CString) (channel hidden max : UInt32) :
    ((AccessPointCall.softAP ssid none channel hidden max).method o).Defined ↔ o.wifi = 255 := by
  simp [Method.Defined, AccessPointCall.method, Method.guarded]

theorem not_writes_softAP_none (o : Object) (ssid : CString) (channel hidden max : UInt32)
    (h : Handlers) (cmd : Command) :
    ¬ ((AccessPointCall.softAP ssid none channel hidden max).method o).Writes h cmd := by
  simp [Method.Writes, AccessPointCall.method, Method.guarded, Stage.command?]

/-- **The frames of a call are valid exactly when they fit.** -/
theorem Call.emitsValid_iff (c : Call) : c.EmitsValid ↔ c.FramesFit := by
  unfold Call.FramesFit
  split
  · next o name timeout_ms =>
    constructor
    · rintro ⟨-, hvalid⟩ hrole hsize
      have hframe := hvalid .initial _ (writes_hostByName_iff.mpr ⟨hrole, rfl⟩) hsize
      have hle : name.strlen + 12 ≤ 2 ^ 8 := (Command.validFrame_iff hsize).mp hframe
      omega
    · intro hfit
      refine ⟨by simp [Call.method, Method.Defined, WiFiCall.method, Stage.ask], ?_⟩
      intro h cmd hw hsize
      obtain ⟨hrole, rfl⟩ := writes_hostByName_iff.mp hw
      have hle : name.strlen + 12 ≤ 2 ^ 8 := Nat.add_le_add_right (hfit hrole hsize) 12
      exact (Command.validFrame_iff hsize).mpr hle
  · next o ssid channel hidden max =>
    constructor
    · exact fun hvalid => (defined_softAP_none_iff o ssid channel hidden max).mp hvalid.1
    · exact fun hrole => ⟨(defined_softAP_none_iff o ssid channel hidden max).mpr hrole,
        fun h cmd hw => absurd hw (not_writes_softAP_none o ssid channel hidden max h cmd)⟩
  · next hname hnull =>
    have hc : c.isRegular = true := by
      unfold Call.isRegular
      split
      · exact (hname _ _ _ rfl).elim
      · exact (hnull _ _ _ _ _ rfl).elim
      · rfl
    have hr := c.regular hc
    constructor
    · rintro ⟨-, hvalid⟩ h cmd hw hsize
      exact ((hr.command hw).validFrame_iff hsize).mp (hvalid h cmd hw hsize)
    · exact fun hfit => ⟨hr.defined, fun h cmd hw hsize =>
        ((hr.command hw).validFrame_iff hsize).mpr (hfit h cmd hw hsize)⟩

/-- A string of `n` equal characters. -/
def CString.repeated (n : ℕ) (x : UInt8) (hx : x ≠ 0) : CString where
  bytes := List.replicate n x
  noNul h := hx (List.eq_of_mem_replicate h).symm

@[simp] theorem CString.strlen_repeated (n : ℕ) (x : UInt8) (hx : x ≠ 0) :
    (CString.repeated n x hx).strlen = n :=
  List.length_replicate

/-- A name of 245 characters is legal, but its frame is not valid. -/
theorem hostByName_not_emitsValid :
    ¬ (Call.wifi { Object.initial with wifi := 0 }
      (.hostByName (.repeated 245 0x61 (by decide)) 5000)).EmitsValid := by
  intro h
  have hsize : (CString.repeated 245 0x61 (by decide)).strlen + 12 ≤ 65538 := by
    rw [CString.strlen_repeated]
    decide
  have hframe := h.2 .initial _ (writes_hostByName_iff.mpr ⟨by decide, rfl⟩) hsize
  have hle : (CString.repeated 245 0x61 (by decide)).strlen + 12 ≤ 2 ^ 8 :=
    (Command.validFrame_iff hsize).mp hframe
  rw [CString.strlen_repeated] at hle
  exact absurd hle (by decide)

/-! ## Strings -/

/-- The calls that send a text with a four-byte length. -/
def Call.sendsText : Call → Bool
  | .webSocket _ (.sendTXT _ _) => true
  | .webSocket _ (.sendTXTTo _ _ _) => true
  | .webSocket _ (.broadcastTXT _ _) => true
  | _ => false

/-- The call has no undefined behaviour of its own, and the strings of every command it
writes, from an array of at most 65538 bytes, are recovered from the frame. -/
def Call.StringsSurvive (c : Call) : Prop :=
  c.method.Defined ∧ ∀ h cmd, c.method.Writes h cmd → cmd.size ≤ 65538 →
    cmd.SplitsBack ∧ (c.sendsText = true → cmd.BodySplitsBack)

/-- Every string with a one-byte length has at most 255 characters, a name of `hostByName`
at most 245, the passphrase of `softAP` is not null, and no text message makes an array of
65538 bytes. -/
def Call.StringsFit (c : Call) : Prop :=
  match c with
  | .wifi o (.hostByName name _) =>
    o.wifi ≠ 255 → name.strlen + 12 ≤ 65538 → name.strlen ≤ 245
  | .accessPoint o (.softAP _ none _ _ _) => o.wifi = 255
  | _ => ∀ h cmd, c.method.Writes h cmd → cmd.size ≤ 65538 →
    (∀ s ∈ cmd.text, s.strlen ≤ 255) ∧ (c.sendsText = true → cmd.size ≤ 65537)

theorem Command.Regular.indexBits_ge {cmd : Command} (hr : cmd.Regular) : 8 ≤ cmd.indexBits := by
  rcases hr.index with h | h | ⟨h, -⟩ <;> omega

/-- The strings of a regular command fit its index when they fit their length bytes. -/
theorem Command.Regular.size_le {cmd : Command} (hr : cmd.Regular) (hbody : cmd.body = [])
    (htext : ∀ s ∈ cmd.text, s.strlen ≤ 255) : cmd.size ≤ 2 ^ cmd.indexBits + 1 := by
  have hsize := cmd.size_eq
  have hargs := cmd.args_le
  have hcount : cmd.text.length ≤ cmd.args.length := by
    rw [← cmd.lengths_eq]
    exact List.length_filterMap_le _ _
  have hsum : (cmd.text.map CString.strlen).sum ≤ cmd.text.length * 255 := by
    simpa using List.sum_le_card_nsmul (cmd.text.map CString.strlen) 255 (by simpa using htext)
  rw [hbody, List.length_nil] at hsize
  have hsmall : cmd.size ≤ 2 ^ 16 := by
    have := Nat.mul_le_mul_right 255 (hcount.trans hargs)
    omega
  rcases hr.index with h | h | ⟨h, hle⟩
  · rw [h]
    omega
  · rw [h]
    omega
  · rw [h]
    omega

/-- Over a regular command, only the length bytes can lose a string. -/
theorem Command.Regular.splitsBack_iff {cmd : Command} (hr : cmd.Regular) :
    cmd.SplitsBack ↔ ∀ s ∈ cmd.text, s.strlen ≤ 255 := by
  rcases hr.area with htext | hbody
  · exact iff_of_true (Command.splitsBack_of_text_eq_nil htext) (by simp [htext])
  · rw [Command.splitsBack_iff hbody hr.indexBits_ge]
    exact ⟨fun h => h.1, fun h => ⟨h, hr.size_le hbody h⟩⟩

/-- The command of a text message. -/
theorem Call.sendsText_command {c : Call} (hc : c.sendsText = true) {h : Handlers}
    {cmd : Command} (hw : c.method.Writes h cmd) :
    cmd.indexBits = 16 ∧ cmd.text = [] ∧
      ∃ args, cmd.args = Arg.word (UInt32.ofNat cmd.body.length) ++ args := by
  obtain ⟨stage, hmem, hcommand⟩ := hw
  unfold Call.sendsText at hc
  split at hc
  case h_4 => exact absurd hc Bool.false_ne_true
  all_goals
    obtain rfl := List.mem_singleton.mp hmem
    rw [Stage.ask, Stage.command?, Option.ite_none_right_eq_some] at hcommand
    obtain rfl := Option.some.inj hcommand.2
    exact ⟨rfl, rfl, _, rfl⟩

/-- **The strings of a call are recovered exactly when they fit**, and then calls with
different strings never write the same frame. -/
theorem Call.stringsSurvive_iff (c : Call) :
    (c.StringsSurvive ↔ c.StringsFit) ∧
      ∀ c' : Call, c.StringsSurvive → c'.StringsSurvive → ∀ h h' cmd cmd',
        c.method.Writes h cmd → c'.method.Writes h' cmd' → cmd.size ≤ 65538 →
          cmd'.size ≤ 65538 → cmd.shape = cmd'.shape →
            cmd.text ≠ cmd'.text ∨
              c.sendsText = true ∧ c'.sendsText = true ∧ cmd.body ≠ cmd'.body →
                ∀ garbage garbage', cmd.emit garbage ≠ cmd'.emit garbage' := by
  refine ⟨?_, ?_⟩
  · unfold Call.StringsFit
    split
    · next o name timeout_ms =>
      constructor
      · rintro ⟨-, hstrings⟩ hrole hsize
        have hsplits := (hstrings .initial _ (writes_hostByName_iff.mpr ⟨hrole, rfl⟩) hsize).1
        have hle : name.strlen + 12 ≤ 2 ^ 8 + 1 :=
          ((Command.splitsBack_iff rfl (Nat.le_refl 8)).mp hsplits).2
        omega
      · intro hfit
        refine ⟨by simp [Call.method, Method.Defined, WiFiCall.method, Stage.ask], ?_⟩
        intro h cmd hw hsize
        obtain ⟨hrole, rfl⟩ := writes_hostByName_iff.mp hw
        have hname : name.strlen ≤ 245 := hfit hrole hsize
        refine ⟨(Command.splitsBack_iff rfl (Nat.le_refl 8)).mpr ⟨?_, ?_⟩,
          fun h => absurd h Bool.false_ne_true⟩
        · intro s hs
          obtain rfl := List.mem_singleton.mp hs
          omega
        · exact Nat.add_le_add_right hname 12
    · next o ssid channel hidden max =>
      constructor
      · exact fun hstrings => (defined_softAP_none_iff o ssid channel hidden max).mp hstrings.1
      · exact fun hrole => ⟨(defined_softAP_none_iff o ssid channel hidden max).mpr hrole,
          fun h cmd hw => absurd hw (not_writes_softAP_none o ssid channel hidden max h cmd)⟩
    · next hname hnull =>
      have hc : c.isRegular = true := by
        unfold Call.isRegular
        split
        · exact (hname _ _ _ rfl).elim
        · exact (hnull _ _ _ _ _ rfl).elim
        · rfl
      have hr := c.regular hc
      have hbody : ∀ h cmd, c.method.Writes h cmd → cmd.size ≤ 65538 → c.sendsText = true →
          (cmd.BodySplitsBack ↔ cmd.size ≤ 65537) := by
        intro h cmd hw hsize htext
        obtain ⟨hbits, hnil, args, hargs⟩ := Call.sendsText_command htext hw
        rw [Command.bodySplitsBack_iff hnil (hr.command hw).indexBits_ge hsize hargs, hbits]
        rfl
      constructor
      · rintro ⟨-, hstrings⟩ h cmd hw hsize
        obtain ⟨hsplits, htext⟩ := hstrings h cmd hw hsize
        exact ⟨(hr.command hw).splitsBack_iff.mp hsplits,
          fun hsends => (hbody h cmd hw hsize hsends).mp (htext hsends)⟩
      · intro hfit
        refine ⟨hr.defined, fun h cmd hw hsize => ?_⟩
        obtain ⟨hlengths, htext⟩ := hfit h cmd hw hsize
        exact ⟨(hr.command hw).splitsBack_iff.mpr hlengths,
          fun hsends => (hbody h cmd hw hsize hsends).mpr (htext hsends)⟩
  · intro c' hc hc' h h' cmd cmd' hw hw' hsize hsize' hshape hdiff garbage garbage' hemit
    obtain ⟨hsplits, hbody⟩ := hc.2 h cmd hw hsize
    obtain ⟨hsplits', hbody'⟩ := hc'.2 h' cmd' hw' hsize'
    rcases hdiff with htext | ⟨hsends, hsends', hne⟩
    · exact htext (Command.text_eq_of_emit_eq hsplits hsplits' hshape hemit)
    · exact hne (Command.body_eq_of_emit_eq (hbody hsends) (hbody' hsends') hshape hemit)

theorem writes_publish {o : Object} (ho : o.mqttSupport = true) (topic payload : CString)
    (h : Handlers) :
    ((MqttCall.publish topic 0 false (some payload) 0 false 0).method o).Writes h
      (publishCommand topic payload) := by
  refine ⟨_, List.mem_singleton_self _, ?_⟩
  rw [Stage.ask, Stage.command?, if_pos ho]
  rfl

/-- A topic of 256 characters with an empty payload makes the frame of an empty topic with a
payload of these 256 characters: both length bytes are zero. -/
theorem publish_frames_collide :
    let o := { Object.initial with mqttSupport := true }
    let s := CString.repeated 256 0x61 (by decide)
    let c := Call.mqtt o (.publish s 0 false (some .empty) 0 false 0)
    let c' := Call.mqtt o (.publish .empty 0 false (some s) 0 false 0)
    ¬ c.StringsSurvive ∧ ∃ cmd cmd', c.method.Writes .initial cmd ∧
      c'.method.Writes .initial cmd' ∧ cmd.size ≤ 65538 ∧ cmd'.size ≤ 65538 ∧
        cmd.text ≠ cmd'.text ∧ ∀ garbage, cmd.emit garbage = cmd'.emit garbage := by
  intro o s c c'
  have hs : s.strlen = 256 := CString.strlen_repeated 256 0x61 (by decide)
  have hempty : CString.empty.strlen = 0 := rfl
  have hw := writes_publish (o := o) rfl s .empty .initial
  have hw' := writes_publish (o := o) rfl .empty s .initial
  have hsize : (publishCommand s .empty).size = 274 := by
    simp only [publishCommand, hs, hempty]
  have hsize' : (publishCommand .empty s).size = 274 := by
    simp only [publishCommand, hs, hempty]
  refine ⟨fun h => ?_, _, _, hw, hw', ?_, ?_, ?_, fun garbage => ?_⟩
  · have hsplits := (h.2 .initial _ hw (by omega)).1
    have hle := ((Command.splitsBack_iff rfl (by decide)).mp hsplits).1 s List.mem_cons_self
    omega
  · omega
  · omega
  · intro htext
    have hlen := congrArg CString.strlen (List.cons.inj htext).1
    omega
  · rw [Command.emit_eq _ garbage (by rw [hsize]; decide),
      Command.emit_eq _ garbage (by rw [hsize']; decide)]
    have hvalue : (Arg.strlen s).value = (Arg.strlen CString.empty).value := by
      rw [Arg.value, hs]
      rfl
    have hbytes : CString.empty.bytes = [] := rfl
    rw [Command.framing, Command.framing, hsize, hsize']
    simp only [publishCommand, Command.payload, List.map_append, List.map_cons, hvalue,
      List.flatMap_cons, List.flatMap_nil, hbytes, List.append_nil, List.nil_append]

end Teensquitto
