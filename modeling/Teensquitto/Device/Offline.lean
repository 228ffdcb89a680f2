import Teensquitto.Device.Overloads

/-!
# Requests while the ESP is not detected

Every method that waits for a reply, but `connect(host, port)`, tests `_esp_detected` before it does
anything else.

## Main definitions

* `Request`: a method or an overload, as a program calls it
* `Request.Inert`: a call that returns its default and leaves the port and the reply alone

## Main results

* `Request.inert_iff`: the requests that are inert while the ESP is not detected
-/

namespace Teensquitto

open EStateM

/-- A public method as a program calls it: itself, or through an overload. -/
inductive Request
  | call (c : Call)
  | overload (o : Object) (e : Overload)

namespace Request

/-- The call that is reached. -/
def reached : Request → Call
  | call c => c
  | overload o e => e.call o

/-- The method that is reached. -/
def method (r : Request) : Method := r.reached.method

/-- The method waits for a reply. -/
def waits (r : Request) : Bool := r.method.stages.any Stage.waits

/-- The value a method returns without a reply. -/
def default (r : Request) : Value := r.method.guard.getD r.method.otherwise

/-- A call. -/
def run (events : Prog Unit) : Request → Prog Value
  | call c => c.run events
  | overload o e => e.run events o

/-- `connect(host, port)` by one of its overloads, on an object that is a client. -/
def connects : Request → Bool
  | call (.stream o (.connectHost _ _)) => o.wificlient != 255 || o.wificlientsecure != 255
  | overload o (.connectString _ _) => o.wificlient != 255 || o.wificlientsecure != 255
  | overload o (.connectChars _ _) => o.wificlient != 255 || o.wificlientsecure != 255
  | _ => false

/-- The call returns the default, writes nothing, does not wait, and leaves the members through
which a reply is passed as they are. -/
structure Inert (events : Prog Unit) (r : Request) (w : World) : Prop where
  returns : (r.run events).Returns w fun v w' =>
    v = r.default ∧ w'.sent = w.sent ∧
      (∃ log, w'.trace = w.trace ++ log ∧ ∀ key, Event.request key ∉ log) ∧
      w'.pendingData = w.pendingData ∧ w'.dataReadyFlag = w.dataReadyFlag ∧
      w'.storageBuffer = w.storageBuffer

/-! ## Requests that test for the ESP -/

section Tested

variable {events : Prog Unit} {w : World}

/-- A method that tests for the ESP returns at once. -/
theorem run_method_of_guard {m : Method} {v : Value} (hguard : m.guard = some v)
    (hoffline : w.espDetected = false) : (Method.run events m).run w = .ok v w := by
  rw [Method.run, hguard, EStateM.run_bind, EStateM.run_get]
  simp only [hoffline, Bool.false_eq_true, if_false, EStateM.run_pure]

/-- `connect(host, port)` on an object that is no client does nothing. -/
theorem run_connectHost_of_not {o : Object} {host : CString} {port : UInt16}
    (h : (o.wificlient != 255 || o.wificlientsecure != 255) = false) :
    (Method.run events (StreamCall.method o (.connectHost host port))).run w =
      .ok .zero w := by
  obtain ⟨hclient, hsecure⟩ := Bool.or_eq_false_iff.mp h
  simp only [StreamCall.method, hclient, hsecure]
  rfl

/-- A method that waits and is no `connect(host, port)` of a client returns its default at once. -/
theorem run_method_of_offline (events : Prog Unit) {r : Request} (hwaits : r.waits = true)
    (hconnects : r.connects = false) (hoffline : w.espDetected = false) :
    (Method.run events r.method).run w = .ok r.default w := by
  have hguarded : r.reached.isConnectHost = false →
      (Method.run events r.method).run w = .ok r.default w := by
    intro hhost
    have htests : r.method.tests = true := r.reached.tests_iff.mpr hhost
    rw [Method.tests, Bool.or_eq_true] at htests
    rcases htests with hsome | hall
    · obtain ⟨v, hguard⟩ := Option.isSome_iff_exists.mp hsome
      rw [run_method_of_guard hguard hoffline, default, hguard]
      rfl
    · -- a method without a test waits nowhere
      obtain ⟨stage, hmem, hstage⟩ := List.any_eq_true.mp hwaits
      have hnot := List.all_eq_true.mp hall stage hmem
      rw [hstage] at hnot
      cases hnot
  -- the calls of `connect(host, port)` that are left are on no client
  cases r with
  | call c =>
    rcases hhost : c.isConnectHost with _ | _
    · exact hguarded hhost
    · cases c with
      | stream o call =>
        cases call with
        | connectHost host port => exact run_connectHost_of_not hconnects
        | _ => cases hhost
      | _ => cases hhost
  | overload o e =>
    cases e with
    | connectString host port => exact run_connectHost_of_not hconnects
    | connectChars host port => exact run_connectHost_of_not hconnects
    | _ => exact hguarded rfl

/-- The run of such a request, with what a call logs. -/
theorem run_of_offline (events : Prog Unit) {r : Request} (hwaits : r.waits = true)
    (hconnects : r.connects = false) (hoffline : w.espDetected = false) :
    ∃ log, (∀ key, Event.request key ∉ log) ∧
      (r.run events).run w = .ok r.default { w with trace := w.trace ++ log } := by
  cases r with
  | call c =>
    -- the call itself is logged, with `_esp_detected`
    refine ⟨[.call c false], fun key hmem => ?_, ?_⟩
    · cases List.mem_singleton.mp hmem
    · have hrun := run_method_of_offline events hwaits hconnects
        (w := { w with trace := w.trace ++ [.call c false] }) hoffline
      rw [← hoffline] at hrun ⊢
      exact hrun
  | overload o e =>
    refine ⟨[], fun key => List.not_mem_nil, ?_⟩
    rw [List.append_nil]
    by_cases hpasses : e.passes o = true
    · rw [run, Overload.run, if_pos hpasses]
      exact run_method_of_offline events hwaits hconnects hoffline
    · -- `hostname` and `begin`, off the role `WiFi`, return zero themselves
      rw [run, Overload.run, if_neg hpasses]
      cases e
      case beginChars ssid passphrase channel bssid connect =>
        rcases passphrase with _ | passphrase
        · rfl
        rcases bssid with _ | bssid
        · rfl
        · rfl
      case hostnameConstChars => rfl
      case hostnameString => rfl
      all_goals exact absurd rfl hpasses

end Tested

/-! ## The request that does not -/

section Untested

variable {events : Prog Unit}

/-- `connect(host, port)` of a client writes its command, detected or not. -/
theorem ends_sendsFirst_connectHost (hevents : events.Along (Sends fun _ => True)) {o : Object}
    (host : CString) (port : UInt16)
    (h : (o.wificlient != 255 || o.wificlientsecure != 255) = true) (w : World) :
    ∃ block, (Method.run events (StreamCall.method o (.connectHost host port))).Ends w
      (fun _ => SendsFirst block w) fun _ => SendsFirst block w := by
  have hrest : ∀ stages : List Stage, (runStages events .zero stages).Along (Sends fun _ => True) :=
    fun stages => sends_requests.along_runStages hevents .zero fun _ _ _ _ _ _ =>
      sends_append trivial
  -- the block of the client comes first, that of the secure client is the last
  rcases hclient : o.wificlient != 255 with _ | _
  · have hsecure : (o.wificlientsecure != 255) = true := by rwa [hclient, Bool.false_or] at h
    simp only [StreamCall.method, hclient, hsecure]
    refine ⟨_, ends_sendsFirst_method (m := .unguarded .zero [.request true _]) hevents (by rfl)
      (hrest []) (.inl rfl)⟩
  · simp only [StreamCall.method, hclient]
    exact ⟨_, ends_sendsFirst_method hevents (by rfl) (hrest _) (.inl rfl)⟩

/-- A request that connects writes its command. -/
theorem ends_sendsFirst_of_connects (hevents : events.Along (Sends fun _ => True)) {r : Request}
    (hconnects : r.connects = true) (w : World) :
    ∃ block, (r.run events).Ends w (fun _ => SendsFirst block w) fun _ => SendsFirst block w := by
  cases r with
  | call c =>
    cases c with
    | stream o call =>
      cases call with
      | connectHost host port =>
        exact ends_sendsFirst_connectHost hevents host port hconnects
          { w with trace := w.trace ++ [.call (.stream o (.connectHost host port)) w.espDetected] }
      | _ => cases hconnects
    | _ => cases hconnects
  | overload o e =>
    cases e with
    | connectString host port =>
      exact ends_sendsFirst_connectHost hevents (cStr host) port hconnects w
    | connectChars host port => exact ends_sendsFirst_connectHost hevents host port hconnects w
    | _ => cases hconnects

theorem not_inert_of_connects (depth : ℕ) {r : Request} (hconnects : r.connects = true)
    (w : World) : ¬r.Inert (polling depth) w := by
  intro hinert
  have hevents : (polling depth).Along (Sends fun _ => True) := fun w =>
    (sends_polling depth w).mono (fun _ _ h => h.mono fun _ _ => trivial)
      fun _ _ h => h.mono fun _ _ => trivial
  obtain ⟨block, hfirst⟩ := ends_sendsFirst_of_connects hevents hconnects w
  obtain ⟨v, w', hrun, -, hsent, -⟩ := hinert.returns.exists_ok
  obtain ⟨blocks, hblocks⟩ := hfirst.of_ok hrun
  -- a block was written, and nothing was
  rw [hsent] at hblocks
  exact List.cons_ne_nil _ _ (List.self_eq_append_right.mp hblocks)

end Untested

/-- **Requests are inert while the ESP is not detected**, all but `connect(host, port)` of a
client. -/
theorem inert_iff (depth : ℕ) {r : Request} {w : World} (hwaits : r.waits = true)
    (hoffline : w.espDetected = false) :
    r.Inert (polling depth) w ↔ r.connects = false := by
  constructor
  · intro hinert
    by_contra hconnects
    exact not_inert_of_connects depth (Bool.eq_true_of_not_eq_false hconnects) w hinert
  · intro hconnects
    obtain ⟨log, hlog, hrun⟩ := run_of_offline (polling depth) hwaits hconnects hoffline
    exact ⟨(ends_of_ok hrun).mpr ⟨rfl, rfl, ⟨log, rfl, hlog⟩, rfl, rfl, rfl⟩⟩

/-- `AsyncUDP::connected()` after the ESP was lost. -/
theorem inert_iff_connected :
    (call (.asyncUdp .connected)).Inert (polling 1)
      { World.powerUp [] [] (fun _ _ => 0) with espDetected := false } :=
  (inert_iff 1 (by rfl) (by rfl)).mpr (by rfl)

/-- `connect("a", 80)` of a client is not inert. -/
theorem connectHost_not_inert :
    ¬∀ r : Request, r.waits = true → ∀ (depth : ℕ) (w : World), w.espDetected = false →
      r.Inert (polling depth) w := by
  intro hall
  exact not_inert_of_connects 0 (by rfl) _
    (hall (call (.stream { Object.initial with wificlient := 0 } (.connectHost (cStr [0x61]) 80)))
      (by rfl) 0 { World.powerUp [] [] (fun _ _ => 0) with espDetected := false } (by rfl))

end Request

end Teensquitto
