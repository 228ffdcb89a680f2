import Teensquitto.Device.Effects
import Teensquitto.Program.Spending
import Teensquitto.Receiver.Truncation

/-!
# Waits with a limit

The waits compare differences of `millis()`, which are exact over the wrap-around of the clock as
long as one round of a wait loop is short against it.  So a wait ends soon after its limit, whatever
arrives.  A program is given a budget of milliseconds.

## Main definitions

* `Setting`: how far apart the readings are, and what the handlers do
* `World.Affords`: a state with some milliseconds to go
* `Lasts`, `LastsFromNow`: a program lasts at most so many milliseconds

## Main results

* `ends_round`, `lastsFromNow_loop`: a wait ends with the first round after its limit
* `lastsFromNow_byteLoop`: every byte restarts the limit, and leaves fewer to wait for
* `lasts_uart`: the receiver
-/

namespace Teensquitto

variable {α β γ : Type}

/-- What is known about a run: up to the readings in `rest` those of the clock and the port are at
most `pace` milliseconds apart, and each of the coming handler calls, of which `scripts` do
anything, makes at most `calls` calls.  With a number in `still`, so many bytes at most are in the
port, and up to `rest` no bytes arrive.  The printing of a frame goes on without end only in the
states of `stalls`. -/
structure Setting where
  pace : ℕ
  calls : ℕ
  scripts : ℕ
  rest : List Tick
  still : Option ℕ
  stalls : World → Prop

/-- How a program may stop: its behaviour is undefined, or it prints without end. -/
def Setting.Stops (e : Setting) (h : Halt) (w : World) : Prop :=
  h = .undefined ∨ h = .hang ∧ e.stalls w

/-- The reading comes in time, and without bytes when they have stopped coming. -/
def Setting.Allows (e : Setting) (t : Tick) : Prop :=
  t.elapsed ≤ e.pace ∧ (e.still ≠ none → t.arrived = [])

/-- The most bytes that a packet can wait for: those in the port, or those of the greatest
length. -/
def Setting.bytes (e : Setting) : ℕ := e.still.getD 65535

/-- A stretch of time, with bounds on the readings to come: the time of the last one, and their
number. -/
structure Window where
  start : ℕ
  finish : ℕ
  last : ℕ
  count : ℕ

/-- There are `n` milliseconds to go to the end of the window, and readings beyond it. -/
structure World.Affords (e : Setting) (d : Window) (n : ℕ) (w : World) : Prop where
  lasts : ∃ ahead, w.ticks = ahead ++ e.rest ∧ (∀ t ∈ ahead, e.Allows t) ∧
    d.last ≤ w.clock + elapsed ahead
  still : ∀ bytes ∈ e.still, w.rx.length ≤ bytes
  calls : ∀ script ∈ w.scripts, script.length ≤ e.calls
  scripts : w.scripts.length ≤ e.scripts
  start : d.start ≤ w.clock
  left : w.clock + n ≤ d.finish
  finish : d.finish < d.last
  count : w.ticks.length ≤ d.count

/-- Time has not passed, and no byte was read. -/
structure SameTime (w w' : World) : Prop where
  clock : w'.clock = w.clock
  ticks : w'.ticks = w.ticks
  rx : w'.rx = w.rx
  scripts : w'.scripts = w.scripts

/-- The program lasts at most `b` milliseconds, and is not stopped by the readings. -/
abbrev Lasts (e : Setting) (m : Prog α) (b : ℕ) : Prop :=
  EStateM.Spends (World.Affords e) e.Stops m b

/-! ## Budgets of milliseconds -/

section Affords

variable {e : Setting} {d : Window} {m n : ℕ} {w : World}

namespace World.Affords

theorem of_le (h : w.Affords e d m) (hle : w.clock + n ≤ d.finish) : w.Affords e d n :=
  { h with left := hle }

instance : EStateM.IsBudget (World.Affords e) where
  le h hle := h.of_le ((Nat.add_le_add_left hle _).trans h.left)

/-- Nothing but clock, port, readings and scripts counts. -/
theorem congr (h : w.Affords e d n) {w' : World} (hsame : SameTime w w') : w'.Affords e d n where
  lasts := by rw [hsame.clock, hsame.ticks]; exact h.lasts
  still := hsame.rx ▸ h.still
  calls := hsame.scripts ▸ h.calls
  scripts := hsame.scripts ▸ h.scripts
  start := hsame.clock ▸ h.start
  left := hsame.clock ▸ h.left
  finish := h.finish
  count := hsame.ticks ▸ h.count

/-- The same state in a smaller window, from now to some time. -/
theorem narrow (h : w.Affords e d m) {finish : ℕ} (hfinish : w.clock + n ≤ finish)
    (hle : finish ≤ d.finish) : w.Affords e ⟨w.clock, finish, d.last, w.ticks.length⟩ n where
  lasts := h.lasts
  still := h.still
  calls := h.calls
  scripts := h.scripts
  start := Nat.le_refl _
  left := hfinish
  finish := hle.trans_lt h.finish
  count := Nat.le_refl _

/-- Back to the larger window. -/
theorem widen {d' : Window} (h : w.Affords e d' m) (hleft : w.clock + n ≤ d.finish)
    (hstart : d.start ≤ d'.start) (hfinish : d.finish < d.last) (hlast : d.last = d'.last)
    (hcount : d'.count ≤ d.count) : w.Affords e d n where
  lasts := hlast ▸ h.lasts
  still := h.still
  calls := h.calls
  scripts := h.scripts
  start := hstart.trans h.start
  left := hleft
  finish := hfinish
  count := h.count.trans hcount

/-- As long as there is time, there are readings that take `pace` milliseconds at most. -/
theorem exists_tick (h : w.Affords e d (n + e.pace)) : ∃ t ticks, w.ticks = t :: ticks ∧
    t.elapsed ≤ e.pace ∧ (e.still ≠ none → t.arrived = []) ∧
      (w.advance t ticks).Affords e d n := by
  obtain ⟨ahead, hticks, hallows, hlasts⟩ := h.lasts
  have hfinish := h.finish
  have hcount := h.count
  have hleft := h.left
  have hstart := h.start
  cases ahead with
  | nil =>
    rw [elapsed_nil] at hlasts
    omega
  | cons t ahead =>
    obtain ⟨hpace, harrived⟩ := hallows t List.mem_cons_self
    have helapsed : elapsed (t :: ahead) = t.elapsed + elapsed ahead := rfl
    rw [hticks, List.cons_append, List.length_cons] at hcount
    refine ⟨t, ahead ++ e.rest, hticks, hpace, harrived, ?_⟩
    constructor
    · refine ⟨ahead, rfl, fun s hs => hallows s (List.mem_cons_of_mem t hs), ?_⟩
      change d.last ≤ w.clock + t.elapsed + elapsed ahead
      omega
    · intro bytes hbytes
      have hnone : e.still ≠ none := Option.ne_none_iff_exists'.mpr ⟨bytes, hbytes⟩
      change (w.rx ++ t.arrived).length ≤ bytes
      rw [harrived hnone, List.append_nil]
      exact h.still bytes hbytes
    · exact h.calls
    · exact h.scripts
    · change d.start ≤ w.clock + t.elapsed
      omega
    · change w.clock + t.elapsed + n ≤ d.finish
      omega
    · exact h.finish
    · exact Nat.le_of_succ_le hcount

/-- A byte of the port is taken. -/
theorem tail (h : w.Affords e d n) : World.Affords e d n { w with rx := w.rx.tail } := by
  refine { h with still := fun bytes hbytes => ?_ }
  rw [List.length_tail]
  exact (Nat.sub_le _ _).trans (h.still bytes hbytes)

theorem rx_le (h : w.Affords e d n) (hstill : e.still ≠ none) : w.rx.length ≤ e.bytes := by
  obtain ⟨bytes, hbytes⟩ := Option.ne_none_iff_exists'.mp hstill
  rw [Setting.bytes, hbytes]
  exact h.still bytes hbytes

end World.Affords

/-- A reading of the clock or the port, after which fewer are left. -/
theorem ends_tick_of_affords (h : w.Affords e d (n + e.pace)) {E : Halt → World → Prop} :
    tick.Ends w (fun _ w' => w'.Affords e d n ∧ w'.ticks.length < w.ticks.length) E := by
  obtain ⟨t, ticks, hticks, -, -, hnow⟩ := h.exists_tick
  rw [ends_tick_cons hticks]
  refine ⟨hnow, ?_⟩
  rw [hticks]
  exact Nat.lt_succ_self _

theorem lasts_tick : Lasts e tick e.pace :=
  fun _ _ _ h => (ends_tick_of_affords h).mono (fun _ _ h' => h'.1) fun _ _ h' => h'

/-- What stops here is no matter of time. -/
theorem lasts_undefined (b : ℕ) : Lasts e (throw .undefined : Prog α) b :=
  .throw (fun _ => .inl rfl) b

theorem lasts_get_bind {f : World → Prog α} {b : ℕ} (h : ∀ w, Lasts e (f w) b) :
    Lasts e (MonadState.get >>= f) b :=
  EStateM.Spends.get_bind h

theorem lasts_modify {f : World → World} (h : ∀ w, SameTime w (f w)) : Lasts e (modify f) 0 :=
  EStateM.Spends.modify fun _ _ w hw => hw.congr (h w)

theorem lasts_log (event : Event) : Lasts e (log event) 0 :=
  lasts_modify fun _ => ⟨rfl, rfl, rfl, rfl⟩

theorem lasts_send (block : List UInt8) : Lasts e (send block) 0 :=
  lasts_modify fun _ => ⟨rfl, rfl, rfl, rfl⟩

theorem lasts_millis : Lasts e millis e.pace :=
  lasts_tick.bind_free fun _ => lasts_get_bind fun _ => .pure _ 0

theorem lasts_available : Lasts e available e.pace :=
  lasts_tick.bind_free fun _ => lasts_get_bind fun _ => .pure _ 0

theorem lasts_peek : Lasts e peek e.pace :=
  lasts_tick.bind_free fun _ => lasts_get_bind fun _ => .pure _ 0

theorem lasts_read : Lasts e read e.pace :=
  lasts_tick.bind_free fun _ _ _ _ h => h.tail

theorem lasts_delay (ms : ℕ) : Lasts e (delay ms) (e.pace + ms) := by
  refine lasts_tick.bind fun _ => (?_ : Lasts e _ ms)
  intro i n w h
  obtain ⟨ahead, hticks, hallows, hlasts⟩ := h.lasts
  have hstart := h.start
  have hleft := h.left
  refine ⟨⟨ahead, hticks, hallows, ?_⟩, h.still, h.calls, h.scripts, ?_, ?_, h.finish, h.count⟩
  · change i.last ≤ w.clock + ms + elapsed ahead
    omega
  · change i.start ≤ w.clock + ms
    omega
  · change w.clock + ms + n ≤ i.finish
    omega

end Affords

/-! ## Waits -/

section Waits

variable {e : Setting} {d : Window} {n : ℕ} {w : World}

/-- Two readings of `millis()` less than 2 ^ 32 ms apart. -/
theorem ofNat_sub_lt_iff {c clock : ℕ} (hle : c ≤ clock) (hlt : clock < c + 2 ^ 32)
    (limit : UInt32) :
    UInt32.ofNat clock - UInt32.ofNat c < limit ↔ clock < c + limit.toNat := by
  obtain ⟨ms, rfl⟩ := Nat.exists_eq_add_of_le hle
  have hms : ms < 2 ^ 32 := by omega
  rw [ofNat_add_sub, UInt32.lt_iff_toNat_lt, UInt32.toNat_ofNat_of_lt' hms]
  omega

/-- A wait since the time `c`, of `limit` milliseconds in rounds of `round` milliseconds: where it
stands at the beginning of a round. -/
structure Waits (e : Setting) (d : Window) (c limit round : ℕ) (w : World) : Prop where
  affords : w.Affords e d 0
  since : c ≤ w.clock
  within : w.clock ≤ c + limit + round

variable {c limit round : ℕ} {x : γ}

/-- A round of a wait: the limit is compared with the time that has passed. -/
theorem ends_round {m : Prog (β ⊕ γ)} {f : World → UInt32} (hlim : ∀ w, (f w).toNat ≤ limit)
    (hm : Lasts e m round) (hfit : limit + round + e.pace < 2 ^ 32)
    (hfinish : c + limit + round + e.pace + n ≤ d.finish) (h : Waits e d c limit round w) :
    (do
      let now ← millis
      let w ← get
      if now - UInt32.ofNat c < f w then m else return .inr x).Ends w
      (fun r w' => r.elim
        (fun _ => Waits e d c limit round w' ∧ w'.ticks.length < w.ticks.length)
        (fun _ => w'.Affords e d n)) e.Stops := by
  have hsince := h.since
  have hwithin := h.within
  have hbefore : w.Affords e d (n + e.pace) := h.affords.of_le (by omega)
  obtain ⟨t, ticks, hticks, hpace, -, hnow⟩ := hbefore.exists_tick
  rw [EStateM.ends_bind, ends_millis_cons hticks, EStateM.ends_bind, EStateM.ends_get,
    EStateM.ends_ite]
  have hlimit := hlim (w.advance t ticks)
  have hclock : (w.advance t ticks).clock = w.clock + t.elapsed := rfl
  have hfewer : (w.advance t ticks).ticks.length < w.ticks.length := by
    rw [hticks]
    exact Nat.lt_succ_self _
  split
  · next hshown =>
    have hlt := (ofNat_sub_lt_iff (by omega) (by omega) _).mp hshown
    -- Within the limit the round starts early enough to end before the limit and one more round.
    have hround := hm _ 0 _ (hnow.narrow (by omega : _ ≤ c + limit + round) (by omega))
    refine hround.mono (fun r w' h' => ?_) fun _ _ h' => h'
    have hstart := h'.start
    have hleft := h'.left
    have hcount := h'.count.trans_lt hfewer
    dsimp only at hstart hleft
    have hwiden (k : ℕ) (hk : w'.clock + k ≤ d.finish) : w'.Affords e d k :=
      h'.widen hk hnow.start hnow.finish rfl (hfewer.le.trans h.affords.count)
    cases r with
    | inl b => exact ⟨⟨hwiden 0 (by omega), by omega, by omega⟩, hcount⟩
    | inr y => exact hwiden n (by omega)
  · exact hnow

/-- The program, given the time at which it starts, lasts at most `b` milliseconds. -/
def LastsFromNow (e : Setting) (f : UInt32 → Prog α) (b : ℕ) : Prop :=
  ∀ d n w, w.Affords e d (n + b) →
    (f (UInt32.ofNat w.clock)).Ends w (fun _ => World.Affords e d n) e.Stops

theorem lasts_millis_bind {f : UInt32 → Prog α} {b : ℕ} (h : LastsFromNow e f b) :
    Lasts e (millis >>= f) (e.pace + b) := by
  intro d n w hw
  rw [Nat.add_comm e.pace, ← Nat.add_assoc] at hw
  obtain ⟨t, ticks, hticks, -, -, hnow⟩ := hw.exists_tick
  rw [EStateM.ends_bind, ends_millis_cons hticks]
  exact h d n _ hnow

theorem LastsFromNow.bind {f : UInt32 → Prog α} {g : UInt32 → α → Prog β} {b b' : ℕ}
    (h : LastsFromNow e f b) (hg : ∀ t a, Lasts e (g t a) b') :
    LastsFromNow e (fun t => f t >>= g t) (b + b') := by
  intro d n w hw
  rw [Nat.add_comm b, ← Nat.add_assoc] at hw
  exact (h d _ w hw).bind fun a w' hw' => hg _ a d n w' hw'

/-- A wait ends with the first round after its limit. -/
theorem lastsFromNow_loop {body : UInt32 → β → Prog (β ⊕ γ)} (b : β)
    (hbody : ∀ d c n b w, Waits e d c limit round w →
      c + limit + round + e.pace + n ≤ d.finish → (body (UInt32.ofNat c) b).Ends w
        (fun r w' => r.elim
          (fun _ => Waits e d c limit round w' ∧ w'.ticks.length < w.ticks.length)
          (fun _ => w'.Affords e d n)) e.Stops) :
    LastsFromNow e (fun t => loop (body t) b) (limit + round + e.pace) := by
  intro d n w hw
  have hfinish := hw.left
  unfold loop
  rw [EStateM.ends_bind, EStateM.ends_get]
  refine EStateM.Ends.iterate_of_lt (I := fun _ w' => Waits e d w.clock limit round w')
    (μ := fun w' => w'.ticks.length) ?_ ?_ (Nat.lt_succ_self _)
  · exact fun b w' hw' => hbody d _ n b w' hw' (by omega)
  · exact ⟨hw.of_le (by omega), Nat.le_refl _, by omega⟩

theorem lastsFromNow_headerWait (hfit : 100 + e.pace + e.pace < 2 ^ 32) :
    LastsFromNow e headerWait (100 + e.pace + e.pace) := by
  refine lastsFromNow_loop () fun d c n _ w hw hfinish => ?_
  refine ends_round (f := fun _ => 100) (fun _ => Nat.le_refl _) ?_ hfit hfinish hw
  exact lasts_available.bind_free fun _ => .ite (fun _ => .pure _ 0) fun _ => .pure _ 0

/-! ## The receiver -/

variable {take : β → UInt8 → Prog β} {full : β → Bool} {finish : β → Prog Reception} {μ : β → ℕ}

/-- What is stored takes no time, and leaves fewer bytes to store. -/
def Consumes (take : β → UInt8 → Prog β) (full : β → Bool) (μ : β → ℕ) : Prop :=
  ∀ b byte w, (take b byte).Returns w
    fun b' w' => SameTime w w' ∧ (μ b' < μ b ∨ full b' = true)

/-- Where a byte may be stored: the time stamp, which is soon after now, the state soon after it,
and the bytes left in a port in which none arrive. -/
structure AfterByte (e : Setting) (d : Window) (w w' : World) (c : ℕ) : Prop where
  since : w.clock ≤ c
  soon : c ≤ w.clock + 2 * e.pace
  affords : w'.Affords e ⟨c, c + e.pace, d.last, w.ticks.length⟩ 0
  still : e.still ≠ none → w'.rx.length ≤ w.rx.length

/-- A byte is stored, or nothing changes.  Of a port in which none arrive it is taken. -/
theorem ends_nextByte (htake : Consumes take full μ) (b : β) (timeout : UInt32)
    (h : w.Affords e d (e.pace + (e.pace + e.pace))) :
    (nextByte take b timeout).Ends w (fun r w' => ∃ c, AfterByte e d w w' c ∧
        (r = (b, timeout) ∨ r.2 = UInt32.ofNat c ∧ (μ r.1 < μ b ∨ full r.1 = true) ∧
          (e.still ≠ none → w'.rx.length < w.rx.length)))
      e.Stops := by
  unfold nextByte
  have hleft := h.left
  have hfinish := h.finish
  have hnow : w.Affords e ⟨w.clock, w.clock + 3 * e.pace, d.last, w.ticks.length⟩
      (2 * e.pace + e.pace) := h.narrow (by omega) (by omega)
  obtain ⟨t₁, ticks₁, hticks₁, hpace₁, harrived₁, h₁⟩ := hnow.exists_tick
  rw [EStateM.ends_bind, ends_available_cons hticks₁, EStateM.ends_ite]
  split
  · next hpos =>
    have hbefore : (w.advance t₁ ticks₁).Affords e
        ⟨w.clock, w.clock + 3 * e.pace, d.last, w.ticks.length⟩ (e.pace + e.pace) :=
      EStateM.IsBudget.le h₁ (Nat.two_mul _).ge
    obtain ⟨t₂, ticks₂, hticks₂, hpace₂, harrived₂, h₂⟩ := hbefore.exists_tick
    have hclock : ((w.advance t₁ ticks₁).advance t₂ ticks₂).clock =
        w.clock + t₁.elapsed + t₂.elapsed := rfl
    have hleft₂ := h₂.left
    dsimp only at hleft₂
    rw [EStateM.ends_bind, ends_millis_cons hticks₂, EStateM.ends_bind]
    -- The byte is read and stored soon after its time stamp.
    have hstamp := h₂.narrow (n := 0 + e.pace)
      (by omega : _ ≤ ((w.advance t₁ ticks₁).advance t₂ ticks₂).clock + e.pace) hleft₂
    obtain ⟨t₃, ticks₃, hticks₃, -, harrived₃, h₃⟩ := hstamp.exists_tick
    rw [ends_read_cons hticks₃, EStateM.ends_bind]
    have hread := h₃.tail
    refine EStateM.Ends.mono (htake b _ _) (fun b' w' h' => ?_) fun _ _ h' => h'.elim
    have hafter := hread.congr h'.1
    have hless (hstill : e.still ≠ none) : w'.rx.length < w.rx.length := by
      have hrx : w'.rx = (((w.rx ++ t₁.arrived) ++ t₂.arrived) ++ t₃.arrived).tail := h'.1.rx
      rw [harrived₁ hstill, List.append_nil] at hpos hrx
      rw [hrx, harrived₂ hstill, harrived₃ hstill, List.append_nil, List.append_nil,
        List.length_tail]
      omega
    refine ⟨((w.advance t₁ ticks₁).advance t₂ ticks₂).clock,
      ⟨by omega, by omega, ?_, fun hstill => (hless hstill).le⟩, .inr ⟨rfl, h'.2, hless⟩⟩
    exact { hafter with count := hafter.count.trans h₂.count }
  · have hclock : (w.advance t₁ ticks₁).clock = w.clock + t₁.elapsed := rfl
    refine ⟨w.clock + t₁.elapsed, ⟨Nat.le_add_right _ _, by omega, ?_, fun hstill => ?_⟩, .inl rfl⟩
    · refine { h₁ with start := Nat.le_refl _, left := ?_, finish := ?_ }
      · dsimp only
        omega
      · dsimp only
        omega
    · change (w.rx ++ t₁.arrived).length ≤ w.rx.length
      rw [harrived₁ hstill, List.append_nil]

/-- The time between two bytes. -/
def byteTime (pace : ℕ) : ℕ := 100 + 4 * pace

/-- So many bytes at most are to be waited for. -/
structure Remains (e : Setting) (k m : ℕ) (w : World) : Prop where
  still : e.still ≠ none → w.rx.length ≤ m
  live : e.still = none → k ≤ m

/-- **The receive loop**: every byte restarts the limit, and leaves fewer to wait for. -/
theorem lastsFromNow_byteLoop (htake : Consumes take full μ)
    (hfinish : ∀ b, Lasts e (finish b) 0) (hfit : byteTime e.pace < 2 ^ 32) (b : β)
    (hbytes : e.still = none → μ b ≤ e.bytes) :
    LastsFromNow e (byteLoop take full finish b) ((e.bytes + 1) * byteTime e.pace) := by
  intro d n w hw
  have hbudget := hw.left
  unfold byteLoop loop
  rw [EStateM.ends_bind, EStateM.ends_get]
  -- The limit counts from the time stamp of the last byte, and the time left from the bytes left.
  refine EStateM.Ends.iterate_of_lt (μ := fun w' => w'.ticks.length)
    (I := fun r w' => ∃ c m, r.2 = UInt32.ofNat c ∧ Waits e d c 100 (3 * e.pace) w' ∧
      Remains e (μ r.1) m w' ∧ c + (m + 1) * byteTime e.pace + n ≤ d.finish) ?_
    ⟨w.clock, e.bytes, rfl, ⟨hw.of_le (by omega), Nat.le_refl _, by omega⟩,
      ⟨hw.rx_le, hbytes⟩, by omega⟩ (Nat.lt_succ_self _)
  rintro ⟨b, timeout⟩ w ⟨c, m, htimeout, hwait, hremains, hleft⟩
  obtain rfl : timeout = _ := htimeout
  have hsince := hwait.since
  have hwithin := hwait.within
  rw [Nat.succ_mul] at hleft
  dsimp only at hremains ⊢
  have hS : byteTime e.pace = 100 + 4 * e.pace := rfl
  have hbefore : w.Affords e d (n + e.pace) := hwait.affords.of_le (by omega)
  obtain ⟨t, ticks, hticks, hpace, harrived, hnow⟩ := hbefore.exists_tick
  have hclock : (w.advance t ticks).clock = w.clock + t.elapsed := rfl
  have hfewer : (w.advance t ticks).ticks.length < w.ticks.length := by
    rw [hticks]
    exact Nat.lt_succ_self _
  have hport (hstill : e.still ≠ none) : (w.advance t ticks).rx.length ≤ m := by
    change (w.rx ++ t.arrived).length ≤ m
    rw [harrived hstill, List.append_nil]
    exact hremains.still hstill
  rw [EStateM.ends_bind, ends_millis_cons hticks, EStateM.ends_ite]
  split
  · next hshown =>
    have hlt : w.clock + t.elapsed < c + 100 :=
      (ofNat_sub_lt_iff (by omega) (by omega) _).mp hshown
    refine (ends_nextByte htake b _ (hnow.of_le (by omega))).bind ?_
    rintro ⟨b', timeout'⟩ w' ⟨c', hstored, hbyte⟩
    have hc' := hstored.since
    have hc'' := hstored.soon
    have hstart := hstored.affords.start
    have hend := hstored.affords.left
    have hcount := hstored.affords.count.trans_lt hfewer
    dsimp only at hstart hend hbyte ⊢
    have hwiden (k : ℕ) (hk : w'.clock + k ≤ d.finish) : w'.Affords e d k :=
      hstored.affords.widen hk (by have := hnow.start; dsimp only; omega) hnow.finish rfl
        (hfewer.le.trans hbefore.count)
    rw [EStateM.ends_ite]
    split
    · rw [EStateM.ends_bind]
      exact hfinish b' d n w' (hwiden n (by omega))
    · next hopen =>
      refine ⟨?_, hcount⟩
      rcases hbyte with hsame | ⟨hnew, hless | hfull, htaken⟩
      · obtain ⟨rfl, rfl⟩ := Prod.mk.inj hsame
        refine ⟨c, m, rfl, ⟨hwiden 0 (by omega), by omega, by omega⟩, ?_, ?_⟩
        · exact ⟨fun hstill => (hstored.still hstill).trans (hport hstill), hremains.live⟩
        · rw [Nat.succ_mul]
          exact hleft
      · -- One byte less is to be waited for.
        obtain ⟨m, rfl⟩ : ∃ k, m = k + 1 := by
          refine Nat.exists_eq_succ_of_ne_zero fun hzero => ?_
          by_cases hstill : e.still = none
          · have := hremains.live hstill
            omega
          · have := htaken hstill
            have := hport hstill
            omega
        rw [Nat.succ_mul] at hleft
        refine ⟨c', m, hnew, ⟨hwiden 0 (by omega), hstart, by omega⟩, ?_, ?_⟩
        · refine ⟨fun hstill => ?_, fun hlive => ?_⟩
          · have := htaken hstill
            have := hport hstill
            omega
          · have := hremains.live hlive
            dsimp only
            omega
        · rw [Nat.succ_mul]
          omega
      · exact absurd hfull hopen
  · refine (lasts_send _ d n _ (hnow.of_le ?_)).bind fun _ w' hw' => hw'
    omega

/-- The time of a packet that waits for so many bytes. -/
def packetTime (pace bytes : ℕ) : ℕ := 100 + 7 * pace + (bytes + 1) * byteTime pace

theorem consumes_take (size : ℕ) : Consumes (fun b byte => return Buffer.take size b byte)
    (fun b => size ≤ b.bytes.length) fun b => size - b.bytes.length := by
  intro b byte w
  refine ⟨⟨rfl, rfl, rfl, rfl⟩, ?_⟩
  have hlength : (b.take size byte).bytes.length = b.bytes.length + 1 := List.length_append
  dsimp only
  rw [decide_eq_true_eq, hlength]
  omega

theorem lasts_verdict (size : ℕ) (b : Buffer) : Lasts e (verdict size b) 0 := by
  unfold verdict
  refine .ite (fun _ => lasts_undefined 0) fun _ => .ite (fun _ => ?_) fun _ => .pure _ 0
  exact lasts_get_bind fun w => (lasts_send _).bind_free fun _ => .pure _ 0

theorem consumes_acknowledgeByte : Consumes acknowledgeByte (fun p => 4 ≤ p) fun p => 4 - p := by
  intro p byte w
  refine ⟨⟨rfl, rfl, rfl, rfl⟩, ?_⟩
  dsimp only
  rw [decide_eq_true_eq]
  omega

/-- What comes behind the first byte of a packet. -/
def packetRest : Option UInt8 → Prog Reception
  | some 0x24 => do
    let high ← read
    let low ← read
    let timeout ← millis
    receiveLoop (frameSize high low).toNat timeout
  | some 0x21 => do
    let timeout ← millis
    byteLoop acknowledgeByte (fun p => 4 ≤ p) (fun _ => return .ack ((← get).ackNakBuf 0)) 0 timeout
  | _ => return .flushed

theorem receiveBody_some (b : Option UInt8) :
    receiveBody (some b) = read >>= fun _ => packetRest b := by
  by_cases hcommand : b = some 0x24
  · subst hcommand
    rfl
  · by_cases hgroup : b = some 0x21
    · subst hgroup
      rfl
    · have hrest : packetRest b = return .flushed := by
        unfold packetRest
        split
        · exact absurd rfl hcommand
        · exact absurd rfl hgroup
        · rfl
      rw [hrest]
      unfold receiveBody
      split
      · next heq => exact absurd (Option.some.inj heq) hcommand
      · next heq => exact absurd (Option.some.inj heq) hgroup
      · rfl
      · next heq => cases heq

/-- The bytes of a packet, of a length that fits two bytes. -/
theorem lasts_packetRest (hfit : byteTime e.pace < 2 ^ 32) (b : Option UInt8) :
    Lasts e (packetRest b) (3 * e.pace + (e.bytes + 1) * byteTime e.pace) := by
  have hlive (hstill : e.still = none) : e.bytes = 65535 := by
    rw [Setting.bytes, hstill, Option.getD_none]
  unfold packetRest
  split
  · have hbytes (size : UInt16) : LastsFromNow e (receiveLoop size.toNat)
        ((e.bytes + 1) * byteTime e.pace) := by
      refine lastsFromNow_byteLoop (consumes_take size.toNat) (lasts_verdict size.toNat) hfit
        (⟨[], 0⟩ : Buffer) fun hstill => ?_
      have hsize := size.toNat_lt
      rw [hlive hstill]
      dsimp only [List.length_nil]
      omega
    refine (lasts_read.bind fun high => lasts_read.bind fun low =>
      lasts_millis_bind (hbytes (frameSize high low))).mono ?_
    omega
  · have hfinish (p : ℕ) : Lasts e (do return Reception.ack ((← get).ackNakBuf 0)) 0 :=
      lasts_get_bind fun _ => .pure _ 0
    have hloop := lastsFromNow_byteLoop consumes_acknowledgeByte hfinish hfit 0 fun hstill => by
      rw [hlive hstill]
      decide
    refine (lasts_millis_bind hloop).mono ?_
    omega
  · exact .pure _ _

theorem lasts_awaitHeader (hfit : byteTime e.pace < 2 ^ 32) :
    Lasts e awaitHeader (100 + 5 * e.pace) := by
  have hheader : 100 + e.pace + e.pace < 2 ^ 32 := by
    have hS : byteTime e.pace = 100 + 4 * e.pace := rfl
    omega
  have hpeek : Lasts e awaitHeader (e.pace + (e.pace + (e.pace + (100 + e.pace + e.pace)))) := by
    refine lasts_available.bind fun _ => .ite (fun _ => ?_) fun _ => .pure _ _
    refine lasts_peek.bind fun b => .ite (fun _ => ?_) fun _ => .pure _ _
    exact lasts_millis_bind ((lastsFromNow_headerWait hheader).bind fun _ _ => .pure _ 0)
  refine hpeek.mono ?_
  omega

theorem lasts_uart (hfit : byteTime e.pace < 2 ^ 32) :
    Lasts e uart (2 * e.pace + packetTime e.pace e.bytes) := by
  have hbody (b : Option (Option UInt8)) : Lasts e (receiveBody b)
      (e.pace + (3 * e.pace + (e.bytes + 1) * byteTime e.pace)) := by
    cases b with
    | none => exact .pure _ _
    | some b =>
      rw [receiveBody_some]
      exact lasts_read.bind fun _ => lasts_packetRest hfit b
  rw [uart_eq]
  refine ((lasts_awaitHeader hfit).bind hbody).mono ?_
  unfold packetTime
  omega

end Waits

end Teensquitto
