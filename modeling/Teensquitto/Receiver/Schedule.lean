import Teensquitto.Device.Receiver

/-!
# Delivery schedules

The readings of the clock and the port to come are a schedule: they fix how much time
passes between two readings and which bytes have arrived by then.  A schedule is timely
when no gap reaches 100 ms.

## Main definitions

* `arrivals`, `elapsed`: the bytes a schedule delivers, and the time it takes
* `Timely`, `Prompt`: the limits of the receiver are not reached
* `spare`: the readings behind the last arrival
* `Delivers`: the port during a reception

## Main results

* `returns_millis`, `returns_available`, `returns_read`: one reading during a reception
-/

namespace Teensquitto

/-- The bytes a schedule delivers. -/
def arrivals (ticks : List Tick) : List UInt8 := ticks.flatMap Tick.arrived

/-- The milliseconds a schedule takes. -/
def elapsed (ticks : List Tick) : ℕ := (ticks.map Tick.elapsed).sum

@[simp] theorem arrivals_nil : arrivals [] = [] := rfl

@[simp] theorem arrivals_cons (t : Tick) (ts : List Tick) :
    arrivals (t :: ts) = t.arrived ++ arrivals ts := rfl

@[simp] theorem arrivals_append (ts ts' : List Tick) :
    arrivals (ts ++ ts') = arrivals ts ++ arrivals ts' := by
  simp [arrivals]

@[simp] theorem elapsed_nil : elapsed [] = 0 := rfl

@[simp] theorem elapsed_append (ts ts' : List Tick) :
    elapsed (ts ++ ts') = elapsed ts + elapsed ts' := by
  simp [elapsed]

theorem elapsed_snoc (ts : List Tick) (t : Tick) :
    elapsed (ts ++ [t]) = elapsed ts + t.elapsed := by
  simp [elapsed]

/-- Readings at which nothing happens. -/
def quiet (n : ℕ) : List Tick := List.replicate n ⟨0, []⟩

@[simp] theorem length_quiet (n : ℕ) : (quiet n).length = n := List.length_replicate

@[simp] theorem arrivals_quiet (n : ℕ) : arrivals (quiet n) = [] := by
  induction n with
  | zero => rfl
  | succ n ih => exact ih

@[simp] theorem elapsed_quiet (n : ℕ) : elapsed (quiet n) = 0 := by
  induction n with
  | zero => rfl
  | succ n ih => exact (Nat.zero_add _).trans ih

/-! ## Timely schedules -/

/-- No gap reaches 100 ms: a window of readings that takes 100 ms has two readings before
its last one, and bytes arrive during these unless everything has arrived. -/
def Timely (ticks : List Tick) : Prop :=
  ∀ before window t after, ticks = before ++ window ++ t :: after →
    100 ≤ elapsed (window ++ [t]) →
      2 ≤ window.length ∧ (arrivals window ≠ [] ∨ arrivals (t :: after) = [])

/-- The length of a packet follows its `$` within 100 ms; `n` bytes come behind the length. -/
def Prompt (n : ℕ) (ticks : List Tick) : Prop :=
  ∀ before window t after, ticks = before ++ window ++ t :: after →
    (arrivals (window ++ t :: after)).length < n + 3 → 100 ≤ elapsed (window ++ [t]) →
      (arrivals after).length ≤ n

/-- The time check `millis() - timeout < 100` measures the window since the stamp. -/
theorem limit_iff (stamp : ℕ) {e : ℕ} (he : e < 100) :
    UInt32.ofNat (stamp + e) - UInt32.ofNat stamp < 100 := by
  have hsub : UInt32.ofNat (stamp + e) - UInt32.ofNat stamp = UInt32.ofNat e := by
    apply UInt32.toNat_inj.mp
    simp only [UInt32.toNat_sub, UInt32.toNat_ofNat']
    omega
  rw [hsub, UInt32.lt_iff_toNat_lt, UInt32.toNat_ofNat']
  simp only [UInt32.reduceToNat]
  omega

/-! ## Spare readings -/

/-- The readings behind the last arrival. -/
def spare : List Tick → ℕ
  | [] => 0
  | t :: ts => if arrivals (t :: ts) = [] then ts.length + 1 else spare ts

theorem spare_le_length (ts : List Tick) : spare ts ≤ ts.length := by
  induction ts with
  | nil => exact Nat.le_refl 0
  | cons t ts ih =>
    rw [spare]
    split
    · exact Nat.le_refl _
    · exact Nat.le_succ_of_le ih

theorem spare_of_arrivals_eq_nil {ts : List Tick} (h : arrivals ts = []) :
    spare ts = ts.length := by
  cases ts with
  | nil => rfl
  | cons t ts => rw [spare, if_pos h, List.length_cons]

/-- A reading uses up at most one spare reading. -/
theorem spare_cons_le (t : Tick) (ts : List Tick) : spare (t :: ts) ≤ spare ts + 1 := by
  rw [spare]
  split
  · next h =>
    rw [spare_of_arrivals_eq_nil (List.append_eq_nil_iff.mp h).2]
  · exact Nat.le_succ _

/-- While bytes are to arrive no spare reading is used up. -/
theorem spare_append_of_arrivals {ts' : List Tick} (h : arrivals ts' ≠ []) (ts : List Tick) :
    spare (ts ++ ts') = spare ts' := by
  induction ts with
  | nil => rfl
  | cons t ts ih =>
    have hne : arrivals (t :: (ts ++ ts')) ≠ [] := by simp [h]
    rw [List.cons_append, spare, if_neg hne, ih]

/-- Readings that deliver nothing are spare. -/
theorem length_le_spare_append (ts : List Tick) {ts' : List Tick} (h : arrivals ts' = []) :
    ts'.length ≤ spare (ts ++ ts') := by
  induction ts with
  | nil => exact (spare_of_arrivals_eq_nil h).ge
  | cons t ts ih =>
    rw [List.cons_append, spare]
    split
    · rw [List.length_append]
      omega
    · exact ih

theorem spare_append_le (ts ts' : List Tick) : spare (ts ++ ts') ≤ spare ts' + ts.length := by
  induction ts with
  | nil => exact Nat.le_refl _
  | cons t ts ih =>
    have := spare_cons_le t (ts ++ ts')
    rw [List.cons_append, List.length_cons]
    omega

/-! ## The port during a reception -/

/-- The state with another clock and port. -/
def World.withPort (w : World) (clock : ℕ) (ticks : List Tick) (rx : List UInt8) : World :=
  { w with clock := clock, ticks := ticks, rx := rx }

@[simp] theorem World.withPort_self (w : World) : w.withPort w.clock w.ticks w.rx = w := rfl

@[simp] theorem World.withPort_ticks (w : World) (clock : ℕ) (ticks : List Tick)
    (rx : List UInt8) : (w.withPort clock ticks rx).ticks = ticks := rfl

/-- The bytes received and not yet read, and those to arrive. -/
def World.stream (w : World) : List UInt8 := w.rx ++ arrivals w.ticks

/-- The port delivers `bytes` within the schedule `sched`; `window` are the readings since
the last time stamp, and `n` spare readings are left. -/
structure Delivers (sched : List Tick) (bytes : List UInt8) (window : List Tick)
    (rx : List UInt8) (ticks : List Tick) (n : ℕ) : Prop where
  stream : rx ++ arrivals ticks = bytes
  suffix : window ++ ticks <:+ sched
  spare_le : n ≤ spare ticks

namespace Delivers

variable {sched : List Tick} {bytes : List UInt8} {window window' : List Tick}
  {rx rx' : List UInt8} {ticks : List Tick} {n m : ℕ}

theorem mono (h : Delivers sched bytes window rx ticks n) (hm : m ≤ n) :
    Delivers sched bytes window rx ticks m :=
  ⟨h.stream, h.suffix, hm.trans h.spare_le⟩

/-- A new time stamp starts a new window. -/
theorem stamp (h : Delivers sched bytes window rx ticks n) :
    Delivers sched bytes [] rx ticks n :=
  ⟨h.stream, (List.suffix_append window ticks).trans h.suffix, h.spare_le⟩

theorem exists_tick (h : Delivers sched bytes window rx ticks (n + 1)) :
    ∃ t ts, ticks = t :: ts := by
  cases ticks with
  | nil => exact absurd h.spare_le (Nat.not_succ_le_zero n)
  | cons t ts => exact ⟨t, ts, rfl⟩

theorem tick {t : Tick} (h : Delivers sched bytes window rx (t :: ticks) (n + 1)) :
    Delivers sched bytes (window ++ [t]) (rx ++ t.arrived) ticks n where
  stream := by rw [← h.stream, arrivals_cons, List.append_assoc]
  suffix := by simpa using h.suffix
  spare_le := by
    have := h.spare_le
    have := spare_cons_le t ticks
    omega

theorem arrivals_ne_nil (h : Delivers sched bytes window rx ticks n)
    (hlt : rx.length < bytes.length) : arrivals ticks ≠ [] := by
  intro hnil
  rw [← h.stream, hnil, List.append_nil] at hlt
  exact Nat.lt_irrefl _ hlt

/-- Readings that leave bytes to arrive cost nothing. -/
theorem waited (ticks' : List Tick) (h : Delivers sched bytes window rx (ticks' ++ ticks) n)
    (h' : Delivers sched bytes window' rx' ticks m) (hlt : rx'.length < bytes.length) :
    Delivers sched bytes window' rx' ticks n := by
  refine ⟨h'.stream, h'.suffix, ?_⟩
  rw [← spare_append_of_arrivals (h'.arrivals_ne_nil hlt) ticks']
  exact h.spare_le

/-- The first byte is read. -/
theorem read {b : UInt8} (h : Delivers sched (b :: bytes) window rx ticks n) (hne : rx ≠ []) :
    rx.head? = some b ∧ Delivers sched bytes window rx.tail ticks n := by
  obtain ⟨x, rx, rfl⟩ := List.exists_cons_of_ne_nil hne
  have hs := h.stream
  rw [List.cons_append, List.cons.injEq] at hs
  exact ⟨congrArg some hs.1, hs.2, h.suffix, h.spare_le⟩

/-- At most one reading after a stamp, or with nothing arrived since, the limit is not
reached. -/
theorem elapsed_lt {t : Tick} (htimely : Timely sched)
    (h : Delivers sched bytes window rx (t :: ticks) n)
    (hw : window.length ≤ 1 ∨ arrivals window = [] ∧ rx.length < bytes.length) :
    elapsed (window ++ [t]) < 100 := by
  by_contra hlt
  obtain ⟨before, hsplit⟩ := h.suffix
  obtain ⟨hlen, harr⟩ := htimely before window t ticks (by rw [← hsplit, List.append_assoc])
    (by omega)
  rcases hw with hw | ⟨hw, hrx⟩
  · omega
  · rcases harr with harr | harr
    · exact harr hw
    · exact h.arrivals_ne_nil hrx harr

/-- When the limit of the header is reached, its three bytes are in the port. -/
theorem header_le {t : Tick} {k : ℕ} (hprompt : Prompt k sched)
    (h : Delivers sched bytes window rx (t :: ticks) n) (hlen : bytes.length = k + 3)
    (hfirst : (arrivals window).length < rx.length) (htime : 100 ≤ elapsed (window ++ [t])) :
    3 ≤ (rx ++ t.arrived).length := by
  obtain ⟨before, hsplit⟩ := h.suffix
  have hsum := congrArg List.length h.stream
  have hleft := hprompt before window t ticks (by rw [← hsplit, List.append_assoc])
  simp only [arrivals_append, arrivals_cons, List.length_append] at hsum hleft ⊢
  have := hleft (by omega) htime
  omega

end Delivers

section Readings

variable {sched : List Tick} {bytes : List UInt8} {window : List Tick} {rx : List UInt8}
  {ticks : List Tick} {n c : ℕ} {w : World}

theorem returns_tick {Q : Unit → World → Prop} (h : Delivers sched bytes window rx ticks (n + 1))
    (hQ : ∀ t ts, ticks = t :: ts → Delivers sched bytes (window ++ [t]) (rx ++ t.arrived) ts n →
      Q () (w.withPort (c + t.elapsed) ts (rx ++ t.arrived))) :
    tick.Returns (w.withPort c ticks rx) Q := by
  obtain ⟨t, ts, rfl⟩ := h.exists_tick
  exact hQ t ts rfl h.tick

theorem returns_millis {Q : UInt32 → World → Prop}
    (h : Delivers sched bytes window rx ticks (n + 1))
    (hQ : ∀ t ts, ticks = t :: ts → Delivers sched bytes (window ++ [t]) (rx ++ t.arrived) ts n →
      Q (UInt32.ofNat (c + t.elapsed)) (w.withPort (c + t.elapsed) ts (rx ++ t.arrived))) :
    millis.Returns (w.withPort c ticks rx) Q := by
  unfold millis
  rw [EStateM.Returns, EStateM.ends_bind]
  exact returns_tick h hQ

theorem returns_available {Q : ℕ → World → Prop} (h : Delivers sched bytes window rx ticks (n + 1))
    (hQ : ∀ t ts, ticks = t :: ts → Delivers sched bytes (window ++ [t]) (rx ++ t.arrived) ts n →
      Q (rx ++ t.arrived).length (w.withPort (c + t.elapsed) ts (rx ++ t.arrived))) :
    available.Returns (w.withPort c ticks rx) Q := by
  unfold available
  rw [EStateM.Returns, EStateM.ends_bind]
  exact returns_tick h hQ

theorem returns_peek {Q : Option UInt8 → World → Prop}
    (h : Delivers sched bytes window rx ticks (n + 1))
    (hQ : ∀ t ts, ticks = t :: ts → Delivers sched bytes (window ++ [t]) (rx ++ t.arrived) ts n →
      Q (rx ++ t.arrived).head? (w.withPort (c + t.elapsed) ts (rx ++ t.arrived))) :
    peek.Returns (w.withPort c ticks rx) Q := by
  unfold peek
  rw [EStateM.Returns, EStateM.ends_bind]
  exact returns_tick h hQ

/-- With a byte in the port, `read()` takes the first byte. -/
theorem returns_read {b : UInt8} {Q : Option UInt8 → World → Prop}
    (h : Delivers sched (b :: bytes) window rx ticks (n + 1)) (hne : rx ≠ [])
    (hQ : ∀ t ts, ticks = t :: ts →
      Delivers sched bytes (window ++ [t]) (rx.tail ++ t.arrived) ts n →
        Q (some b) (w.withPort (c + t.elapsed) ts (rx.tail ++ t.arrived))) :
    read.Returns (w.withPort c ticks rx) Q := by
  unfold read
  rw [EStateM.Returns, EStateM.ends_bind]
  refine returns_tick h fun t ts hts hd => ?_
  obtain ⟨x, rx, rfl⟩ := List.exists_cons_of_ne_nil hne
  obtain ⟨hhead, hd'⟩ := hd.read (by simp)
  obtain rfl : x = b := by simpa using hhead
  exact hQ t ts hts hd'

end Readings

end Teensquitto
