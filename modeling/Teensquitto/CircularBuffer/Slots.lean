import Teensquitto.CircularBuffer.Refinement

/-!
# The slots of the queue

`push_back` copies a message into a row of `multi + 2` bytes without comparing its length with
the row.  A message that fits leaves the other messages alone and comes back at the front; a
longer one reaches into the next row, where the message behind it overwrites its bytes, or, in
the last row, beyond the array.

## Main definitions

* `Operation.departs`, `departed`: the messages that leave at the front
* `Isolated`: what the slots promise about one `push_back`

## Main results

* `items_runDeque`: the deque after pushes and pops
* `isolated_iff`: a message is isolated exactly when it fits its slot
-/

namespace CircularBuffer

variable {size multi : UInt16}

/-! ## Departures -/

/-- The operations of a queue. -/
def Operation.isTraffic : Operation → Bool
  | pushBack _ => true
  | popFront => true
  | _ => false

/-- The message that an operation appends. -/
def Operation.pushed : Operation → List (List UInt8)
  | pushBack buffer => [buffer]
  | _ => []

/-- The number of messages that leave at the front: a push on a full ring drops the oldest. -/
def Operation.departs (b : CircularBuffer size multi) : Operation → ℕ
  | pushBack _ => if b.available = size then 1 else 0
  | popFront => 1
  | _ => 0

/-- The number of messages that leave at the front during a run. -/
def departed : List Operation → CircularBuffer size multi → ℕ
  | [], _ => 0
  | op :: ops, b => op.departs b + departed ops (op.apply b)

section PowerOfTwo

variable {k : ℕ} (hk : size.toNat = 2 ^ k) {b : CircularBuffer size multi}
  {d : BoundedDeque (List UInt8) size.toNat} {message : List UInt8}

include hk

/-- One operation of a queue appends its message and drops those that leave. -/
theorem items_applyDeque (h : b.Represents d) {op : Operation} (htraffic : op.isTraffic)
    (legal : op.Legal b) :
    op.departs b ≤ (d.items ++ op.pushed).length ∧
      (op.applyDeque d).items = (d.items ++ op.pushed).drop (op.departs b) := by
  have havailable := h.available_eq
  cases op with
  | pushBack buffer =>
    have hle := d.length_le
    have hpos := size_pos hk
    have hdeparts : Operation.departs b (.pushBack buffer) = d.items.length + 1 - size.toNat := by
      simp only [Operation.departs, ← UInt16.toNat_inj, havailable]
      split <;> omega
    rw [hdeparts]
    refine ⟨?_, rfl⟩
    simp only [Operation.pushed, List.length_append, List.length_singleton]
    omega
  | popFront =>
    have hne : 0 < d.items.length := by
      rw [← havailable]
      exact UInt16.lt_iff_toNat_lt.mp legal
    simp only [Operation.pushed, List.append_nil, Operation.departs]
    exact ⟨hne, List.drop_one.symm⟩
  | pushFront _ => cases htraffic
  | clear => cases htraffic
  | popFrontInto _ => cases htraffic
  | popBackInto _ => cases htraffic

/-- **A queue holds what was pushed without what has left.** -/
theorem items_runDeque (h : b.Represents d) {ops : List Operation}
    (htraffic : ∀ op ∈ ops, op.isTraffic) (legal : LegalRun b ops) :
    (runDeque ops d).items = (d.items ++ ops.flatMap Operation.pushed).drop (departed ops b) := by
  induction ops generalizing b d with
  | nil => simp [runDeque, departed]
  | cons op ops ih =>
    obtain ⟨hle, hitems⟩ := items_applyDeque hk h (htraffic op List.mem_cons_self) legal.1
    have hrest := ih (represents_apply hk h op legal.1)
      (fun op' hmem => htraffic op' (List.mem_cons_of_mem op hmem)) legal.2
    rw [hitems, ← List.drop_append_of_le_length hle, List.drop_drop, List.append_assoc] at hrest
    rw [departed, List.flatMap_cons]
    exact hrest

/-- A message reaches the front when those before it have left. -/
theorem head?_runDeque (h : b.Represents d) {ops : List Operation}
    (htraffic : ∀ op ∈ ops, op.isTraffic) (legal : LegalRun b ops)
    {before : List (List UInt8)} (hitems : d.items = before ++ [message])
    (hdeparted : departed ops b = before.length) :
    (runDeque ops d).items.head? = some message := by
  rw [items_runDeque hk h htraffic legal, hitems, hdeparted, List.append_assoc,
    List.drop_left' rfl]
  rfl

end PowerOfTwo

/-! ## Isolation -/

/-- What the slots promise about `push_back(data, length)`. -/
structure Isolated (b : CircularBuffer size multi) (data : List UInt8) : Prop where
  /-- No byte is written outside `_cabuf`. -/
  inside : b.row b.tail + 2 + data.length ≤ size.toNat * (multi.toNat + 2)
  /-- The queued messages, but the one that a full ring drops, keep their lengths and bytes. -/
  others : ∀ i < b.available.toNat, (b.available = size → i ≠ 0) →
    (b.pushBack data).rowLength (b.row (b.head + UInt16.ofNat i)) =
        b.rowLength (b.row (b.head + UInt16.ofNat i)) ∧
      (b.pushBack data).cabuf.load (b.row (b.head + UInt16.ofNat i) + 2)
          (b.rowLength (b.row (b.head + UInt16.ofNat i))).toNat =
        b.cabuf.load (b.row (b.head + UInt16.ofNat i) + 2)
          (b.rowLength (b.row (b.head + UInt16.ofNat i))).toNat
  /-- The first message stays the first, unless a full ring drops it. -/
  head : (b.pushBack data).head =
    if b.available = size then (b.head + 1) &&& (2 * size - 1) else b.head
  /-- When the message reaches the front, it comes back. -/
  returned : ∀ ops, (∀ op ∈ ops, Operation.isTraffic op) → LegalRun (b.pushBack data) ops →
    departed ops (b.pushBack data) = (b.pushBack data).available.toNat - 1 →
    (run ops (b.pushBack data)).lengthFront.toNat = data.length ∧
      (run ops (b.pushBack data)).cabuf.load (run ops (b.pushBack data)).front data.length = data

section PowerOfTwo

variable {k : ℕ} (hk : size.toNat = 2 ^ k) {b : CircularBuffer size multi}
  {d : BoundedDeque (List UInt8) size.toNat} {data : List UInt8}

include hk

namespace Represents

/-- The message behind the last one is stored in the row of `tail`. -/
theorem cabuf_pushBack (h : b.Represents d) :
    (b.pushBack data).cabuf = b.cabuf.store
      ((b.head.toNat + d.items.length) % size.toNat * (multi.toNat + 2)) (rowCells data) := by
  rw [CircularBuffer.pushBack, write, row_eq hk, h.indices.tail_mod]

omit hk in
theorem available_eq_size_iff (h : b.Represents d) :
    b.available = size ↔ d.items.length = size.toNat := by
  rw [← UInt16.toNat_inj, h.available_eq]

/-- A message that fits its slot is isolated. -/
theorem isolated (h : b.Represents d) (hfits : data.length ≤ multi.toNat) :
    b.Isolated data := by
  have hpos := size_pos hk
  have hpush := h.pushBack hk hfits
  constructor
  · have hlt := Nat.mod_lt b.tail.toNat hpos
    have := Nat.mul_le_mul_right (multi.toNat + 2) (Nat.succ_le_of_lt hlt)
    rw [Nat.succ_mul] at this
    rw [row_eq hk]
    omega
  · intro i hi hne
    rw [h.available_eq] at hi
    obtain ⟨hlen, hrow⟩ := h.rows i d.items[i] (List.getElem?_eq_getElem hi)
    have hdistinct : (b.head.toNat + i) % size.toNat ≠
        (b.head.toNat + d.items.length) % size.toNat := by
      rcases Nat.lt_or_eq_of_le d.length_le with hlt | hfull
      · exact add_mod_ne_add_mod (by omega) hlt (by omega)
      · -- the ring is full: the row of the oldest message is taken
        have hi0 := hne ((h.available_eq_size_iff).mpr hfull)
        rw [hfull, Nat.add_mod_right]
        exact add_mod_ne_add_mod (j := 0) (by omega) (by omega) hi0
    have hkept := hrow.store hlen (length_rowCells_le hfits) hdistinct
    rw [row_head_add hk, hrow.length b rfl, h.cabuf_pushBack hk |> hkept.length (b.pushBack data)]
    refine ⟨rfl, ?_⟩
    have hlength : (UInt16.ofNat d.items[i].length).toNat = d.items[i].length := by
      have := multi.toNat_lt
      rw [UInt16.toNat_ofNat', Nat.mod_eq_of_lt (by omega)]
    rw [hlength, h.cabuf_pushBack hk, hkept.bytes, hrow.bytes]
  · rw [CircularBuffer.pushBack, write]
    simp only [h.indices.full_iff hk, ← h.available_eq_size_iff]
  · intro ops htraffic legal hdeparted
    obtain ⟨before, hitems⟩ : ∃ before, (d.pushBack data).items = before ++ [data] := by
      rcases Nat.lt_or_eq_of_le d.length_le with hlt | hfull
      · exact ⟨_, d.items_pushBack_of_lt data hlt⟩
      · exact ⟨_, d.items_pushBack_of_full data hfull hpos⟩
    rw [hpush.available_eq, hitems, List.length_append, List.length_singleton,
      Nat.add_sub_cancel] at hdeparted
    exact (represents_run hk hpush ops legal).front_eq hk
      (head?_runDeque hk hpush htraffic legal hitems hdeparted)

end Represents

/-! ## Messages that reach into the next row -/

/-- Two rings with the same indices. -/
structure SameIndices (b c : CircularBuffer size multi) : Prop where
  head : b.head = c.head
  tail : b.tail = c.tail
  available : b.available = c.available

namespace SameIndices

omit hk

variable {c : CircularBuffer size multi}

theorem pushBack (h : SameIndices b c) (message message' : List UInt8) :
    SameIndices (b.pushBack message) (c.pushBack message') := by
  constructor <;> simp only [CircularBuffer.pushBack, write, h.head, h.tail, h.available]

theorem popFront (h : SameIndices b c) : SameIndices b.popFront c.popFront := by
  have hinit (b : CircularBuffer size multi) : SameIndices b.init b :=
    ⟨(init_fields b).1, (init_fields b).2.1, (init_fields b).2.2.1⟩
  constructor
  · simp only [CircularBuffer.popFront, read, (hinit b).head, (hinit c).head, h.head]
  · exact (hinit b).tail.trans (h.tail.trans (hinit c).tail.symm)
  · simp only [CircularBuffer.popFront, read, (hinit b).available, (hinit c).available,
      h.available]

/-- Pops do the same to both rings. -/
theorem popFronts (h : SameIndices b c) (n : ℕ) :
    SameIndices (run (List.replicate n .popFront) b) (run (List.replicate n .popFront) c) ∧
      (LegalRun b (List.replicate n .popFront) ↔ LegalRun c (List.replicate n .popFront)) ∧
      departed (List.replicate n .popFront) b = n := by
  induction n generalizing b c with
  | zero => exact ⟨h, Iff.rfl, rfl⟩
  | succ n ih =>
    obtain ⟨hrun, hlegal, hdeparted⟩ := ih h.popFront
    refine ⟨hrun, ?_, ?_⟩
    · rw [List.replicate_succ]
      exact and_congr (by rw [Operation.Legal, Operation.Legal, h.available]) hlegal
    · rw [List.replicate_succ, departed]
      exact (congrArg (1 + ·) hdeparted).trans (Nat.add_comm 1 n)

end SameIndices

omit hk in
/-- Pops move neither `tail` nor the cells. -/
theorem run_popFronts (b : CircularBuffer size multi) (n : ℕ) :
    (run (List.replicate n .popFront) b).tail = b.tail ∧
      (run (List.replicate n .popFront) b).cabuf = b.cabuf := by
  induction n generalizing b with
  | zero => exact ⟨rfl, rfl⟩
  | succ n ih =>
    have hinit : b.popFront.tail = b.tail ∧ b.popFront.cabuf = b.cabuf := by
      unfold popFront read init
      split
      · exact ⟨rfl, rfl⟩
      · exact ⟨rfl, rfl⟩
    obtain ⟨htail, hcabuf⟩ := ih b.popFront
    exact ⟨htail.trans hinit.1, hcabuf.trans hinit.2⟩

/-- As many messages can be popped as there are. -/
theorem Represents.legalRun_popFronts (h : b.Represents d) {n : ℕ} (hn : n ≤ d.items.length) :
    LegalRun b (List.replicate n .popFront) := by
  induction n generalizing b d with
  | zero => trivial
  | succ n ih =>
    have hpos : 0 < d.items.length := by omega
    refine ⟨?_, ih (h.popFront hk (List.ne_nil_of_length_pos hpos)) ?_⟩
    · rw [Operation.Legal, UInt16.lt_iff_toNat_lt, h.available_eq]
      exact hpos
    · rw [BoundedDeque.items_popFront, List.length_tail]
      omega

/-- One push after `data` and as many pops as it takes bring `data` to the front. -/
theorem Represents.exists_front (h : b.Represents d) (hsize : 2 ≤ size.toNat)
    (data : List UInt8) {m : List UInt8} (hm : m.length ≤ multi.toNat) :
    ∃ n, LegalRun (b.pushBack data) (.pushBack m :: List.replicate n .popFront) ∧
      departed (.pushBack m :: List.replicate n .popFront) (b.pushBack data) =
        (b.pushBack data).available.toNat - 1 ∧
      (run (.pushBack m :: List.replicate n .popFront) (b.pushBack data)).head.toNat %
        size.toNat = b.tail.toNat % size.toNat := by
  have hpos := size_pos hk
  -- the indices move as if a message without bytes had been pushed
  have hshort : (b.pushBack []).Represents (d.pushBack []) := h.pushBack hk (Nat.zero_le _)
  have hpush := hshort.pushBack hk hm
  have hsame : SameIndices (b.pushBack data) (b.pushBack []) :=
    SameIndices.pushBack ⟨rfl, rfl, rfl⟩ data []
  obtain ⟨before, hitems⟩ : ∃ before, (d.pushBack []).items = before ++ [[]] := by
    rcases Nat.lt_or_eq_of_le d.length_le with hlt | hfull
    · exact ⟨_, d.items_pushBack_of_lt [] hlt⟩
    · exact ⟨_, d.items_pushBack_of_full [] hfull hpos⟩
  have havailable : (b.pushBack data).available.toNat = before.length + 1 := by
    rw [hsame.available, hshort.available_eq, hitems, List.length_append, List.length_singleton]
  have hdeparts : Operation.departs (b.pushBack data) (.pushBack m) ≤ before.length := by
    simp only [Operation.departs, ← UInt16.toNat_inj, havailable]
    split <;> omega
  have hcount : before.length ≤ (d.pushBack []).items.length := by
    rw [hitems, List.length_append]
    omega
  obtain ⟨-, hrest⟩ := @items_applyDeque _ _ _ hk _ _ hshort (.pushBack m) rfl hm
  have hdepartsShort : Operation.departs (b.pushBack []) (.pushBack m) =
      Operation.departs (b.pushBack data) (.pushBack m) := by
    rw [Operation.departs, Operation.departs, hsame.available]
  rw [hdepartsShort, hitems] at hrest
  let n := before.length - Operation.departs (b.pushBack data) (.pushBack m)
  have hlegal := hpush.legalRun_popFronts hk (n := n) (by
    have hlen := congrArg List.length hrest
    simp only [Operation.pushed, List.length_drop, List.length_append,
      List.length_singleton] at hlen
    exact hlen ▸ (show n ≤ _ by omega))
  obtain ⟨hindices, hlegal', hdeparted⟩ := (hsame.pushBack m m).popFronts n
  have hsum : departed (.pushBack m :: List.replicate n .popFront) (b.pushBack data) =
      before.length := by
    rw [departed]
    exact (congrArg _ hdeparted).trans (Nat.add_sub_cancel' hdeparts)
  refine ⟨n, ⟨hm, hlegal'.mpr hlegal⟩, by rw [hsum, havailable, Nat.add_sub_cancel], ?_⟩
  -- the ring without the bytes of `data` holds two messages, and `tail` is two behind `head`
  have hlegalShort : LegalRun (b.pushBack []) (.pushBack m :: List.replicate n .popFront) :=
    ⟨hm, hlegal⟩
  have hend := represents_run hk hshort _ hlegalShort
  have hsumShort : departed (.pushBack m :: List.replicate n .popFront) (b.pushBack []) =
      before.length := by
    rw [departed, hdepartsShort]
    exact (congrArg _ ((SameIndices.popFronts ⟨rfl, rfl, rfl⟩ n).2.2)).trans
      (Nat.add_sub_cancel' hdeparts)
  have hlast : (runDeque (.pushBack m :: List.replicate n .popFront) (d.pushBack [])).items =
      [[], m] := by
    rw [items_runDeque hk hshort ?_ hlegalShort, hsumShort, hitems, List.append_assoc,
      List.drop_left' rfl]
    · have hnone : (List.replicate n Operation.popFront).flatMap Operation.pushed = [] := by
        rw [List.flatMap_eq_nil_iff]
        intro op hop
        rw [List.eq_of_mem_replicate hop]
        rfl
      rw [List.flatMap_cons, hnone]
      rfl
    · intro op hop
      rcases List.mem_cons.mp hop with rfl | hop
      · rfl
      · rw [List.eq_of_mem_replicate hop]
        rfl
  have htail := hend.tail_eq
  have hmoved : (run (.pushBack m :: List.replicate n .popFront) (b.pushBack [])).tail.toNat =
      (b.tail.toNat + 2) % (2 * size.toNat) := by
    have hpops := (run_popFronts ((b.pushBack []).pushBack m) n).1
    refine (congrArg UInt16.toNat hpops).trans ?_
    simp only [CircularBuffer.pushBack, write, toNat_next hk, Nat.mod_add_mod, Nat.add_assoc]
  rw [hmoved, hlast] at htail
  have hheads : (run (.pushBack m :: List.replicate n .popFront) (b.pushBack data)).head =
      (run (.pushBack m :: List.replicate n .popFront) (b.pushBack [])).head := hindices.head
  rw [hheads]
  have hmod : Nat.ModEq (2 * size.toNat) (b.tail.toNat + 2)
    ((run (.pushBack m :: List.replicate n .popFront) (b.pushBack [])).head.toNat + 2) := htail
  exact ((Nat.ModEq.add_right_cancel' 2 hmod).of_dvd (Nat.dvd_mul_left _ 2)).symm

/-- A message that reaches into the next row comes back with the length byte of the message
behind it. -/
theorem Isolated.overlap (h : b.Represents d) (hsize : 2 ≤ size.toNat)
    (hisolated : b.Isolated data) (hlong : multi.toNat < data.length) {m : List UInt8}
    (hm : m.length ≤ multi.toNat) :
    data[multi.toNat] = Bytes.high (UInt16.ofNat m.length) := by
  obtain ⟨n, hlegal, hdeparted, hhead⟩ := h.exists_front hk hsize data hm
  have hreturned := (hisolated.returned _ (fun op hop => by
    rcases List.mem_cons.mp hop with rfl | hop
    · rfl
    · rw [List.eq_of_mem_replicate hop]
      rfl) hlegal hdeparted).2
  have hcabuf : (run (.pushBack m :: List.replicate n .popFront) (b.pushBack data)).cabuf =
      ((b.pushBack data).pushBack m).cabuf :=
    (run_popFronts ((b.pushBack data).pushBack m) n).2
  -- the row behind that of `data` is inside the array
  have hrow : b.tail.toNat % size.toNat + 1 < size.toNat := by
    have hinside := hisolated.inside
    rw [row_eq hk] at hinside
    by_contra hlast
    have hle := Nat.mul_le_mul_right (multi.toNat + 2) (Nat.le_of_not_lt hlast)
    rw [Nat.succ_mul] at hle
    omega
  have hnext : (b.pushBack data).row (b.pushBack data).tail =
      (b.tail.toNat % size.toNat + 1) * (multi.toNat + 2) := by
    rw [row_eq hk, CircularBuffer.pushBack, write, toNat_next hk,
      Nat.mod_mod_of_dvd _ (Nat.dvd_mul_left _ 2), Nat.add_mod,
      Nat.mod_eq_of_lt (a := 1) (by omega), Nat.mod_eq_of_lt hrow]
  have hfront : (run (.pushBack m :: List.replicate n .popFront) (b.pushBack data)).front +
      multi.toNat = (b.pushBack data).row (b.pushBack data).tail + 0 := by
    rw [hnext, front, row_eq hk, hhead, Nat.succ_mul]
    omega
  have hbyte := Memory.getElem_load
    (run (.pushBack m :: List.replicate n .popFront) (b.pushBack data)).cabuf
    (run (.pushBack m :: List.replicate n .popFront) (b.pushBack data)).front data.length
    multi.toNat (by simpa using hlong)
  simp only [hreturned] at hbyte
  rw [hbyte, hfront, hcabuf]
  exact (b.pushBack data).cabuf.store_of_mem (i := 0) (rowCells m) (by simp)

/-- **A message is isolated exactly when it fits its slot.** -/
theorem isolated_iff_of_represents (h : b.Represents d) (hsize : 2 ≤ size.toNat)
    (hmulti : 256 ≤ multi.toNat) : b.Isolated data ↔ data.length ≤ multi.toNat := by
  constructor
  · intro hisolated
    by_contra hlong
    -- a message of 2 bytes and one of 256 have different length bytes
    have htwo := hisolated.overlap hk h hsize (Nat.lt_of_not_le hlong)
      (m := List.replicate 2 0) (by simp; omega)
    have hmany := hisolated.overlap hk h hsize (Nat.lt_of_not_le hlong)
      (m := List.replicate 256 0) (List.length_replicate.trans_le hmulti)
    rw [htwo, List.length_replicate, List.length_replicate] at hmany
    exact absurd hmany (by decide)
  · exact h.isolated hk

end PowerOfTwo

/-- **A frame is isolated in `teensquitto_queue` exactly when it has at most
`TEENSQUITTO_QUEUE_LEN` bytes**, whatever the queue went through with frames of that size. -/
theorem isolated_iff (cbuf cabuf : Memory UInt8) (ops : List Operation)
    (legal : LegalRun (create cbuf cabuf : CircularBuffer 16 300) ops) (data : List UInt8) :
    (run ops (create cbuf cabuf : CircularBuffer 16 300)).Isolated data ↔ data.length ≤ 300 :=
  isolated_iff_of_represents sixteen_eq
    (represents_run sixteen_eq (represents_create sixteen_eq cbuf cabuf) ops legal) (by decide)
    (by decide)

theorem isolated_iff_popped :
    (run [.pushBack [0xAB, 0xAB, 0x04, 0x04], .popFront]
      (create (fun _ => 0) (fun _ => 0) : CircularBuffer 16 300)).Isolated
      [0xAF, 0xAF, 0x00, 0x01, 0x01] :=
  (isolated_iff (fun _ => 0) (fun _ => 0) _ (by decide) _).mpr (by decide)

/-- An MQTT frame of 301 bytes in the new queue is not isolated. -/
theorem long_frame_not_isolated :
    ¬∀ (ops : List Operation) (rest : List UInt8),
      LegalRun (create (fun _ => 0) (fun _ => 0) : CircularBuffer 16 300) ops →
      (0xAF :: 0xAF :: rest).length ≤ 65535 →
      (run ops (create (fun _ => 0) (fun _ => 0) : CircularBuffer 16 300)).Isolated
        (0xAF :: 0xAF :: rest) := by
  intro hall
  obtain ⟨rest, hlength⟩ : ∃ rest : List UInt8, rest.length = 299 :=
    ⟨List.replicate 299 0, List.length_replicate⟩
  have hframe : (0xAF :: 0xAF :: rest).length = 301 := by
    rw [List.length_cons, List.length_cons, hlength]
  have hisolated := hall [] rest trivial (by omega)
  have hfits := (isolated_iff_of_represents sixteen_eq
    (represents_create sixteen_eq (fun _ => 0) (fun _ => 0)) (by decide) (by decide)).mp hisolated
  rw [hframe] at hfits
  exact absurd hfits (by decide)

end CircularBuffer
