import Teensquitto.CircularBuffer.Indices
import Teensquitto.CircularBuffer.Multi
import Teensquitto.Data.Deque

/-!
# The message ring refines a bounded deque

For a power of two `_size` the ring represents a deque of at most `_size` messages.
Message `i` lies in the row of index `head + i`, and `tail` is `head` plus the number of
messages, modulo `2 * _size`.  Every operation keeps this relation.

## Main definitions

* `CircularBuffer.Represents`: the ring holds the messages of a deque
* `CircularBuffer.Queue`: what lies in the rows from `head` on, whatever `tail` is
* `CircularBuffer.Operation`: the operations, with `run` on the ring and `Legal`,
  `runDeque` on the deque

## Main results

* `CircularBuffer.represents_run`: every legal run of the ring follows the deque
* `CircularBuffer.run_refines_deque`: what the observers return after every legal run
-/

namespace CircularBuffer

variable {size multi : UInt16}

/-! ## Rows -/

/-- The row of the absolute index `n` holds `message`. -/
def Holds (size multi : UInt16) (cabuf : Memory UInt8) (n : ℕ) (message : List UInt8) : Prop :=
  cabuf.load (n % size.toNat * (multi.toNat + 2)) (message.length + 2) = rowCells message

@[simp] theorem length_rowCells (message : List UInt8) :
    (rowCells message).length = message.length + 2 := by
  simp [rowCells]

theorem length_rowCells_le {message : List UInt8} (hm : message.length ≤ multi.toNat) :
    (rowCells message).length ≤ multi.toNat + 2 := by
  rw [length_rowCells]
  omega

theorem Holds.congr {cabuf : Memory UInt8} {n n' : ℕ} {message : List UInt8}
    (h : Holds size multi cabuf n message) (he : n' % size.toNat = n % size.toNat) :
    Holds size multi cabuf n' message := by
  rw [Holds, he]
  exact h

theorem holds_store (cabuf : Memory UInt8) (n : ℕ) (message : List UInt8) :
    Holds size multi
      (cabuf.store (n % size.toNat * (multi.toNat + 2)) (rowCells message)) n message := by
  have h := cabuf.load_store (n % size.toNat * (multi.toNat + 2)) (rowCells message)
  rwa [length_rowCells] at h

/-- A block stored at the beginning of another row keeps a row. -/
theorem load_row_store (cabuf : Memory UInt8) {n n' : ℕ} {cells : List UInt8}
    (hcells : cells.length ≤ multi.toNat + 2) (hne : n % size.toNat ≠ n' % size.toNat) :
    (cabuf.store (n' % size.toNat * (multi.toNat + 2)) cells).load
        (n % size.toNat * (multi.toNat + 2)) (multi.toNat + 2) =
      cabuf.load (n % size.toNat * (multi.toNat + 2)) (multi.toNat + 2) := by
  refine Memory.load_store_of_disjoint _ _ ?_
  rcases Nat.lt_or_gt_of_ne hne with hlt | hgt
  · have := Nat.mul_le_mul_right (multi.toNat + 2) (Nat.succ_le_of_lt hlt)
    rw [Nat.succ_mul] at this
    left; omega
  · have := Nat.mul_le_mul_right (multi.toNat + 2) (Nat.succ_le_of_lt hgt)
    rw [Nat.succ_mul] at this
    right; omega

/-- A row that is kept holds the message it held. -/
theorem Holds.of_load_eq {cabuf cabuf' : Memory UInt8} {n : ℕ} {message : List UInt8}
    (h : Holds size multi cabuf n message) (hm : message.length ≤ multi.toNat)
    (heq : cabuf'.load (n % size.toNat * (multi.toNat + 2)) (multi.toNat + 2) =
      cabuf.load (n % size.toNat * (multi.toNat + 2)) (multi.toNat + 2)) :
    Holds size multi cabuf' n message := by
  have hprefix := congrArg (List.take (message.length + 2)) heq
  rw [Memory.take_load _ _ (by omega), Memory.take_load _ _ (by omega)] at hprefix
  exact hprefix.trans h

/-- A store into another row keeps a message. -/
theorem Holds.store {cabuf : Memory UInt8} {n n' : ℕ} {message : List UInt8} {cells : List UInt8}
    (h : Holds size multi cabuf n message) (hm : message.length ≤ multi.toNat)
    (hcells : cells.length ≤ multi.toNat + 2) (hne : n % size.toNat ≠ n' % size.toNat) :
    Holds size multi (cabuf.store (n' % size.toNat * (multi.toNat + 2)) cells) n message :=
  h.of_load_eq hm (load_row_store cabuf hcells hne)

theorem Holds.bytes {cabuf : Memory UInt8} {n : ℕ} {message : List UInt8}
    (h : Holds size multi cabuf n message) :
    cabuf.load (n % size.toNat * (multi.toNat + 2) + 2) message.length = message := by
  rw [Holds, Nat.add_comm message.length 2, Memory.load_add] at h
  exact (List.append_inj h (by simp)).2

theorem Holds.length {cabuf : Memory UInt8} {n : ℕ} {message : List UInt8}
    (h : Holds size multi cabuf n message) (b : CircularBuffer size multi)
    (hb : b.cabuf = cabuf) :
    b.rowLength (n % size.toNat * (multi.toNat + 2)) = UInt16.ofNat message.length := by
  subst hb
  rw [Holds, Nat.add_comm message.length 2, Memory.load_add] at h
  have hcells := (List.append_inj h (by simp)).1
  simp only [Memory.load, List.range_succ_eq_map, List.range_zero, List.map_cons, List.map_nil,
    List.cons.injEq, and_true, Nat.add_zero] at hcells
  rw [rowLength, hcells.1, hcells.2, Bytes.join_split]

/-- Consecutive rows from the absolute index `start` hold the messages of `l`. -/
def Rows (size multi : UInt16) (cabuf : Memory UInt8) (start : ℕ) (l : List (List UInt8)) :
    Prop :=
  ∀ (i : ℕ) (message : List UInt8), l[i]? = some message →
    message.length ≤ multi.toNat ∧ Holds size multi cabuf (start + i) message

namespace Rows

variable {cabuf : Memory UInt8} {start : ℕ} {l : List (List UInt8)} {message : List UInt8}

theorem nil : Rows size multi cabuf start [] := fun i m h => by simp at h

theorem congr (h : Rows size multi cabuf start l) {start' : ℕ}
    (he : start' % size.toNat = start % size.toNat) : Rows size multi cabuf start' l :=
  fun i m hi => ⟨(h i m hi).1,
    (h i m hi).2.congr (by rw [← Nat.mod_add_mod, he, Nat.mod_add_mod])⟩

theorem tail (h : Rows size multi cabuf start l) : Rows size multi cabuf (start + 1) l.tail := by
  intro i m hi
  rw [List.getElem?_tail] at hi
  rw [Nat.add_assoc, Nat.add_comm 1 i]
  exact h (i + 1) m hi

theorem dropLast (h : Rows size multi cabuf start l) :
    Rows size multi cabuf start l.dropLast := by
  intro i m hi
  rw [List.getElem?_dropLast] at hi
  split at hi
  · exact h i m hi
  · cases hi

/-- Storing a message in the row behind fewer than `size` others appends it. -/
theorem append (h : Rows size multi cabuf start l) (hlt : l.length < size.toNat)
    (hm : message.length ≤ multi.toNat) :
    Rows size multi (cabuf.store
      ((start + l.length) % size.toNat * (multi.toNat + 2)) (rowCells message)) start
      (l ++ [message]) := by
  intro i m hi
  rw [List.getElem?_append] at hi
  split at hi
  · rename_i hil
    exact ⟨(h i m hi).1, (h i m hi).2.store (h i m hi).1 (length_rowCells_le hm)
      (add_mod_ne_add_mod (by omega) hlt (by omega))⟩
  · obtain ⟨hi0, rfl⟩ : i - l.length = 0 ∧ message = m := by
      simpa [List.getElem?_singleton] using hi
    obtain rfl : i = l.length := by omega
    exact ⟨hm, holds_store _ _ _⟩

/-- Storing a message in the row before fewer than `size` others prepends it. -/
theorem cons (h : Rows size multi cabuf (start + 1) l) (hlt : l.length < size.toNat)
    (hm : message.length ≤ multi.toNat) :
    Rows size multi (cabuf.store (start % size.toNat * (multi.toNat + 2)) (rowCells message))
      start (message :: l) := by
  intro i m hi
  cases i with
  | zero =>
    obtain rfl : message = m := by simpa using hi
    exact ⟨hm, holds_store _ _ _⟩
  | succ i =>
    rw [List.getElem?_cons_succ] at hi
    have hil := (List.getElem?_eq_some_iff.mp hi).1
    have hrow := h i m hi
    rw [Nat.add_assoc, Nat.add_comm 1 i] at hrow
    exact ⟨hrow.1, hrow.2.store hrow.1 (length_rowCells_le hm)
      (add_mod_ne_add_mod (j := 0) (by omega) (by omega) (by omega))⟩

end Rows

/-- `_init` changes neither the indices nor the rows. -/
theorem init_fields (b : CircularBuffer size multi) :
    b.init.head = b.head ∧ b.init.tail = b.tail ∧ b.init.available = b.available ∧
      b.init.cabuf = b.cabuf := by
  unfold init
  split
  · exact ⟨rfl, rfl, rfl, rfl⟩
  · exact ⟨rfl, rfl, rfl, rfl⟩

/-! ## The representation -/

/-- The ring holds the messages of the deque `d`. -/
structure Represents (b : CircularBuffer size multi)
    (d : BoundedDeque (List UInt8) size.toNat) : Prop where
  head_lt : b.head.toNat < 2 * size.toNat
  available_eq : b.available.toNat = d.items.length
  tail_eq : b.tail.toNat = (b.head.toNat + d.items.length) % (2 * size.toNat)
  rows : Rows size multi b.cabuf b.head.toNat d.items

/-- The queue is `l`: the rows from `head` on hold its messages, as many as are counted, none longer
than a row. -/
structure Queue (b : CircularBuffer size multi) (l : List (List UInt8)) : Prop where
  length_le : l.length ≤ size.toNat
  available_eq : b.available.toNat = l.length
  rows : Rows size multi b.cabuf b.head.toNat l

/-- A ring that represents a deque has its items for a queue. -/
theorem Represents.queue {b : CircularBuffer size multi}
    {d : BoundedDeque (List UInt8) size.toNat} (h : b.Represents d) : b.Queue d.items :=
  ⟨d.length_le, h.available_eq, h.rows⟩

section PowerOfTwo

variable {k : ℕ} (hk : size.toNat = 2 ^ k) {b : CircularBuffer size multi}
  {d : BoundedDeque (List UInt8) size.toNat} {message : List UInt8}

include hk

theorem represents_create (cbuf cabuf : Memory UInt8) :
    Represents (create cbuf cabuf : CircularBuffer size multi) BoundedDeque.empty where
  head_lt := Nat.mul_pos Nat.two_pos (size_pos hk)
  available_eq := rfl
  tail_eq := by simp [create]
  rows := Rows.nil

theorem row_eq (b : CircularBuffer size multi) (index : UInt16) :
    b.row index = index.toNat % size.toNat * (multi.toNat + 2) := by
  rw [row, toNat_and_rowMask hk]

/-- The row of the message `i`. -/
theorem row_head_add (b : CircularBuffer size multi) (i : ℕ) :
    b.row (b.head + UInt16.ofNat i) =
      (b.head.toNat + i) % size.toNat * (multi.toNat + 2) := by
  have hdvd : size.toNat ∣ 65536 := Dvd.dvd.trans (Nat.dvd_mul_left _ 2) (two_mul_size_dvd hk)
  rw [row_eq hk, UInt16.toNat_add, UInt16.toNat_ofNat', Nat.mod_mod_of_dvd _ hdvd,
    Nat.add_mod, Nat.mod_mod_of_dvd _ hdvd, ← Nat.add_mod]

namespace Represents

omit hk in
theorem init (h : b.Represents d) : b.init.Represents d := by
  unfold CircularBuffer.init
  split
  · exact ⟨h.head_lt, h.available_eq, h.tail_eq, h.rows⟩
  · exact h

omit hk in
theorem indices (h : b.Represents d) : Indices size b.head b.tail d.items.length :=
  ⟨h.head_lt, d.length_le, h.tail_eq⟩

omit hk in
theorem of_indices (hindices : Indices size b.head b.tail d.items.length)
    (havailable : b.available.toNat = d.items.length)
    (hrows : Rows size multi b.cabuf b.head.toNat d.items) : b.Represents d :=
  ⟨hindices.head_lt, havailable, hindices.tail_eq, hrows⟩

theorem pushBack (h : b.Represents d) (hm : message.length ≤ multi.toNat) :
    (b.pushBack message).Represents (d.pushBack message) := by
  have hpos := size_pos hk
  have hcabuf : (b.pushBack message).cabuf = b.cabuf.store
      ((b.head.toNat + d.items.length) % size.toNat * (multi.toNat + 2)) (rowCells message) := by
    rw [CircularBuffer.pushBack, write, row_eq hk, h.indices.tail_mod]
  have havailable : (b.pushBack message).available.toNat =
      if d.items.length < size.toNat then d.items.length + 1 else d.items.length := by
    rw [CircularBuffer.pushBack, write, toNat_available_succ, h.available_eq]
  rcases Nat.lt_or_eq_of_le d.length_le with hlt | hfull
  · have hitems := d.items_pushBack_of_lt message hlt
    have hhead : (b.pushBack message).head = b.head :=
      if_neg (mt (h.indices.full_iff hk).mp (Nat.ne_of_lt hlt))
    rw [if_pos hlt] at havailable
    apply of_indices
    · rw [hhead, hitems, List.length_append, List.length_singleton]
      exact h.indices.next_tail hk hlt
    · rw [havailable, hitems, List.length_append, List.length_singleton]
    · rw [hcabuf, hhead, hitems]
      exact h.rows.append hlt hm
  · -- the row of the first message is overwritten, and `head` moves past it
    have hitems := d.items_pushBack_of_full message hfull hpos
    have hlen : d.items.tail.length + 1 = d.items.length := by
      rw [List.length_tail]; omega
    have hhead : (b.pushBack message).head = (b.head + 1) &&& (2 * size - 1) :=
      if_pos ((h.indices.full_iff hk).mpr hfull)
    rw [if_neg (by omega)] at havailable
    apply of_indices
    · rw [hhead, hitems, List.length_append, List.length_singleton, hlen]
      exact h.indices.next_both hk
    · rw [havailable, hitems, List.length_append, List.length_singleton, hlen]
    · have hrows := h.rows.tail.append (by omega) hm
      rw [Nat.add_assoc, Nat.add_comm 1, hlen] at hrows
      rw [hcabuf, hhead, hitems]
      refine hrows.congr ?_
      rw [toNat_next hk, Nat.mod_mod_of_dvd _ (Nat.dvd_mul_left _ 2)]

theorem pushFront (h : b.Represents d) (hm : message.length ≤ multi.toNat) :
    (b.pushFront message).Represents (d.pushFront message) := by
  have hpos := size_pos hk
  have h := h.init
  have hhead : (b.pushFront message).head = (b.init.head - 1) &&& (2 * size - 1) := rfl
  have hcabuf : (b.pushFront message).cabuf = b.init.cabuf.store
      ((b.pushFront message).head.toNat % size.toNat * (multi.toNat + 2)) (rowCells message) := by
    rw [← row_eq hk b.init]
    rfl
  have havailable : (b.pushFront message).available.toNat =
      if d.items.length < size.toNat then d.items.length + 1 else d.items.length := by
    rw [CircularBuffer.pushFront, toNat_available_succ, h.available_eq]
  have hrows : Rows size multi b.init.cabuf ((b.pushFront message).head.toNat + 1) d.items := by
    refine h.rows.congr ?_
    rw [← Indices.toNat_previous_add_one hk h.head_lt, hhead,
      Nat.mod_mod_of_dvd _ (Nat.dvd_mul_left _ 2)]
  rcases Nat.lt_or_eq_of_le d.length_le with hlt | hfull
  · have hitems := d.items_pushFront_of_lt message hlt
    have htail : (b.pushFront message).tail = b.init.tail :=
      if_neg (mt (h.indices.full_iff hk).mp (Nat.ne_of_lt hlt))
    rw [if_pos hlt] at havailable
    apply of_indices
    · rw [hhead, htail, hitems, List.length_cons]
      exact h.indices.previous_head hk hlt
    · rw [havailable, hitems, List.length_cons]
    · rw [hcabuf, hitems]
      exact hrows.cons hlt hm
  · -- `tail` moves past the last message, whose row is overwritten
    have hitems := d.items_pushFront_of_full message hfull hpos
    have hlen : d.items.dropLast.length + 1 = d.items.length := by
      rw [List.length_dropLast]; omega
    have htail : (b.pushFront message).tail = (b.init.tail - 1) &&& (2 * size - 1) :=
      if_pos ((h.indices.full_iff hk).mpr hfull)
    rw [if_neg (by omega)] at havailable
    apply of_indices
    · rw [hhead, htail, hitems, List.length_cons, hlen]
      exact h.indices.previous_both hk
    · rw [havailable, hitems, List.length_cons, hlen]
    · rw [hcabuf, hitems]
      exact hrows.dropLast.cons (by omega) hm

theorem popFront (h : b.Represents d) (hne : d.items ≠ []) :
    b.popFront.Represents d.popFront := by
  have hlen := List.length_pos_of_ne_nil hne
  have h := h.init
  apply of_indices
  · rw [BoundedDeque.items_popFront, List.length_tail]
    exact h.indices.next_head hk hlen
  · rw [CircularBuffer.popFront, read, toNat_available_pred (by rw [h.available_eq]; omega),
      h.available_eq, BoundedDeque.items_popFront, List.length_tail]
  · have hrows : Rows size multi b.popFront.cabuf (b.init.head.toNat + 1) d.items.tail :=
      h.rows.tail
    refine hrows.congr ?_
    rw [CircularBuffer.popFront, read, toNat_next hk, Nat.mod_mod_of_dvd _ (Nat.dvd_mul_left _ 2)]

theorem popFrontInto (h : b.Represents d) (hne : d.items ≠ []) (length : UInt16) :
    (b.popFrontInto length).2.Represents d.popFront :=
  h.init.popFront hk hne

theorem popBackInto (h : b.Represents d) (hne : d.items ≠ []) (length : UInt16) :
    (b.popBackInto length).2.Represents d.popBack := by
  have hlen := List.length_pos_of_ne_nil hne
  have h := h.init
  apply of_indices
  · rw [BoundedDeque.items_popBack, List.length_dropLast]
    exact h.indices.previous_tail hk hlen
  · rw [CircularBuffer.popBackInto, toNat_available_pred (by rw [h.available_eq]; omega),
      h.available_eq, BoundedDeque.items_popBack, List.length_dropLast]
  · exact h.rows.dropLast

theorem clear (_ : b.Represents d) : b.clear.Represents d.clear :=
  ⟨Nat.mul_pos Nat.two_pos (size_pos hk), rfl, by simp [CircularBuffer.clear], Rows.nil⟩

/-! ### Observers -/

omit hk in
theorem rowLength_eq {n : ℕ} (h : Holds size multi b.cabuf n message)
    (hm : message.length ≤ multi.toNat) :
    (b.rowLength (n % size.toNat * (multi.toNat + 2))).toNat = message.length := by
  have hmulti := multi.toNat_lt
  rw [h.length b rfl, UInt16.toNat_ofNat', Nat.mod_eq_of_lt (by omega)]

/-- `front()` and `length_front()` are the first message and its length. -/
theorem front_eq (h : b.Represents d) (hhead : d.items.head? = some message) :
    b.lengthFront.toNat = message.length ∧ b.cabuf.load b.front message.length = message := by
  obtain ⟨hm, hrow⟩ := h.rows 0 message (by rw [← List.head?_eq_getElem?]; exact hhead)
  rw [lengthFront, front, row_eq hk]
  exact ⟨rowLength_eq hrow hm, hrow.bytes⟩

/-- `back()` and `length_back()` are the last message and its length. -/
theorem back_eq (h : b.Represents d) (hlast : d.items.getLast? = some message) :
    b.lengthBack.toNat = message.length ∧ b.cabuf.load b.back message.length = message := by
  have hpos := size_pos hk
  have hdvd : size.toNat ∣ 65536 := Dvd.dvd.trans (Nat.dvd_mul_left _ 2) (two_mul_size_dvd hk)
  rw [List.getLast?_eq_getElem?] at hlast
  have hlen := (List.getElem?_eq_some_iff.mp hlast).1
  obtain ⟨hm, hrow⟩ := h.rows _ message hlast
  have hshift : b.head.toNat + d.items.length + (size.toNat - 1) =
      b.head.toNat + (d.items.length - 1) + size.toNat := by omega
  have hlengthRow : b.row (b.head + b.available - 1) =
      (b.head.toNat + (d.items.length - 1)) % size.toNat * (multi.toNat + 2) := by
    rw [row_eq hk, toNat_sub_one_mod hdvd, UInt16.toNat_add, h.available_eq, ← Nat.mod_add_mod,
      Nat.mod_mod_of_dvd _ hdvd, Nat.mod_add_mod, hshift, Nat.add_mod_right]
  have hbackRow : b.row (b.tail - 1) =
      (b.head.toNat + (d.items.length - 1)) % size.toNat * (multi.toNat + 2) := by
    rw [row_eq hk, toNat_sub_one_mod hdvd, ← Nat.mod_add_mod, h.indices.tail_mod, Nat.mod_add_mod,
      hshift, Nat.add_mod_right]
  rw [lengthBack, back, hlengthRow, hbackRow]
  exact ⟨rowLength_eq hrow hm, hrow.bytes⟩

/-- `pop_front(buffer, length)` copies the first bytes of the first message. -/
theorem popFrontInto_bytes (h : b.Represents d) (hhead : d.items.head? = some message)
    {length : UInt16} (hle : length.toNat ≤ message.length) :
    (b.popFrontInto length).1 = message.take length.toNat := by
  have hfront := (h.init.front_eq hk hhead).2
  rw [CircularBuffer.popFrontInto, readBytes, ← Memory.take_load _ _ hle]
  exact congrArg (List.take _) hfront

/-- `pop_back(buffer, length)` copies the first bytes of the last message. -/
theorem popBackInto_bytes (h : b.Represents d) (hlast : d.items.getLast? = some message)
    {length : UInt16} (hle : length.toNat ≤ message.length) :
    (b.popBackInto length).1 = message.take length.toNat := by
  have hback := (h.init.back_eq hk hlast).2
  rw [CircularBuffer.popBackInto, ← Memory.take_load _ _ hle]
  exact congrArg (List.take _) hback

end Represents

end PowerOfTwo

/-! ## Runs -/

/-- The operations that change the ring. -/
inductive Operation
  | pushBack (buffer : List UInt8)
  | pushFront (buffer : List UInt8)
  | clear
  | popFront
  | popFrontInto (length : UInt16)
  | popBackInto (length : UInt16)
  deriving Repr, DecidableEq

namespace Operation

/-- The operation on the ring. -/
def apply : Operation → CircularBuffer size multi → CircularBuffer size multi
  | pushBack buffer, b => b.pushBack buffer
  | pushFront buffer, b => b.pushFront buffer
  | clear, b => b.clear
  | popFront, b => b.popFront
  | popFrontInto length, b => (b.popFrontInto length).2
  | popBackInto length, b => (b.popBackInto length).2

/-- The operation on the deque. -/
def applyDeque {capacity : ℕ} :
    Operation → BoundedDeque (List UInt8) capacity → BoundedDeque (List UInt8) capacity
  | pushBack buffer, d => d.pushBack buffer
  | pushFront buffer, d => d.pushFront buffer
  | clear, d => d.clear
  | popFront, d => d.popFront
  | popFrontInto _, d => d.popFront
  | popBackInto _, d => d.popBack

/-- A push fits a row, and a pop is called only when `size() > 0`. -/
def Legal (b : CircularBuffer size multi) : Operation → Prop
  | pushBack buffer => buffer.length ≤ multi.toNat
  | pushFront buffer => buffer.length ≤ multi.toNat
  | clear => True
  | popFront => 0 < b.available
  | popFrontInto _ => 0 < b.available
  | popBackInto _ => 0 < b.available

instance (b : CircularBuffer size multi) (op : Operation) : Decidable (op.Legal b) :=
  match op with
  | pushBack buffer => inferInstanceAs (Decidable (buffer.length ≤ multi.toNat))
  | pushFront buffer => inferInstanceAs (Decidable (buffer.length ≤ multi.toNat))
  | clear => inferInstanceAs (Decidable True)
  | popFront => inferInstanceAs (Decidable (0 < b.available))
  | popFrontInto _ => inferInstanceAs (Decidable (0 < b.available))
  | popBackInto _ => inferInstanceAs (Decidable (0 < b.available))

end Operation

/-- The ring after a sequence of operations. -/
def run (ops : List Operation) (b : CircularBuffer size multi) : CircularBuffer size multi :=
  ops.foldl (fun b op => op.apply b) b

/-- The deque after a sequence of operations. -/
def runDeque {capacity : ℕ} (ops : List Operation) (d : BoundedDeque (List UInt8) capacity) :
    BoundedDeque (List UInt8) capacity :=
  ops.foldl (fun d op => op.applyDeque d) d

/-- Every operation of the sequence is legal where it is called. -/
def LegalRun (b : CircularBuffer size multi) : List Operation → Prop
  | [] => True
  | op :: ops => op.Legal b ∧ LegalRun (op.apply b) ops

instance decidableLegalRun : (ops : List Operation) → (b : CircularBuffer size multi) →
    Decidable (LegalRun b ops)
  | [], _ => inferInstanceAs (Decidable True)
  | op :: ops, b =>
    have := decidableLegalRun ops (op.apply b)
    inferInstanceAs (Decidable (op.Legal b ∧ LegalRun (op.apply b) ops))

section PowerOfTwo

variable {k : ℕ} (hk : size.toNat = 2 ^ k) {b : CircularBuffer size multi}
  {d : BoundedDeque (List UInt8) size.toNat}

include hk

/-- One legal operation keeps the representation. -/
theorem represents_apply (h : b.Represents d) (op : Operation) (legal : op.Legal b) :
    (op.apply b).Represents (op.applyDeque d) := by
  have hne (hpos : 0 < b.available) : d.items ≠ [] := by
    rw [UInt16.lt_iff_toNat_lt, h.available_eq] at hpos
    exact List.ne_nil_of_length_pos hpos
  cases op with
  | pushBack buffer => exact h.pushBack hk legal
  | pushFront buffer => exact h.pushFront hk legal
  | clear => exact h.clear hk
  | popFront => exact h.popFront hk (hne legal)
  | popFrontInto length => exact h.popFrontInto hk (hne legal) length
  | popBackInto length => exact h.popBackInto hk (hne legal) length

/-- **The ring follows the deque** through every legal run. -/
theorem represents_run (h : b.Represents d) (ops : List Operation) (legal : LegalRun b ops) :
    (run ops b).Represents (runDeque ops d) := by
  induction ops generalizing b d with
  | nil => exact h
  | cons op ops ih => exact ih (represents_apply hk h op legal.1) legal.2

/-- **The message ring refines a bounded deque.**  After every legal run from a new buffer
the observers return the length and the end messages of the deque that made the same
operations, and `tail` is `head + size()` modulo `2 * _size`. -/
theorem run_refines_deque (cbuf cabuf : Memory UInt8) (ops : List Operation)
    (legal : LegalRun (create cbuf cabuf : CircularBuffer size multi) ops) :
    let b : CircularBuffer size multi := run ops (create cbuf cabuf)
    let d : BoundedDeque (List UInt8) size.toNat := runDeque ops BoundedDeque.empty
    b.Represents d ∧
    b.available.toNat = d.items.length ∧
    (∀ message, d.items.head? = some message →
      b.lengthFront.toNat = message.length ∧ b.cabuf.load b.front message.length = message) ∧
    (∀ message, d.items.getLast? = some message →
      b.lengthBack.toNat = message.length ∧ b.cabuf.load b.back message.length = message) ∧
    b.tail.toNat = (b.head.toNat + b.available.toNat) % (2 * size.toNat) := by
  intro b d
  have h : b.Represents d := represents_run hk (represents_create hk cbuf cabuf) ops legal
  refine ⟨h, h.available_eq, fun message => h.front_eq hk, fun message => h.back_eq hk, ?_⟩
  rw [h.available_eq]
  exact h.tail_eq

end PowerOfTwo

/-- A run on two rows that wraps around and discards at both ends. -/
theorem run_refines_deque_two_rows :
    let ops : List Operation := [.pushBack [1], .pushBack [2, 3], .pushBack [4], .popFront,
      .pushFront [5], .pushFront [6, 7, 8], .popBackInto 1]
    let b : CircularBuffer 2 3 := run ops (create (fun _ => 0) (fun _ => 0))
    b.available.toNat = 1 ∧ b.lengthFront.toNat = 3 ∧ b.cabuf.load b.front 3 = [6, 7, 8] ∧
      b.tail.toNat = (b.head.toNat + b.available.toNat) % 4 := by
  intro ops b
  have h := @run_refines_deque 2 3 1 rfl (fun _ => 0) (fun _ => 0) ops (by decide)
  have hfront := h.2.2.1 [6, 7, 8] rfl
  exact ⟨h.2.1, hfront.1, hfront.2, h.2.2.2.2⟩

end CircularBuffer
