import Teensquitto.CircularBuffer.Refinement

/-!
# Removing a message

`remove(pos)` looks for the message in the row `pos`, moves the messages before it up by one row and
drops the first row.  A move copies the stored length and three cells more, one more than the length
and the bytes take: of a full message it reaches into the next row.  Rows without a message are
removed like any other.

## Main definitions

* `CircularBuffer.remove`: the operation, with `shiftRows` for its loop
* `CircularBuffer.ShiftsInside`: the loop stays inside `_cabuf`
* `CircularBuffer.RemovesOne`: the message of a row is removed, and no other
* `CircularBuffer.Removable`: what full messages before the removed one must meet

## Main results

* `CircularBuffer.Rows.shift`: what a move does to the messages
* `CircularBuffer.removesOne_iff`: when the message of a row is removed, and no other
-/

namespace CircularBuffer

variable {size multi : UInt16}

/-! ## The operation -/

/-- The row number of the position `i`. -/
def slot (b : CircularBuffer size multi) (i : ℕ) : UInt16 :=
  (b.head + UInt16.ofNat i) &&& (size - 1)

/-- The position whose row number is `pos`. -/
def findArea (b : CircularBuffer size multi) (pos : UInt16) : Option ℕ :=
  (List.range size.toNat).find? fun i => b.slot i == pos

/-- The `memmove` of one turn of the loop: the row of the position before is copied, three cells
more than its length. -/
def shiftRow (b : CircularBuffer size multi) (area : ℕ) : CircularBuffer size multi :=
  let source := b.row (b.head + UInt16.ofNat area - 1)
  -- `rowLength + 2` bytes would be the whole message; the code copies one more
  { b with
    cabuf := b.cabuf.store (b.row (b.head + UInt16.ofNat area))
      (b.cabuf.load source ((b.rowLength source).toNat + 3)) }

/-- The loop, from the position `find_area` down to the row of `head`. -/
def shiftRows : ℕ → CircularBuffer size multi → CircularBuffer size multi
  | 0, b => b
  | area + 1, b =>
    -- the loop compares row numbers, not positions
    if b.slot (area + 1) ≠ b.slot 0 then shiftRows area (b.shiftRow (area + 1)) else b

/-- `remove(pos)`. -/
def remove (b : CircularBuffer size multi) (pos : UInt16) : Bool × CircularBuffer size multi :=
  if pos ≥ size then (false, b)
  else
    match b.findArea pos with
    | none => (false, b)
    | some area =>
      -- `_available` is not looked at, so a row behind the last message is removed too
      let b := b.shiftRows area
      (true, { b with head := (b.head + 1) &&& (2 * size - 1), available := b.available - 1 })

/-- No move of the loop reads or writes a cell outside `_cabuf`. -/
def ShiftsInside : ℕ → CircularBuffer size multi → Prop
  | 0, _ => True
  | area + 1, b =>
    b.slot (area + 1) ≠ b.slot 0 →
      let source := b.row (b.head + UInt16.ofNat (area + 1) - 1)
      source + ((b.rowLength source).toNat + 3) ≤ size.toNat * (multi.toNat + 2) ∧
        b.row (b.head + UInt16.ofNat (area + 1)) + ((b.rowLength source).toNat + 3) ≤
          size.toNat * (multi.toNat + 2) ∧
        ShiftsInside area (b.shiftRow (area + 1))

/-- Exactly the message in the row `pos` is removed: if there is one, `remove` returns true, leaves
the other messages in their order with the same end and touches nothing outside `_cabuf`; if there
is none, it returns false and changes nothing. -/
structure RemovesOne (b : CircularBuffer size multi) (l : List (List UInt8)) (pos : UInt16) :
    Prop where
  live : ∀ i < l.length, b.slot i = pos →
    (b.remove pos).1 = true ∧ (b.remove pos).2.Queue (l.eraseIdx i) ∧
      (b.remove pos).2.tail = b.tail ∧ b.ShiftsInside i
  absent : (∀ i < l.length, b.slot i ≠ pos) → b.remove pos = (false, b)

/-- What the full messages before the message `i` must meet: none is in the last row or moved there,
and if the message right before is full, the one behind the message `i` (in a full ring the first
one behind the last) has the high length byte of the message `i`. -/
structure Removable (b : CircularBuffer size multi) (l : List (List UInt8)) (i : ℕ) : Prop where
  rows : ∀ j < i, ∀ m, l[j]? = some m → m.length = multi.toNat →
    b.slot j ≠ size - 1 ∧ b.slot (j + 1) ≠ size - 1
  next : ∀ j, j + 1 = i → ∀ m, l[j]? = some m → m.length = multi.toNat →
    ∀ m₁, l[i]? = some m₁ → ∀ m₂, l[(i + 1) % size.toNat]? = some m₂ →
      Bytes.high (UInt16.ofNat m₂.length) = Bytes.high (UInt16.ofNat m₁.length)

/-! ## One move -/

section Rows

variable {cabuf : Memory UInt8} {start : ℕ} {l : List (List UInt8)} {message : List UInt8} {n : ℕ}

/-- The first cell of a row is the high byte of its length. -/
theorem Holds.first (h : Holds size multi cabuf n message) :
    cabuf (n % size.toNat * (multi.toNat + 2)) = Bytes.high (UInt16.ofNat message.length) := by
  have hcell := Memory.getElem_load cabuf (n % size.toNat * (multi.toNat + 2))
    (message.length + 2) 0 (by rw [Memory.length_load]; omega)
  exact hcell.symm.trans (List.getElem_of_eq h _)

/-- The first cell of a row written again with the high byte of the length of its message. -/
theorem Holds.set_first (h : Holds size multi cabuf n message)
    (hm : message.length ≤ multi.toNat) {n' : ℕ} {x : UInt8}
    (hx : n % size.toNat = n' % size.toNat → x = Bytes.high (UInt16.ofNat message.length)) :
    Holds size multi (cabuf.set (n' % size.toNat * (multi.toNat + 2)) x) n message := by
  by_cases hsame : n % size.toNat = n' % size.toNat
  · rw [hx hsame, ← hsame, cabuf.set_eq_self h.first]
    exact h
  · have hone : [x].length ≤ multi.toNat + 2 := by
      rw [List.length_singleton]
      omega
    exact h.store hm hone hsame

/-- The row behind one that is not the last. -/
theorem row_succ {n : ℕ} (hpos : 0 < size.toNat) (hlast : n % size.toNat ≠ size.toNat - 1) :
    n % size.toNat * (multi.toNat + 2) + (multi.toNat + 2) =
      (n + 1) % size.toNat * (multi.toNat + 2) := by
  have hlt := Nat.mod_lt n hpos
  have hsucc : (n + 1) % size.toNat = n % size.toNat + 1 := by
    rw [← Nat.mod_add_mod, Nat.mod_eq_of_lt (by omega)]
  rw [hsucc, Nat.succ_mul]

/-- A copy of a row and one cell more into the next row. -/
theorem shift_cells (cabuf : Memory UInt8) {n : ℕ} (hpos : 0 < size.toNat)
    (hlast : n % size.toNat ≠ size.toNat - 1)
    (hlast' : (n + 1) % size.toNat ≠ size.toNat - 1) {x : UInt8}
    (hx : cabuf ((n + 1) % size.toNat * (multi.toNat + 2)) = x) :
    cabuf.store ((n + 1) % size.toNat * (multi.toNat + 2))
        (cabuf.load (n % size.toNat * (multi.toNat + 2)) (multi.toNat + 3)) =
      (cabuf.store ((n + 1) % size.toNat * (multi.toNat + 2))
        (cabuf.load (n % size.toNat * (multi.toNat + 2)) (multi.toNat + 2))).set
        ((n + 2) % size.toNat * (multi.toNat + 2)) x := by
  rw [← row_succ hpos hlast] at hx
  rw [show multi.toNat + 3 = multi.toNat + 2 + 1 from rfl, Memory.load_succ, hx,
    ← Memory.set_store, Memory.length_load, row_succ hpos hlast']

/-- **A move of the loop** copies a message over the next one and leaves the others, when its last
cell does. -/
theorem Rows.shift (h : Rows size multi cabuf start l) (hlen : l.length ≤ size.toNat) {t : ℕ}
    {m m₁ : List UInt8} (hm : l[t]? = some m) (hm₁ : l[t + 1]? = some m₁)
    (hrows : m.length = multi.toNat → (start + t) % size.toNat ≠ size.toNat - 1 ∧
      (start + t + 1) % size.toNat ≠ size.toNat - 1)
    (hnext : m.length = multi.toNat → ∀ m₂, l[(t + 2) % size.toNat]? = some m₂ →
      Bytes.high (UInt16.ofNat m₂.length) = Bytes.high (UInt16.ofNat m₁.length)) :
    Rows size multi (cabuf.store ((start + t + 1) % size.toNat * (multi.toNat + 2))
      (cabuf.load ((start + t) % size.toNat * (multi.toNat + 2)) (m.length + 3))) start
      (l.set (t + 1) m) := by
  obtain ⟨hmle, hholds⟩ := h t m hm
  have ht := (List.getElem?_eq_some_iff.mp hm₁).1
  have hpos : 0 < size.toNat := by omega
  -- the row that is written to holds the message that is copied
  have hcopied : ∀ n ≤ multi.toNat + 2, m.length + 2 ≤ n →
      Holds size multi (cabuf.store ((start + t + 1) % size.toNat * (multi.toNat + 2))
        (cabuf.load ((start + t) % size.toNat * (multi.toNat + 2)) n)) (start + t + 1) m := by
    intro n _ hle
    rw [Holds, Memory.load_store_take _ _ _ (by rwa [Memory.length_load]), Memory.take_load _ _ hle]
    exact hholds
  -- the other rows are kept by a copy that does not leave the row
  have hblock : ∀ n ≤ multi.toNat + 2, m.length + 2 ≤ n →
      Rows size multi (cabuf.store ((start + t + 1) % size.toNat * (multi.toNat + 2))
        (cabuf.load ((start + t) % size.toNat * (multi.toNat + 2)) n)) start (l.set (t + 1) m) := by
    intro n hn hle i m' hi
    rw [List.getElem?_set] at hi
    split at hi
    · next heq =>
      obtain rfl : m = m' := by simpa [ht] using hi
      rw [← heq]
      exact ⟨hmle, hcopied n hn hle⟩
    · next hne =>
      obtain ⟨hmle', hholds'⟩ := h i m' hi
      have hi' := (List.getElem?_eq_some_iff.mp hi).1
      exact ⟨hmle', hholds'.store hmle' (by rwa [Memory.length_load])
        (add_mod_ne_add_mod (by omega) (by omega) (Ne.symm hne))⟩
  by_cases hfull : m.length = multi.toNat
  · obtain ⟨hlast, hlast'⟩ := hrows hfull
    rw [hfull, shift_cells cabuf hpos hlast hlast' (h (t + 1) m₁ hm₁).2.first]
    intro i m' hi
    obtain ⟨hmle', hholds'⟩ := hblock (multi.toNat + 2) (Nat.le_refl _) (by omega) i m' hi
    refine ⟨hmle', hholds'.set_first hmle' fun hsame => ?_⟩
    -- the cell behind the copy belongs to the message after the next
    have hi' : i < l.length := by
      have := (List.getElem?_eq_some_iff.mp hi).1
      rwa [List.length_set] at this
    have hindex : i = (t + 2) % size.toNat := by
      have hcancel : i % size.toNat = (t + 2) % size.toNat :=
        Nat.ModEq.add_left_cancel' start hsame
      rwa [Nat.mod_eq_of_lt (by omega)] at hcancel
    have hne : t + 1 ≠ i := by
      rcases Nat.lt_or_ge (t + 2) size.toNat with hlt | hge
      · rw [hindex, Nat.mod_eq_of_lt hlt]
        exact Nat.succ_ne_self (t + 1) |>.symm
      · rw [hindex, show t + 2 = size.toNat by omega, Nat.mod_self]
        exact Nat.succ_ne_zero t
    rw [List.getElem?_set_ne hne, hindex] at hi
    exact (hnext hfull m' hi).symm
  · exact hblock (m.length + 3) (by omega) (by omega)

end Rows

/-! ## The loop on the list -/

/-- What the loop does to the list of messages. -/
def shifts : ℕ → List (List UInt8) → List (List UInt8)
  | 0, l => l
  | t + 1, l => shifts t (l.set (t + 1) (l[t]?.getD []))

/-- Without the first message the shifted list is the old one without the message at `t`. -/
theorem tail_shifts {t : ℕ} {l : List (List UInt8)} (h : t < l.length) :
    (shifts t l).tail = l.eraseIdx t := by
  induction t generalizing l with
  | zero =>
    rw [shifts, List.eraseIdx_zero]
  -- Induction on the position: the first turn copies `t` over `t + 1`, the rest erases `t`.
  | succ t ih =>
    rw [shifts, ih (by rw [List.length_set]; omega)]
    refine List.ext_getElem? fun i => ?_
    rw [List.getElem?_eraseIdx, List.getElem?_eraseIdx]
    -- before `t`, at `t`, which holds its own copy, and behind
    rcases Nat.lt_trichotomy i t with hlt | rfl | hgt
    · rw [if_pos hlt, if_pos (by omega), List.getElem?_set_ne (by omega)]
    · rw [if_neg (Nat.lt_irrefl i), if_pos (Nat.lt_succ_self i), List.getElem?_set_self h,
        List.getElem?_eq_getElem (by omega)]
      rfl
    · rw [if_neg (by omega), if_neg (by omega), List.getElem?_set_ne (by omega)]

section PowerOfTwo

variable {k : ℕ} (hk : size.toNat = 2 ^ k) {b : CircularBuffer size multi}
  {l : List (List UInt8)} {t : ℕ}

include hk

/-! ## The loop on the ring -/

theorem toNat_slot (b : CircularBuffer size multi) (i : ℕ) :
    (b.slot i).toNat = (b.head.toNat + i) % size.toNat := by
  have hdvd : size.toNat ∣ 65536 := Dvd.dvd.trans (Nat.dvd_mul_left _ 2) (two_mul_size_dvd hk)
  rw [slot, toNat_and_rowMask hk, UInt16.toNat_add, UInt16.toNat_ofNat', Nat.mod_mod_of_dvd _ hdvd,
    Nat.add_mod, Nat.mod_mod_of_dvd _ hdvd, ← Nat.add_mod]

theorem slot_ne_last_iff (b : CircularBuffer size multi) (i : ℕ) :
    b.slot i ≠ size - 1 ↔ (b.head.toNat + i) % size.toNat ≠ size.toNat - 1 := by
  have hpos := size_pos hk
  have hlt := size.toNat_lt
  have hlast : (size - 1).toNat = size.toNat - 1 := by
    rw [UInt16.toNat_sub]
    simp only [UInt16.reduceToNat]
    omega
  rw [← toNat_slot hk, ← hlast, Ne, Ne, UInt16.toNat_inj]

theorem slot_ne_slot (b : CircularBuffer size multi) {i j : ℕ} (hi : i < size.toNat)
    (hj : j < size.toNat) (hne : i ≠ j) : b.slot i ≠ b.slot j := by
  intro h
  have hmod := congrArg UInt16.toNat h
  rw [toNat_slot hk, toNat_slot hk] at hmod
  exact add_mod_ne_add_mod hi hj hne hmod

/-- The row that a move reads. -/
theorem row_source (b : CircularBuffer size multi) (t : ℕ) :
    b.row (b.head + UInt16.ofNat (t + 1) - 1) =
      (b.head.toNat + t) % size.toNat * (multi.toNat + 2) := by
  have hsub : b.head + UInt16.ofNat (t + 1) - 1 = b.head + UInt16.ofNat t := by
    rw [UInt16.ofNat_add, ← add_assoc]
    exact add_sub_cancel_right _ _
  rw [hsub, row_head_add hk]

theorem cabuf_shiftRow (b : CircularBuffer size multi) (t : ℕ) :
    (b.shiftRow (t + 1)).cabuf =
      b.cabuf.store ((b.head.toNat + t + 1) % size.toNat * (multi.toNat + 2))
        (b.cabuf.load ((b.head.toNat + t) % size.toNat * (multi.toNat + 2))
          ((b.rowLength ((b.head.toNat + t) % size.toNat * (multi.toNat + 2))).toNat + 3)) := by
  rw [shiftRow, row_source hk, row_head_add hk, Nat.add_assoc]

omit hk in
/-- The loop changes nothing but the rows. -/
theorem shiftRows_fields (t : ℕ) (b : CircularBuffer size multi) :
    (shiftRows t b).head = b.head ∧ (shiftRows t b).tail = b.tail ∧
      (shiftRows t b).available = b.available := by
  induction t generalizing b with
  | zero => exact ⟨rfl, rfl, rfl⟩
  | succ t ih =>
    rw [shiftRows]
    split
    · exact ih _
    · exact ⟨rfl, rfl, rfl⟩

/-- A block of a stored length and three cells ends inside the array, unless the message is full
and in the last row. -/
theorem block_inside_iff {n length : ℕ} (hle : length ≤ multi.toNat) :
    n % size.toNat * (multi.toNat + 2) + (length + 3) ≤ size.toNat * (multi.toNat + 2) ↔
      (length = multi.toNat → n % size.toNat ≠ size.toNat - 1) := by
  have hpos := size_pos hk
  have hlt := Nat.mod_lt n hpos
  rcases Nat.lt_or_ge (n % size.toNat + 1) size.toNat with hinner | hlast
  · have hrows := Nat.mul_le_mul_right (multi.toNat + 2) (Nat.succ_le_of_lt hinner)
    rw [Nat.succ_mul, Nat.succ_mul] at hrows
    constructor
    · intro _ _
      omega
    · intro _
      omega
  · have hrows : size.toNat * (multi.toNat + 2) =
        n % size.toNat * (multi.toNat + 2) + (multi.toNat + 2) := by
      rw [← Nat.succ_mul]
      congr 1
      omega
    rw [hrows]
    constructor
    · intro _ _
      omega
    · intro hfull
      by_contra hout
      exact hfull (by omega) (by omega)

/-- One turn of the loop. -/
theorem rows_shiftRow (h : Rows size multi b.cabuf b.head.toNat l) (hlen : l.length ≤ size.toNat)
    (ht : t + 1 < l.length) {m : List UInt8} (hm : l[t]? = some m)
    (hfull : m.length = multi.toNat → (b.head.toNat + t) % size.toNat ≠ size.toNat - 1 ∧
      (b.head.toNat + t + 1) % size.toNat ≠ size.toNat - 1)
    (hnext : m.length = multi.toNat → ∀ m₁, l[t + 1]? = some m₁ →
      ∀ m₂, l[(t + 2) % size.toNat]? = some m₂ →
        Bytes.high (UInt16.ofNat m₂.length) = Bytes.high (UInt16.ofNat m₁.length)) :
    Rows size multi (b.shiftRow (t + 1)).cabuf b.head.toNat (l.set (t + 1) m) := by
  have hm₁ : l[t + 1]? = some l[t + 1] := List.getElem?_eq_getElem ht
  rw [cabuf_shiftRow hk, Represents.rowLength_eq (h t m hm).2 (h t m hm).1]
  exact h.shift hlen hm hm₁ hfull fun hmulti => hnext hmulti _ hm₁

omit hk in
/-- After a turn the message behind the next move is the one just copied. -/
theorem next_of_set (hlen : l.length ≤ size.toNat) (ht : t + 1 < l.length) {m : List UInt8}
    (hm : l[t]? = some m) {m₁ m₂ : List UInt8} (hm₁ : (l.set (t + 1) m)[t]? = some m₁)
    (hm₂ : (l.set (t + 1) m)[(t + 1) % size.toNat]? = some m₂) : m₂ = m₁ := by
  rw [List.getElem?_set_ne (by omega), hm] at hm₁
  rw [Nat.mod_eq_of_lt (by omega), List.getElem?_set_self ht] at hm₂
  exact (Option.some.inj hm₂).symm.trans (Option.some.inj hm₁)

/-- **The loop moves the messages** as on the list, and stays inside the array. -/
theorem rows_shiftRows (h : Rows size multi b.cabuf b.head.toNat l) (hlen : l.length ≤ size.toNat)
    (ht : t < l.length)
    (hrows : ∀ j < t, ∀ m, l[j]? = some m → m.length = multi.toNat →
      b.slot j ≠ size - 1 ∧ b.slot (j + 1) ≠ size - 1)
    (hnext : ∀ j, j + 1 = t → ∀ m, l[j]? = some m → m.length = multi.toNat →
      ∀ m₁, l[t]? = some m₁ → ∀ m₂, l[(t + 1) % size.toNat]? = some m₂ →
        Bytes.high (UInt16.ofNat m₂.length) = Bytes.high (UInt16.ofNat m₁.length)) :
    Rows size multi (shiftRows t b).cabuf b.head.toNat (shifts t l) ∧ b.ShiftsInside t := by
  -- Induction on the turns left, for any ring and any messages: a turn changes both.
  induction t generalizing b l with
  | zero => exact ⟨h, trivial⟩
  | succ t ih =>
    obtain ⟨m, hm⟩ : ∃ m, l[t]? = some m := ⟨_, List.getElem?_eq_getElem (by omega)⟩
    have hguard : b.slot (t + 1) ≠ b.slot 0 := slot_ne_slot hk b (by omega) (by omega) (by omega)
    have hmle := (h t m hm).1
    have hfull : m.length = multi.toNat →
        (b.head.toNat + t) % size.toNat ≠ size.toNat - 1 ∧
          (b.head.toNat + t + 1) % size.toNat ≠ size.toNat - 1 := fun hmulti =>
      (hrows t (Nat.lt_succ_self t) m hm hmulti).imp (slot_ne_last_iff hk b t).mp
        (slot_ne_last_iff hk b (t + 1)).mp
    -- the first turn meets the condition on the message behind ...
    have hstep := rows_shiftRow hk h hlen ht hm hfull (hnext t rfl m hm)
    -- ... and a later one moves its message next to its own copy, where nothing can differ
    obtain ⟨hrest, hinside⟩ := ih (b := b.shiftRow (t + 1)) (l := l.set (t + 1) m) hstep
      (by rwa [List.length_set]) (by rw [List.length_set]; omega)
      (fun j hj m' hm' => hrows j (by omega) m'
        ((List.getElem?_set_ne (by omega)).symm.trans hm'))
      (fun j hj m' _ _ m₁ hm₁ m₂ hm₂ => by rw [next_of_set hlen ht hm hm₁ hm₂])
    constructor
    · rw [shiftRows, if_pos hguard, shifts, hm]
      exact hrest
    · intro _
      simp only [row_source hk, row_head_add hk, Represents.rowLength_eq (h t m hm).2 hmle]
      exact ⟨(block_inside_iff hk hmle).mpr fun hmulti => (hfull hmulti).1,
        (block_inside_iff hk hmle).mpr fun hmulti => (hfull hmulti).2, hinside⟩

/-! ## What the loop leaves when it goes wrong -/

/-- A move of a message of at most `multi` bytes keeps all rows but the next two. -/
theorem load_shiftRow {m : List UInt8}
    (h : Holds size multi b.cabuf (b.head.toNat + t) m) (hm : m.length ≤ multi.toNat)
    (hfull : m.length = multi.toNat → (b.head.toNat + t) % size.toNat ≠ size.toNat - 1 ∧
      (b.head.toNat + t + 1) % size.toNat ≠ size.toNat - 1) {n : ℕ}
    (hne : n % size.toNat ≠ (b.head.toNat + t + 1) % size.toNat)
    (hne' : n % size.toNat ≠ (b.head.toNat + t + 2) % size.toNat) :
    (b.shiftRow (t + 1)).cabuf.load (n % size.toNat * (multi.toNat + 2)) (multi.toNat + 2) =
      b.cabuf.load (n % size.toNat * (multi.toNat + 2)) (multi.toNat + 2) := by
  rw [cabuf_shiftRow hk, Represents.rowLength_eq h hm]
  -- only the copy of a full message reaches the second row
  by_cases hmulti : m.length = multi.toNat
  · obtain ⟨hlast, hlast'⟩ := hfull hmulti
    rw [hmulti, shift_cells b.cabuf (size_pos hk) hlast hlast' rfl]
    have hone (x : UInt8) : [x].length ≤ multi.toNat + 2 := by
      rw [List.length_singleton]
      omega
    exact (load_row_store _ (hone _) hne').trans
      (load_row_store _ (Memory.length_load _ _ _).le hne)
  · refine load_row_store _ ?_ hne
    rw [Memory.length_load]
    omega

/-- The first move stays inside the array. -/
theorem rows_of_shiftsInside {m : List UInt8}
    (h : Holds size multi b.cabuf (b.head.toNat + t) m) (hm : m.length ≤ multi.toNat)
    (ht : t + 1 < size.toNat) (hinside : b.ShiftsInside (t + 1)) :
    (m.length = multi.toNat → (b.head.toNat + t) % size.toNat ≠ size.toNat - 1 ∧
      (b.head.toNat + t + 1) % size.toNat ≠ size.toNat - 1) ∧
      (b.shiftRow (t + 1)).ShiftsInside t := by
  have hguard : b.slot (t + 1) ≠ b.slot 0 := slot_ne_slot hk b ht (by omega) (by omega)
  obtain ⟨hsource, htarget, hrest⟩ := hinside hguard
  simp only [row_source hk, row_head_add hk, Represents.rowLength_eq h hm] at hsource htarget
  exact ⟨fun hmulti => ⟨(block_inside_iff hk hm).mp hsource hmulti,
    (block_inside_iff hk hm).mp htarget hmulti⟩, hrest⟩

/-- A loop that stays inside the array moves no full message from or to the last row. -/
theorem rows_of_inside (h : Rows size multi b.cabuf b.head.toNat l) (hlen : l.length ≤ size.toNat)
    (ht : t < l.length) (hinside : b.ShiftsInside t)
    (hnext : ∀ j, j + 1 = t → ∀ m, l[j]? = some m → m.length = multi.toNat →
      ∀ m₁, l[t]? = some m₁ → ∀ m₂, l[(t + 1) % size.toNat]? = some m₂ →
        Bytes.high (UInt16.ofNat m₂.length) = Bytes.high (UInt16.ofNat m₁.length)) :
    ∀ j < t, ∀ m, l[j]? = some m → m.length = multi.toNat →
      b.slot j ≠ size - 1 ∧ b.slot (j + 1) ≠ size - 1 := by
  -- Induction on the turns left, as for the loop itself.
  induction t generalizing b l with
  | zero => exact fun j hj => absurd hj (Nat.not_lt_zero j)
  | succ t ih =>
    obtain ⟨m, hm⟩ : ∃ m, l[t]? = some m := ⟨_, List.getElem?_eq_getElem (by omega)⟩
    obtain ⟨hfull, hrest⟩ := rows_of_shiftsInside hk (h t m hm).2 (h t m hm).1 (by omega) hinside
    intro j hj m' hm' hmulti
    rcases Nat.lt_or_eq_of_le (Nat.le_of_lt_succ hj) with hlt | rfl
    · exact ih (b := b.shiftRow (t + 1)) (l := l.set (t + 1) m)
        (rows_shiftRow hk h hlen ht hm hfull (hnext t rfl m hm)) (by rwa [List.length_set])
        (by rw [List.length_set]; omega) hrest
        (fun j hj m' _ _ m₁ hm₁ m₂ hm₂ => by rw [next_of_set hlen ht hm hm₁ hm₂]) j hlt m'
        ((List.getElem?_set_ne (by omega)).trans hm') hmulti
    · obtain rfl : m = m' := Option.some.inj (hm.symm.trans hm')
      exact (hfull hmulti).imp (slot_ne_last_iff hk b j).mpr (slot_ne_last_iff hk b (j + 1)).mpr

/-- The loop does not reach the rows more than one behind its first. -/
theorem first_of_above {q : ℕ} (hq : t + 1 < q) (hqs : q < size.toNat)
    (h : ∀ i < t, ∃ m : List UInt8, m.length ≤ multi.toNat ∧
      Holds size multi b.cabuf (b.head.toNat + i) m) (hinside : b.ShiftsInside t) :
    (shiftRows t b).cabuf ((b.head.toNat + q) % size.toNat * (multi.toNat + 2)) =
      b.cabuf ((b.head.toNat + q) % size.toNat * (multi.toNat + 2)) := by
  induction t generalizing b with
  | zero => rfl
  | succ t ih =>
    -- the first turn writes the rows `t + 1` and `t + 2`, both below `q` and above the rest
    obtain ⟨m, hm, hholds⟩ := h t (Nat.lt_succ_self t)
    obtain ⟨hfull, hrest⟩ := rows_of_shiftsInside hk hholds hm (by omega) hinside
    have hguard : b.slot (t + 1) ≠ b.slot 0 := slot_ne_slot hk b (by omega) (by omega) (by omega)
    have hkept {i : ℕ} (hi : i < size.toNat) (hi₁ : i ≠ t + 1) (hi₂ : i ≠ t + 2) :=
      load_shiftRow hk hholds hm hfull (n := b.head.toNat + i)
        (add_mod_ne_add_mod (j := t + 1) hi (by omega) hi₁)
        (add_mod_ne_add_mod (j := t + 2) hi (by omega) hi₂)
    rw [shiftRows, if_pos hguard]
    refine (ih (b := b.shiftRow (t + 1)) (by omega) (fun i hi => ?_) hrest).trans ?_
    · obtain ⟨m', hm', hholds'⟩ := h i (by omega)
      exact ⟨m', hm', hholds'.of_load_eq hm' (hkept (by omega) (by omega) (by omega))⟩
    · exact Memory.first_eq_of_load_eq (hkept hqs (by omega) (by omega)) (Nat.succ_pos _)

/-- The first cell of the first row is copied to the second, though its message may have been
spoiled. -/
theorem first_of_second (ht : t + 2 < size.toNat)
    (h : ∀ i, 0 < i → i ≤ t → ∃ m : List UInt8, m.length ≤ multi.toNat ∧
      Holds size multi b.cabuf (b.head.toNat + i) m) (hinside : b.ShiftsInside (t + 1)) :
    (shiftRows (t + 1) b).cabuf ((b.head.toNat + 1) % size.toNat * (multi.toNat + 2)) =
      b.cabuf (b.head.toNat % size.toNat * (multi.toNat + 2)) := by
  induction t generalizing b with
  -- the last turn copies the first row to the second
  | zero =>
    have hguard : b.slot 1 ≠ b.slot 0 := slot_ne_slot hk b (by omega) (by omega) (by omega)
    rw [shiftRows, if_pos hguard, shiftRows, cabuf_shiftRow hk]
    refine (Memory.store_of_mem _ (i := 0) _ (by rw [Memory.length_load]; omega)).trans ?_
    exact Memory.getElem_load _ _ _ _ _
  -- the turns before it write neither the first row nor the rows still to be moved
  | succ t ih =>
    obtain ⟨m, hm, hholds⟩ := h (t + 1) (Nat.succ_pos t) (Nat.le_refl _)
    obtain ⟨hfull, hrest⟩ := rows_of_shiftsInside hk hholds hm (by omega) hinside
    have hguard : b.slot (t + 1 + 1) ≠ b.slot 0 :=
      slot_ne_slot hk b (by omega) (by omega) (by omega)
    have hkept {i : ℕ} (hi : i < size.toNat) (hi₁ : i ≠ t + 2) (hi₂ : i ≠ t + 3) :=
      load_shiftRow hk hholds hm hfull (n := b.head.toNat + i)
        (add_mod_ne_add_mod (j := t + 2) hi (by omega) hi₁)
        (add_mod_ne_add_mod (j := t + 3) hi (by omega) hi₂)
    rw [shiftRows, if_pos hguard]
    refine (ih (b := b.shiftRow (t + 1 + 1)) (by omega) (fun i hi hi' => ?_) hrest).trans ?_
    · obtain ⟨m', hm', hholds'⟩ := h i hi (by omega)
      exact ⟨m', hm', hholds'.of_load_eq hm' (hkept (by omega) (by omega) (by omega))⟩
    · exact Memory.first_eq_of_load_eq (hkept (i := 0) (by omega) (by omega) (by omega))
        (Nat.succ_pos _)

/-! ## The removal -/

/-- Every row number is that of a position. -/
theorem exists_slot (b : CircularBuffer size multi) {pos : UInt16} (hpos : pos < size) :
    ∃ i < size.toNat, b.slot i = pos := by
  rw [UInt16.lt_iff_toNat_lt] at hpos
  have hlt := Nat.mod_lt b.head.toNat (size_pos hk)
  -- the distance from `head` to `pos`, round the end of the array if need be
  refine ⟨(pos.toNat + (size.toNat - b.head.toNat % size.toNat)) % size.toNat,
    Nat.mod_lt _ (size_pos hk), ?_⟩
  rw [← UInt16.toNat_inj, toNat_slot hk, Nat.add_mod_mod, ← Nat.mod_add_mod,
    show b.head.toNat % size.toNat + (pos.toNat + (size.toNat - b.head.toNat % size.toNat)) =
      pos.toNat + size.toNat by omega, Nat.add_mod_right, Nat.mod_eq_of_lt hpos]

theorem findArea_eq (b : CircularBuffer size multi) {i : ℕ} (hi : i < size.toNat) :
    b.findArea (b.slot i) = some i := by
  rw [findArea, List.find?_range_eq_some]
  refine ⟨beq_self_eq_true _, List.mem_range.mpr hi, fun j hj => ?_⟩
  rw [Bool.not_eq_true', beq_eq_false_iff_ne]
  exact slot_ne_slot hk b (by omega) hi (Nat.ne_of_lt hj)

/-- What `remove` does at the row number of a position, live or not. -/
theorem remove_slot (b : CircularBuffer size multi) {i : ℕ} (hi : i < size.toNat) :
    b.remove (b.slot i) = (true, { shiftRows i b with
      head := ((shiftRows i b).head + 1) &&& (2 * size - 1)
      available := (shiftRows i b).available - 1 }) := by
  have hlt : ¬b.slot i ≥ size := by
    rw [ge_iff_le, UInt16.le_iff_toNat_le, toNat_slot hk]
    exact Nat.not_le_of_lt (Nat.mod_lt _ (size_pos hk))
  rw [remove, if_neg hlt, findArea_eq hk b hi]

namespace Queue

/-- The removal of a message that meets the condition. -/
theorem remove (h : b.Queue l) {i : ℕ} (hi : i < l.length) (hremovable : b.Removable l i) :
    (b.remove (b.slot i)).2.Queue (l.eraseIdx i) ∧ b.ShiftsInside i := by
  have hle := h.length_le
  obtain ⟨hrows, hinside⟩ := rows_shiftRows hk h.rows hle hi hremovable.rows hremovable.next
  obtain ⟨hhead, -, havailable⟩ := shiftRows_fields i b
  have hlength := List.length_eraseIdx_of_lt hi
  refine ⟨?_, hinside⟩
  rw [remove_slot hk b (by omega)]
  constructor
  · omega
  · rw [hlength, havailable, ← h.available_eq, UInt16.toNat_sub]
    have hcount := h.available_eq
    have := b.available.toNat_lt
    simp only [UInt16.reduceToNat]
    omega
  · -- `head` leaves the first message of the shifted list
    have hshifted := hrows.tail
    rw [tail_shifts hi] at hshifted
    refine hshifted.congr ?_
    rw [hhead, toNat_next hk, Nat.mod_mod_of_dvd _ (Nat.dvd_mul_left _ 2)]

/-- A full message right before the removed one leaves the high length byte of the removed message
in the row behind, where the next message has to have the same. -/
theorem next_of_remove (h : b.Queue l) {j : ℕ} (hj : j + 1 < l.length)
    (hremoved : (b.remove (b.slot (j + 1))).2.Queue (l.eraseIdx (j + 1)))
    (hinside : b.ShiftsInside (j + 1)) {m m₁ m₂ : List UInt8} (hm : l[j]? = some m)
    (hmulti : m.length = multi.toNat) (hm₁ : l[j + 1]? = some m₁)
    (hm₂ : l[(j + 2) % size.toNat]? = some m₂) :
    Bytes.high (UInt16.ofNat m₂.length) = Bytes.high (UInt16.ofNat m₁.length) := by
  have hle := h.length_le
  obtain ⟨hmle, hholds⟩ := h.rows j m hm
  obtain ⟨hfull, hrest⟩ := rows_of_shiftsInside hk hholds hmle (by omega) hinside
  obtain ⟨hlast, hlast'⟩ := hfull hmulti
  have hguard : b.slot (j + 1) ≠ b.slot 0 := slot_ne_slot hk b (by omega) (by omega) (by omega)
  have hloop : shiftRows (j + 1) b = shiftRows j (b.shiftRow (j + 1)) := if_pos hguard
  -- the move of the full message reaches the row behind the removed one
  have hspoiled : (b.shiftRow (j + 1)).cabuf
      ((b.head.toNat + j + 2) % size.toNat * (multi.toNat + 2)) =
        Bytes.high (UInt16.ofNat m₁.length) := by
    rw [cabuf_shiftRow hk, Represents.rowLength_eq hholds hmle, hmulti,
      shift_cells b.cabuf (size_pos hk) hlast hlast' (h.rows (j + 1) m₁ hm₁).2.first]
    exact Memory.set_self _ _ _
  have hkept : ∀ i < j, (b.head.toNat + i) % size.toNat ≠ (b.head.toNat + j + 2) % size.toNat →
      ∃ m' : List UInt8, m'.length ≤ multi.toNat ∧
        Holds size multi (b.shiftRow (j + 1)).cabuf (b.head.toNat + i) m' := by
    intro i hi hne
    obtain ⟨hmle', hholds'⟩ := h.rows i _ (List.getElem?_eq_getElem (by omega))
    exact ⟨_, hmle', hholds'.of_load_eq hmle' (load_shiftRow hk hholds hmle hfull
      (add_mod_ne_add_mod (j := j + 1) (by omega) (by omega) (by omega)) hne)⟩
  have hhead : (b.remove (b.slot (j + 1))).2.head.toNat =
      (b.head.toNat + 1) % (2 * size.toNat) := by
    rw [remove_slot hk b (by omega), (shiftRows_fields (j + 1) b).1, toNat_next hk]
  have hcabuf : (b.remove (b.slot (j + 1))).2.cabuf = (shiftRows j (b.shiftRow (j + 1))).cabuf := by
    rw [remove_slot hk b (by omega), hloop]
  have hfirst {i : ℕ} {m' : List UInt8} (hi : (l.eraseIdx (j + 1))[i]? = some m') :
      (shiftRows j (b.shiftRow (j + 1))).cabuf
          ((b.head.toNat + (i + 1)) % size.toNat * (multi.toNat + 2)) =
        Bytes.high (UInt16.ofNat m'.length) := by
    have hrow := (hremoved.rows i m' hi).2.first
    rw [hcabuf, add_mod_of_next hhead.symm] at hrow
    exact hrow
  rcases Nat.lt_or_ge (j + 2) size.toNat with hlt | hge
  · -- the row behind is not reached again
    rw [Nat.mod_eq_of_lt hlt] at hm₂
    have hbehind := hfirst (i := j + 1) (by
      rw [List.getElem?_eraseIdx, if_neg (Nat.lt_irrefl _)]
      exact hm₂)
    have habove := first_of_above hk (b := b.shiftRow (j + 1)) (t := j) (q := j + 2) (by omega) hlt
      (fun i hi => hkept i hi
        (add_mod_ne_add_mod (j := j + 2) (by omega) hlt (by omega))) hrest
    exact hbehind.symm.trans (habove.trans hspoiled)
  · -- the ring is full, and the row behind is the first one, which is moved last
    obtain rfl | ⟨t, rfl⟩ : j = 0 ∨ ∃ t, j = t + 1 := by
      cases j with
      | zero => exact Or.inl rfl
      | succ t => exact Or.inr ⟨t, rfl⟩
    · have htwo : size.toNat = 2 := by omega
      rw [htwo] at hlast hlast'
      omega
    · have hround : (b.head.toNat + (t + 1) + 2) % size.toNat = b.head.toNat % size.toNat := by
        rw [Nat.add_assoc, show t + 1 + 2 = size.toNat by omega, Nat.add_mod_right]
      rw [show t + 1 + 2 = size.toNat by omega, Nat.mod_self] at hm₂
      have hfront := hfirst (i := 0) (by
        rw [List.getElem?_eraseIdx, if_pos (Nat.succ_pos _)]
        exact hm₂)
      have hsecond := first_of_second hk (b := b.shiftRow (t + 1 + 1)) (t := t) (by omega)
        (fun i hi hi' => hkept i (by omega) (by
          rw [hround]
          exact add_mod_ne_add_mod (j := 0) (by omega) (by omega) (by omega))) hrest
      rw [hround] at hspoiled
      exact hfront.symm.trans (hsecond.trans hspoiled)

end Queue

/-- The removal of a message that meets the condition follows the deque. -/
theorem Represents.remove {d : BoundedDeque (List UInt8) size.toNat} (h : b.Represents d) {i : ℕ}
    (hi : i < d.items.length) (hremovable : b.Removable d.items i) :
    (b.remove (b.slot i)).2.Represents (d.eraseIdx i) := by
  have hle := d.length_le
  have hqueue := (h.queue.remove hk hi hremovable).1
  obtain ⟨hhead, htail, -⟩ := shiftRows_fields i b
  refine ⟨?_, hqueue.available_eq, ?_, hqueue.rows⟩
  · rw [remove_slot hk b (by omega)]
    exact toNat_masked_lt hk _
  · -- `tail` stays, as `head` moves and a message is gone
    have hlength : (d.eraseIdx i).items.length = d.items.length - 1 :=
      List.length_eraseIdx_of_lt hi
    rw [remove_slot hk b (by omega), hlength, htail, h.tail_eq, hhead, toNat_next hk,
      Nat.mod_add_mod]
    congr 1
    omega

/-- **`remove` removes the message of a row, and no other**, exactly when the row number is none, or
the message in it meets the condition. -/
theorem removesOne_iff (h : b.Queue l) (pos : UInt16) :
    b.RemovesOne l pos ↔
      size ≤ pos ∨ ∃ i < l.length, b.slot i = pos ∧ b.Removable l i := by
  have hle := h.length_le
  constructor
  · intro hremoves
    by_cases hpos : size ≤ pos
    · exact Or.inl hpos
    · obtain ⟨i, hi, rfl⟩ := exists_slot hk b (UInt16.not_le.mp hpos)
      by_cases hlive : i < l.length
      · -- the new messages show what the copies spoiled, the inside clause where they went
        obtain ⟨-, hremoved, -, hinside⟩ := hremoves.live i hlive rfl
        have hnext : ∀ j, j + 1 = i → ∀ m, l[j]? = some m → m.length = multi.toNat →
            ∀ m₁, l[i]? = some m₁ → ∀ m₂, l[(i + 1) % size.toNat]? = some m₂ →
              Bytes.high (UInt16.ofNat m₂.length) = Bytes.high (UInt16.ofNat m₁.length) := by
          rintro j rfl m hm hmulti m₁ hm₁ m₂ hm₂
          exact h.next_of_remove hk hlive hremoved hinside hm hmulti hm₁ hm₂
        exact Or.inr ⟨i, hlive, rfl, rows_of_inside hk h.rows hle hlive hinside hnext, hnext⟩
      · -- a row without a message is removed too
        have habsent := hremoves.absent fun j hj => slot_ne_slot hk b (by omega) hi (by omega)
        rw [remove_slot hk b hi] at habsent
        cases congrArg Prod.fst habsent
  · rintro (hpos | ⟨i, hi, rfl, hremovable⟩)
    · constructor
      · intro i hi heq
        rw [← heq, UInt16.le_iff_toNat_le, toNat_slot hk] at hpos
        exact absurd hpos (Nat.not_le_of_lt (Nat.mod_lt _ (size_pos hk)))
      · intro _
        exact if_pos hpos
    · constructor
      · intro j hj heq
        obtain rfl : j = i := by
          by_contra hne
          exact slot_ne_slot hk b (by omega) (by omega) hne heq
        obtain ⟨hremoved, hinside⟩ := h.remove hk hi hremovable
        refine ⟨?_, hremoved, ?_, hinside⟩
        · rw [remove_slot hk b (by omega)]
        · rw [remove_slot hk b (by omega)]
          exact (shiftRows_fields j b).2.1
      · intro habsent
        exact absurd rfl (habsent i hi)

end PowerOfTwo

/-- The second of three messages is removed. -/
theorem removesOne_iff_second :
    (run [.pushBack [1], .pushBack [2], .pushBack [3]]
      (create (fun _ => 0) fun _ => 0) : CircularBuffer 4 8).RemovesOne [[1], [2], [3]] 1 :=
  (removesOne_iff (k := 2) (by rfl) (represents_run (k := 2) (by rfl)
    (represents_create (k := 2) (by rfl) _ _) _ (by decide)).queue 1).mpr
    (Or.inr ⟨1, by decide, by decide, by
      constructor
      · intro j hj m hm hfull
        obtain rfl : j = 0 := by omega
        cases hm
        exact absurd hfull (by decide)
      · intro j hj m hm hfull
        obtain rfl : j = 0 := by omega
        cases hm
        exact absurd hfull (by decide)⟩)

/-- `remove(0)` on the new queue returns true. -/
theorem remove_empty_not_absent :
    ¬∀ (size multi : UInt16) (k : ℕ), size.toNat = 2 ^ k → 0 < multi →
      ∀ (b : CircularBuffer size multi) (l : List (List UInt8)), b.Queue l →
        ∀ pos, b.RemovesOne l pos := by
  intro hall
  have hremoves := hall 16 300 4 (by rfl) (by decide) (create (fun _ => 0) fun _ => 0) []
    ⟨Nat.zero_le _, rfl, Rows.nil⟩ 0
  have habsent := hremoves.absent fun i hi => absurd hi (Nat.not_lt_zero i)
  exact absurd (congrArg Prod.fst habsent) (by decide)

end CircularBuffer
