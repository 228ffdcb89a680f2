import Teensquitto.CircularBuffer.BlockReads
import Teensquitto.CircularBuffer.Median

/-!
# The interface of the ring of values

The operations on single values, on blocks, and those that sort, in any order.  As long as no call
runs into one of the cases in which the ring goes its own way, it is the bounded deque: what the
calls return, and the values that are left, are those of the deque.

## Main definitions

* `ScalarBuffer.sortDescending`: the operation that is not needed for the median
* `ScalarBuffer.middleOf`: the median of a sorted list
* `ScalarBuffer.Instruction`: the operations, with what they return
* `ScalarBuffer.Instruction.Safe`: the calls that do what they say

## Main results

* `ScalarBuffer.represents_execute`: one operation follows the deque and returns what it returns
* `ScalarBuffer.interface_refines_deque`: so does every sequence of safe calls on a new ring
-/

namespace ScalarBuffer

open CircularBuffer (Indices size_pos toNat_and_indexMask two_mul_size_dvd)
open IntegerType (half)

variable {α : Type} {size : UInt16}

/-! ## Storing in place -/

section Storing

variable {k : ℕ} (hk : size.toNat = 2 ^ k) {b b' : ScalarBuffer α size}
  {d d' : BoundedDeque α size.toNat}

include hk

/-- A ring with the same indices and other values. -/
theorem Represents.of_contents (h : b.Represents d) (hhead : b'.head = b.head)
    (htail : b'.tail = b.tail) (havailable : b'.available = b.available)
    (hcontents : b'.contents = d'.items) : b'.Represents d' := by
  have hlen : d'.items.length = d.items.length := by
    rw [← hcontents, length_contents, havailable, h.available_eq]
  constructor
  · rw [hhead, htail, hlen]
    exact h.indices
  · rw [← hcontents, length_contents]
  · intro i v hv
    have hi : i < b'.available.toNat := by
      rw [havailable, h.available_eq, ← hlen]
      exact (List.getElem?_eq_some_iff.mp hv).1
    rw [← hcontents, getElem?_contents b' hi, place, Represents.cell_add hk] at hv
    exact Option.some.inj hv

/-- As many values as there are, stored one after the other, are the contents. -/
theorem contents_assign (hle : b.available.toNat ≤ size.toNat) {l : List α}
    (hlen : l.length = b.available.toNat) :
    contents ({ b with cbuf := assign b.place b.cbuf l } : ScalarBuffer α size) = l := by
  refine List.ext_getElem? fun i => ?_
  rcases Nat.lt_or_ge i b.available.toNat with hi | hi
  · obtain ⟨j, hij, hcell, hj⟩ := assign_apply b.place b.cbuf l (hlen ▸ hi)
    -- no two positions share a cell
    have hsame : j = i := by
      by_contra hne
      have hjlt := (List.getElem?_eq_some_iff.mp hj).1
      rw [place, place, Represents.cell_add hk, Represents.cell_add hk] at hcell
      exact CircularBuffer.add_mod_ne_add_mod (by omega) (by omega) hne hcell
    exact (getElem?_contents ({ b with cbuf := assign b.place b.cbuf l } : ScalarBuffer α size)
      hi).trans (hsame ▸ hj).symm
  · rw [List.getElem?_eq_none (by simpa using hi), List.getElem?_eq_none (by rwa [hlen])]

end Storing

/-! ## Sorting -/

section Sorting

variable [IntegerType α] {capacity : ℕ} {b : ScalarBuffer α size}

/-- `sort_descending()`. -/
def sortDescending (b : ScalarBuffer α size) : ScalarBuffer α size :=
  if b.available = 0 then b
  else
    let b := b.sortAscending
    { b with cbuf := assign b.place b.cbuf b.contents.reverse }

/-- The deque behind a sorting. -/
def sorted (d : BoundedDeque α capacity) : BoundedDeque α capacity :=
  ⟨sort d.items, by rw [length_sort]; exact d.length_le⟩

/-- The deque behind the sorting the other way round. -/
def reversed (d : BoundedDeque α capacity) : BoundedDeque α capacity :=
  ⟨(sort d.items).reverse, by rw [List.length_reverse, length_sort]; exact d.length_le⟩

@[simp] theorem items_sorted (d : BoundedDeque α capacity) :
    (sorted d).items = sort d.items := rfl

@[simp] theorem items_reversed (d : BoundedDeque α capacity) :
    (reversed d).items = (sort d.items).reverse := rfl

/-- The value in the middle of a list, or half the sum of the two, nothing when this is undefined.
It is the median of a list in ascending order. -/
def middleOf (l : List α) : Option α :=
  match l[l.length / 2]? with
  | none => some (IntegerType.ofInt 0)
  | some y =>
    if l.length % 2 = 0 then half (l[l.length / 2 - 1]?.getD y) y else some y

/-- The middle of the ring is that of its contents. -/
theorem middle_eq (hne : b.available ≠ 0) : b.middle = middleOf b.contents := by
  have hpos : 0 < b.available.toNat :=
    Nat.pos_of_ne_zero fun h0 => hne (UInt16.toNat_inj.mp h0)
  have hread {i : ℕ} (hi : i < b.available.toNat) : b.contents[i]? = some (b.cbuf (b.place i)) :=
    getElem?_contents b hi
  have heven := even_iff b
  rw [length_values] at heven
  rw [middle, middleOf, length_contents, hread (i := b.available.toNat / 2) (by omega)]
  simp only [heven]
  by_cases hmod : b.available.toNat % 2 = 0
  · rw [if_pos hmod, if_pos hmod, hread (by omega), Option.getD_some]
  · rw [if_neg hmod, if_neg hmod]

/-- The deque without its first `n` values. -/
def dropped (d : BoundedDeque α capacity) (n : ℕ) : BoundedDeque α capacity :=
  ⟨d.items.drop n, by rw [List.length_drop]; exact (Nat.sub_le _ _).trans d.length_le⟩

end Sorting

/-! ## The operations -/

/-- The operations of the interface. -/
inductive Instruction (α : Type)
  | pushBack (value : α)
  | pushFront (value : α)
  | popFront
  | popBack
  | clear
  | writeBlock (buffer : List α)
  | pushFrontBlock (buffer : List α)
  | readBytes (length : UInt16)
  | peekBytes (length : UInt16)
  | sortAscending
  | sortDescending
  | median (override : Bool)

namespace Instruction

variable [IntCast α] [IntegerType α]

/-- The call on the ring: the values it returns, and the ring behind it. -/
def execute (b : ScalarBuffer α size) : Instruction α → List α × ScalarBuffer α size
  | pushBack value => ([], b.pushBack value)
  | pushFront value => ([], b.pushFront value)
  | popFront => ([b.popFront.1], b.popFront.2)
  | popBack => ([b.popBack.1], b.popBack.2)
  | clear => ([], b.clear)
  | writeBlock buffer => ([], b.writeBlock buffer)
  | pushFrontBlock buffer => ([], b.pushFrontBlock buffer)
  | readBytes length => b.readBytes length
  | peekBytes length => (b.peekBytes length, b)
  | sortAscending => ([], b.sortAscending)
  | sortDescending => ([], b.sortDescending)
  | median override => ((b.median override).1.toList, (b.median override).2)

/-- The operation on the deque: the values it returns, and the deque behind it. -/
def executeDeque {capacity : ℕ} (d : BoundedDeque α capacity) :
    Instruction α → List α × BoundedDeque α capacity
  | pushBack value => ([], d.pushBack value)
  | pushFront value => ([], d.pushFront value)
  | popFront => (d.items.head?.toList, d.popFront)
  | popBack => (d.items.getLast?.toList, d.popBack)
  | clear => ([], d.clear)
  | writeBlock buffer => ([], buffer.foldl BoundedDeque.pushBack d)
  | pushFrontBlock buffer => ([], buffer.foldr (fun value d => d.pushFront value) d)
  | readBytes length => (d.items.take length.toNat, dropped d length.toNat)
  | peekBytes length => (d.items.take length.toNat, d)
  | sortAscending => ([], sorted d)
  | sortDescending => ([], reversed d)
  | median override => ((middleOf (sort d.items)).toList, if override then sorted d else d)

/-- The calls that do what they say: no pop from an empty ring, no push in front of a full one; a
block that is copied goes to free cells and one that is written value by value fills the ring; a
block that is copied out starts at the first cell, and is no longer than the contents when it is
taken out; the median that is read without sorting lies in the middle of the ring. -/
def Safe (b : ScalarBuffer α size) : Instruction α → Prop
  | popFront => 0 < b.available
  | popBack => 0 < b.available
  | pushFront _ => b.available < size
  | writeBlock buffer =>
    if b.tail.toNat + buffer.length < size.toNat then
      b.available.toNat + buffer.length ≤ size.toNat
    else buffer.length < 65536 ∧ size.toNat ≤ b.available.toNat + buffer.length
  | pushFrontBlock buffer => buffer ≠ [] ∧ b.available.toNat + buffer.length ≤ size.toNat
  | readBytes length =>
    b.head.toNat + min length.toNat b.available.toNat < size.toNat →
      b.head = 0 ∧ length ≤ b.available
  | peekBytes length =>
    b.head.toNat + min length.toNat b.available.toNat < size.toNat → b.head = 0
  | median override => override = false → middleOf b.contents = middleOf (sort b.contents)
  | _ => True

instance [DecidableEq α] (b : ScalarBuffer α size) (op : Instruction α) : Decidable (op.Safe b) :=
  match op with
  | pushBack _ => inferInstanceAs (Decidable True)
  | pushFront _ => inferInstanceAs (Decidable (b.available < size))
  | popFront => inferInstanceAs (Decidable (0 < b.available))
  | popBack => inferInstanceAs (Decidable (0 < b.available))
  | clear => inferInstanceAs (Decidable True)
  | writeBlock buffer => inferInstanceAs (Decidable
      (if b.tail.toNat + buffer.length < size.toNat then
        b.available.toNat + buffer.length ≤ size.toNat
      else buffer.length < 65536 ∧ size.toNat ≤ b.available.toNat + buffer.length))
  | pushFrontBlock buffer => inferInstanceAs (Decidable
      (buffer ≠ [] ∧ b.available.toNat + buffer.length ≤ size.toNat))
  | readBytes length => inferInstanceAs (Decidable
      (b.head.toNat + min length.toNat b.available.toNat < size.toNat →
        b.head = 0 ∧ length ≤ b.available))
  | peekBytes length => inferInstanceAs (Decidable
      (b.head.toNat + min length.toNat b.available.toNat < size.toNat → b.head = 0))
  | sortAscending => inferInstanceAs (Decidable True)
  | sortDescending => inferInstanceAs (Decidable True)
  | median override => inferInstanceAs (Decidable
      (override = false → middleOf b.contents = middleOf (sort b.contents)))

end Instruction

section PowerOfTwo

variable {k : ℕ} (hk : size.toNat = 2 ^ k) {b : ScalarBuffer α size}
  {d : BoundedDeque α size.toNat}

include hk

namespace Represents

section Sorting

variable [IntegerType α]

theorem sortAscending (h : b.Represents d) :
    b.sortAscending.Represents (sorted d) := by
  refine h.of_contents hk (head_sortAscending b) (tail_sortAscending b)
    (available_sortAscending b) ?_
  by_cases hempty : b.available = 0
  · have hnil : d.items = [] := by
      rw [← List.length_eq_zero_iff, ← h.available_eq, hempty]
      rfl
    rw [ScalarBuffer.sortAscending, if_pos hempty, h.contents_eq hk, items_sorted, hnil]
    rfl
  · rw [sortAscending_of_ne hempty, contents_assign hk (h.available_eq.trans_le d.length_le)
      (by rw [length_sort, length_contents]), h.contents_eq hk]
    rfl

theorem sortDescending (h : b.Represents d) :
    b.sortDescending.Represents (reversed d) := by
  by_cases hempty : b.available = 0
  · have hnil : d.items = [] := by
      rw [← List.length_eq_zero_iff, ← h.available_eq, hempty]
      rfl
    refine h.of_contents hk ?_ ?_ ?_ ?_
    all_goals rw [ScalarBuffer.sortDescending, if_pos hempty]
    rw [h.contents_eq hk, items_reversed, hnil]
    rfl
  · have hsorted := h.sortAscending hk
    rw [ScalarBuffer.sortDescending, if_neg hempty]
    refine hsorted.of_contents hk rfl rfl rfl ?_
    rw [contents_assign hk (hsorted.available_eq.trans_le (sorted d).length_le)
      (by rw [List.length_reverse, length_contents]), hsorted.contents_eq hk]
    rfl

/-- The median of a ring, where it lies in the middle or the ring is sorted first. -/
theorem median (h : b.Represents d) (override : Bool)
    (hmiddle : override = false → middleOf b.contents = middleOf (sort b.contents)) :
    (b.median override).1 = middleOf (sort d.items) ∧
      (b.median override).2.Represents (if override then sorted d else d) := by
  have hsorted := h.sortAscending hk
  by_cases hempty : b.available = 0
  · have hnil : d.items = [] := by
      rw [← List.length_eq_zero_iff, ← h.available_eq, hempty]
      rfl
    rw [ScalarBuffer.sortAscending, if_pos hempty] at hsorted
    rw [ScalarBuffer.median, if_pos hempty, hnil]
    refine ⟨rfl, ?_⟩
    cases override with
    | true => exact hsorted
    | false => exact h
  cases override with
  | true =>
    rw [median_true hempty, middle_eq (by rwa [available_sortAscending]), hsorted.contents_eq hk]
    exact ⟨rfl, hsorted⟩
  | false =>
    rw [median_false hempty, middle_eq hempty, hmiddle rfl, h.contents_eq hk]
    exact ⟨rfl, h⟩

end Sorting

/-! ### Blocks -/

omit hk in
/-- The last index does not depend on the number of values. -/
theorem foldl_write_tail (l : List α) {c : ScalarBuffer α size} (htail : c.tail = b.tail) :
    (l.foldl ScalarBuffer.write c).tail = (l.foldl ScalarBuffer.write b).tail := by
  induction l generalizing b c with
  | nil => exact htail
  | cons v l ih =>
    rw [List.foldl_cons, List.foldl_cons]
    exact ih (by simp only [ScalarBuffer.write, htail])

/-- Values that are pushed in front where there is room for them. -/
theorem pushFrontBlock (h : b.Represents d) {buffer : List α}
    (hroom : d.items.length + buffer.length ≤ size.toNat) :
    (b.pushFrontBlock buffer).Represents
        (buffer.foldr (fun value d => d.pushFront value) d) ∧
      (buffer.foldr (fun value d => d.pushFront value) d).items = buffer ++ d.items := by
  -- Induction on the block, whose last value is pushed first.
  induction buffer with
  | nil => exact ⟨h, rfl⟩
  | cons value buffer ih =>
    rw [List.length_cons] at hroom
    obtain ⟨hrest, hitems⟩ := ih (by omega)
    have hlt : (buffer.foldr (fun value d => d.pushFront value) d).items.length < size.toNat := by
      rw [hitems, List.length_append]
      omega
    refine ⟨hrest.pushFront hk hlt value, ?_⟩
    rw [List.foldr_cons, BoundedDeque.items_pushFront_of_lt _ value hlt, hitems, List.cons_append]

/-- A block that is copied to free cells. -/
theorem writeBlock_of_room (h : b.Represents d) {buffer : List α}
    (hfast : b.tail.toNat + buffer.length < size.toNat)
    (hroom : d.items.length + buffer.length ≤ size.toNat) :
    (b.writeBlock buffer).Represents (buffer.foldl BoundedDeque.pushBack d) := by
  have hitems : (buffer.foldl BoundedDeque.pushBack d).items = d.items ++ buffer := by
    rw [items_foldl_pushBack, Nat.sub_eq_zero_of_le hroom, List.drop_zero]
  have hcontents := h.contents_writeBlock_of_le hk hfast hroom
  have hcount : (b.writeBlock buffer).available.toNat = (d.items ++ buffer).length := by
    rw [← hcontents, length_contents]
  constructor
  · rw [hitems, List.length_append, writeBlock_of_lt hfast]
    refine ⟨h.indices.head_lt, hroom, ?_⟩
    have hsize : 2 * size.toNat ≤ 65536 := Nat.le_of_dvd (by norm_num) (two_mul_size_dvd hk)
    rw [toNat_and_indexMask hk, UInt16.toNat_add, UInt16.toNat_ofNat',
      Nat.mod_eq_of_lt (a := buffer.length) (by omega),
      Nat.mod_eq_of_lt (a := b.tail.toNat + buffer.length) (by omega), h.indices.tail_eq,
      Nat.mod_add_mod, Nat.add_assoc]
  · rw [hcount, hitems]
  · intro i v hv
    have hi := (List.getElem?_eq_some_iff.mp hv).1
    rw [hitems] at hi
    have hget := getElem?_contents (b.writeBlock buffer) (hcount ▸ hi)
    rw [hcontents, ← hitems, hv, place, cell_add hk] at hget
    exact (Option.some.inj hget).symm

/-- A block that is written value by value and fills the ring. -/
theorem writeBlock_of_full (h : b.Represents d) {buffer : List α} (hlen : buffer.length < 65536)
    (hslow : size.toNat ≤ b.tail.toNat + buffer.length)
    (hfull : size.toNat ≤ d.items.length + buffer.length) :
    (b.writeBlock buffer).Represents (buffer.foldl BoundedDeque.pushBack d) := by
  have hspec := h.foldl_write hk buffer
  have hle := d.length_le
  have hraised := toNat_raised b hlen
  have hcount := toNat_available_foldl buffer (h.available_eq.trans_le hle)
  have hcount' : (b.writeBlock buffer).available.toNat = min size.toNat
      ((b.raised (UInt16.ofNat buffer.length)).toNat + buffer.length) := by
    rw [writeBlock_of_ge hlen hslow]
    exact toNat_available_foldl buffer (hraised.trans_le (Nat.min_le_left _ _))
  rw [h.available_eq] at hcount hraised
  have hsize : 2 * size.toNat ≤ 65536 := Nat.le_of_dvd (by norm_num) (two_mul_size_dvd hk)
  have havailable : (b.writeBlock buffer).available.toNat =
      (buffer.foldl ScalarBuffer.write b).available.toNat := by
    rw [hcount', hcount, hraised]
    omega
  rw [writeBlock_of_ge hlen hslow] at havailable ⊢
  -- the values are counted twice, but the ring is full all the same
  obtain ⟨hhead, hcbuf⟩ := foldl_write_congr buffer (b := b)
    (c := { b with available := b.raised (UInt16.ofNat buffer.length) }) rfl rfl rfl
  have htail := foldl_write_tail buffer (b := b)
    (c := { b with available := b.raised (UInt16.ofNat buffer.length) }) rfl
  constructor
  · rw [hhead, htail]
    exact hspec.indices
  · rw [havailable]
    exact hspec.available_eq
  · rw [hhead, hcbuf]
    exact hspec.values

/-! ### Reading blocks -/

/-- `read()`, as often as there are values at most. -/
theorem reads (h : b.Represents d) {n : ℕ} (hn : n ≤ d.items.length) :
    (ScalarBuffer.reads n b).1 = d.items.take n ∧
      (ScalarBuffer.reads n b).2.Represents (dropped d n) := by
  -- Induction on the number of reads: each returns the first value.
  induction n generalizing b d with
  | zero => exact ⟨by rw [List.take_zero]; rfl, h⟩
  | succ n ih =>
    have hne : d.items ≠ [] := List.ne_nil_of_length_pos (by omega)
    obtain ⟨v, rest, hitems⟩ := List.exists_cons_of_ne_nil hne
    obtain ⟨hvalues, hrest⟩ := ih (h.read hk hne) (by
      rw [BoundedDeque.items_popFront, List.length_tail]
      omega)
    have hfirst : b.read.1 = v := h.popFront_eq hk (by rw [hitems, List.head?_cons])
    constructor
    · rw [ScalarBuffer.reads, hvalues, hfirst, BoundedDeque.items_popFront, hitems]
      rfl
    · have hsame : dropped d.popFront n = dropped d (n + 1) := by
        refine BoundedDeque.ext ?_
        change d.items.tail.drop n = d.items.drop (n + 1)
        rw [← List.drop_one, List.drop_drop, Nat.add_comm]
      exact hsame ▸ hrest

/-- As many of the values as are asked for and are there. -/
theorem reads_min (h : b.Represents d) (length : UInt16) :
    (ScalarBuffer.reads (min length.toNat b.available.toNat) b).1 = d.items.take length.toNat ∧
      (ScalarBuffer.reads (min length.toNat b.available.toNat) b).2.Represents
        (dropped d length.toNat) := by
  rw [h.available_eq]
  obtain ⟨hvalues, hrest⟩ := h.reads hk (Nat.min_le_right length.toNat d.items.length)
  have hsame : dropped d (min length.toNat d.items.length) = dropped d length.toNat := by
    refine BoundedDeque.ext ?_
    change d.items.drop (min length.toNat d.items.length) = d.items.drop length.toNat
    rcases le_total length.toNat d.items.length with hle | hge
    · rw [Nat.min_eq_left hle]
    · rw [Nat.min_eq_right hge, List.drop_length, List.drop_of_length_le hge]
  refine ⟨?_, hsame ▸ hrest⟩
  rw [hvalues, ← List.take_take, List.take_length]

variable [IntCast α]

omit [IntCast α] in
/-- A block from the first cell on is read as `read()` reads it. -/
theorem load_zero (h : b.Represents d) (hhead : b.head = 0) {n : ℕ} (hn : n ≤ d.items.length) :
    b.cbuf.load 0 n = (ScalarBuffer.reads n b).1 := by
  rw [reads_values hk h.indices.head_lt, Memory.load, List.map_inj_left]
  intro i hi
  have hle := d.length_le
  rw [hhead, UInt16.toNat_zero, Nat.zero_add, Nat.mod_eq_of_lt]
  have hlt := List.mem_range.mp hi
  omega

theorem peekBytes (h : b.Represents d) {length : UInt16}
    (hsafe : b.head.toNat + min length.toNat b.available.toNat < size.toNat → b.head = 0) :
    b.peekBytes length = d.items.take length.toNat := by
  obtain ⟨hvalues, -⟩ := h.reads_min hk length
  by_cases hfast : b.head.toNat + min length.toNat b.available.toNat < size.toNat
  · rw [(blocks_of_lt hfast).2, h.load_zero hk (hsafe hfast)
      (h.available_eq ▸ Nat.min_le_right _ _), hvalues]
  · rw [(blocks_of_ge hfast).2, ← hvalues, reads_values hk h.indices.head_lt, List.map_inj_left]
    intro i hi
    have hlt := List.mem_range.mp hi
    have hi' : i < d.items.length := by
      rw [← h.available_eq]
      omega
    rw [h.peek_eq hk (List.getElem?_eq_getElem hi')]
    exact (h.values i _ (List.getElem?_eq_getElem hi')).symm

theorem readBytes (h : b.Represents d) {length : UInt16}
    (hsafe : b.head.toNat + min length.toNat b.available.toNat < size.toNat →
      b.head = 0 ∧ length ≤ b.available) :
    (b.readBytes length).1 = d.items.take length.toNat ∧
      (b.readBytes length).2.Represents (dropped d length.toNat) := by
  obtain ⟨hvalues, hrest⟩ := h.reads_min hk length
  suffices hreads : b.readBytes length =
      ScalarBuffer.reads (min length.toNat b.available.toNat) b by
    rw [hreads]
    exact ⟨hvalues, hrest⟩
  by_cases hfast : b.head.toNat + min length.toNat b.available.toNat < size.toNat
  · obtain ⟨hhead, hle⟩ := hsafe hfast
    have hmin : min length.toNat b.available.toNat = length.toNat :=
      Nat.min_eq_left (UInt16.le_iff_toNat_le.mp hle)
    have hn : length.toNat ≤ b.available.toNat := UInt16.le_iff_toNat_le.mp hle
    rw [(blocks_of_lt hfast).1]
    refine Prod.ext ?_ ?_
    · exact h.load_zero hk hhead (h.available_eq ▸ Nat.min_le_right _ _)
    · rw [hmin, reads_state hk h.indices.head_lt hn, UInt16.ofNat_toNat]
  · exact (blocks_of_ge hfast).1

end Represents

/-! ## The refinement -/

variable [IntCast α] [IntegerType α]

/-- **One safe call follows the deque**, and returns what the deque returns. -/
theorem represents_execute (h : b.Represents d) (op : Instruction α) (safe : op.Safe b) :
    (op.execute b).1 = (op.executeDeque d).1 ∧
      (op.execute b).2.Represents (op.executeDeque d).2 := by
  have hne (hpos : 0 < b.available) : d.items ≠ [] := by
    rw [UInt16.lt_iff_toNat_lt, h.available_eq] at hpos
    exact List.ne_nil_of_length_pos hpos
  cases op with
  | pushBack value => exact ⟨rfl, h.write hk value⟩
  | pushFront value =>
    refine ⟨rfl, h.pushFront hk ?_ value⟩
    rw [← h.available_eq]
    exact UInt16.lt_iff_toNat_lt.mp safe
  | popFront =>
    obtain ⟨v, hv⟩ := Option.isSome_iff_exists.mp (List.isSome_head?.mpr (hne safe))
    refine ⟨?_, h.read hk (hne safe)⟩
    rw [Instruction.execute, Instruction.executeDeque, h.popFront_eq hk hv, hv]
    rfl
  | popBack =>
    have hv := List.getLast?_eq_some_getLast (hne safe)
    refine ⟨?_, h.popBack hk (hne safe)⟩
    rw [Instruction.execute, Instruction.executeDeque, h.popBack_eq hk hv, hv]
    rfl
  | clear => exact ⟨rfl, h.clear hk⟩
  | writeBlock buffer =>
    refine ⟨rfl, ?_⟩
    rw [Instruction.Safe, h.available_eq] at safe
    split at safe
    · next hfast => exact h.writeBlock_of_room hk hfast safe
    · next hslow => exact h.writeBlock_of_full hk safe.1 (Nat.le_of_not_lt hslow) safe.2
  | pushFrontBlock buffer =>
    exact ⟨rfl, (h.pushFrontBlock hk (h.available_eq ▸ safe.2)).1⟩
  | readBytes length => exact h.readBytes hk safe
  | peekBytes length => exact ⟨h.peekBytes hk safe, h⟩
  | sortAscending => exact ⟨rfl, h.sortAscending hk⟩
  | sortDescending => exact ⟨rfl, h.sortDescending hk⟩
  | median override =>
    obtain ⟨hvalue, hnext⟩ := h.median hk override safe
    exact ⟨congrArg Option.toList hvalue, hnext⟩

end PowerOfTwo

/-! ## Runs -/

section Runs

variable [IntCast α] [IntegerType α]

/-- The calls in order: the values each returns, and the ring that is left. -/
def execute (b : ScalarBuffer α size) :
    List (Instruction α) → List (List α) × ScalarBuffer α size
  | [] => ([], b)
  | op :: ops =>
    let result := execute (op.execute b).2 ops
    ((op.execute b).1 :: result.1, result.2)

/-- The calls in order on a deque. -/
def executeDeque {capacity : ℕ} (d : BoundedDeque α capacity) :
    List (Instruction α) → List (List α) × BoundedDeque α capacity
  | [] => ([], d)
  | op :: ops =>
    let result := executeDeque (op.executeDeque d).2 ops
    ((op.executeDeque d).1 :: result.1, result.2)

/-- Every call is safe where it is made. -/
def SafeRun (b : ScalarBuffer α size) : List (Instruction α) → Prop
  | [] => True
  | op :: ops => op.Safe b ∧ SafeRun (op.execute b).2 ops

instance decidableSafeRun [DecidableEq α] :
    (ops : List (Instruction α)) → (b : ScalarBuffer α size) → Decidable (SafeRun b ops)
  | [], _ => inferInstanceAs (Decidable True)
  | op :: ops, b =>
    have := decidableSafeRun ops (op.execute b).2
    inferInstanceAs (Decidable (op.Safe b ∧ SafeRun (op.execute b).2 ops))

variable {k : ℕ} (hk : size.toNat = 2 ^ k) {b : ScalarBuffer α size}
  {d : BoundedDeque α size.toNat}

include hk

theorem represents_executes (h : b.Represents d) (ops : List (Instruction α))
    (safe : SafeRun b ops) :
    (execute b ops).1 = (executeDeque d ops).1 ∧
      (execute b ops).2.Represents (executeDeque d ops).2 := by
  -- Induction on the calls: the representation is kept by each.
  induction ops generalizing b d with
  | nil => exact ⟨rfl, h⟩
  | cons op ops ih =>
    obtain ⟨hvalues, hnext⟩ := represents_execute hk h op safe.1
    obtain ⟨hrest, hlast⟩ := ih hnext safe.2
    exact ⟨by rw [execute, executeDeque, hvalues, hrest], hlast⟩

/-- **The ring of values refines a bounded deque**: single values, blocks, sorting and the median in
any order, as long as the calls are safe.  Every call returns what the deque returns, and the values
that are left are those of the deque. -/
theorem interface_refines_deque (cbuf : Memory α) (ops : List (Instruction α))
    (safe : SafeRun (create cbuf : ScalarBuffer α size) ops) :
    (execute (create cbuf : ScalarBuffer α size) ops).1 =
        (executeDeque (BoundedDeque.empty : BoundedDeque α size.toNat) ops).1 ∧
      (execute (create cbuf : ScalarBuffer α size) ops).2.contents =
        (executeDeque (BoundedDeque.empty : BoundedDeque α size.toNat) ops).2.items ∧
      (execute (create cbuf : ScalarBuffer α size) ops).2.Shows
        (executeDeque (BoundedDeque.empty : BoundedDeque α size.toNat) ops).2 := by
  obtain ⟨hvalues, hlast⟩ := represents_executes hk (represents_create hk cbuf) ops safe
  exact ⟨hvalues, hlast.contents_eq hk, hlast.shows hk⟩

omit hk in
/-- A block that goes round a ring of four cells, is sorted, has a median and is read. -/
theorem interface_refines_deque_four :
    (@execute Int16 4 ⟨Int16.ofInt⟩ _ (create fun _ => 0)
      [.writeBlock [7, 5], .popFront, .pushFrontBlock [9, 8], .pushBack 1, .sortDescending,
        .median false, .readBytes 3]).1 = [[], [7], [], [], [], [6], [9, 8, 5]] :=
  (@interface_refines_deque Int16 4 ⟨Int16.ofInt⟩ _ 2 (by rfl) (fun _ => 0)
    [.writeBlock [7, 5], .popFront, .pushFrontBlock [9, 8], .pushBack 1, .sortDescending,
      .median false, .readBytes 3] (by decide)).1.trans (by decide)

end Runs

end ScalarBuffer
