import Mathlib.Data.List.TakeDrop
import Mathlib.Tactic.Common
import Teensquitto.Data.Memory

/-!
# Outgoing UDP messages

`AsyncUDPMessage` collects the bytes of a datagram in an allocated buffer.  A write that does not
fit is truncated, and leaves the buffer full: what is kept is always a prefix of what was written
since the last `flush()`.

## Main definitions

* `AsyncUDPMessage`: the object, with `create`, `write`, `writeByte`, `space`, `length`, `flush`
* `AsyncUDPMessage.Operation`: the operations that change it, with `run` and `written`
* `AsyncUDPMessage.Holds`: the buffer holds what fits of a list of bytes

## Main results

* `AsyncUDPMessage.holds_run`: what a run keeps
* `AsyncUDPMessage.run_collects`: what the members return after every run
-/

namespace Teensquitto

/-- `AsyncUDPMessage`; `size_t` has 32 bits. -/
structure AsyncUDPMessage where
  /-- Nothing stands for a null pointer. -/
  buffer : Option (Memory UInt8)
  index : UInt32
  size : UInt32

namespace AsyncUDPMessage

/-- `AsyncUDPMessage(size)`; `allocated` is what `malloc` returns. -/
def create (size : UInt32) (allocated : Option (Memory UInt8)) : AsyncUDPMessage where
  index := 0
  size := if size > 1460 then 1460 else size
  buffer := allocated

/-- `space()`. -/
def space (m : AsyncUDPMessage) : UInt32 :=
  match m.buffer with
  | none => 0
  | some _ => m.size - m.index

/-- `write(data, len)`: the number of bytes it returns, and the message behind it. -/
def write (m : AsyncUDPMessage) (data : Memory UInt8) (len : UInt32) :
    UInt32 × AsyncUDPMessage :=
  match m.buffer with
  | none => (0, m)
  | some buffer =>
    let s := m.space
    let len := if len > s then s else len
    (len, { m with
      buffer := some (buffer.store m.index.toNat (data.load 0 len.toNat))
      index := m.index + len })

/-- `write(data)`. -/
def writeByte (m : AsyncUDPMessage) (data : UInt8) : UInt32 × AsyncUDPMessage :=
  m.write (Memory.fill data) 1

/-- `length()`. -/
def length (m : AsyncUDPMessage) : UInt32 := m.index

/-- `flush()`. -/
def flush (m : AsyncUDPMessage) : AsyncUDPMessage := { m with index := 0 }

/-- The first `length()` bytes at `data()`. -/
def contents (m : AsyncUDPMessage) : List UInt8 :=
  match m.buffer with
  | none => []
  | some buffer => buffer.load 0 m.length.toNat

/-! ## Runs -/

/-- The operations that change a message. -/
inductive Operation
  | write (data : Memory UInt8) (len : UInt32)
  | writeByte (data : UInt8)
  | flush

/-- The operation on the message. -/
def Operation.apply : Operation → AsyncUDPMessage → AsyncUDPMessage
  | write data len, m => (m.write data len).2
  | writeByte data, m => (m.writeByte data).2
  | flush, m => m.flush

/-- The bytes written since the last `flush()`, when those before the operation are `l`. -/
def Operation.extend : Operation → List UInt8 → List UInt8
  | write data len, l => l ++ data.load 0 len.toNat
  | writeByte data, l => l ++ [data]
  | flush, _ => []

/-- The message after a sequence of operations. -/
def run (ops : List Operation) (m : AsyncUDPMessage) : AsyncUDPMessage :=
  ops.foldl (fun m op => op.apply m) m

/-- Everything written since the last `flush()`. -/
def written (ops : List Operation) : List UInt8 := ops.foldl (fun l op => op.extend l) []

/-! ## What is kept -/

/-- The buffer holds as much of `l` as fits into `capacity` bytes. -/
structure Holds (m : AsyncUDPMessage) (capacity : ℕ) (l : List UInt8) : Prop where
  allocated : m.buffer ≠ none
  size_eq : m.size.toNat = capacity
  index_eq : m.index.toNat = min capacity l.length
  contents_eq : m.contents = l.take capacity

/-- A write keeps the first bytes of `data`, and returns their number. -/
structure Keeps (m : AsyncUDPMessage) (data : List UInt8) (r : UInt32 × AsyncUDPMessage) :
    Prop where
  returned_eq : r.1.toNat = min data.length m.space.toNat
  length_eq : r.2.length.toNat = m.length.toNat + r.1.toNat
  contents_eq : r.2.contents = m.contents ++ data.take r.1.toNat

section Keeping

variable {m : AsyncUDPMessage} {capacity : ℕ} {l : List UInt8}

/-- A length that is cut off at a limit. -/
theorem toNat_capped (len limit : UInt32) :
    (if len > limit then limit else len).toNat = min len.toNat limit.toNat := by
  split
  · next h =>
    rw [gt_iff_lt, UInt32.lt_iff_toNat_lt] at h
    exact (Nat.min_eq_right (Nat.le_of_lt h)).symm
  · next h =>
    rw [gt_iff_lt, UInt32.lt_iff_toNat_lt, Nat.not_lt] at h
    exact (Nat.min_eq_left h).symm

theorem holds_create (size : UInt32) (bytes : Memory UInt8) :
    (create size (some bytes)).Holds (min size.toNat 1460) [] where
  allocated := Option.some_ne_none bytes
  size_eq := toNat_capped size 1460
  index_eq := (Nat.min_zero _).symm
  contents_eq := by rw [List.take_nil]; rfl

namespace Holds

/-- The subtraction in `space()` does not wrap. -/
theorem space_eq (h : m.Holds capacity l) :
    m.space.toNat = capacity - min capacity l.length := by
  obtain ⟨buffer, hbuffer⟩ := Option.ne_none_iff_exists'.mp h.allocated
  have hle : m.index ≤ m.size := by
    rw [UInt32.le_iff_toNat_le, h.index_eq, h.size_eq]
    exact Nat.min_le_left _ _
  simp only [space, hbuffer]
  rw [UInt32.toNat_sub_of_le _ _ hle, h.size_eq, h.index_eq]

/-- A write stores the first bytes of `data` behind those that are there. -/
theorem keeps_write (h : m.Holds capacity l) (data : Memory UInt8) (len : UInt32) :
    m.Keeps (data.load 0 len.toNat) (m.write data len) := by
  obtain ⟨buffer, hbuffer⟩ := Option.ne_none_iff_exists'.mp h.allocated
  have hspace := h.space_eq
  have hindex := h.index_eq
  have hsize := h.size_eq
  have hcapacity := m.size.toNat_lt
  have hkept := toNat_capped len m.space
  have hwrite : m.write data len = (if len > m.space then m.space else len,
      { m with
        buffer := some (buffer.store m.index.toNat
          (data.load 0 (if len > m.space then m.space else len).toNat))
        index := m.index + if len > m.space then m.space else len }) := by
    rw [write, hbuffer]
  rw [hwrite]
  generalize (if len > m.space then m.space else len) = kept at hkept
  -- the index stays within the buffer, so that it does not wrap
  have hnext : (m.index + kept).toNat = m.index.toNat + kept.toNat := by
    rw [UInt32.toNat_add, Nat.mod_eq_of_lt]
    omega
  refine ⟨?_, hnext, ?_⟩
  · rw [Memory.length_load]
    exact hkept
  · have hload := Memory.load_store buffer m.index.toNat (data.load 0 kept.toNat)
    rw [Memory.length_load] at hload
    simp only [contents, length, hbuffer]
    rw [hnext, Memory.load_add, Nat.zero_add, hload,
      Memory.load_store_of_disjoint _ _ (.inl (Nat.le_of_eq (Nat.zero_add _))),
      Memory.take_load _ _ (by omega)]

theorem keeps_writeByte (h : m.Holds capacity l) (data : UInt8) :
    m.Keeps [data] (m.writeByte data) :=
  h.keeps_write (Memory.fill data) 1

/-- A truncated write leaves the buffer full, so that what is kept is a prefix of all. -/
theorem of_keeps (h : m.Holds capacity l) {data : List UInt8} {r : UInt32 × AsyncUDPMessage}
    (hkeeps : m.Keeps data r) (hallocated : r.2.buffer ≠ none) (hsize : r.2.size = m.size) :
    r.2.Holds capacity (l ++ data) := by
  have hreturned := hkeeps.returned_eq
  have hlength := hkeeps.length_eq
  have hindex := h.index_eq
  rw [h.space_eq] at hreturned
  rw [length, length] at hlength
  refine ⟨hallocated, hsize ▸ h.size_eq, ?_, ?_⟩
  · rw [List.length_append]
    omega
  · rw [hkeeps.contents_eq, h.contents_eq, List.take_append]
    congr 1
    refine List.take_eq_take_iff.mpr ?_
    omega

theorem write (h : m.Holds capacity l) (data : Memory UInt8) (len : UInt32) :
    (m.write data len).2.Holds capacity (l ++ data.load 0 len.toNat) := by
  obtain ⟨buffer, hbuffer⟩ := Option.ne_none_iff_exists'.mp h.allocated
  refine h.of_keeps (h.keeps_write data len) ?_ ?_
  · rw [AsyncUDPMessage.write, hbuffer]
    exact Option.some_ne_none _
  · rw [AsyncUDPMessage.write, hbuffer]

theorem flush (h : m.Holds capacity l) : m.flush.Holds capacity [] where
  allocated := h.allocated
  size_eq := h.size_eq
  index_eq := (Nat.min_zero _).symm
  contents_eq := by
    obtain ⟨buffer, hbuffer⟩ := Option.ne_none_iff_exists'.mp h.allocated
    simp only [contents, AsyncUDPMessage.flush, hbuffer, List.take_nil]
    rfl

theorem apply (h : m.Holds capacity l) (op : Operation) :
    (op.apply m).Holds capacity (op.extend l) := by
  cases op with
  | write data len => exact h.write data len
  | writeByte data => exact h.write (Memory.fill data) 1
  | flush => exact h.flush

end Holds

/-- **A run keeps a prefix** of everything written since the last `flush()`. -/
theorem holds_run (h : m.Holds capacity l) (ops : List Operation) :
    (run ops m).Holds capacity (ops.foldl (fun l op => op.extend l) l) := by
  induction ops generalizing m l with
  | nil => exact h
  | cons op ops ih => exact ih (h.apply op)

end Keeping

/-- **An outgoing message collects what is written to it**, up to its capacity, and every write
returns the number of its bytes that are kept. -/
theorem run_collects (size : UInt32) (bytes : Memory UInt8) (ops : List Operation) :
    let m := run ops (create size (some bytes))
    m.length.toNat ≤ min size.toNat 1460 ∧
      m.length.toNat + m.space.toNat = min size.toNat 1460 ∧
      m.contents = (written ops).take m.length.toNat ∧
      (∀ data len, m.Keeps (data.load 0 len.toNat) (m.write data len)) ∧
      ∀ data, m.Keeps [data] (m.writeByte data) := by
  intro m
  have h : m.Holds (min size.toNat 1460) (written ops) := holds_run (holds_create size bytes) ops
  have hlength : m.length.toNat = min (min size.toNat 1460) (written ops).length := h.index_eq
  refine ⟨?_, ?_, ?_, h.keeps_write, h.keeps_writeByte⟩
  · rw [hlength]
    exact Nat.min_le_left _ _
  · rw [hlength, h.space_eq]
    omega
  · rw [h.contents_eq, hlength]
    exact List.take_eq_take_min

end AsyncUDPMessage

end Teensquitto
