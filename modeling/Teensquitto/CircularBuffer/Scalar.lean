import Teensquitto.Data.Memory
import Mathlib.Data.Int.Cast.Defs
import Mathlib.Data.UInt

/-!
# The circular buffer of values

`Circular_Buffer<T, _size>` without `multi` is a ring of `_size` values.  Its indices run modulo
`2 * _size` as those of the ring of messages do, and the number of values is stored separately.

## Main definitions

* `ScalarBuffer`: the state of the buffer
* `ScalarBuffer.write`, `pushFront`, `read`, `popBack`, `clear`: the operations on one value
* `ScalarBuffer.writeBlock`, `pushFrontBlock`, `readBytes`, `peekBytes`: the operations on a block
* `ScalarBuffer.peek`: a value by its position
-/

/-- The state of `Circular_Buffer<T, _size>`, `α` being the type `T`. -/
structure ScalarBuffer (α : Type) (size : UInt16) where
  /-- Index of the first value. -/
  head : UInt16
  /-- Index behind the last value. -/
  tail : UInt16
  /-- The number of values. -/
  available : UInt16
  /-- The values. -/
  cbuf : Memory α

namespace ScalarBuffer

variable {α : Type} {size : UInt16}

/-- A new buffer over an array that holds anything. -/
def create (cbuf : Memory α) : ScalarBuffer α size where
  head := 0
  tail := 0
  available := 0
  cbuf := cbuf

/-- The cell an index selects. -/
def cell (_ : ScalarBuffer α size) (index : UInt16) : ℕ := (index &&& (size - 1)).toNat

/-! ## One value -/

/-- `write(value)`. -/
def write (b : ScalarBuffer α size) (value : α) : ScalarBuffer α size where
  -- the value is counted and stored before the test of fullness
  available := if b.available < size then b.available + 1 else b.available
  cbuf := b.cbuf.set (b.cell b.tail) value
  head := if b.tail = b.head ^^^ size then (b.head + 1) &&& (2 * size - 1) else b.head
  tail := (b.tail + 1) &&& (2 * size - 1)

/-- `push_back(value)`. -/
def pushBack (b : ScalarBuffer α size) (value : α) : ScalarBuffer α size := b.write value

/-- `push_front(value)`: unlike its counterpart for messages it never moves `tail`. -/
def pushFront (b : ScalarBuffer α size) (value : α) : ScalarBuffer α size :=
  let head := (b.head - 1) &&& (2 * size - 1)
  { b with
    head := head
    cbuf := b.cbuf.set (b.cell head) value
    available := if b.available < size then b.available + 1 else b.available }

/-- `read()`: the first value, and the buffer without it. -/
def read (b : ScalarBuffer α size) : α × ScalarBuffer α size :=
  (b.cbuf (b.cell b.head),
    { b with
      available := if b.available ≠ 0 then b.available - 1 else b.available
      head := (b.head + 1) &&& (2 * size - 1) })

/-- `pop_front()`. -/
def popFront (b : ScalarBuffer α size) : α × ScalarBuffer α size := b.read

/-- `pop_back()`: the last value, and the buffer without it; -1 when there is none. -/
def popBack [IntCast α] (b : ScalarBuffer α size) : α × ScalarBuffer α size :=
  if b.available ≠ 0 then
    let tail := (b.tail - 1) &&& (2 * size - 1)
    (b.cbuf (b.cell tail), { b with available := b.available - 1, tail := tail })
  else ((-1 : ℤ), b)

/-- `clear()`. -/
def clear (b : ScalarBuffer α size) : ScalarBuffer α size :=
  { b with head := 0, tail := 0, available := 0 }

/-- `peek(pos)`. -/
def peek [IntCast α] (b : ScalarBuffer α size) (pos : UInt16) : α :=
  if pos > size then (0 : ℤ) else b.cbuf (b.cell (b.head + pos))

/-! ## Blocks -/

/-- `length < (_size - index)`, the test of the fast paths, in `int`. -/
def contiguous (_ : ScalarBuffer α size) (length index : UInt16) : Bool :=
  (length.toNat : ℤ) < (size.toNat : ℤ) - (index.toNat : ℤ)

/-- `_available += length`, bounded by `_size`. -/
def raised (b : ScalarBuffer α size) (length : UInt16) : UInt16 :=
  if b.available + length ≥ size then size else b.available + length

/-- `write(buffer, length)`. -/
def writeBlock (b : ScalarBuffer α size) (buffer : List α) : ScalarBuffer α size :=
  let length := UInt16.ofNat buffer.length
  let b := { b with available := b.raised length }
  -- `tail` is compared without its mask: in the second lap the copy is never made
  if b.contiguous length b.tail then
    { b with
      cbuf := b.cbuf.store b.tail.toNat buffer
      tail := (b.tail + length) &&& (2 * size - 1) }
  -- each `write(value)` counts its value again
  else buffer.foldl write b

/-- `push_front(buffer, length)` for a length other than zero: the values from the last one on. -/
def pushFrontBlock (b : ScalarBuffer α size) (buffer : List α) : ScalarBuffer α size :=
  buffer.foldr (fun value b => b.pushFront value) b

/-- `read()`, `n` times. -/
def reads : ℕ → ScalarBuffer α size → List α × ScalarBuffer α size
  | 0, b => ([], b)
  | n + 1, b => (b.read.1 :: (reads n b.read.2).1, (reads n b.read.2).2)

/-- The number of values a block operation is about. -/
def count (b : ScalarBuffer α size) (length : UInt16) : UInt16 :=
  if b.available < length then b.available else length

/-- `readBytes(buffer, length)`: the values stored in `buffer`, whose number it returns, and the
buffer that is left. -/
def readBytes (b : ScalarBuffer α size) (length : UInt16) : List α × ScalarBuffer α size :=
  let count := b.count length
  if b.contiguous count b.head then
    -- the `memmove` reads from `_cbuf`, not from `_cbuf+head`
    (b.cbuf.load 0 count.toNat,
      { b with
        -- the length asked for is subtracted, not `_count`
        available := b.available - length
        head := (b.head + count) &&& (2 * size - 1) })
  else reads count.toNat b

/-- `peekBytes(buffer, length)`: the values stored in `buffer`, whose number it returns. -/
def peekBytes [IntCast α] (b : ScalarBuffer α size) (length : UInt16) : List α :=
  let count := b.count length
  -- again from `_cbuf`
  if b.contiguous count b.head then b.cbuf.load 0 count.toNat
  else (List.range count.toNat).map fun i => b.peek (UInt16.ofNat i)

end ScalarBuffer
