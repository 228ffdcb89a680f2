import Teensquitto.Data.Bytes
import Teensquitto.Data.Memory

/-!
# The circular buffer of messages

`Circular_Buffer<uint8_t, _size, multi>` with `multi > 0` is a ring of `_size` rows.
A row holds one message of at most `multi` bytes behind its two length bytes.  The
two indices run modulo `2 * _size`, a row number is an index modulo `_size`, and the
number of messages is stored separately.

Indices are computed in `int` and stored in `uint16_t`.  The operators involved commute
with the truncation, so that the arithmetic below is that of `UInt16`.

## Main definitions

* `CircularBuffer`: the state of the buffer
* `CircularBuffer.write`, `pushFront`, `read`, `readBytes`, `popBackInto`, `clear`: the
  operations that change it
* `CircularBuffer.lengthFront`, `lengthBack`, `front`, `back`: the operations
  that read it
-/

/-- The state of `Circular_Buffer<uint8_t, _size, multi>`.  Row `r` of `_cabuf` starts at
address `r * (multi + 2)`. -/
structure CircularBuffer (size multi : UInt16) where
  /-- Index of the first message. -/
  head : UInt16
  /-- Index behind the last message. -/
  tail : UInt16
  /-- The number of messages. -/
  available : UInt16
  /-- `_init` has not run yet. -/
  initCa : Bool
  /-- The array of the scalar mode. -/
  cbuf : Memory UInt8
  /-- The rows. -/
  cabuf : Memory UInt8

namespace CircularBuffer

variable {size multi : UInt16}

/-- A new buffer over arrays that hold anything. -/
def create (cbuf cabuf : Memory UInt8) : CircularBuffer size multi where
  head := 0
  tail := 0
  available := 0
  initCa := true
  cbuf := cbuf
  cabuf := cabuf

/-- The address of the row an index selects. -/
def row (_ : CircularBuffer size multi) (index : UInt16) : ℕ :=
  (index &&& (size - 1)).toNat * (multi.toNat + 2)

/-- Fill the scalar array with its indices, at the first use only. -/
def init (b : CircularBuffer size multi) : CircularBuffer size multi :=
  if b.initCa then
    { b with
      cbuf := b.cbuf.store 0 ((List.range size.toNat).map UInt8.ofNat)
      initCa := false }
  else b

/-- The cells of a row that holds `buffer`: two length bytes, then the bytes. -/
def rowCells (buffer : List UInt8) : List UInt8 :=
  let length := UInt16.ofNat buffer.length
  [Bytes.high length, Bytes.low length] ++ buffer

/-- The length stored in the two cells at `address`. -/
def rowLength (b : CircularBuffer size multi) (address : ℕ) : UInt16 :=
  Bytes.join (b.cabuf address) (b.cabuf (address + 1))

/-- `write(buffer, length)`. -/
def write (b : CircularBuffer size multi) (buffer : List UInt8) : CircularBuffer size multi :=
  { b with
    cabuf := b.cabuf.store (b.row b.tail) (rowCells buffer)
    head := if b.tail = b.head ^^^ size then (b.head + 1) &&& (2 * size - 1) else b.head
    tail := (b.tail + 1) &&& (2 * size - 1)
    available := if b.available < size then b.available + 1 else b.available }

/-- `push_back(buffer, length)`. -/
def pushBack (b : CircularBuffer size multi) (buffer : List UInt8) : CircularBuffer size multi :=
  b.write buffer

/-- `push_front(buffer, length)`. -/
def pushFront (b : CircularBuffer size multi) (buffer : List UInt8) :
    CircularBuffer size multi :=
  let b := b.init
  let head := (b.head - 1) &&& (2 * size - 1)
  { b with
    tail := if b.tail = b.head ^^^ size then (b.tail - 1) &&& (2 * size - 1) else b.tail
    head := head
    cabuf := b.cabuf.store (b.row head) (rowCells buffer)
    available := if b.available < size then b.available + 1 else b.available }

/-- `read()`: it returns nothing and drops the first message. -/
def read (b : CircularBuffer size multi) : CircularBuffer size multi :=
  let b := b.init
  { b with
    head := (b.head + 1) &&& (2 * size - 1)
    available := if b.available ≠ 0 then b.available - 1 else b.available }

/-- `pop_front()`. -/
def popFront (b : CircularBuffer size multi) : CircularBuffer size multi := b.read

/-- `readBytes(buffer, length)`: the bytes copied into `buffer`, and the buffer without
its first message. -/
def readBytes (b : CircularBuffer size multi) (length : UInt16) :
    List UInt8 × CircularBuffer size multi :=
  let b := b.init
  (b.cabuf.load (b.row b.head + 2) length.toNat, b.read)

/-- `pop_front(buffer, length)`. -/
def popFrontInto (b : CircularBuffer size multi) (length : UInt16) :
    List UInt8 × CircularBuffer size multi :=
  b.readBytes length

/-- `pop_back(buffer, length)`: the bytes copied into `buffer`, and the buffer without its
last message. -/
def popBackInto (b : CircularBuffer size multi) (length : UInt16) :
    List UInt8 × CircularBuffer size multi :=
  let b := b.init
  (b.cabuf.load (b.row (b.tail - 1) + 2) length.toNat,
    { b with
      tail := (b.tail - 1) &&& (2 * size - 1)
      available := if b.available ≠ 0 then b.available - 1 else b.available })

/-- `clear()`. -/
def clear (b : CircularBuffer size multi) : CircularBuffer size multi :=
  { b with head := 0, tail := 0, available := 0 }

/-- `length_back()`. -/
def lengthBack (b : CircularBuffer size multi) : UInt16 :=
  b.rowLength (b.row (b.head + b.available - 1))

/-- `length_front()`. -/
def lengthFront (b : CircularBuffer size multi) : UInt16 :=
  b.rowLength (b.row b.head)

/-- `front()`: the address of the bytes of the first message. -/
def front (b : CircularBuffer size multi) : ℕ := b.row b.head + 2

/-- `back()`: the address of the bytes of the last message. -/
def back (b : CircularBuffer size multi) : ℕ := b.row (b.tail - 1) + 2

end CircularBuffer
