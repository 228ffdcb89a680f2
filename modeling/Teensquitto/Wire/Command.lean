import Teensquitto.Data.Bytes
import Teensquitto.Data.Memory

/-!
# Command frames

Every command of the library is written by the same statements: three framing bytes, a
two-byte header, an opcode, argument bytes, the characters of the string arguments, raw
bytes, and the checksum.  `data_pos` is the write index, of the width the method declares
it with, and `checksum` is kept while the bytes are written.

## Main definitions

* `CString`: the bytes of a NUL-terminated string
* `Command`: the values one block of a method writes
* `Encoder`: the local variables of such a block, with `Encoder.put` for its statements
* `Command.emit`: the bytes handed to `deviceSerial->write`
-/

namespace Teensquitto

/-- The bytes of a C string before its terminator. -/
structure CString where
  bytes : List UInt8
  /-- The terminator is the first zero. -/
  noNul : 0 ∉ bytes
  deriving DecidableEq

namespace CString

/-- `strlen`. -/
def strlen (s : CString) : ℕ := s.bytes.length

/-- The empty string. -/
def empty : CString := ⟨[], by simp⟩

end CString

/-- The octets of an `IPAddress`. -/
structure IPAddress where
  (a b c d : UInt8)
  deriving DecidableEq

/-- The six bytes of a hardware address. -/
structure MacAddress where
  (a b c d e f : UInt8)
  deriving DecidableEq

/-- An argument byte: a plain value, or the length of a string, both as stored in a
`uint8_t`. -/
inductive Arg
  | byte (b : UInt8)
  | strlen (s : CString)
  deriving DecidableEq

namespace Arg

/-- The byte that is stored. -/
def value : Arg → UInt8
  | byte b => b
  | strlen s => UInt8.ofNat s.strlen

/-- The string whose length is stored. -/
def string? : Arg → Option CString
  | byte _ => none
  | strlen s => some s

/-- A 32-bit value, high byte first. -/
def word (x : UInt32) : List Arg :=
  [byte (x >>> 24).toUInt8, byte (x >>> 16).toUInt8, byte (x >>> 8).toUInt8, byte x.toUInt8]

/-- A 32-bit value copied by `memcpy`, low byte first. -/
def wordLow (x : UInt32) : List Arg :=
  [byte x.toUInt8, byte (x >>> 8).toUInt8, byte (x >>> 16).toUInt8, byte (x >>> 24).toUInt8]

/-- A 16-bit value, high byte first. -/
def half (x : UInt16) : List Arg := [byte (Bytes.high x), byte (Bytes.low x)]

/-- The octets of an address. -/
def address (ip : IPAddress) : List Arg := [byte ip.a, byte ip.b, byte ip.c, byte ip.d]

/-- The bytes of a hardware address. -/
def mac (m : MacAddress) : List Arg :=
  [byte m.a, byte m.b, byte m.c, byte m.d, byte m.e, byte m.f]

end Arg

/-- What one block of a method writes.  `size` is the declared length of the array and
`indexBits` the width of `data_pos`. -/
structure Command where
  size : ℕ
  indexBits : ℕ := 16
  header : UInt8 × UInt8
  opcode : UInt8
  args : List Arg := []
  text : List CString := []
  body : List UInt8 := []
  /-- The array has a place for every byte that is written. -/
  size_eq : size = args.length + (text.map CString.strlen).sum + body.length + 7 := by
    simp [Arg.word, Arg.wordLow, Arg.half, Arg.address, Arg.mac] <;> omega
  /-- The lengths of the strings are stored in the order of the strings. -/
  lengths_eq : args.filterMap Arg.string? = text := by rfl
  /-- No command has more argument bytes than a five-address `config`. -/
  args_le : args.length ≤ 20 := by
    simp [Arg.word, Arg.wordLow, Arg.half, Arg.address, Arg.mac]

/-- The local variables of a block: the array, `data_pos`, `checksum`; and the indices
written so far. -/
structure Encoder where
  data : Memory UInt8
  dataPos : ℕ
  checksum : UInt8
  written : List ℕ

namespace Encoder

/-- `data[data_pos] = b;` -/
def store (e : Encoder) (b : UInt8) : Encoder :=
  { e with data := e.data.set e.dataPos b, written := e.written ++ [e.dataPos] }

/-- `data_pos++;` -/
def next (bits : ℕ) (e : Encoder) : Encoder :=
  { e with dataPos := (e.dataPos + 1) % 2 ^ bits }

/-- `checksum ^= data[data_pos];` -/
def fold (e : Encoder) : Encoder :=
  { e with checksum := e.checksum ^^^ e.data e.dataPos }

/-- One framing byte: stored, not summed. -/
def frame (bits : ℕ) (e : Encoder) (b : UInt8) : Encoder := ((e.store b).next bits)

/-- One payload byte: stored and summed. -/
def put (bits : ℕ) (e : Encoder) (b : UInt8) : Encoder := ((e.store b).fold.next bits)

end Encoder

namespace Command

/-- The payload bytes in the order in which they are written, without the checksum. -/
def payload (c : Command) : List UInt8 :=
  [c.header.1, c.header.2, c.opcode] ++ c.args.map Arg.value ++
    c.text.flatMap CString.bytes ++ c.body

/-- The framing bytes: `0x24` and the count of the remaining bytes. -/
def framing (c : Command) : List UInt8 :=
  [0x24, Bytes.high (UInt16.ofNat (c.size - 3)), Bytes.low (UInt16.ofNat (c.size - 3))]

/-- The block up to the write, over an array that holds anything. -/
def encode (c : Command) (garbage : Memory UInt8) : Encoder :=
  let start : Encoder := ⟨garbage, 0, 0, []⟩
  let framed := c.framing.foldl (Encoder.frame c.indexBits) start
  let filled := c.payload.foldl (Encoder.put c.indexBits) framed
  filled.store filled.checksum

/-- The bytes of `deviceSerial->write(data, sizeof(data))`. -/
def emit (c : Command) (garbage : Memory UInt8) : List UInt8 :=
  (c.encode garbage).data.load 0 c.size

theorem length_emit (c : Command) (garbage : Memory UInt8) :
    (c.emit garbage).length = c.size := by
  rw [emit, Memory.length_load]

end Command

end Teensquitto
