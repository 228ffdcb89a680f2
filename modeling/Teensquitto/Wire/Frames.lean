import Teensquitto.Receiver.StreamParsing
import Teensquitto.Wire.Encoding

/-!
# Frames

A command is written as a valid frame exactly when the range of `data_pos` covers its
array.  Its strings are recovered from the frame exactly when each length fits its byte and
the index wraps at the checksum at the earliest.

## Main definitions

* `Command.ValidFrame`: the written bytes are one frame, and the receiver takes it
* `Command.SplitsBack`: the length bytes of the frame split its string area into the strings
* `Command.BodySplitsBack`: a four-byte length cuts the raw bytes off the frame

## Main results

* `Command.validFrame_iff`: when a command is a valid frame
* `Command.splitsBack_iff`, `Command.bodySplitsBack_iff`: when the strings of a command are
  recovered
* `Command.text_eq_of_emit_eq`: equal frames carry equal strings
-/

namespace Teensquitto

namespace Command

variable {c : Command}

/-! ## Valid frames -/

/-- The bytes written to the port are one valid frame: the `$`, the count of the remaining
bytes, the payload and its checksum, each place written once and in order; and the receiver
takes the frame, with the payload it was built from. -/
structure ValidFrame (c : Command) : Prop where
  bytes : ∀ garbage, c.emit garbage = commandBytes (c.payload ++ [Bytes.xorSum c.payload])
  count : c.payload.length + 1 < 2 ^ 16
  once : ∀ garbage, (c.encode garbage).written = List.range c.size
  received : ∀ garbage {sched : List Tick} {rest : List UInt8} {n : ℕ} {w : World},
    Timely sched → Prompt (c.payload.length + 1 + rest.length) sched →
      Delivers sched (c.emit garbage ++ rest) [] w.rx w.ticks (4 * c.size + n + 9) →
        w.rx ≠ [] → uart.Returns w fun r w' =>
          r = .frame (c.payload ++ [Bytes.xorSum c.payload]) ∧
            Delivers sched rest [] w'.rx w'.ticks n

theorem three_le_payload (c : Command) : 3 ≤ c.payload.length := by
  rw [payload]
  simp

/-- The receiver takes the frame of a closed payload. -/
theorem returns_uart_commandBytes {payload : List UInt8}
    (hlen : 3 ≤ payload.length ∧ payload.length ≤ 65535) (hclosed : Closed payload)
    {sched : List Tick} {rest : List UInt8} {n : ℕ} {w : World} (htimely : Timely sched)
    (hprompt : Prompt (payload.length + rest.length) sched)
    (hd : Delivers sched (commandBytes payload ++ rest) [] w.rx w.ticks
      (4 * (commandBytes payload).length + n + 9)) (hrx : w.rx ≠ []) :
    uart.Returns w fun r w' => r = .frame payload ∧ Delivers sched rest [] w'.rx w'.ticks n := by
  have hseg : (Segment.command payload hlen hclosed).Prompt rest sched := by
    intro p hp
    obtain rfl := Option.some.inj hp
    rwa [List.length_append]
  refine (returns_uart htimely hseg hd).mono ?_
  rintro r w' (⟨-, hnil, -, ⟨used, -, hrx', -⟩, -⟩ | ⟨hreads, -, hd'⟩)
  · rw [hnil] at hrx'
    exact absurd (List.append_eq_nil_iff.mp hrx'.symm).1 hrx
  · exact ⟨hreads, hd'⟩

/-- **A command is a valid frame exactly when the index covers its array.** -/
theorem validFrame_iff (hsize : c.size ≤ 65538) : c.ValidFrame ↔ c.size ≤ 2 ^ c.indexBits := by
  have hlen := c.length_payload
  constructor
  · intro h
    have hmem : c.size - 1 ∈ (c.encode (Memory.fill 0)).written := by
      rw [h.once]
      exact List.mem_range.mpr (by omega)
    have hlt := (c.inRange_encode (Memory.fill 0)).written _ hmem
    omega
  · intro h
    have hbytes : ∀ garbage,
        c.emit garbage = commandBytes (c.payload ++ [Bytes.xorSum c.payload]) := by
      intro garbage
      rw [c.emit_eq garbage h, framing, commandBytes, List.length_append, List.length_singleton,
        show c.size - 3 = c.payload.length + 1 by omega]
      rfl
    refine ⟨hbytes, by omega, fun garbage => by rw [c.encode_eq garbage h], ?_⟩
    intro garbage sched rest n w htimely hprompt hd hrx
    have hlength : (c.payload ++ [Bytes.xorSum c.payload]).length = c.payload.length + 1 := by
      simp
    refine returns_uart_commandBytes ?_ (closed_append c.payload) htimely
      (by rwa [hlength]) ?_ hrx
    · have := c.three_le_payload
      omega
    · rw [← hbytes garbage, c.length_emit]
      exact hd

/-! ## Strings -/

/-- Split an area into pieces of the given lengths. -/
def splitBy : List UInt8 → List UInt8 → List (List UInt8)
  | [], _ => []
  | n :: ns, area => area.take n.toNat :: splitBy ns (area.drop n.toNat)

theorem length_le_of_mem_splitBy {ns area piece : List UInt8} (h : piece ∈ splitBy ns area) :
    piece.length ≤ 255 := by
  induction ns generalizing area with
  | nil => exact absurd h List.not_mem_nil
  | cons n ns ih =>
    rcases List.mem_cons.mp h with rfl | h
    · have := n.toNat_lt
      rw [List.length_take]
      omega
    · exact ih h

theorem flatten_splitBy_prefix (ns area : List UInt8) : (splitBy ns area).flatten <+: area := by
  induction ns generalizing area with
  | nil => exact List.nil_prefix
  | cons n ns ih =>
    have hrest := (List.prefix_append_right_inj (area.take n.toNat)).mpr (ih (area.drop n.toNat))
    rwa [List.take_append_drop] at hrest

/-- Lengths that fit their bytes split the concatenation into its parts. -/
theorem splitBy_flatMap {text : List CString} (h : ∀ s ∈ text, s.strlen ≤ 255) :
    splitBy (text.map fun s => UInt8.ofNat s.strlen) (text.flatMap CString.bytes) =
      text.map CString.bytes := by
  induction text with
  | nil => rfl
  | cons s text ih =>
    have hs : (UInt8.ofNat s.strlen).toNat = s.bytes.length :=
      (UInt8.toNat_ofNat').trans (Nat.mod_eq_of_lt (Nat.lt_succ_of_le (h s List.mem_cons_self)))
    rw [List.map_cons, List.flatMap_cons, splitBy, hs, List.take_left, List.drop_left,
      ih fun s' hs' => h s' (List.mem_cons_of_mem s hs'), List.map_cons]

/-- Which argument bytes are lengths of strings. -/
def shape (c : Command) : List Bool := c.args.map fun a => a.string?.isSome

/-- The length bytes of a frame. -/
def lengthBytes (shape : List Bool) (frame : List UInt8) : List UInt8 :=
  ((frame.drop 6).zip shape).filterMap fun p => if p.2 then some p.1 else none

/-- The bytes between the arguments and the checksum. -/
def stringArea (shape : List Bool) (frame : List UInt8) : List UInt8 :=
  (frame.drop (6 + shape.length)).dropLast

/-- The length bytes of every frame of the command split its string area into the strings. -/
def SplitsBack (c : Command) : Prop :=
  ∀ garbage, splitBy (lengthBytes c.shape (c.emit garbage)) (stringArea c.shape (c.emit garbage)) =
    c.text.map CString.bytes

/-- The length bytes among the argument bytes are those of the strings. -/
theorem filterMap_zip_args (args : List Arg) (rest : List UInt8) :
    ((args.map Arg.value ++ rest).zip (args.map fun a => a.string?.isSome)).filterMap
        (fun p => if p.2 then some p.1 else none) =
      (args.filterMap Arg.string?).map fun s => UInt8.ofNat s.strlen := by
  induction args with
  | nil => simp
  | cons a args ih =>
    cases a with
    | byte b =>
      have hnone : (Arg.byte b).string? = none := rfl
      simpa [hnone, List.filterMap_cons] using ih
    | strlen s =>
      have hsome : (Arg.strlen s).string? = some s := rfl
      simpa [hsome, Arg.value, List.filterMap_cons] using ih

theorem drop_emit (garbage : Memory UInt8) (h : c.size ≤ 2 ^ c.indexBits + 1) :
    (c.emit garbage).drop 6 = c.args.map Arg.value ++ c.text.flatMap CString.bytes ++ c.body ++
      [(c.encode garbage).data (c.size - 1)] := by
  have hlen := c.length_payload
  have hload : c.emit garbage = (c.encode garbage).data.load 0 3 ++ c.payload ++
      [(c.encode garbage).data (c.size - 1)] := by
    have hsplit := Memory.load_add (c.encode garbage).data 0 3 c.payload.length
    rw [Nat.zero_add, c.load_payload garbage h] at hsplit
    rw [emit, show c.size = (3 + c.payload.length) + 1 by omega, Memory.load_succ, hsplit]
    congr 2
    congr 1
    omega
  rw [hload, payload]
  simp [List.drop_append, Memory.length_load]

theorem length_stringArea (garbage : Memory UInt8) (hbody : c.body = []) :
    (stringArea c.shape (c.emit garbage)).length = (c.text.flatMap CString.bytes).length := by
  have hsize := c.size_eq
  have hflat : (c.text.flatMap CString.bytes).length = (c.text.map CString.strlen).sum :=
    List.length_flatMap
  rw [stringArea, List.length_dropLast, List.length_drop, length_emit, shape, List.length_map,
    hflat]
  rw [hbody, List.length_nil] at hsize
  omega

/-- With fitting lengths and the payload in place, the strings are recovered. -/
theorem splitsBack_of_fits (hbody : c.body = []) (htext : ∀ s ∈ c.text, s.strlen ≤ 255)
    (h : c.size ≤ 2 ^ c.indexBits + 1) : c.SplitsBack := by
  intro garbage
  have hdrop := c.drop_emit garbage h
  rw [hbody, List.append_nil] at hdrop
  have hlengths : lengthBytes c.shape (c.emit garbage) =
      c.text.map fun s => UInt8.ofNat s.strlen := by
    rw [lengthBytes, hdrop, List.append_assoc, shape, filterMap_zip_args, c.lengths_eq]
  have harea : stringArea c.shape (c.emit garbage) = c.text.flatMap CString.bytes := by
    rw [stringArea, ← List.drop_drop, hdrop, shape, List.length_map, List.append_assoc,
      List.drop_left' (List.length_map _), List.dropLast_concat]
  rw [hlengths, harea, splitBy_flatMap htext]

/-- When the strings are recovered, the string area is their concatenation. -/
theorem SplitsBack.stringArea_eq (h : c.SplitsBack) (hbody : c.body = [])
    (garbage : Memory UInt8) :
    stringArea c.shape (c.emit garbage) = c.text.flatMap CString.bytes := by
  have hfront := flatten_splitBy_prefix (lengthBytes c.shape (c.emit garbage))
    (stringArea c.shape (c.emit garbage))
  rw [h garbage, ← List.flatMap_def] at hfront
  exact (hfront.eq_of_length (c.length_stringArea garbage hbody).symm).symm

/-- A byte behind the arguments and past the range of the index is not written, so the area
varies. -/
theorem size_le_of_stringArea (hbits : 8 ≤ c.indexBits) {area : List UInt8}
    (h : ∀ garbage, stringArea c.shape (c.emit garbage) = area) :
    c.size ≤ 2 ^ c.indexBits + 1 := by
  by_contra hlarge
  have hargs := c.args_le
  have hpow : 2 ^ 8 ≤ 2 ^ c.indexBits := Nat.pow_le_pow_right (by decide) hbits
  have hcell : ∀ garbage : Memory UInt8,
      area[2 ^ c.indexBits - (6 + c.args.length)]? = some (garbage (2 ^ c.indexBits)) := by
    intro garbage
    rw [← h garbage, stringArea, shape, List.length_map, List.getElem?_dropLast,
      List.length_drop, length_emit, if_pos (by omega), List.getElem?_drop,
      Nat.add_sub_of_le (by omega), emit,
      List.getElem?_eq_getElem (by rw [Memory.length_load]; omega), Memory.getElem_load,
      Nat.zero_add, c.data_of_ge garbage (Nat.le_refl _)]
  have hzero := hcell (Memory.fill 0)
  rw [hcell (Memory.fill 1)] at hzero
  exact absurd (Option.some.inj hzero) (by decide : (1 : UInt8) ≠ 0)

/-- **The strings of a command are recovered exactly when each length fits its byte and the
index covers the string area.** -/
theorem splitsBack_iff (hbody : c.body = []) (hbits : 8 ≤ c.indexBits) :
    c.SplitsBack ↔ (∀ s ∈ c.text, s.strlen ≤ 255) ∧ c.size ≤ 2 ^ c.indexBits + 1 := by
  constructor
  · intro h
    refine ⟨fun s hs => ?_, size_le_of_stringArea hbits (h.stringArea_eq hbody)⟩
    have hmem : s.bytes ∈ c.text.map CString.bytes := List.mem_map.mpr ⟨s, hs, rfl⟩
    rw [← h (Memory.fill 0)] at hmem
    exact length_le_of_mem_splitBy hmem
  · rintro ⟨htext, hsize⟩
    exact splitsBack_of_fits hbody htext hsize

/-- Without strings there is nothing to split. -/
theorem splitsBack_of_text_eq_nil (htext : c.text = []) : c.SplitsBack := by
  intro garbage
  have hshape : c.shape = List.replicate c.args.length false := by
    refine List.eq_replicate_iff.mpr ⟨List.length_map _, fun b hb => ?_⟩
    obtain ⟨a, ha, rfl⟩ := List.mem_map.mp hb
    have hnone := List.filterMap_eq_nil_iff.mp (c.lengths_eq.trans htext) a ha
    rw [hnone]
    rfl
  have hlengths : lengthBytes c.shape (c.emit garbage) = [] := by
    refine List.filterMap_eq_nil_iff.mpr fun p hp => ?_
    have hfalse := (List.of_mem_zip hp).2
    rw [hshape] at hfalse
    rw [List.eq_of_mem_replicate hfalse]
    rfl
  rw [hlengths, htext]
  rfl

/-! ## Texts with a four-byte length -/

/-- The four bytes behind the opcode of every frame of the command spell the length of the
raw bytes, and cut them off the area behind the arguments. -/
def BodySplitsBack (c : Command) : Prop :=
  ∀ garbage, (stringArea c.shape (c.emit garbage)).take
    (Bytes.toNat (((c.emit garbage).drop 6).take 4)) = c.body

theorem value_word (x : UInt32) : (Arg.word x).map Arg.value = Bytes.word x := rfl

/-- **Raw bytes with a four-byte length are recovered exactly when the index covers them.** -/
theorem bodySplitsBack_iff (htext : c.text = []) (hbits : 8 ≤ c.indexBits)
    (hsize : c.size ≤ 65538) {args : List Arg}
    (hargs : c.args = Arg.word (UInt32.ofNat c.body.length) ++ args) :
    c.BodySplitsBack ↔ c.size ≤ 2 ^ c.indexBits + 1 := by
  have hlen := c.size_eq
  rw [htext, List.map_nil, List.sum_nil] at hlen
  constructor
  · intro h
    have harea : ∀ garbage, stringArea c.shape (c.emit garbage) = c.body := by
      intro garbage
      have hfront := List.take_prefix (Bytes.toNat (((c.emit garbage).drop 6).take 4))
        (stringArea c.shape (c.emit garbage))
      rw [h garbage] at hfront
      refine (hfront.eq_of_length ?_).symm
      rw [stringArea, List.length_dropLast, List.length_drop, length_emit, shape,
        List.length_map]
      omega
    exact size_le_of_stringArea hbits harea
  · intro h garbage
    have hdrop := c.drop_emit garbage h
    rw [htext, List.flatMap_nil, List.append_nil] at hdrop
    have hword : ((c.emit garbage).drop 6).take 4 = Bytes.word (UInt32.ofNat c.body.length) := by
      rw [hdrop, hargs, List.map_append, value_word, List.append_assoc, List.append_assoc]
      exact List.take_left' (Bytes.length_word _)
    have harea : stringArea c.shape (c.emit garbage) = c.body := by
      rw [stringArea, ← List.drop_drop, hdrop, shape, List.length_map, List.append_assoc,
        List.drop_left' (List.length_map _), List.dropLast_concat]
    have hnat : (UInt32.ofNat c.body.length).toNat = c.body.length :=
      UInt32.toNat_ofNat'.trans (Nat.mod_eq_of_lt (by omega))
    rw [hword, harea, Bytes.toNat_word, hnat, List.take_length]

/-- Equal frames carry equal raw bytes, when these are recovered from both. -/
theorem body_eq_of_emit_eq {c' : Command} (h : c.BodySplitsBack) (h' : c'.BodySplitsBack)
    (hshape : c.shape = c'.shape) {garbage garbage' : Memory UInt8}
    (hemit : c.emit garbage = c'.emit garbage') : c.body = c'.body := by
  have hbody := h garbage
  rw [hemit, hshape, h' garbage'] at hbody
  exact hbody.symm

theorem bytes_injective : Function.Injective CString.bytes := by
  rintro ⟨l, hl⟩ ⟨l', hl'⟩ (rfl : l = l')
  rfl

/-- **Equal frames carry equal strings**, when the strings are recovered from both. -/
theorem text_eq_of_emit_eq {c' : Command} (h : c.SplitsBack) (h' : c'.SplitsBack)
    (hshape : c.shape = c'.shape) {garbage garbage' : Memory UInt8}
    (hemit : c.emit garbage = c'.emit garbage') : c.text = c'.text := by
  have hbytes := h garbage
  rw [hemit, hshape, h' garbage'] at hbytes
  exact (List.map_injective_iff.mpr bytes_injective hbytes).symm

end Command

end Teensquitto
