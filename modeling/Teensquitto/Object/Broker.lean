import Teensquitto.Data.Characters
import Teensquitto.Wire.Command

/-!
# The address of the broker

The constructor with five arguments reads the address of the broker from a string.  One loop copies
the characters up to the colon into `char_ip`, without regard to its sixteen bytes; a second one
reads five numbers, and moves past the separator that `strpbrk` found without asking whether it
found one.

## Main definitions

* `Broker`: the members that the constructor sets
* `Broker.construct`: the constructor
* `Broker.Address`: the addresses in decimal form
* `Broker.Parsed`: an address is parsed and every other string does no harm

## Main results

* `Broker.copyAddress_isOk_iff`, `Broker.fields_isOk_iff`: when each of the loops does no harm
* `Broker.parsed_iff`: when the constructor parses a string
-/

namespace Teensquitto

open Characters (strtoul strpbrk strlcpy isDigit Numeral)

/-- The members the constructor sets. -/
structure Broker where
  mqttSupport : UInt8
  localClientId : Memory UInt8
  mqttUser : Memory UInt8
  mqttPass : Memory UInt8
  charIp : Memory UInt8
  mqttIp : Memory UInt8
  mqttPort : UInt16

namespace Broker

/-- What the source does not guard against. -/
inductive Fault
  /-- A write behind the last byte of `char_ip`. -/
  | outside
  /-- A use of the null pointer that `strpbrk` returned. -/
  | nullPointer
  deriving DecidableEq

/-- `char_ip` has sixteen bytes. -/
def charIpSize : ℕ := 16

/-- The colon. -/
def colon : UInt8 := 0x3A

/-- The period. -/
def period : UInt8 := 0x2E

/-- `":."`. -/
def separators : List UInt8 := [colon, period]

/-- The first loop, from position `i` on. -/
def copyAddress : ℕ → List UInt8 → Memory UInt8 → Except Fault (Memory UInt8)
  | _, [], charIp => pure charIp
  | i, c :: s, charIp =>
    if charIpSize ≤ i then throw .outside
    else
      let charIp := charIp.set i c
      if c = colon then pure (charIp.set i 0) else copyAddress (i + 1) s charIp

/-- A turn of the second loop: the rest of the string, and the members behind it. -/
def field (b : Broker) (address : List UInt8) (i : ℕ) : Except Fault (List UInt8 × Broker) :=
  if i < 4 then
    let b := { b with mqttIp := b.mqttIp.set i (strtoul address).toUInt8 }
    match strpbrk address separators with
    -- `connect_address++` moves the null pointer, and the next turn reads there
    | none => throw .nullPointer
    | some address => pure (address.tail, b)
  else pure (address.tail, { b with mqttPort := (strtoul address).toUInt16 })

/-- The second loop, with `n` turns left from `i` on. -/
def fields (b : Broker) (address : List UInt8) : ℕ → ℕ → Except Fault Broker
  | 0, _ => pure b
  | n + 1, i => do
    let (address, b) ← b.field address i
    b.fields address n (i + 1)

/-- The first statements of the constructor. -/
def named (b : Broker) (localName mqttuser mqttpass : CString) : Broker :=
  { b with
    mqttSupport := 1
    localClientId := strlcpy b.localClientId localName.bytes 32
    mqttUser := strlcpy b.mqttUser mqttuser.bytes 32
    mqttPass := strlcpy b.mqttPass mqttpass.bytes 32 }

/-- `teensquitto(localName, UART, connect_address, mqttuser, mqttpass)`. -/
def construct (b : Broker) (localName connectAddress mqttuser mqttpass : CString) :
    Except Fault Broker := do
  let b := b.named localName mqttuser mqttpass
  let charIp ← copyAddress 0 connectAddress.bytes b.charIp
  fields { b with charIp := charIp } connectAddress.bytes 5 0

/-- An address in decimal form. -/
structure Address where
  (a b c d : Numeral 255)
  port : Numeral 65535

namespace Address

/-- The octets. -/
def octets (x : Address) : List (Numeral 255) := [x.a, x.b, x.c, x.d]

/-- The text up to the colon. -/
def host (x : Address) : List UInt8 :=
  x.a.digits ++ period :: (x.b.digits ++ period :: (x.c.digits ++ period :: x.d.digits))

/-- The whole text. -/
def text (x : Address) : List UInt8 := x.host ++ colon :: x.port.digits

end Address

/-- The members hold the address. -/
structure Holds (b : Broker) (x : Address) : Prop where
  ip_eq : (b.mqttIp.load 0 4).map UInt8.toNat = x.octets.map Numeral.value
  port_eq : b.mqttPort.toNat = x.port.value
  charIp_eq : b.charIp.load 0 (x.host.length + 1) = x.host ++ [0]
  length_le : x.host.length + 1 ≤ charIpSize

/-- An address is parsed, and every other string does no harm. -/
structure Parsed (b : Broker) (localName connectAddress mqttuser mqttpass : CString) : Prop where
  address : ∀ x : Address, connectAddress.bytes = x.text →
    ∃ b', b.construct localName connectAddress mqttuser mqttpass = .ok b' ∧ b'.Holds x
  other : (∀ x : Address, connectAddress.bytes ≠ x.text) →
    ∃ b', b.construct localName connectAddress mqttuser mqttpass = .ok b'

/-- The characters up to the first colon, with it, fit into `char_ip`. -/
def Fits (s : List UInt8) : Prop := s.length ≤ charIpSize ∨ colon ∈ s.take charIpSize

/-- There are separators for the four octets. -/
def Separated (s : List UInt8) : Prop := 4 ≤ s.countP (separators.contains ·)

instance (s : List UInt8) : Decidable (Fits s) := inferInstanceAs (Decidable (_ ∨ _))

instance (s : List UInt8) : Decidable (Separated s) := inferInstanceAs (Decidable (_ ≤ _))

/-! ## The first loop -/

section Copy

variable {s : List UInt8} {i : ℕ}

/-- **The copy stays within `char_ip`** exactly when the string ends there or has its colon
there. -/
theorem copyAddress_isOk_iff (hi : i ≤ charIpSize) (charIp : Memory UInt8) :
    (∃ m, copyAddress i s charIp = .ok m) ↔
      i + s.length ≤ charIpSize ∨ colon ∈ s.take (charIpSize - i) := by
  -- Induction on the string, each character one position further.
  induction s generalizing i charIp with
  | nil => exact iff_of_true ⟨charIp, rfl⟩ (Or.inl hi)
  | cons c s ih =>
    rw [copyAddress, List.length_cons]
    rcases Nat.lt_or_eq_of_le hi with hlt | rfl
    · obtain ⟨n, hn⟩ : ∃ n, charIpSize - i = n + 1 := ⟨charIpSize - (i + 1), by omega⟩
      rw [if_neg (Nat.not_le.mpr hlt), hn, List.take_succ_cons, List.mem_cons]
      by_cases hc : c = colon
      · rw [if_pos hc]
        exact iff_of_true ⟨_, rfl⟩ (Or.inr (Or.inl hc.symm))
      · have hn' : charIpSize - (i + 1) = n := by omega
        rw [if_neg hc, ih hlt, hn', or_iff_right (Ne.symm hc), Nat.succ_add_eq_add_succ]
    · rw [if_pos (Nat.le_refl _), Nat.sub_self, List.take_zero]
      refine iff_of_false ?_ ?_
      · rintro ⟨m, hm⟩
        cases hm
      · rintro (hle | hmem)
        · omega
        · cases hmem

/-- The characters before the colon are copied, and terminated. -/
theorem copyAddress_of_colon (hs : colon ∉ s) (hlt : i + s.length < charIpSize)
    (charIp : Memory UInt8) (rest : List UInt8) :
    copyAddress i (s ++ colon :: rest) charIp = .ok (charIp.store i (s ++ [0])) := by
  induction s generalizing i charIp with
  | nil =>
    have hi : ¬charIpSize ≤ i := Nat.not_le.mpr hlt
    rw [List.nil_append, copyAddress, if_neg hi, if_pos rfl, Memory.set_set]
    rfl
  | cons c s ih =>
    rw [List.mem_cons, not_or] at hs
    rw [List.length_cons] at hlt
    rw [List.cons_append, copyAddress, if_neg (by omega), if_neg (Ne.symm hs.1),
      ih hs.2 (by omega), Memory.store_set, List.cons_append]

end Copy

/-! ## The second loop -/

section Fields

variable {s : List UInt8} {b : Broker}

/-- A turn that finds the separator behind its octet. -/
theorem fields_of_lt {n i : ℕ} (hi : i < 4) {t : List UInt8}
    (ht : strpbrk s separators = some t) :
    b.fields s (n + 1) i =
      fields { b with mqttIp := b.mqttIp.set i (strtoul s).toUInt8 } t.tail n (i + 1) := by
  rw [fields, field, if_pos hi, ht]
  rfl

/-- **The second loop meets no null pointer** exactly when there is a separator for each octet. -/
theorem fields_isOk_iff {n i : ℕ} (hn : i + n = 5) :
    (∃ b', b.fields s n i = .ok b') ↔ 4 - i ≤ s.countP (separators.contains ·) := by
  -- Induction on the turns that are left.
  induction n generalizing i s b with
  | zero => exact iff_of_true ⟨b, rfl⟩ (by omega)
  | succ n ih =>
    by_cases hi : i < 4
    · cases hnext : strpbrk s separators with
      | none =>
        rw [Characters.strpbrk_eq_none_iff.mp hnext]
        refine iff_of_false ?_ (by omega)
        rintro ⟨b', hb'⟩
        rw [fields, field, if_pos hi, hnext] at hb'
        cases hb'
      | some t =>
        rw [fields_of_lt hi hnext, ih (by omega), Characters.countP_of_strpbrk hnext]
        omega
    · obtain rfl : i = 4 := by omega
      obtain rfl : n = 0 := by omega
      exact iff_of_true ⟨_, rfl⟩ (Nat.zero_le _)

end Fields

/-! ## Addresses -/

section Numerals

variable {bound : ℕ} {s : List UInt8} {c : UInt8}

theorem notMem_separators (n : Numeral bound) {c : UInt8} (hc : c ∈ n.digits) :
    c ∉ separators := by
  intro hmem
  have hdigit := n.isDigit c hc
  rw [separators, List.mem_cons, List.mem_singleton] at hmem
  rcases hmem with rfl | rfl
  · exact absurd hdigit (by decide)
  · exact absurd hdigit (by decide)

theorem head_not_isDigit (hc : c ∈ separators) : ∀ d ∈ (c :: s).head?, isDigit d = false := by
  intro d hd
  obtain rfl : c = d := by simpa using hd
  rw [separators, List.mem_cons, List.mem_singleton] at hc
  rcases hc with rfl | rfl
  · decide
  · decide

theorem strpbrk_numeral (n : Numeral bound) (hc : c ∈ separators) :
    strpbrk (n.digits ++ c :: s) separators = some (c :: s) := by
  rw [Characters.strpbrk_append fun _ => notMem_separators n, Characters.strpbrk_cons_of_mem hc]

/-- A turn that reads an octet. -/
theorem fields_octet (b : Broker) (n : Numeral 255) {k i : ℕ} (hi : i < 4)
    (hc : c ∈ separators) : b.fields (n.digits ++ c :: s) (k + 1) i =
      fields { b with mqttIp := b.mqttIp.set i (UInt8.ofNat n.value) } s k (i + 1) := by
  have hvalue := Characters.strtoul_numeral n (by decide) (head_not_isDigit (s := s) hc)
  have hoctet : (strtoul (n.digits ++ c :: s)).toUInt8 = UInt8.ofNat n.value := by
    rw [← UInt8.toNat_inj, UInt32.toNat_toUInt8, hvalue, UInt8.toNat_ofNat']
  rw [fields_of_lt hi (strpbrk_numeral n hc), hoctet, List.tail_cons]

/-- The turn that reads the port. -/
theorem fields_port (b : Broker) (n : Numeral 65535) :
    b.fields n.digits 1 4 = .ok { b with mqttPort := UInt16.ofNat n.value } := by
  have hvalue := Characters.strtoul_numeral (s := []) n (by decide) (by simp)
  rw [List.append_nil] at hvalue
  have hport : (strtoul n.digits).toUInt16 = UInt16.ofNat n.value := by
    rw [← UInt16.toNat_inj, UInt32.toNat_toUInt16, hvalue, UInt16.toNat_ofNat']
  rw [fields, field, if_neg (Nat.lt_irrefl 4), hport]
  rfl

end Numerals

namespace Address

variable (x : Address)

theorem colon_notMem_host : colon ∉ x.host := by
  have hdigits (n : Numeral 255) : colon ∉ n.digits := by
    intro hmem
    exact notMem_separators n hmem (by decide)
  have hperiod : colon ≠ period := by decide
  simp [host, hdigits, hperiod]

theorem text_eq :
    x.text = x.a.digits ++ period :: (x.b.digits ++ period :: (x.c.digits ++ period ::
      (x.d.digits ++ colon :: x.port.digits))) := by
  simp only [text, host, List.append_assoc, List.cons_append]

/-- The five turns of the second loop. -/
theorem fields_text (b : Broker) :
    b.fields x.text 5 0 = .ok { b with
      mqttIp := b.mqttIp.store 0 (x.octets.map fun n => UInt8.ofNat n.value)
      mqttPort := UInt16.ofNat x.port.value } := by
  have hperiod : period ∈ separators := by decide
  have hcolon : colon ∈ separators := by decide
  have hstore (a b' c d : UInt8) :
      (((b.mqttIp.set 0 a).set 1 b').set 2 c).set 3 d = b.mqttIp.store 0 [a, b', c, d] := by
    exact (Memory.store_set _ 2 c [d]).trans <| (Memory.store_set _ 1 b' [c, d]).trans <|
      Memory.store_set _ 0 a [b', c, d]
  rw [text_eq, fields_octet b x.a (by omega) hperiod, fields_octet _ x.b (by omega) hperiod,
    fields_octet _ x.c (by omega) hperiod, fields_octet _ x.d (by omega) hcolon, fields_port]
  simp only [hstore]
  rfl

/-- The text of an address has its four separators. -/
theorem separated_text : Separated x.text := by
  obtain ⟨b', hb'⟩ : ∃ b', fields ⟨0, .fill 0, .fill 0, .fill 0, .fill 0, .fill 0, 0⟩ x.text 5 0 =
      .ok b' := ⟨_, fields_text x _⟩
  exact (fields_isOk_iff rfl).mp ⟨b', hb'⟩

/-- The text of an address fits when its octets and their periods leave a byte for the
terminator. -/
theorem fits_text_iff : Fits x.text ↔ x.host.length < charIpSize := by
  constructor
  · rintro (hle | hmem)
    · rw [text, List.length_append, List.length_cons] at hle
      omega
    · by_contra hge
      rw [text, List.take_append_of_le_length (Nat.not_lt.mp hge)] at hmem
      exact colon_notMem_host x (List.mem_of_mem_take hmem)
  · intro hlt
    right
    rw [text, List.take_append, List.mem_append]
    obtain ⟨n, hn⟩ : ∃ n, charIpSize - x.host.length = n + 1 :=
      ⟨charIpSize - x.host.length - 1, by omega⟩
    rw [hn, List.take_succ_cons]
    exact Or.inr List.mem_cons_self

/-- Octets of at most three digits fit. -/
theorem fits_text (h : ∀ n ∈ x.octets, n.digits.length ≤ 3) : Fits x.text := by
  have ha := h x.a (by simp [octets])
  have hb := h x.b (by simp [octets])
  have hc := h x.c (by simp [octets])
  have hd := h x.d (by simp [octets])
  rw [fits_text_iff, host]
  simp only [List.length_append, List.length_cons, charIpSize]
  omega

end Address

/-! ## The constructor -/

section Construct

variable (b : Broker) (localName connectAddress mqttuser mqttpass : CString)

/-- **The constructor does no harm** exactly when neither of its loops does. -/
theorem construct_isOk_iff :
    (∃ b', b.construct localName connectAddress mqttuser mqttpass = .ok b') ↔
      Fits connectAddress.bytes ∧ Separated connectAddress.bytes := by
  have hcopy := copyAddress_isOk_iff (s := connectAddress.bytes) (Nat.zero_le charIpSize) b.charIp
  rw [Nat.zero_add, Nat.sub_zero] at hcopy
  rw [Fits, ← hcopy]
  cases hresult : copyAddress 0 connectAddress.bytes b.charIp with
  | error e =>
    refine iff_of_false ?_ ?_
    · rintro ⟨b', hb'⟩
      simp [construct, named, hresult, bind, Except.bind] at hb'
    · rintro ⟨⟨m, hm⟩, -⟩
      cases hm
  | ok m =>
    rw [and_iff_right ⟨m, rfl⟩, Separated, ← fields_isOk_iff (n := 5) (i := 0)
      (b := { b.named localName mqttuser mqttpass with charIp := m }) rfl]
    simp only [construct, hresult, bind, Except.bind, named]

/-- An address that fits is parsed. -/
theorem construct_address (x : Address) (htext : connectAddress.bytes = x.text)
    (hlt : x.host.length < charIpSize) :
    ∃ b', b.construct localName connectAddress mqttuser mqttpass = .ok b' ∧ b'.Holds x := by
  have hcopy := copyAddress_of_colon (i := 0) x.colon_notMem_host (by rwa [Nat.zero_add]) b.charIp
    x.port.digits
  rw [← Address.text] at hcopy
  refine ⟨{ b.named localName mqttuser mqttpass with
    charIp := b.charIp.store 0 (x.host ++ [0])
    mqttIp := b.mqttIp.store 0 (x.octets.map fun n => UInt8.ofNat n.value)
    mqttPort := UInt16.ofNat x.port.value }, ?_, ?_, ?_, ?_, hlt⟩
  · simp only [construct, htext, hcopy, bind, Except.bind, Address.fields_text, named]
  · have hload := b.mqttIp.load_store 0 (x.octets.map fun n => UInt8.ofNat n.value)
    rw [List.length_map] at hload
    have hvalue (n : Numeral 255) : (UInt8.ofNat n.value).toNat = n.value :=
      UInt8.toNat_ofNat_of_lt' (Nat.lt_succ_of_le n.value_le)
    refine (congrArg _ hload).trans ?_
    rw [List.map_map]
    exact List.map_congr_left fun n _ => hvalue n
  · exact UInt16.toNat_ofNat_of_lt' (Nat.lt_succ_of_le x.port.value_le)
  · have hload := b.charIp.load_store 0 (x.host ++ [0])
    rwa [List.length_append, List.length_singleton] at hload

/-- **The constructor parses a string** exactly when its first colon, or its end, lies within
`char_ip` and it has a separator for each octet. -/
theorem parsed_iff :
    b.Parsed localName connectAddress mqttuser mqttpass ↔
      Fits connectAddress.bytes ∧ Separated connectAddress.bytes := by
  rw [← construct_isOk_iff b localName connectAddress mqttuser mqttpass]
  constructor
  · intro h
    by_cases hform : ∃ x : Address, connectAddress.bytes = x.text
    · obtain ⟨x, hx⟩ := hform
      obtain ⟨b', hb', -⟩ := h.address x hx
      exact ⟨b', hb'⟩
    · exact h.other fun x hx => hform ⟨x, hx⟩
  · intro hok
    refine ⟨fun x hx => ?_, fun _ => hok⟩
    have hfits := (construct_isOk_iff b localName connectAddress mqttuser mqttpass).mp hok
    rw [hx] at hfits
    exact construct_address b localName connectAddress mqttuser mqttpass x hx
      (x.fits_text_iff.mp hfits.1)

end Construct

/-- An address without a port: the fourth separator is missing. -/
theorem missing_port_not_parsed :
    ¬∀ (b : Broker) (localName connectAddress mqttuser mqttpass : CString),
      b.Parsed localName connectAddress mqttuser mqttpass := by
  intro hall
  -- "1.2.3.4"
  have hparsed := hall ⟨0, .fill 0, .fill 0, .fill 0, .fill 0, .fill 0, 0⟩ .empty
    ⟨[0x31, 0x2E, 0x32, 0x2E, 0x33, 0x2E, 0x34], by decide⟩ .empty .empty
  have hother : ∀ x : Address, [0x31, 0x2E, 0x32, 0x2E, 0x33, 0x2E, 0x34] ≠ x.text := by
    intro x hx
    have hcolon : colon ∈ x.text := by simp [Address.text]
    rw [← hx] at hcolon
    exact absurd hcolon (by decide)
  obtain ⟨b', hb'⟩ := hparsed.other hother
  cases hb'

end Broker

end Teensquitto
