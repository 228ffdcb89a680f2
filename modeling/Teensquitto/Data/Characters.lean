import Mathlib.Data.UInt
import Mathlib.Tactic.Common
import Teensquitto.Data.Memory

/-!
# Functions on characters

The functions of the C library that read numbers and separators from the characters of a string,
its terminator left out.  `unsigned long` has 32 bits.

## Main definitions

* `Characters.strtoul`: the number a string begins with, to base ten
* `Characters.strpbrk`: the string from a separator on
* `Characters.strlcpy`: a copy that is cut off and terminated
* `Characters.Numeral`: the digits of a number

## Main results

* `Characters.strtoul_numeral`: a string that begins with a numeral
* `Characters.strpbrk_eq_none_iff`, `Characters.countP_of_strpbrk`: the separators that are left
-/

namespace Characters

/-- `isspace`. -/
def isSpace (c : UInt8) : Bool := c = 0x20 || (0x09 ≤ c && c ≤ 0x0D)

/-- `isdigit`. -/
def isDigit (c : UInt8) : Bool := 0x30 ≤ c && c ≤ 0x39

/-- The number that digits stand for. -/
def value (l : List UInt8) : ℕ := l.foldl (fun n c => 10 * n + (c.toNat - 0x30)) 0

/-- Take off a sign, and tell whether it was `-`. -/
def sign : List UInt8 → Bool × List UInt8
  | [] => (false, [])
  | c :: s => if c = 0x2D then (true, s) else if c = 0x2B then (false, s) else (false, c :: s)

/-- `strtoul(s, NULL, 10)`. -/
def strtoul (s : List UInt8) : UInt32 :=
  let (negative, s) := sign (s.dropWhile isSpace)
  let n := value (s.takeWhile isDigit)
  if 2 ^ 32 ≤ n then 0xFFFFFFFF
  else if negative then -UInt32.ofNat n else UInt32.ofNat n

/-- `strpbrk(s, accept)`; nothing stands for a null pointer. -/
def strpbrk (s accept : List UInt8) : Option (List UInt8) :=
  match s.dropWhile fun c => !accept.contains c with
  | [] => none
  | c :: t => some (c :: t)

/-- `strlcpy(dst, src, size)`. -/
def strlcpy (dst : Memory UInt8) (src : List UInt8) (size : ℕ) : Memory UInt8 :=
  if size = 0 then dst else dst.store 0 (src.take (size - 1) ++ [0])

/-- The digits of a number up to a bound. -/
structure Numeral (bound : ℕ) where
  digits : List UInt8
  ne_nil : digits ≠ []
  isDigit : ∀ c ∈ digits, isDigit c = true
  value_le : value digits ≤ bound

namespace Numeral

/-- The number. -/
def value {bound : ℕ} (n : Numeral bound) : ℕ := Characters.value n.digits

end Numeral

variable {s t accept : List UInt8} {c : UInt8}

theorem not_isSpace_of_isDigit (hc : isDigit c = true) : isSpace c = false := by
  simp only [isDigit, Bool.and_eq_true, decide_eq_true_eq, UInt8.le_iff_toNat_le] at hc
  simp only [isSpace, Bool.or_eq_false_iff, Bool.and_eq_false_iff, decide_eq_false_iff_not,
    UInt8.le_iff_toNat_le, ← UInt8.toNat_inj]
  have h30 : (0x30 : UInt8).toNat = 48 := rfl
  have h20 : (0x20 : UInt8).toNat = 32 := rfl
  have h0D : (0x0D : UInt8).toNat = 13 := rfl
  omega

theorem sign_of_isDigit (hc : isDigit c = true) (s : List UInt8) :
    sign (c :: s) = (false, c :: s) := by
  have hminus : c ≠ 0x2D := by
    rintro rfl
    exact absurd hc (by decide)
  have hplus : c ≠ 0x2B := by
    rintro rfl
    exact absurd hc (by decide)
  rw [sign, if_neg hminus, if_neg hplus]

/-- The digits come first, and what follows is not one. -/
theorem takeWhile_isDigit {l : List UInt8} (hl : ∀ c ∈ l, isDigit c = true)
    (hs : ∀ c ∈ s.head?, isDigit c = false) : (l ++ s).takeWhile isDigit = l := by
  rw [List.takeWhile_append_of_pos hl]
  cases s with
  | nil => rw [List.takeWhile_nil, List.append_nil]
  | cons c s =>
    rw [List.takeWhile_cons_of_neg (Bool.eq_false_iff.mp (hs c rfl)), List.append_nil]

/-- **A string that begins with a numeral** is read as the number. -/
theorem strtoul_numeral {bound : ℕ} (n : Numeral bound) (hbound : bound < 2 ^ 32)
    (hs : ∀ c ∈ s.head?, isDigit c = false) : (strtoul (n.digits ++ s)).toNat = n.value := by
  obtain ⟨c, l, hcons⟩ := List.exists_cons_of_ne_nil n.ne_nil
  have hc : isDigit c = true := n.isDigit c (by rw [hcons]; exact List.mem_cons_self)
  have hstart : sign ((n.digits ++ s).dropWhile isSpace) = (false, n.digits ++ s) := by
    rw [hcons, List.cons_append,
      List.dropWhile_cons_of_neg (Bool.eq_false_iff.mp (not_isSpace_of_isDigit hc)),
      sign_of_isDigit hc]
  have hlt : value n.digits < 2 ^ 32 := Nat.lt_of_le_of_lt n.value_le hbound
  rw [strtoul, hstart]
  simp only [takeWhile_isDigit n.isDigit hs]
  rw [if_neg (Nat.not_le.mpr hlt), if_neg Bool.false_ne_true]
  exact UInt32.toNat_ofNat_of_lt' hlt

/-! ## Separators -/

theorem strpbrk_cons_of_mem (hc : c ∈ accept) : strpbrk (c :: s) accept = some (c :: s) := by
  rw [strpbrk, List.dropWhile_cons_of_neg (by simpa using hc)]

theorem strpbrk_cons_of_notMem (hc : c ∉ accept) : strpbrk (c :: s) accept = strpbrk s accept := by
  rw [strpbrk, List.dropWhile_cons_of_pos (by simpa using hc), strpbrk]

theorem strpbrk_append {l : List UInt8} (hl : ∀ c ∈ l, c ∉ accept) (s : List UInt8) :
    strpbrk (l ++ s) accept = strpbrk s accept := by
  induction l with
  | nil => rfl
  | cons c l ih =>
    rw [List.forall_mem_cons] at hl
    rw [List.cons_append, strpbrk_cons_of_notMem hl.1, ih hl.2]

/-- No separator is found exactly when there is none. -/
theorem strpbrk_eq_none_iff : strpbrk s accept = none ↔ s.countP (accept.contains ·) = 0 := by
  induction s with
  | nil => exact iff_of_true rfl rfl
  | cons c s ih =>
    by_cases hc : c ∈ accept
    · rw [strpbrk_cons_of_mem hc, List.countP_cons_of_pos (by simpa using hc)]
      exact iff_of_false (Option.some_ne_none _) (Nat.succ_ne_zero _)
    · rw [strpbrk_cons_of_notMem hc, List.countP_cons_of_neg (by simpa using hc), ih]

/-- Behind the separator that is found there is one less. -/
theorem countP_of_strpbrk (h : strpbrk s accept = some t) :
    s.countP (accept.contains ·) = t.tail.countP (accept.contains ·) + 1 := by
  induction s with
  | nil => cases h
  | cons c s ih =>
    by_cases hc : c ∈ accept
    · rw [strpbrk_cons_of_mem hc, Option.some.injEq] at h
      rw [← h, List.countP_cons_of_pos (by simpa using hc), List.tail_cons]
    · rw [strpbrk_cons_of_notMem hc] at h
      rw [List.countP_cons_of_neg (by simpa using hc), ih h]

end Characters
