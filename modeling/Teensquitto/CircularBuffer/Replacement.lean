import Teensquitto.CircularBuffer.Refinement

/-!
# Replacing a message

`replace(buffer, length, pos1, pos2, pos3, pos4, pos5)` looks through the queue for a row that has
the bytes of `buffer` at the given positions, and writes `buffer` there.  The cases of its switch
fall through when they do not match.  It does not look at the stored lengths: a row keeps bytes of
older, longer messages.

## Main definitions

* `CircularBuffer.replace`: the operation
* `CircularBuffer.Keys`: the positions of a call, with `replaceBy`
* `CircularBuffer.ReplacesFirst`: the first message that agrees is replaced, and no other
* `CircularBuffer.RowAgrees`: a row has the bytes of `buffer`, as part of its message or not

## Main results

* `CircularBuffer.replaceBy_eq`: a call finds what its own case of the switch finds
* `CircularBuffer.replacesFirst_iff`: when the first message that agrees is replaced
-/

namespace CircularBuffer

variable {size multi : UInt16}

/-! ## The operation -/

/-- `buffer[pos]`; outside the block it is what `outside` gives. -/
def byteAt (outside : ℤ → UInt8) (buffer : List UInt8) (pos : ℤ) : UInt8 :=
  if 0 ≤ pos then (buffer[pos.toNat]?).getD (outside pos) else outside pos

/-- `_cabuf[(head + j) & (_size - 1)][pos + 2]`. -/
def cellAt (b : CircularBuffer size multi) (j : ℕ) (pos : ℤ) : UInt8 :=
  b.cabuf ((b.row (b.head + UInt16.ofNat j) : ℤ) + (pos + 2)).toNat

/-- The number of positions of a call, from the defaults of the last two. -/
def inputCount (pos4 pos5 : ℤ) : ℕ :=
  if pos5 ≠ -1 then 5 else if pos4 ≠ -1 then 4 else 3

/-- The switch on one row, `same` being the comparison at a position: a case that does not match
falls through to the next. -/
def switch (same : ℤ → Bool) (inputCount : ℕ) (pos1 pos2 pos3 pos4 pos5 : ℤ) : Bool :=
  -- the `break` of a case leaves the switch; without it the next case is run
  let case5 := same pos1 && same pos2 && same pos3 && same pos4 && same pos5
  let case4 := if same pos1 && same pos2 && same pos3 && same pos4 then true else case5
  let case3 := if same pos1 && same pos2 && same pos3 then true else case4
  match inputCount with
  | 3 => case3
  | 4 => case4
  | 5 => case5
  | _ => false

/-- `replace(buffer, length, pos1, pos2, pos3, pos4, pos5)`. -/
def replace (outside : ℤ → UInt8) (b : CircularBuffer size multi) (buffer : List UInt8)
    (pos1 pos2 pos3 pos4 pos5 : ℤ) : Bool × CircularBuffer size multi :=
  -- `found` breaks the loop at the first row whose cells match, as far as `_available`
  let found := (List.range b.available.toNat).find? fun j =>
    switch (fun pos => b.cellAt j pos == byteAt outside buffer pos) (inputCount pos4 pos5)
      pos1 pos2 pos3 pos4 pos5
  match found with
  | some j =>
    -- the row is written over without a look at the length of its old message
    (true, { b with cabuf := b.cabuf.store (b.row (b.head + UInt16.ofNat j)) (rowCells buffer) })
  | none => (false, b)

/-- The positions of a call: three, four or five. -/
inductive Keys
  | three (pos1 pos2 pos3 : ℕ)
  | four (pos1 pos2 pos3 pos4 : ℕ)
  | five (pos1 pos2 pos3 pos4 pos5 : ℕ)

/-- The positions as a list. -/
def Keys.positions : Keys → List ℕ
  | three pos1 pos2 pos3 => [pos1, pos2, pos3]
  | four pos1 pos2 pos3 pos4 => [pos1, pos2, pos3, pos4]
  | five pos1 pos2 pos3 pos4 pos5 => [pos1, pos2, pos3, pos4, pos5]

/-- The call with the positions: `pos4` and `pos5` have the default -1. -/
def replaceBy (outside : ℤ → UInt8) (b : CircularBuffer size multi) (buffer : List UInt8) :
    Keys → Bool × CircularBuffer size multi
  | .three pos1 pos2 pos3 => b.replace outside buffer pos1 pos2 pos3 (-1) (-1)
  | .four pos1 pos2 pos3 pos4 => b.replace outside buffer pos1 pos2 pos3 pos4 (-1)
  | .five pos1 pos2 pos3 pos4 pos5 => b.replace outside buffer pos1 pos2 pos3 pos4 pos5

/-! ## The purpose -/

/-- The message is long enough and has the bytes of `buffer` at the positions. -/
def Agrees (message buffer : List UInt8) (positions : List ℕ) : Prop :=
  ∀ p ∈ positions, p < message.length ∧ message[p]? = buffer[p]?

/-- The first message of the queue `l` that agrees is replaced, and no other: then `replace` returns
true; if there is none, it returns false and changes nothing. -/
structure ReplacesFirst (b : CircularBuffer size multi) (l : List (List UInt8))
    (buffer : List UInt8) (positions : List ℕ) (result : Bool × CircularBuffer size multi) :
    Prop where
  found : ∀ j m, l[j]? = some m → Agrees m buffer positions →
    (∀ i < j, ∀ m', l[i]? = some m' → ¬Agrees m' buffer positions) →
    result.1 = true ∧ result.2.Queue (l.set j buffer) ∧ result.2.head = b.head ∧
      result.2.tail = b.tail
  absent : (∀ m ∈ l, ¬Agrees m buffer positions) → result = (false, b)

/-- The row of the position `j` has the bytes of `buffer`, as part of its message or behind it. -/
def RowAgrees (b : CircularBuffer size multi) (buffer : List UInt8) (positions : List ℕ) (j : ℕ) :
    Prop :=
  ∀ p ∈ positions, some (b.cellAt j p) = buffer[p]?

instance (b : CircularBuffer size multi) (buffer : List UInt8) (positions : List ℕ) (j : ℕ) :
    Decidable (b.RowAgrees buffer positions j) :=
  inferInstanceAs (Decidable (∀ p ∈ positions, some (b.cellAt j p) = buffer[p]?))

/-- The first row that agrees, if any, agrees within its message. -/
def FirstCovered (b : CircularBuffer size multi) (l : List (List UInt8)) (buffer : List UInt8)
    (positions : List ℕ) : Prop :=
  ∀ j m, l[j]? = some m → b.RowAgrees buffer positions j →
    (∀ i < j, ¬b.RowAgrees buffer positions i) → ∀ p ∈ positions, p < m.length

/-! ## The switch -/

/-- A case that is tried after one it implies adds nothing. -/
theorem fall_through (a c : Bool) : (if a then true else a && c) = a := by
  cases a with
  | true => rfl
  | false => rfl

theorem switch_three (same : ℤ → Bool) (pos1 pos2 pos3 pos4 pos5 : ℤ) :
    switch same 3 pos1 pos2 pos3 pos4 pos5 = [pos1, pos2, pos3].all same := by
  simp only [switch, fall_through]
  simp only [List.all_cons, List.all_nil, Bool.and_true, Bool.and_assoc]

theorem switch_four (same : ℤ → Bool) (pos1 pos2 pos3 pos4 pos5 : ℤ) :
    switch same 4 pos1 pos2 pos3 pos4 pos5 = [pos1, pos2, pos3, pos4].all same := by
  simp only [switch, fall_through]
  simp only [List.all_cons, List.all_nil, Bool.and_true, Bool.and_assoc]

theorem switch_five (same : ℤ → Bool) (pos1 pos2 pos3 pos4 pos5 : ℤ) :
    switch same 5 pos1 pos2 pos3 pos4 pos5 = [pos1, pos2, pos3, pos4, pos5].all same := by
  simp only [switch, List.all_cons, List.all_nil, Bool.and_true, Bool.and_assoc]

/-- **The fall-through adds no match**: a call looks for a row that is the same at its positions. -/
theorem replaceBy_eq (outside : ℤ → UInt8) (b : CircularBuffer size multi) (buffer : List UInt8)
    (keys : Keys) :
    b.replaceBy outside buffer keys =
      match (List.range b.available.toNat).find? fun j =>
        keys.positions.all fun p => b.cellAt j p == byteAt outside buffer p with
      | some j =>
        (true, { b with
          cabuf := b.cabuf.store (b.row (b.head + UInt16.ofNat j)) (rowCells buffer) })
      | none => (false, b) := by
  cases keys with
  | three pos1 pos2 pos3 =>
    have hcount : inputCount (-1) (-1) = 3 := rfl
    simp only [replaceBy, replace, hcount, switch_three]
    rfl
  | four pos1 pos2 pos3 pos4 =>
    have hcount : inputCount pos4 (-1) = 4 := by
      rw [inputCount, if_neg (by decide), if_pos (by omega)]
    simp only [replaceBy, replace, hcount, switch_four]
    rfl
  | five pos1 pos2 pos3 pos4 pos5 =>
    have hcount : inputCount pos4 pos5 = 5 := by
      rw [inputCount, if_pos (by omega)]
    simp only [replaceBy, replace, hcount, switch_five]
    rfl

/-! ## The first row that agrees -/

section PowerOfTwo

variable {k : ℕ} (hk : size.toNat = 2 ^ k) {b : CircularBuffer size multi}
  {l : List (List UInt8)} {buffer : List UInt8} {positions : List ℕ} {keys : Keys}
  {outside : ℤ → UInt8}

theorem byteAt_of_lt (outside : ℤ → UInt8) {p : ℕ} (hp : p < buffer.length) :
    some (byteAt outside buffer p) = buffer[p]? := by
  rw [byteAt, if_pos (Int.natCast_nonneg p), Int.toNat_natCast, List.getElem?_eq_getElem hp]
  rfl

/-- The comparison of a call on one row. -/
theorem all_same_iff (hpositions : ∀ p ∈ positions, p < buffer.length) (j : ℕ) :
    (positions.all fun p => b.cellAt j p == byteAt outside buffer p) = true ↔
      b.RowAgrees buffer positions j := by
  rw [List.all_eq_true]
  refine forall_congr' fun p => imp_congr_right fun hp => ?_
  rw [beq_iff_eq, ← byteAt_of_lt outside (hpositions p hp), Option.some.injEq]

include hk

/-- A cell within a message is a byte of it. -/
theorem Queue.cellAt_eq (h : b.Queue l) {j p : ℕ} {m : List UInt8} (hm : l[j]? = some m)
    (hp : p < m.length) : some (b.cellAt j p) = m[p]? := by
  have hbytes := (h.rows j m hm).2.bytes
  have hcell := Memory.getElem_load b.cabuf
    ((b.head.toNat + j) % size.toNat * (multi.toNat + 2) + 2) m.length p
    (by rwa [Memory.length_load])
  simp only [hbytes] at hcell
  have hindex : ((b.row (b.head + UInt16.ofNat j) : ℤ) + ((p : ℤ) + 2)).toNat =
      (b.head.toNat + j) % size.toNat * (multi.toNat + 2) + 2 + p := by
    rw [row_head_add hk]
    omega
  rw [cellAt, hindex, List.getElem?_eq_getElem hp, hcell]

/-- A message that agrees lies in a row that does. -/
theorem Queue.rowAgrees (h : b.Queue l) {j : ℕ} {m : List UInt8} (hm : l[j]? = some m)
    (hagrees : Agrees m buffer positions) : b.RowAgrees buffer positions j := by
  intro p hp
  obtain ⟨hlt, hbyte⟩ := hagrees p hp
  exact (h.cellAt_eq hk hm hlt).trans hbyte

/-- A row that agrees within its message holds a message that does. -/
theorem Queue.agrees (h : b.Queue l) {j : ℕ} {m : List UInt8} (hm : l[j]? = some m)
    (hagrees : b.RowAgrees buffer positions j) (hcovered : ∀ p ∈ positions, p < m.length) :
    Agrees m buffer positions := by
  intro p hp
  exact ⟨hcovered p hp, (h.cellAt_eq hk hm (hcovered p hp)).symm.trans (hagrees p hp)⟩

/-- A message written over that of a row. -/
theorem Queue.store (h : b.Queue l) (hbuffer : buffer.length ≤ multi.toNat) {j : ℕ}
    (hj : j < l.length) :
    ({ b with cabuf := b.cabuf.store (b.row (b.head + UInt16.ofNat j)) (rowCells buffer) } :
      CircularBuffer size multi).Queue (l.set j buffer) := by
  have hle := h.length_le
  refine ⟨?_, ?_, ?_⟩
  · rwa [List.length_set]
  · rw [List.length_set]
    exact h.available_eq
  · intro i m hi
    rw [row_head_add hk]
    -- the message of the row itself, and those of the other rows
    rw [List.getElem?_set] at hi
    split at hi
    · next heq =>
      obtain rfl : buffer = m := by simpa [hj] using hi
      rw [← heq]
      exact ⟨hbuffer, holds_store _ _ _⟩
    · next hne =>
      obtain ⟨hm, hholds⟩ := h.rows i m hi
      have hi' := (List.getElem?_eq_some_iff.mp hi).1
      exact ⟨hm, hholds.store hm (length_rowCells_le hbuffer)
        (add_mod_ne_add_mod (by omega) (by omega) (Ne.symm hne))⟩

omit hk in
/-- The first message that agrees, when one does. -/
theorem exists_first (h : ∃ m ∈ l, Agrees m buffer positions) :
    ∃ (j : ℕ) (m : List UInt8), l[j]? = some m ∧ Agrees m buffer positions ∧
      ∀ i < j, ∀ m', l[i]? = some m' → ¬Agrees m' buffer positions := by
  classical
  obtain ⟨m, hmem, hagrees⟩ := h
  obtain ⟨i, hi⟩ := List.mem_iff_getElem?.mp hmem
  have hexists : ∃ j, ∃ m, l[j]? = some m ∧ Agrees m buffer positions := ⟨i, m, hi, hagrees⟩
  obtain ⟨m', hm', hagrees'⟩ := Nat.find_spec hexists
  exact ⟨Nat.find hexists, m', hm', hagrees', fun j hj m₁ hm₁ hagrees₁ =>
    Nat.find_min hexists hj ⟨m₁, hm₁, hagrees₁⟩⟩

omit hk in
/-- What a call does, by the first row that agrees. -/
theorem replaceBy_cases (outside : ℤ → UInt8) (h : b.Queue l)
    (hpositions : ∀ p ∈ keys.positions, p < buffer.length) :
    (∃ j < l.length, b.RowAgrees buffer keys.positions j ∧
      (∀ i < j, ¬b.RowAgrees buffer keys.positions i) ∧
      b.replaceBy outside buffer keys = (true, { b with
        cabuf := b.cabuf.store (b.row (b.head + UInt16.ofNat j)) (rowCells buffer) })) ∨
    (∀ j < l.length, ¬b.RowAgrees buffer keys.positions j) ∧
      b.replaceBy outside buffer keys = (false, b) := by
  rw [replaceBy_eq, h.available_eq]
  cases hfind : (List.range l.length).find? fun j =>
      keys.positions.all fun p => b.cellAt j p == byteAt outside buffer p with
  | some j =>
    -- the loop stops at the first row that is the same at the positions
    rw [List.find?_range_eq_some] at hfind
    obtain ⟨hj, hmem, hbefore⟩ := hfind
    refine Or.inl ⟨j, List.mem_range.mp hmem, (all_same_iff hpositions j).mp hj,
      fun i hi hagrees => ?_, rfl⟩
    have hnot := hbefore i hi
    rw [(all_same_iff hpositions i).mpr hagrees] at hnot
    cases hnot
  | none =>
    rw [List.find?_eq_none] at hfind
    refine Or.inr ⟨fun j hj hagrees => ?_, rfl⟩
    exact hfind j (List.mem_range.mpr hj) ((all_same_iff hpositions j).mpr hagrees)

/-- **`replace` replaces the first message that agrees, and no other**, exactly when the first row
that agrees, if there is one, agrees within its message. -/
theorem replacesFirst_iff (outside : ℤ → UInt8) (h : b.Queue l)
    (hbuffer : buffer.length ≤ multi.toNat) (hkeys : ∀ p ∈ keys.positions, p < buffer.length) :
    b.ReplacesFirst l buffer keys.positions (b.replaceBy outside buffer keys) ↔
      b.FirstCovered l buffer keys.positions := by
  constructor
  · intro hreplaces j m hm hrow hbefore p hp
    by_contra hshort
    have hj := (List.getElem?_eq_some_iff.mp hm).1
    have hnot : ¬Agrees m buffer keys.positions := fun hagrees => hshort (hagrees p hp).1
    -- the row is written, whether or not a message agrees
    rcases replaceBy_cases outside h hkeys with
      ⟨j', hj', hrow', hbefore', hresult⟩ | ⟨hnone, -⟩
    swap
    · exact hnone j hj hrow
    obtain rfl : j = j' := by
      rcases Nat.lt_trichotomy j j' with hlt | heq | hgt
      · exact absurd hrow (hbefore' j hlt)
      · exact heq
      · exact absurd hrow' (hbefore j' hgt)
    by_cases hsome : ∃ m' ∈ l, Agrees m' buffer keys.positions
    · obtain ⟨i, m', hm', hagrees, hfirst⟩ := exists_first hsome
      have hij : i ≠ j := by
        rintro rfl
        exact hnot (Option.some.inj (hm.symm.trans hm') ▸ hagrees)
      -- the claimed queue has the old message in the row that was written
      have hqueue := (hreplaces.found i m' hm' hagrees hfirst).2.1
      rw [hresult] at hqueue
      have hold := (hqueue.rows j m (by rw [List.getElem?_set_ne hij]; exact hm)).2
      have hnew := ((h.store hk hbuffer hj).rows j buffer (List.getElem?_set_self hj)).2
      have hlength := (Represents.rowLength_eq hold (h.rows j m hm).1).symm.trans
        (Represents.rowLength_eq hnew hbuffer)
      have := hkeys p hp
      omega
    · have habsent := hreplaces.absent fun m' hm' hagrees => hsome ⟨m', hm', hagrees⟩
      rw [hresult] at habsent
      cases congrArg Prod.fst habsent
  · -- a covered match is the match of a message, and no earlier message agrees
    intro hcovered
    rcases replaceBy_cases outside h hkeys with
      ⟨j, hj, hrow, hbefore, hresult⟩ | ⟨hnone, hresult⟩
    · have hm : l[j]? = some l[j] := List.getElem?_eq_getElem hj
      have hagrees := h.agrees hk hm hrow (hcovered j l[j] hm hrow hbefore)
      rw [hresult]
      constructor
      · intro i m hmi hagreesi hfirst
        obtain rfl : i = j := by
          rcases Nat.lt_trichotomy i j with hlt | heq | hgt
          · exact absurd (h.rowAgrees hk hmi hagreesi) (hbefore i hlt)
          · exact heq
          · exact absurd hagrees (hfirst j hgt _ hm)
        exact ⟨rfl, h.store hk hbuffer hj, rfl, rfl⟩
      · intro habsent
        exact absurd hagrees (habsent _ (List.getElem_mem hj))
    · rw [hresult]
      constructor
      · intro i m hmi hagreesi _
        exact absurd (h.rowAgrees hk hmi hagreesi) (hnone i (List.getElem?_eq_some_iff.mp hmi).1)
      · intro _
        rfl

end PowerOfTwo

/-- The second of two messages is replaced. -/
theorem replacesFirst_iff_second :
    (run [.pushBack [1, 2, 3], .pushBack [4, 5, 6]]
      (create (fun _ => 0) fun _ => 0) : CircularBuffer 4 8).ReplacesFirst [[1, 2, 3], [4, 5, 6]]
      [4, 9, 6, 7] (Keys.three 0 2 2).positions
      ((run [.pushBack [1, 2, 3], .pushBack [4, 5, 6]]
        (create (fun _ => 0) fun _ => 0) : CircularBuffer 4 8).replaceBy (fun _ => 0)
        [4, 9, 6, 7] (.three 0 2 2)) := by
  have hnew : (create (fun _ => 0) fun _ => 0 : CircularBuffer 4 8).Represents
      BoundedDeque.empty := represents_create (k := 2) (by rfl) _ _
  have hqueue := (represents_run (k := 2) (by rfl) hnew
    [.pushBack [1, 2, 3], .pushBack [4, 5, 6]] (by decide)).queue
  refine (replacesFirst_iff (k := 2) (by rfl) (fun _ => 0) hqueue (by decide) (by decide)).mpr ?_
  intro j m hm hrow _ p hp
  have hp' : p < 3 := by
    revert p
    decide
  match j with
  | 0 => exact absurd hrow (by decide)
  | 1 =>
    cases hm
    exact hp'

/-- A message of one byte over the rest of an older one is replaced, though it is too short. -/
theorem short_message_replaced :
    ¬∀ (size multi : UInt16) (k : ℕ), size.toNat = 2 ^ k → 0 < multi →
      ∀ (outside : ℤ → UInt8) (b : CircularBuffer size multi) (l : List (List UInt8)), b.Queue l →
        ∀ (buffer : List UInt8) (keys : Keys), buffer.length ≤ multi.toNat →
          (∀ p ∈ keys.positions, p < buffer.length) →
          b.ReplacesFirst l buffer keys.positions (b.replaceBy outside buffer keys) := by
  intro hall
  have hnew : (create (fun _ => 0) fun _ => 0 : CircularBuffer 16 300).Represents
      BoundedDeque.empty := represents_create sixteen_eq _ _
  have hqueue := (represents_run sixteen_eq hnew
    [.pushBack [7, 8, 9], .clear, .pushBack [1]] (by decide)).queue
  have hreplaces := hall 16 300 4 (by rfl) (by decide) (fun _ => 0) _ _ hqueue [1, 8, 9]
    (.three 0 1 2) (by decide) (by decide)
  have habsent := hreplaces.absent (by
    intro m hm hagrees
    obtain rfl := List.mem_singleton.mp hm
    exact absurd (hagrees 1 (by decide)).1 (by decide))
  exact absurd (congrArg Prod.fst habsent) (by decide)

end CircularBuffer
