import Teensquitto.Receiver.Schedule

/-!
# Packets on a timely port

Over a timely schedule every byte of a packet is received before a limit is reached, so a
packet at the front of the stream is received whole and the stream behind it is left.

## Main definitions

* `Receiving`: the invariant of the loop that receives the bytes of a packet
* `commandBytes`: the bytes of a command packet
* `Closed`: a payload whose last byte is the checksum of the others

## Main results

* `returns_byteLoop`: the loop takes exactly the bytes of the packet
* `returns_commandPacket`, `returns_acknowledgement`: the two kinds of packets
-/

namespace Teensquitto

/-- A loop whose rounds read the clock or the port. -/
theorem returns_loop {β γ : Type} {body : β → Prog (β ⊕ γ)} {Q : γ → World → Prop}
    (Inv : β → World → Prop)
    (hbody : ∀ b s, Inv b s → (body b).Returns s fun r s' =>
      r.elim (fun b' => Inv b' s' ∧ s'.ticks.length < s.ticks.length) (Q · s'))
    {b : β} {s : World} (h : Inv b s) : (loop body b).Returns s Q := by
  unfold loop
  rw [EStateM.Returns, EStateM.ends_bind, EStateM.ends_get]
  exact EStateM.Ends.iterate_of_lt hbody h (Nat.lt_succ_self _)

variable {sched : List Tick}

/-! ## The header -/

/-- The wait for the header ends with its three bytes in the port. -/
theorem returns_headerWait {bytes rx : List UInt8} {ticks : List Tick} {k n c : ℕ} {w : World}
    (hprompt : Prompt k sched) (hd : Delivers sched bytes [] rx ticks (n + 2)) (hrx : rx ≠ [])
    (hlen : bytes.length = k + 3) (hk : 0 < k) :
    (headerWait (UInt32.ofNat c)).Returns (w.withPort c ticks rx) fun _ s =>
      ∃ c' window ts r, s = w.withPort c' ts r ∧ Delivers sched bytes window r ts n ∧
        3 ≤ r.length := by
  let Inv : Unit → World → Prop := fun _ s => ∃ window ts r,
    s = w.withPort (c + elapsed window) ts r ∧ Delivers sched bytes window r ts (n + 2) ∧
      (arrivals window).length < r.length
  have hstart : Inv () (w.withPort c ticks rx) :=
    ⟨[], ticks, rx, rfl, hd, List.length_pos_iff.mpr hrx⟩
  refine returns_loop Inv ?_ hstart
  rintro ⟨⟩ s ⟨window, ts, r, rfl, hd, hlow⟩
  rw [EStateM.Returns, EStateM.ends_bind]
  refine returns_millis hd fun t ts₁ hts hd₁ => ?_
  subst hts
  rw [Nat.add_assoc, ← elapsed_snoc, EStateM.ends_ite]
  split
  · rw [EStateM.ends_bind]
    refine returns_available hd₁ fun t₂ ts₂ hts₂ hd₂ => ?_
    subst hts₂
    rw [Nat.add_assoc, ← elapsed_snoc, EStateM.ends_ite]
    split
    · -- bytes of the header are still to arrive, so this round cost nothing
      next hfew =>
      refine ⟨⟨window ++ [t] ++ [t₂], ts₂, _, rfl, ?_, ?_⟩, ?_⟩
      · exact hd.waited [t, t₂] hd₂ (by omega)
      · simp only [arrivals_append, arrivals_cons, arrivals_nil, List.append_nil,
          List.length_append]
        omega
      · simp only [World.withPort_ticks, List.length_cons]
        omega
    · next hmany => exact ⟨_, _, ts₂, _, rfl, hd₂, by omega⟩
  · next hlate =>
    refine ⟨_, _, ts₁, _, rfl, hd₁.mono (Nat.le_succ n), ?_⟩
    refine hd.header_le hprompt hlen hlow ?_
    by_contra hlt
    exact hlate (limit_iff c (by omega))

/-! ## The bytes of a packet -/

section ByteLoop

variable {β : Type} {take : β → UInt8 → Prog β} {full : β → Bool} {finish : β → Prog Reception}

/-- A round takes the next byte of the stream, or finds none in the port. -/
theorem returns_nextByte {x : UInt8} {bytes rx : List UInt8} {window ticks : List Tick}
    {n c : ℕ} {w : World} {b : β} {timeout : UInt32} {Q : β × UInt32 → World → Prop}
    (hd : Delivers sched (x :: bytes) window rx ticks (n + 3))
    (hnone : ∀ t ts, ticks = t :: ts → Delivers sched (x :: bytes) (window ++ [t]) [] ts (n + 2) →
      Q (b, timeout) (w.withPort (c + t.elapsed) ts []))
    (hsome : ∀ stamp t ts r, ts.length < ticks.length → Delivers sched bytes [t] r ts n →
      t.arrived.length ≤ r.length → (take b x).Returns (w.withPort (stamp + t.elapsed) ts r)
        fun b' s => Q (b', UInt32.ofNat stamp) s) :
    (nextByte take b timeout).Returns (w.withPort c ticks rx) Q := by
  unfold nextByte
  rw [EStateM.Returns, EStateM.ends_bind]
  refine returns_available hd fun t ts hts hd₁ => ?_
  subst hts
  rw [EStateM.ends_ite]
  split
  · next hpos =>
    rw [EStateM.ends_bind]
    refine returns_millis hd₁ fun t₂ ts₂ hts₂ hd₂ => ?_
    subst hts₂
    rw [EStateM.ends_bind]
    have hne : rx ++ t.arrived ++ t₂.arrived ≠ [] := by
      rw [List.ne_nil_iff_length_pos, List.length_append]
      omega
    refine returns_read hd₂.stamp hne fun t₃ ts₃ hts₃ hd₃ => ?_
    subst hts₃
    rw [EStateM.ends_bind]
    refine hsome _ t₃ ts₃ _ ?_ hd₃ ?_
    · simp only [List.length_cons]
      omega
    · rw [List.length_append]
      omega
  · next hzero =>
    have hnil : rx ++ t.arrived = [] := List.length_eq_zero_iff.mp (by omega)
    rw [hnil] at hd₁ ⊢
    exact hnone t ts rfl hd₁

/-- The invariant of `byteLoop` at the head of a round: the bytes `done` of the packet are
stored, and the bytes `todo` are to come.  A round that found no byte left the port empty. -/
structure Receiving (sched : List Tick) (J : List UInt8 → β → World → Prop)
    (packet rest : List UInt8) (n : ℕ)
    (b : β × UInt32) (s : World) (done todo : List UInt8) (w : World) (stamp : ℕ)
    (window ts : List Tick) (r : List UInt8) : Prop where
  state : s = w.withPort (stamp + elapsed window) ts r
  timeout : b.2 = UInt32.ofNat stamp
  split : packet = done ++ todo
  todo_ne : todo ≠ []
  stored : J done b.1 w
  delivers : Delivers sched (todo ++ rest) window r ts (4 * todo.length + n)
  unread : (arrivals window).length ≤ r.length
  waited : window.length ≤ 1 ∨ r = []

/-- At the head of a round the limit is not reached. -/
theorem Receiving.elapsed_lt {J : List UInt8 → β → World → Prop} {packet rest : List UInt8}
    {n stamp : ℕ} {b : β × UInt32} {s w : World} {done todo r : List UInt8}
    {window ts : List Tick} {t : Tick}
    (htimely : Timely sched)
    (h : Receiving sched J packet rest n b s done todo w stamp window (t :: ts) r) :
    elapsed (window ++ [t]) < 100 := by
  refine h.delivers.elapsed_lt htimely ?_
  rcases h.waited with hlen | hnil
  · exact .inl hlen
  · have hlow := h.unread
    have hpos := List.length_pos_iff.mpr h.todo_ne
    subst hnil
    refine .inr ⟨List.length_eq_zero_iff.mp (Nat.le_zero.mp hlow), ?_⟩
    rw [List.length_nil, List.length_append]
    omega

/-- **The loop takes exactly the bytes of the packet.**  `J` relates the bytes stored so
far to the local variables. -/
theorem returns_byteLoop (htimely : Timely sched) (packet rest : List UInt8)
    (J : List UInt8 → β → World → Prop) {Q : Reception → World → Prop} {n : ℕ}
    (htake : ∀ done x todo b w, packet = done ++ x :: todo → J done b w → ∀ c ts r,
      (take b x).Returns (w.withPort c ts r) fun b' s =>
        ∃ w', s = w'.withPort c ts r ∧ J (done ++ [x]) b' w')
    (hfull : ∀ done todo b w, packet = done ++ todo → J done b w → (full b ↔ todo = []))
    (hfinish : ∀ b w, J packet b w → ∀ c window ts r, Delivers sched rest window r ts n →
      (finish b).Returns (w.withPort c ts r) Q)
    {b : β} {w : World} {c : ℕ} {ticks : List Tick} {rx : List UInt8} (hne : packet ≠ [])
    (hJ : J [] b w) (hd : Delivers sched (packet ++ rest) [] rx ticks (4 * packet.length + n)) :
    (byteLoop take full finish b (UInt32.ofNat c)).Returns (w.withPort c ticks rx) Q := by
  let Inv : β × UInt32 → World → Prop := fun b s => ∃ done todo w stamp window ts r,
    Receiving sched J packet rest n b s done todo w stamp window ts r
  have hstart : Inv (b, UInt32.ofNat c) (w.withPort c ticks rx) :=
    ⟨[], packet, w, c, [], ticks, rx, rfl, rfl, rfl, hne, hJ, hd, Nat.zero_le _,
      .inl (Nat.zero_le _)⟩
  refine returns_loop Inv ?_ hstart
  rintro ⟨b, timeout⟩ s ⟨done, todo, w, stamp, window, ts, r, hrec⟩
  obtain rfl := hrec.state
  obtain rfl : timeout = UInt32.ofNat stamp := hrec.timeout
  obtain ⟨x, todo, rfl⟩ := List.exists_cons_of_ne_nil hrec.todo_ne
  have hd : Delivers sched (x :: (todo ++ rest)) window r ts (4 * todo.length + n + 4) :=
    hrec.delivers.mono (by rw [List.length_cons]; omega)
  simp only [EStateM.Returns, EStateM.ends_bind]
  refine returns_millis hd fun t ts₁ hts hd₁ => ?_
  subst hts
  rw [Nat.add_assoc, ← elapsed_snoc, EStateM.ends_ite,
    if_pos (limit_iff stamp (hrec.elapsed_lt htimely)), EStateM.ends_bind]
  refine returns_nextByte hd₁ ?none ?some
  case none =>
    intro t₂ ts₂ hts₂ hd₂
    subst hts₂
    have hopen : ¬ full b := fun h =>
      absurd ((hfull done _ b w hrec.split hrec.stored).mp h) (List.cons_ne_nil _ _)
    rw [EStateM.ends_ite, if_neg hopen, Nat.add_assoc, ← elapsed_snoc]
    refine ⟨⟨done, x :: todo, w, stamp, _, ts₂, [], rfl, rfl, hrec.split, hrec.todo_ne,
      hrec.stored, ?_, ?_, .inr rfl⟩, ?_⟩
    · exact hrec.delivers.waited [t, t₂] hd₂ (by simp)
    · -- the port is empty, so nothing arrived since the stamp
      have hnil := hd₂.stream.trans hd.stream.symm
      have hlen := congrArg List.length hnil
      have hlow := hrec.unread
      simp only [arrivals_append, arrivals_cons, arrivals_nil, List.append_nil,
        List.length_append, List.length_nil] at hlen hlow ⊢
      omega
    · simp only [World.withPort_ticks, List.length_cons]
      omega
  case some =>
    intro stamp' t' ts' r' hlt hd' hlow
    refine (htake done x todo b w hrec.split hrec.stored _ _ _).mono ?_
    rintro b' _ ⟨w', rfl, hJ'⟩
    have hsplit : packet = (done ++ [x]) ++ todo := by simpa using hrec.split
    rw [EStateM.ends_ite]
    split
    · next h =>
      obtain rfl := (hfull _ todo b' w' hsplit hJ').mp h
      rw [List.append_nil] at hsplit
      rw [EStateM.ends_bind]
      exact (hfinish b' w' (hsplit ▸ hJ') _ _ ts' r' (hd'.mono (by simp))).mono fun _ _ h => h
    · next h =>
      have htodo : todo ≠ [] := fun hnil => h ((hfull _ todo b' w' hsplit hJ').mpr hnil)
      refine ⟨⟨done ++ [x], todo, w', stamp', [t'], ts', r', ?_, rfl, hsplit, htodo, hJ', hd',
        by simpa using hlow, .inl (Nat.le_refl 1)⟩, ?_⟩
      · simp [elapsed]
      · simp only [World.withPort_ticks, List.length_cons] at hlt ⊢
        omega

end ByteLoop

/-! ## Command packets -/

/-- The last byte of the payload is the checksum of the others. -/
def Closed (payload : List UInt8) : Prop :=
  payload = payload.dropLast ++ [Bytes.xorSum payload.dropLast]

instance (payload : List UInt8) : Decidable (Closed payload) :=
  inferInstanceAs (Decidable (_ = _))

theorem Closed.ne_nil {payload : List UInt8} (h : Closed payload) : payload ≠ [] := by
  rw [h]
  exact List.append_ne_nil_of_right_ne_nil _ (List.cons_ne_nil _ _)

theorem closed_append (l : List UInt8) : Closed (l ++ [Bytes.xorSum l]) := by
  rw [Closed, List.dropLast_concat]

/-- The bytes of a command packet. -/
def commandBytes (payload : List UInt8) : List UInt8 :=
  0x24 :: Bytes.high (UInt16.ofNat payload.length) :: Bytes.low (UInt16.ofNat payload.length) ::
    payload

/-- The length of a packet is read back. -/
theorem frameSize_length {payload : List UInt8} (hlen : payload.length ≤ 65535) :
    (frameSize (some (Bytes.high (UInt16.ofNat payload.length)))
      (some (Bytes.low (UInt16.ofNat payload.length)))).toNat = payload.length := by
  simp only [frameSize, Option.getD_some, Bytes.join_split, UInt16.toNat_ofNat']
  omega

/-- The running checksum is that of the bytes before the last one. -/
theorem Buffer.take_eq {payload done todo : List UInt8} {x : UInt8}
    (h : payload = done ++ x :: todo) :
    Buffer.take payload.length ⟨done, Bytes.xorSum (done.take (payload.length - 1))⟩ x =
      ⟨done ++ [x], Bytes.xorSum ((done ++ [x]).take (payload.length - 1))⟩ := by
  have hlen : payload.length = done.length + 1 + todo.length := by
    rw [h, List.length_append, List.length_cons]
    omega
  rw [Buffer.take]
  congr 1
  dsimp only
  split
  · rw [List.take_of_length_le (by omega), List.take_of_length_le (by simp; omega),
      Bytes.xorSum_append, Bytes.xorSum_singleton]
  · rw [List.take_append_of_le_length (by omega)]

theorem getLast_eq_iff_closed {payload : List UInt8} (hne : payload ≠ []) :
    payload.getLast hne = Bytes.xorSum payload.dropLast ↔ Closed payload := by
  constructor
  · intro h
    rw [Closed, ← h, List.dropLast_append_getLast]
  · intro h
    have hget := List.getLast_congr hne (by simp) h
    rwa [List.getLast_concat] at hget

/-- The receiver compares the last byte with the running checksum. -/
theorem getD_eq_iff_closed {payload : List UInt8} (hne : payload ≠ []) :
    payload.getD (payload.length - 1) 0 = Bytes.xorSum (payload.take (payload.length - 1)) ↔
      Closed payload := by
  have hlast : payload.getD (payload.length - 1) 0 = payload.getLast hne := by
    rw [List.getD_eq_getElem?_getD, ← List.getLast?_eq_getElem?, List.getLast?_eq_some_getLast hne]
    rfl
  rw [hlast, ← List.dropLast_eq_take, getLast_eq_iff_closed hne]

/-- A closed payload passes the comparison with the checksum. -/
theorem returns_verdict {payload : List UInt8} (h : Closed payload) {s : World}
    {Q : Reception → World → Prop} (hQ : Q (.frame payload) s) :
    (verdict payload.length
      ⟨payload, Bytes.xorSum (payload.take (payload.length - 1))⟩).Returns s Q := by
  have hlen := List.length_pos_iff.mpr h.ne_nil
  unfold verdict
  rw [EStateM.Returns, EStateM.ends_ite, if_neg (by omega), EStateM.ends_ite,
    if_neg (not_not_intro ((getD_eq_iff_closed h.ne_nil).mpr h))]
  exact hQ

/-- **A command packet at the front of the stream is received whole.** -/
theorem returns_commandPacket {payload rest rx : List UInt8} {ticks : List Tick} {n c : ℕ}
    {w : World} (htimely : Timely sched) (hprompt : Prompt (payload ++ rest).length sched)
    (hclosed : Closed payload) (hlen : payload.length ≤ 65535)
    (hd : Delivers sched (commandBytes payload ++ rest) [] rx ticks (4 * payload.length + n + 7))
    (hrx : rx ≠ []) :
    commandPacket.Returns (w.withPort c ticks rx) fun result s =>
      result = .frame payload ∧
        ∃ c' window ts r, s = w.withPort c' ts r ∧ Delivers sched rest window r ts n := by
  have hpos := List.length_pos_iff.mpr hclosed.ne_nil
  unfold commandPacket
  simp only [EStateM.Returns, EStateM.ends_bind]
  refine returns_millis hd fun t ts₁ hts hd₁ => ?_
  have hne : rx ++ t.arrived ≠ [] := List.append_ne_nil_of_left_ne_nil hrx _
  refine EStateM.Returns.mono (returns_headerWait (n := 4 * payload.length + n + 4) hprompt
    hd₁.stamp hne rfl (by rw [List.length_append]; omega)) ?_
  rintro ⟨⟩ _ ⟨c₂, window, ts₂, r₂, rfl, hd₂, hr₂⟩
  refine returns_read hd₂ (List.ne_nil_of_length_pos (by omega)) fun t₃ ts₃ _ hd₃ => ?_
  refine returns_read hd₃ (List.ne_nil_of_length_pos (by simp; omega)) fun t₄ ts₄ _ hd₄ => ?_
  refine returns_read hd₄ (List.ne_nil_of_length_pos (by simp; omega)) fun t₅ ts₅ _ hd₅ => ?_
  refine returns_millis hd₅ fun t₆ ts₆ _ hd₆ => ?_
  rw [receiveLoop, frameSize_length hlen]
  -- The marker and the two bytes of the length are read; the payload is left to the loop.
  refine returns_byteLoop (n := n) htimely payload rest
    (fun done b w' => w' = w ∧
      b = ⟨done, Bytes.xorSum (done.take (payload.length - 1))⟩) ?take ?full ?finish
    hclosed.ne_nil ⟨rfl, by simp⟩ hd₆.stamp
  case take =>
    rintro done x todo _ w ⟨hsplit⟩ ⟨rfl, rfl⟩ c ts r
    exact ⟨w, rfl, rfl, Buffer.take_eq rfl⟩
  case full =>
    rintro done todo _ _ hsplit ⟨rfl, rfl⟩
    have hsum := congrArg List.length hsplit
    rw [decide_eq_true_iff, ← List.length_eq_zero_iff]
    rw [List.length_append] at hsum
    dsimp only
    omega
  case finish =>
    rintro _ _ ⟨rfl, rfl⟩ c window ts r hd
    exact returns_verdict hclosed ⟨rfl, c, window, ts, r, rfl, hd⟩

/-! ## Acknowledgements -/

/-- **A `!` and four bytes at the front of the stream are received as an acknowledgement.** -/
theorem returns_acknowledgement {group rest rx : List UInt8} {ticks : List Tick} {n c : ℕ}
    {w : World} (htimely : Timely sched) (hlen : group.length = 4)
    (hd : Delivers sched (0x21 :: group ++ rest) [] rx ticks (n + 18)) (hrx : rx ≠ []) :
    acknowledgement.Returns (w.withPort c ticks rx) fun result s =>
      (∃ b, result = .ack b) ∧ ∃ c' window ts r,
        s = { w with ackNakBuf := w.ackNakBuf.store 0 group }.withPort c' ts r ∧
          Delivers sched rest window r ts n := by
  unfold acknowledgement
  simp only [EStateM.Returns, EStateM.ends_bind]
  refine returns_read hd hrx fun t₁ ts₁ _ hd₁ => ?_
  refine returns_millis hd₁ fun t₂ ts₂ _ hd₂ => ?_
  -- The group is stored as it comes, byte by byte, from the start of `ackNakBuf`.
  refine returns_byteLoop (n := n) htimely group rest
    (fun done b w' => w' = { w with ackNakBuf := w.ackNakBuf.store 0 done } ∧
      b = done.length) ?take ?full ?finish (List.ne_nil_of_length_pos (by omega))
    ⟨?start, rfl⟩ (hd₂.stamp.mono (by omega))
  case start =>
    rw [Memory.store_nil]
  case take =>
    rintro done x todo _ _ hsplit ⟨rfl, rfl⟩ c ts r
    refine ⟨{ w with ackNakBuf := w.ackNakBuf.store 0 (done ++ [x]) }, ?_, rfl, by simp⟩
    rw [← Memory.set_store, Nat.zero_add]
    rfl
  case full =>
    rintro done todo _ _ hsplit ⟨rfl, rfl⟩
    have hsum := congrArg List.length hsplit
    rw [decide_eq_true_iff, ← List.length_eq_zero_iff]
    rw [List.length_append] at hsum
    omega
  case finish =>
    rintro _ _ ⟨rfl, rfl⟩ c window ts r hd
    exact ⟨⟨_, rfl⟩, c, window, ts, r, rfl, hd⟩

end Teensquitto
