import Teensquitto.Device.Registration

/-!
# Reading back what the library writes

The library writes probes, NAKs and the frames of the methods that are called.  Each block is one
segment of the format that its own receiver parses: so a receiver of the same kind, to which the
written bytes are delivered in time and in any pieces, takes every frame once, in order, rejects
none, and the frames of the methods can be decoded.

## Main definitions

* `World.Wrote`: what is written to the port
* `messages`: the payloads of the frames among the written blocks
* `World.ReadBack`: what was written can be read back

## Main results

* `preserves_wrote`: nothing else is written
* `World.Wrote.exists_segment`: every block is a segment
* `always_read_back`: what was written in a run is read back
-/

namespace Teensquitto

open EStateM

/-! ## What is written -/

/-- A block that is written to the port: a probe, a NAK, or a frame of a method that was called. -/
inductive World.Wrote (w : World) : List UInt8 → Prop
  | probe : w.Wrote probeBlock
  | nak (a b : UInt8) : w.Wrote [0x21, 0x15, 0x00, a, b]
  | command {c : Call} {h : Handlers} {cmd : Command} (garbage : Memory UInt8)
    (hcall : w.Called c) (hw : c.method.Writes h cmd) : w.Wrote (cmd.emit garbage)

/-- Calls are not forgotten. -/
theorem World.Wrote.mono {w w' : World} {block : List UInt8} (h : w.Wrote block)
    (hcalled : ∀ c, w.Called c → w'.Called c) : w'.Wrote block := by
  cases h with
  | probe => exact .probe
  | nak a b => exact .nak a b
  | command garbage hcall hw => exact .command garbage (hcalled _ hcall) hw

/-- A change writes nothing, or one block. -/
theorem Effect.sent {w w' : World} (h : Effect w w') :
    w'.sent = w.sent ∨ ∃ block, w'.sent = w.sent ++ [block] ∧ w.Wrote block := by
  cases h with
  | nak a b => exact .inr ⟨_, rfl, .nak a b⟩
  | probe t t' ticks ticks' => exact .inr ⟨_, rfl, .probe⟩
  | command c cmd garbage hcall hstage =>
    obtain ⟨stage, hmem, htells⟩ := hstage
    exact .inr ⟨_, rfl, .command garbage hcall ⟨stage, hmem, htells.command? w.handlers⟩⟩
  | update c change command garbage hcall hstage =>
    have hwrites : c.method.Writes w.handlers (command (change w.handlers)) := ⟨_, hstage, rfl⟩
    exact .inr ⟨_, rfl, .command garbage hcall hwrites⟩
  | status src hsrc hheader hstatus =>
    obtain ⟨_, _, _, _, _, heq⟩ := exists_statusFrame_eq src w
    exact .inl (by rw [heq])
  | _ => exact .inl rfl

/-- **Nothing else is written.** -/
theorem preserves_wrote : Preserves Effect fun w => ∀ block ∈ w.sent, w.Wrote block := by
  intro w w' h hw
  have hcalled (c : Call) : w.Called c → w'.Called c := preserves_called c w w' h
  rcases h.sent with hsent | ⟨block, hsent, hblock⟩
  · rw [hsent]
    exact fun block hmem => (hw block hmem).mono hcalled
  · rw [hsent]
    intro block' hmem
    rcases List.mem_append.mp hmem with hold | hnew
    · exact (hw block' hold).mono hcalled
    · rw [List.mem_singleton.mp hnew]
      exact hblock.mono hcalled

/-! ## Blocks as segments -/

/-- The frames of all calls so far fit. -/
def World.FramesFit (w : World) : Prop := ∀ c, w.Called c → c.Fits

/-- What the payload of a frame says: nothing in a probe, else a command of a method that was
called. -/
def World.Says (w : World) (payload : List UInt8) : Prop :=
  payload = [0x7E, 0x7E, 0x00] ∨ ∃ c h cmd, w.Called c ∧ c.method.Writes h cmd ∧
    decodeFrame (commandBytes payload) = some (c.contents cmd)

/-- **Every block is a segment**, as long as the frames fit. -/
theorem World.Wrote.exists_segment {w : World} {block : List UInt8} (h : w.Wrote block)
    (hfit : w.FramesFit) :
    ∃ seg : Segment, seg.bytes = block ∧ ∀ payload ∈ seg.payload?, w.Says payload := by
  cases h with
  | probe =>
    refine ⟨.command [0x7E, 0x7E, 0x00] (by decide) (by decide), rfl, fun payload hp => ?_⟩
    exact .inl (Option.some.inj hp).symm
  | nak a b => exact ⟨.group 0x15 0x00 a b, rfl, fun payload hp => by cases hp⟩
  | @command c h cmd garbage hcall hw =>
    obtain ⟨hsize, hindex⟩ := (hfit c hcall).frames h cmd hw
    have hvalid := (Command.validFrame_iff hsize).mpr hindex
    have hlen : 3 ≤ (cmd.payload ++ [Bytes.xorSum cmd.payload]).length ∧
        (cmd.payload ++ [Bytes.xorSum cmd.payload]).length ≤ 65535 := by
      have hthree := cmd.three_le_payload
      have hcount := hvalid.count
      rw [List.length_append, List.length_singleton]
      omega
    refine ⟨.command _ hlen (closed_append cmd.payload), (hvalid.bytes garbage).symm, ?_⟩
    intro payload hp
    obtain rfl := Option.some.inj hp
    refine .inr ⟨c, h, cmd, hcall, hw, ?_⟩
    rw [← hvalid.bytes garbage]
    exact (hfit c hcall).decodes hw garbage

/-- A list of blocks is a list of segments. -/
theorem exists_segments {P : List UInt8 → Prop} {blocks : List (List UInt8)}
    (h : ∀ block ∈ blocks, ∃ seg : Segment, seg.bytes = block ∧
      ∀ payload ∈ seg.payload?, P payload) :
    ∃ segs : List Segment, segs.map Segment.bytes = blocks ∧
      ∀ payload ∈ segs.filterMap Segment.payload?, P payload := by
  induction blocks with
  | nil => exact ⟨[], rfl, List.forall_mem_nil _⟩
  | cons block blocks ih =>
    obtain ⟨seg, hbytes, hseg⟩ := h block List.mem_cons_self
    obtain ⟨segs, hsegs, hP⟩ := ih fun b hb => h b (List.mem_cons_of_mem block hb)
    refine ⟨seg :: segs, by rw [List.map_cons, hbytes, hsegs], fun payload hp => ?_⟩
    obtain ⟨seg', hmem, hp'⟩ := List.mem_filterMap.mp hp
    rcases List.mem_cons.mp hmem with rfl | hmem
    · exact hseg payload hp'
    · exact hP payload (List.mem_filterMap.mpr ⟨seg', hmem, hp'⟩)

/-! ## Reading back -/

/-- The payloads of the frames among the blocks. -/
def messages (blocks : List (List UInt8)) : List (List UInt8) :=
  (blocks.filter fun block => block.head? = some 0x24).map fun block => block.drop 3

theorem messages_map_bytes (segs : List Segment) :
    messages (segs.map Segment.bytes) = segs.filterMap Segment.payload? := by
  induction segs with
  | nil => rfl
  | cons seg segs ih =>
    unfold messages at ih ⊢
    cases seg with
    | command payload hlen closed =>
      rw [List.map_cons, List.filter_cons_of_pos (by rfl), List.map_cons, ih]
      rfl
    | group a b c d =>
      rw [List.map_cons, List.filter_cons_of_neg (by simp [Segment.bytes]), ih]
      rfl
    | noise x hx =>
      rw [List.map_cons, List.filter_cons_of_neg (by simp [Segment.bytes, hx.1]), ih]
      rfl

/-- What is assumed of a receiver of the same kind: the blocks are delivered to it within its
limits, after which it has time for `cost` readings for each frame, and for one more. -/
structure Listens {σ : Type} (process : Source → ℕ → Prog Unit) (blocks : List (List UInt8))
    (Idle : World → Prop) (cost : ℕ) (seen : World → σ) (note : σ → List UInt8 → σ)
    (peer : World) : Prop where
  handled : Opaque process (messages blocks) Idle cost seen note
  idle : Idle peer
  delivered : peer.stream = blocks.flatten
  punctual : ∀ segs : List Segment, segs.map Segment.bytes = blocks → Punctual segs peer.ticks
  spare : (blocks.map fun block => 4 * block.length + 13 + 2 * cost).sum + cost ≤ spare peer.ticks

/-- What was written can be read back: the frames say what was called, and a receiver to which the
written bytes are delivered takes all frames, in order, and rejects nothing. -/
structure World.ReadBack (w : World) : Prop where
  told : ∀ payload ∈ messages w.sent, w.Says payload
  taken : ∀ {σ : Type} {process Idle cost} {seen : World → σ} {note peer},
    Listens process w.sent Idle cost seen note peer →
      ∃ n, (listen process n).Returns peer fun _ peer' =>
        peer'.stream = [] ∧ seen peer' = (messages w.sent).foldl note (seen peer) ∧
          peer'.received = peer.received ++ messages w.sent ∧ peer'.naks = peer.naks

theorem World.readBack {w : World} (hw : ∀ block ∈ w.sent, w.Wrote block) (hfit : w.FramesFit) :
    w.ReadBack := by
  obtain ⟨segs, hsegs, htell⟩ := exists_segments fun block hmem =>
    (hw block hmem).exists_segment hfit
  have hpayloads : segs.filterMap Segment.payload? = messages w.sent := by
    rw [← messages_map_bytes, hsegs]
  rw [hpayloads] at htell
  refine ⟨htell, fun {σ process Idle cost seen note peer} hpeer => ?_⟩
  have hbytes : streamBytes segs = w.sent.flatten := by
    rw [streamBytes, List.flatMap_def, hsegs]
  have hbudget : budget cost segs =
      (w.sent.map fun block => 4 * block.length + 13 + 2 * cost).sum := by
    rw [← hsegs, List.map_map]
    rfl
  have hd : Delivers peer.ticks (streamBytes segs) [] peer.rx peer.ticks
      (budget cost segs + cost) :=
    ⟨hbytes ▸ hpeer.delivered, List.suffix_rfl, hbudget ▸ hpeer.spare⟩
  obtain ⟨n, hn⟩ := listen_of_delivers (hpayloads ▸ hpeer.handled) hpeer.idle
    (hpeer.punctual segs hsegs) hd
  refine ⟨n, hn.mono fun _ peer' hpeer' => ?_⟩
  obtain ⟨hstream, hseen, hreceived, hnaks, -⟩ := hpeer'
  exact ⟨hstream, hpayloads ▸ hseen, hpayloads ▸ hreceived, hnaks⟩

/-- **What was written is read back**, at every moment of every run whose frames fit. -/
theorem always_read_back : Always fun w => w.FramesFit → w.ReadBack := by
  intro ticks scripts stray depth ops
  have hwrote := always_of_preserves (fun _ _ _ block hmem => absurd hmem List.not_mem_nil)
    preserves_wrote ticks scripts stray depth ops
  exact hwrote.mono (fun _ _ hw => World.readBack hw) fun _ _ hw => World.readBack hw

/-- `ESP.reset()`. -/
def resetCall : Call := .esp { Object.initial with esp := 0 } .reset

/-- A receiver to which its frame comes in two parts. -/
def resetPeer : World :=
  .powerUp ([⟨5, [0x24, 0x00, 0x04]⟩, ⟨60, [0xA4, 0xA4, 0x00, 0x00]⟩] ++ quiet 160) [] fun _ _ => 0

theorem fits_resetCall : resetCall.Fits := by
  have hcommand {h : Handlers} {cmd : Command} (hw : resetCall.method.Writes h cmd) :
      cmd.size = 7 ∧ cmd.indexBits = 8 ∧ cmd.text = [] := by
    obtain ⟨stage, hmem, hcmd⟩ := hw
    obtain rfl := List.mem_singleton.mp hmem
    obtain rfl := Option.some.inj hcmd
    exact ⟨rfl, rfl, rfl⟩
  constructor
  · intro h cmd hw
    rw [(hcommand hw).1, (hcommand hw).2.1]
    decide
  · intro h cmd hw s hs
    rw [(hcommand hw).2.2] at hs
    cases hs

theorem listens_resetPeer : Listens (processingData (pure ()))
    [[0x24, 0x00, 0x04, 0xA4, 0xA4, 0x00, 0x00]] AtRest 3 World.handled appendPayload
    resetPeer where
  handled := opaque_processingData fun payload hmem => by
    obtain rfl : payload = [0xA4, 0xA4, 0x00, 0x00] := List.mem_singleton.mp hmem
    exact ⟨by decide, by decide, by decide⟩
  idle := ⟨fun _ => rfl, rfl, rfl⟩
  delivered := by
    change arrivals (_ ++ quiet 160) = _
    rw [arrivals_append, arrivals_quiet]
    rfl
  punctual segs _ := by
    refine punctual_of_elapsed_lt ?_
    change elapsed (_ ++ quiet 160) < 100
    rw [elapsed_append, elapsed_quiet]
    decide
  spare := by
    refine Nat.le_trans ?_ (length_le_spare_append _ (arrivals_quiet 160))
    rw [length_quiet]
    decide

theorem always_read_back_reset :
    (library 1 [.call resetCall]).Returns (World.powerUp [] [] fun _ _ => 0) fun _ w =>
      w.sent = [[0x24, 0x00, 0x04, 0xA4, 0xA4, 0x00, 0x00]] ∧
        ∃ n, (listen (processingData (pure ())) n).Returns resetPeer fun _ peer' =>
          peer'.stream = [] ∧ peer'.handled = [[0xA4, 0xA4, 0x00, 0x00]] ∧
            peer'.received = [[0xA4, 0xA4, 0x00, 0x00]] ∧ peer'.naks = [] := by
  have hwritten : (library 1 [.call resetCall]).Returns (World.powerUp [] [] fun _ _ => 0)
      fun _ w => w.sent = [[0x24, 0x00, 0x04, 0xA4, 0xA4, 0x00, 0x00]] ∧
        w.trace = [.call resetCall true] := ⟨rfl, rfl⟩
  refine (hwritten.and (always_read_back [] [] (fun _ _ => 0) 1 [.call resetCall])).mono ?_
    fun _ _ h => h.1
  rintro _ w ⟨⟨hsent, htrace⟩, hback⟩
  refine ⟨hsent, ?_⟩
  have hfit : w.FramesFit := by
    rintro c ⟨online, hmem⟩
    rw [htrace] at hmem
    obtain ⟨rfl, -⟩ := Event.call.inj (List.mem_singleton.mp hmem)
    exact fits_resetCall
  have hlistens := listens_resetPeer
  rw [← hsent] at hlistens
  obtain ⟨n, hn⟩ := (hback hfit).taken hlistens
  rw [hsent] at hn
  exact ⟨n, hn⟩

end Teensquitto
