import Teensquitto.Device.Sending

/-!
# The blocks of a whole run

Whatever the main program and the handlers do, the library writes nothing but probes, NAKs and the
frames of its methods, and nothing that was written is taken back.

## Main definitions

* `Block`: the blocks the library writes
* `polling`: `events()` as a waiting request calls it

## Main results

* `sends_library`: all blocks of a run are such blocks
-/

namespace Teensquitto

open EStateM

/-- The blocks the library writes: the probe, a NAK, or a frame of a method. -/
inductive Block : List UInt8 → Prop
  | probe : Block [0x24, 0x00, 0x03, 0x7E, 0x7E, 0x00]
  | nak (a b : UInt8) : Block [0x21, 0x15, 0x00, a, b]
  | frame (c : Call) {block : List UInt8} (h : c.Frame block) : Block block

/-- What a run writes are such blocks. -/
theorem sends_run : BearsRun (Sends Block) where
  toBearsEvents := bearsEvents_sends fun block h => by
    cases h with
    | probe => exact .probe
    | nak a b => exact .nak a b
  sendFrame w c _ h := sends_append (.frame c h) w

/-- `events()` as a waiting request calls it, over handlers that nest at most `depth` deep. -/
def polling (depth : ℕ) : Prog Unit := do
  let _ ← events (userCode depth)

theorem sends_polling (depth : ℕ) : (polling depth).Along (Sends Block) :=
  (sends_run.along_events (sends_run.along_userCode depth)).bind fun _ => Along.pure ()

/-- **All blocks of a run** are probes, NAKs and frames of methods. -/
theorem sends_library (depth : ℕ) (ops : List LibraryOp) :
    (library depth ops).Along (Sends Block) :=
  sends_run.along_library depth ops

end Teensquitto
