import Teensquitto.Device.Events

/-!
# Requests and user code

A request writes its command, waits for the reply by calling `events()`, and decodes the
reply.  User code calls methods; the main program also calls `events()`.

## Main definitions

* `Exchange.run`: one request
* `Method.run`, `UserOp.run`: a method, and an operation of user code
* `userCode`: the code of the handlers, with a bound on their nesting
* `session`: a main program
-/

namespace Teensquitto

/-- The bytes of a written frame that its reply has to repeat. -/
def keyOf (frame : List UInt8) : Key := ⟨frame.getD 3 0, frame.getD 4 0, frame.getD 5 0⟩

/-- The bytes of `storage_buffer` that are compared with the frame. -/
def storedKey (storage : Memory UInt8) : Key := ⟨storage 2, storage 3, storage 4⟩

/-- The test in the wait loop: both the header and the opcode differ. -/
def foreign (storage : Memory UInt8) (key : Key) : Bool :=
  Bytes.join (storage 2) (storage 3) ≠ Bytes.join key.high key.low && storage 4 ≠ key.opcode

/-- The test behind the wait loop. -/
def accepts (storage : Memory UInt8) (key : Key) : Bool :=
  Bytes.join (storage 0) (storage 1) = 0xAA55 &&
    Bytes.join (storage 2) (storage 3) = Bytes.join key.high key.low && storage 4 = key.opcode

/-- `_esp_latency + limit`. -/
def World.waitLimit (w : World) (limit : ℕ) : UInt32 :=
  w.espLatency.toUInt32 + UInt32.ofNat limit

/-- One round of the wait loop, behind its time check. -/
def waitRound (events : Prog Unit) (key : Key) : Prog (Unit ⊕ Unit) := do
  modify fun w => { w with pendingData := true }
  events
  let w ← get
  if w.dataReadyFlag then
    if foreign w.storageBuffer key then
      modify fun w => { w with dataReadyFlag := false }
      return .inl ()
    else return .inr ()
  else return .inl ()

/-- The wait loop. -/
def waitLoop (events : Prog Unit) (key : Key) (limit : ℕ) (timeout : UInt32) : Prog Unit :=
  loop (fun _ => do
    let w ← get
    if w.dataReadyFlag then return .inr ()
    else
      let now ← millis
      let w ← get
      if now - timeout < w.waitLimit limit then waitRound events key
      else return .inr ()) ()

/-- What a request comes to. -/
inductive Result
  /-- The check behind the wait loop gave up. -/
  | timedOut
  /-- No reply was accepted. -/
  | unanswered
  /-- A reply was accepted; `storage` is `storage_buffer`. -/
  | accepted (storage : Memory UInt8)

/-- The checks behind the wait loop. -/
def conclude (key : Key) (checkLimit : ℕ) (timeout : UInt32) : Prog Result := do
  let now ← millis
  let w ← get
  if now - timeout > w.waitLimit checkLimit then return .timedOut
  else if w.dataReadyFlag && accepts w.storageBuffer key then
    log (.accepted key)
    return .accepted w.storageBuffer
  else return .unanswered

/-- Wait for the reply to a frame that was written. -/
def awaitReply (events : Prog Unit) (key : Key) (limit checkLimit : ℕ) : Prog Result := do
  log (.request key)
  let timeout ← millis
  modify fun w => { w with dataReadyFlag := false }
  waitLoop events key limit timeout
  log .waitEnd
  modify fun w => { w with pendingData := false }
  conclude key checkLimit timeout

/-- Write the frame of a command. -/
def writeCommand (c : Command) : Prog (List UInt8) := do
  let w ← get
  let frame := c.emit (w.stray w.clock)
  send frame
  return frame

/-- The value of a request, when it has one. -/
def Exchange.value (e : Exchange) : Result → Option Value
  | .timedOut => some e.onTimeout
  | .unanswered => none
  | .accepted storage => some (e.decode storage)

/-- Write the command of a request and wait for its reply. -/
def Exchange.answer (events : Prog Unit) (e : Exchange) : Prog Result := do
  let frame ← writeCommand e.command
  awaitReply events (keyOf frame) e.limit e.checkLimit

/-- A request: the value it returns, or nothing when the method goes on. -/
def Exchange.run (events : Prog Unit) (e : Exchange) : Prog (Option Value) := do
  let result ← e.answer events
  return e.value result

/-- One block of a method. -/
def Stage.run (events : Prog Unit) : Stage → Prog (Option Value)
  | .request active e => if active then e.run events else return none
  | .send active c result =>
    if active then do
      let _ ← writeCommand c
      return result
    else return none
  | .update active change command =>
    if active then do
      modify fun w => { w with handlers := change w.handlers }
      let w ← get
      let _ ← writeCommand (command w.handlers)
      return none
    else return none
  | .undefined active => if active then throw .undefined else return none

/-- The blocks of a method in order. -/
def runStages (events : Prog Unit) (otherwise : Value) : List Stage → Prog Value
  | [] => return otherwise
  | stage :: stages => do
    match ← stage.run events with
    | some v => return v
    | none => runStages events otherwise stages

/-- A method: its guard, then its blocks. -/
def Method.run (events : Prog Unit) (m : Method) : Prog Value := do
  let w ← get
  match m.guard with
  | some v => if w.espDetected then runStages events m.otherwise m.stages else return v
  | none => runStages events m.otherwise m.stages

/-- A call of a method. -/
def Call.run (events : Prog Unit) (c : Call) : Prog Value := do
  let w ← get
  log (.call c w.espDetected)
  Method.run events c.method

/-- `onDetect(handler)`: a handler set while online is called at once. -/
def runOnDetect (user : Prog Unit) (o : Object) (handler : Bool) : Prog Unit := do
  if o.esp ≠ 255 then
    let w ← get
    log (.onDetect w.espDetected)
    modify fun w => { w with handlers := w.handlers.set .espDetectHandler handler }
    if w.espDetected && handler then user

/-- An operation of user code; `user` is the code of the handlers it may cause to run. -/
def UserOp.run (user : Prog Unit) : UserOp → Prog Unit
  | .call c => do
    let _ ← Call.run (do let _ ← events user) c
  | .onDetect o handler => runOnDetect user o handler

/-- Take the script of the next handler call. -/
def nextScript : Prog (List UserOp) := do
  let w ← get
  set { w with scripts := w.scripts.tail }
  return w.scripts.headD []

/-- The code of a handler, in which handlers nest at most `depth` deep. -/
def userCode : ℕ → Prog Unit
  | 0 => throw .exhausted
  | depth + 1 => do
    let script ← nextScript
    script.forM (UserOp.run (userCode depth))

/-- An operation of the main program. -/
inductive MainOp
  | events
  | user (op : UserOp)

/-- An operation of the main program, over handlers that nest at most `depth` deep. -/
def MainOp.run (depth : ℕ) : MainOp → Prog Unit
  | .events => do
    let _ ← Teensquitto.events (userCode depth)
  | .user op => op.run (userCode depth)

/-- A main program. -/
def session (depth : ℕ) (ops : List MainOp) : Prog Unit := ops.forM (MainOp.run depth)

end Teensquitto
