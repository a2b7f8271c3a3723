import Connx.Net.Connection.Basic

/-!
# `ClientConnection`: the portable code

Translated from `client_connection.cc`, over what a platform supplies: its sockets, and the records
of what happens that the models of the platforms keep. Log lines are left out except the one of
`StartClose`. The handler and the codec are present (`CreateClient` refuses a client without them).
-/

namespace Connx

/-- What a platform supplies. A task works on `σ`, a connection has the fields `κ`, and `τ` are the
descriptions of its closes. -/
structure Platform (σ κ τ : Type) where
  getConn : Act σ (TaskRequest τ) κ
  modifyConn : (κ → κ) → Act σ (TaskRequest τ) Unit
  fields : κ → ConnFields τ
  setFields : κ → ConnFields τ → κ
  text : ErrorText → τ
  /-- Invoke a handler callback. -/
  callback : HandlerCall τ → Act σ (TaskRequest τ) Unit
  /-- `IsValidSocketHandle(fd_)`. -/
  hasSocket : κ → Bool
  /-- The first statement of `FinishClose`. -/
  unregisterConn : Act σ (TaskRequest τ) Unit
  /-- `CloseFd`. -/
  closeFd : Act σ (TaskRequest τ) Unit
  /-- `ResetAfterClose`. -/
  resetAfterClose : κ → κ
  /-- The line that `StartClose` logs. -/
  logClose : CloseReason → τ → κ → κ
  /-- The local `offset` of `ParseInput` goes past a message. -/
  passMessage : Nat → List Byte → Act σ (TaskRequest τ) Unit
  /-- A message is added to `send_buffer_`. -/
  addMessage : List Byte → Act σ (TaskRequest τ) Unit

/-! ### Fields -/

/-- The portable part of `ResetAfterClose`. -/
def ConnFields.resetAfterClose {τ : Type} (empty : τ) (c : ConnFields τ) : ConnFields τ :=
  { c with
    recvBuffer := c.recvBuffer.clearBuffer
    sendBuffer := c.sendBuffer.clearBuffer
    pendingBytes := 0
    drainYieldRequested := false
    parseContinuationPending := false
    deferredClosePending := false
    deferredCloseDesc := empty
    parsed := 0 }

def ConnFields.deferCloseUntilInputDrained {τ : Type} (reason : CloseReason) (desc : τ)
    (c : ConnFields τ) : ConnFields τ :=
  { c with
    deferredClosePending := true, deferredCloseReason := reason, deferredCloseDesc := desc }

/-- `pending_bytes_` and `send_buffer_` in the lambda `SendBuffer` posts. -/
def ConnFields.addMessage {τ : Type} (msg : List Byte) (c : ConnFields τ) : ConnFields τ :=
  { c with
    pendingBytes := c.pendingBytes + msg.length
    sendBuffer := c.sendBuffer.addSlice msg }

/-- `recv_buffer_.AddSlice` and the byte counter. -/
def ConnFields.appendInput {τ : Type} (data : List Byte) (c : ConnFields τ) : ConnFields τ :=
  { c with
    bytesReceived := c.bytesReceived + data.length
    recvBuffer := c.recvBuffer.addSlice data }

/-- The callback that ends an attempt or a connection. -/
def closeCallback {τ : Type} (reason : CloseReason) (desc : τ) : HandlerCall τ :=
  if reason = .connectFailed ∨ reason = .connectTimeout then .onConnectFailed desc else .onClosed

/-- Whether `StartClose` reports this close to the handler. -/
def closeNotifies (reason : CloseReason) : Bool := reason != .user && reason != .release

inductive ParseStatus where
  | done
  | yielded
  | closed
  deriving DecidableEq, Repr

namespace Platform

variable {σ κ τ : Type} (P : Platform σ κ τ) (codec : Nat → List Byte → DecodeResult × Nat)

/-! ### Closing -/

def finishClose (notify : Bool) (reason : CloseReason) (desc : τ) :
    Act σ (TaskRequest τ) Unit := do
  P.unregisterConn
  P.closeFd
  P.modifyConn P.resetAfterClose
  P.modifyConn fun c => P.setFields c { P.fields c with state := .idle }
  if notify then
    P.callback (closeCallback reason desc)

def startClose (reason : CloseReason) (desc : τ) : Act σ (TaskRequest τ) Unit := do
  let c ← P.getConn
  if (P.fields c).state = .idle ∨ (P.fields c).state = .closing then
    return
  P.modifyConn fun c => P.setFields (P.logClose reason desc c) { P.fields c with
    state := .closing, connected := false, connectDeadlineMs := 0 }
  P.finishClose (closeNotifies reason) reason desc

/-! ### Input -/

def finishDeferredClose : Act σ (TaskRequest τ) Unit := do
  let c ← P.getConn
  if (P.fields c).deferredClosePending then
    P.modifyConn fun c => P.setFields c { P.fields c with
      deferredClosePending := false, deferredCloseDesc := P.text .empty }
    P.startClose (P.fields c).deferredCloseReason (P.fields c).deferredCloseDesc

def scheduleParseContinuation : Act σ (TaskRequest τ) Unit := do
  let c ← P.getConn
  if (P.fields c).parseContinuationPending then
    return
  P.modifyConn fun c => P.setFields c { P.fields c with parseContinuationPending := true }
  Act.call .postContinuation

/-- `opts_.codec->Decode(data, data.size(), &consumed)`. -/
def decode (data : List Byte) : Act σ (TaskRequest τ) (DecodeResult × Nat) := do
  let c ← P.getConn
  P.modifyConn fun c' => P.setFields c' { P.fields c' with
    decodeCalls := (P.fields c).decodeCalls + 1 }
  return codec (P.fields c).decodeCalls data

/-- `IsConnected() ? kDone : kClosed`. -/
def doneOrClosed : Act σ (TaskRequest τ) ParseStatus := do
  let c ← P.getConn
  return if (P.fields c).connected then .done else .closed

/-- The decode loop of `ParseInput` over the merged buffer, with `fuel` messages of the budget
left; it ends with the offset and the fuel it leaves, or with `none` after a close. -/
def parseLoop (merged : List Byte) : Nat → Nat → Act σ (TaskRequest τ) (Option (Nat × Nat))
  | 0, offset => return some (offset, 0)
  | fuel + 1, offset => do
    if merged.length ≤ offset then
      return some (offset, fuel + 1)
    let (result, consumed) ← P.decode codec (merged.drop offset)
    if result = .needMoreData then
      return some (offset, fuel + 1)
    if result = .error ∨ consumed = 0 ∨ merged.length - offset < consumed then
      P.startClose .error (P.text .protocolDecodeError)
      return none
    P.passMessage (offset + consumed) ((merged.drop offset).take consumed)
    P.callback (.onMessage ((merged.drop offset).take consumed))
    let c ← P.getConn
    if !(P.fields c).connected then
      return none
    parseLoop merged fuel (offset + consumed)

/-- `recv_buffer_.MoveHeader(offset)`. -/
def moveRecvHeader (offset : Nat) : Act σ (TaskRequest τ) Bool := do
  let c ← P.getConn
  P.modifyConn fun c' => P.setFields c' { P.fields c' with
    recvBuffer := ((P.fields c).recvBuffer.moveHeader offset).2, parsed := 0 }
  return ((P.fields c).recvBuffer.moveHeader offset).1

/-- The last part of `ParseInput`, with `fuel` messages of the budget left. -/
def yieldOrFinish (fuel : Nat) : Act σ (TaskRequest τ) ParseStatus := do
  let c ← P.getConn
  if fuel = 0 ∧ 0 < (P.fields c).recvBuffer.getBufferLength ∧ (P.fields c).connected then
    P.scheduleParseContinuation
    P.modifyConn fun c => P.setFields c { P.fields c with drainYieldRequested := true }
    return .yielded
  P.finishDeferredClose
  P.doneOrClosed

/-- What `ParseInput` does after its loop, at `offset` and with `fuel` messages left. -/
def parseTail (offset fuel : Nat) : Act σ (TaskRequest τ) ParseStatus := do
  if 0 < offset then
    if ← P.moveRecvHeader offset then
      P.yieldOrFinish fuel
    else
      P.startClose .error (P.text .protocolBufferStateError)
      return .closed
  else
    P.yieldOrFinish fuel

def parseInput : Act σ (TaskRequest τ) ParseStatus := do
  P.modifyConn fun c => P.setFields c { P.fields c with parseContinuationPending := false }
  let c ← P.getConn
  if (P.fields c).recvBuffer.getBufferLength = 0 then
    P.finishDeferredClose
    P.doneOrClosed
  else
    match ← P.parseLoop codec (P.fields c).recvBuffer.merge parseMessageBudget 0 with
    | none => return .closed
    | some (offset, fuel) => P.parseTail offset fuel

/-! ### Events -/

/-- `UpdateWriteInterest`, with `PlatformStartSend`. -/
def updateWriteInterest (platformStartSend : Act σ (TaskRequest τ) (Option τ)) :
    Act σ (TaskRequest τ) Unit := do
  let c ← P.getConn
  if !(P.fields c).id.valid ∨ !P.hasSocket c then
    return
  match ← platformStartSend with
  | some error => P.startClose .error error
  | none => return

/-- The last part of `HandleConnected`. -/
def announceConnected : Act σ (TaskRequest τ) Unit := do
  let c ← P.getConn
  if (P.fields c).state ≠ .connecting then
    return
  P.modifyConn fun c => P.setFields c { P.fields c with state := .connected, connected := true }
  P.callback .onConnected

/-- `HandleConnected`, with `PlatformAfterConnected`. -/
def handleConnected (platformAfterConnected : Act σ (TaskRequest τ) (Option τ)) :
    Act σ (TaskRequest τ) Unit := do
  let c ← P.getConn
  if (P.fields c).state ≠ .connecting then
    return
  P.modifyConn fun c => P.setFields c { P.fields c with connectDeadlineMs := 0 }
  match ← platformAfterConnected with
  | some error => P.startClose .connectFailed error
  | none => P.announceConnected

def handleTimerEvent (ev : TimerEvent) : Act σ (TaskRequest τ) Unit := do
  let c ← P.getConn
  if ev.id ≠ (P.fields c).id ∨ ev.kind ≠ .connectTimeout then
    return
  if (P.fields c).state = .connecting ∧ (P.fields c).connectDeadlineMs = ev.deadlineMs then
    P.startClose .connectTimeout (P.text .connectTimeout)

/-- The lambda `SendBuffer` posts, with `PlatformStartSend`. -/
def sendTask (platformStartSend : Act σ (TaskRequest τ) (Option τ)) (msg : List Byte) :
    Act σ (TaskRequest τ) Unit := do
  let c ← P.getConn
  if (P.fields c).connected then
    P.addMessage msg
    P.updateWriteInterest platformStartSend

/-- The lambda `ScheduleParseContinuation` posts. -/
def continueParse : Act σ (TaskRequest τ) Unit := do
  let c ← P.getConn
  if (P.fields c).connected then
    let _ ← P.parseInput codec

end Platform

end Connx
