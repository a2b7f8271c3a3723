import Connx.Net.Connection.Portable
import Connx.Net.Poller.Iocp

/-!
# `ClientConnection` on Windows

Translated from `client_connection_win32.cc`, with the parts of `client_connection.cc` that depend
on the events and the sockets of the platform. A connection works through operations: one connect,
then one receive and one send at a time, each started when the completion of the one before it was
handled. The poller is the service of `Connx.Net.Poller.Completion`.
-/

namespace Connx.Windows

open Poll (Operation Outcome Completion Service)
open Poll.Iocp (Socket invalidSocket StartResult)

/-- The descriptions a close can carry; `common` are those that the portable code has on every
system. -/
inductive ErrorText where
  | common (text : Connx.ErrorText)
  | notInitialized
  | invalidRecvCompletion
  | invalidSendCompletion
  deriving DecidableEq, Repr

/-- The description that `StartConnect`, `StartRecv` or `StartSend` returns. -/
def startError : StartResult → Option ErrorText
  | .started => none
  | .notInitialized => some .notInitialized
  | .failed code => some (.common (.errno code))

abbrev Callback := HandlerCall ErrorText

/-- What can be posted to a connection. -/
inductive Task where
  | connectResolved
  | resolveFailed (desc : Connx.ErrorText)
  | disconnect
  | send (msg : List Byte)
  | completion (ev : Completion)
  | timerEvent (ev : TimerEvent)
  | parseContinuation
  deriving DecidableEq, Repr

abbrev Request := TaskRequest ErrorText

/-- What a connection is constructed with; `recvCacheSize` is `sizeof(recv_cache_)`. -/
structure Config extends Connx.Config where
  recvCacheSize : Nat := 65536

/-- The answers to one task: `PlatformOpenSocket`, the id that `Register` returns, `Add`, the
operations it starts, and `SO_UPDATE_CONNECT_CONTEXT`. -/
structure Kernel where
  openSocket : Except Connx.ErrorText Socket := .error .empty
  id : ConnectionId := {}
  add : Option Int := none
  startConnect : StartResult := .started
  updateContext : Option Int := none
  startRecv : StartResult := .started
  startSend : StartResult := .started
  nowMs : Int := 0

/-- The fields of `ClientConnection`, with the tasks that are queued and, as history, the closes. -/
structure Conn extends ConnFields ErrorText where
  deferredCloseDesc := .common .empty
  fd : Socket := invalidSocket
  recvPending : Bool := false
  sendPending : Bool := false
  queue : List Task := []
  closes : List (CloseReason × ErrorText) := []

/-- `Post`, seen from outside: the task is queued unless the connection is being released. -/
def Conn.post (c : Conn) (t : Task) : Conn :=
  if c.acceptingTasks then { c with queue := c.queue ++ [t] } else c

/-- The bytes received and not yet handed to the handler. -/
def Conn.input (c : Conn) : List Byte := c.recvBuffer.content.drop c.parsed

/-- Bytes for each id. -/
abbrev Bytes := ConnectionId → List Byte

/-- Add bytes to those of an id. -/
def Bytes.add (h : Bytes) (id : ConnectionId) (data : List Byte) : Bytes :=
  Function.update h id (h id ++ data)

/-- What a task works on, with what the poll thread has of the completions: the events of `Wait`
that are still to be dispatched, and the one for which it has acquired the connection. The other
fields are history: the ids the connection was registered under, those of other connections, and for
each id the bytes that were given to `send_buffer_`, those the system took, those it received, and
those the handler was given. -/
structure World where
  conn : Conn := {}
  service : Service := { opened := true }
  events : List Completion := []
  acquired : Option Completion := none
  ids : List ConnectionId := []
  others : List ConnectionId := []
  given : Bytes := fun _ => []
  sent : Bytes := fun _ => []
  received : Bytes := fun _ => []
  delivered : Bytes := fun _ => []

/-- Tasks as programs. -/
abbrev ConnM := Act World Request

def modifyConn (f : Conn → Conn) : ConnM Unit := Act.modify fun w => { w with conn := f w.conn }

def getConn : ConnM Conn := do
  let w ← Act.get
  return w.conn

/-- Invoke a handler callback. -/
def callback (cb : Callback) : ConnM Unit := Act.call (.callback cb)

/-- The system takes an operation on. -/
def World.start (w : World) (op : Operation) : World :=
  { w with service := { w.service with started := op ::ₘ w.service.started } }

variable (cfg : Config) (k : Kernel)

/-! ### Closing -/

def closeFd (c : Conn) : Conn :=
  if Poll.Iocp.isValidSocketHandle c.fd then { c with fd := invalidSocket } else c

/-- `PlatformResetIoState`. -/
def platformResetIoState (c : Conn) : Conn := { c with recvPending := false, sendPending := false }

def resetAfterClose (c : Conn) : Conn :=
  platformResetIoState { c with toConnFields := c.toConnFields.resetAfterClose (.common .empty) }

/-- The first statement of `FinishClose`. `Poller::Remove` asks the system to cancel what it has
taken on; this completes like everything else. -/
def unregisterConn (c : Conn) : Conn := if c.id.valid then { c with id := {} } else c

/-- The platform of the portable code. -/
abbrev windows : Platform World Conn ErrorText where
  getConn := getConn
  modifyConn := modifyConn
  fields := Conn.toConnFields
  setFields c f := { c with toConnFields := f }
  text := .common
  callback := callback
  hasSocket c := Poll.Iocp.isValidSocketHandle c.fd
  unregisterConn := modifyConn unregisterConn
  closeFd := modifyConn closeFd
  resetAfterClose := resetAfterClose
  logClose reason desc c := { c with closes := c.closes ++ [(reason, desc)] }
  passMessage offset data := Act.modify fun w => { w with
    conn := { w.conn with parsed := offset }
    delivered := w.delivered.add w.conn.id data }
  addMessage msg := Act.modify fun w => { w with
    conn := { w.conn with toConnFields := w.conn.toConnFields.addMessage msg }
    given := w.given.add w.conn.id msg }

def startClose (reason : CloseReason) (desc : ErrorText) : ConnM Unit :=
  windows.startClose reason desc

/-! ### Input -/

def deferCloseUntilInputDrained (reason : CloseReason) (desc : ErrorText) (c : Conn) : Conn :=
  { c with toConnFields := c.toConnFields.deferCloseUntilInputDrained reason desc }

def finishDeferredClose : ConnM Unit := windows.finishDeferredClose

def scheduleParseContinuation : ConnM Unit := windows.scheduleParseContinuation

def doneOrClosed : ConnM ParseStatus := windows.doneOrClosed

def parseLoop (merged : List Byte) (fuel offset : Nat) : ConnM (Option (Nat × Nat)) :=
  windows.parseLoop cfg.codec merged fuel offset

def yieldOrFinish (fuel : Nat) : ConnM ParseStatus := windows.yieldOrFinish fuel

def parseTail (offset fuel : Nat) : ConnM ParseStatus := windows.parseTail offset fuel

def parseInput : ConnM ParseStatus := windows.parseInput cfg.codec

/-! ### Operations -/

/-- `PlatformStartRecv`; an error is returned. -/
def platformStartRecv : ConnM (Option ErrorText) := do
  let c ← getConn
  if c.recvPending ∨ !c.id.valid ∨ !Poll.Iocp.isValidSocketHandle c.fd then
    return none
  modifyConn ({ · with recvPending := true })
  match startError k.startRecv with
  | some error =>
    modifyConn ({ · with recvPending := false })
    return some error
  | none =>
    Act.modify (·.start ⟨c.id, .recv, List.replicate cfg.recvCacheSize 0⟩)
    return none

/-- `PlatformStartSend`; an error is returned. -/
def platformStartSend : ConnM (Option ErrorText) := do
  let c ← getConn
  if c.sendPending ∨ c.sendBuffer.isEmpty ∨ !c.id.valid ∨
      !Poll.Iocp.isValidSocketHandle c.fd then
    return none
  modifyConn ({ · with sendPending := true })
  match startError k.startSend with
  | some error =>
    modifyConn ({ · with sendPending := false })
    return some error
  | none =>
    Act.modify (·.start ⟨c.id, .send, c.sendBuffer.front⟩)
    return none

def updateWriteInterest : ConnM Unit := windows.updateWriteInterest (platformStartSend k)

/-! ### Connecting -/

/-- `PlatformAfterConnected`. -/
def platformAfterConnected : ConnM (Option ErrorText) := do
  match k.updateContext with
  | some code => return some (.common (.errno code))
  | none => platformStartRecv cfg k

def handleConnected : ConnM Unit := windows.handleConnected (platformAfterConnected cfg k)

/-- `PlatformConnect`; it never reports a connection that is already there. -/
def platformConnect : ConnM (Option ErrorText) := do
  let c ← getConn
  match k.add with
  | some code => return some (.common (.errno code))
  | none =>
    match startError k.startConnect with
    | some error => return some error
    | none =>
      Act.modify (·.start ⟨c.id, .connect, []⟩)
      return none

/-- `id_ = Register(..)`. -/
def register (id : ConnectionId) (w : World) : World :=
  { w with conn := { w.conn with id := id }, ids := id :: w.ids }

/-- The connect timer; the events of the timer queue are the environment's. -/
def startConnectTimer (c : Conn) : Conn :=
  if 0 < cfg.connectTimeoutMs then
    { c with connectDeadlineMs := k.nowMs + cfg.connectTimeoutMs }
  else c

def connectResolved : ConnM Unit := do
  match k.openSocket with
  | .error error => startClose .connectFailed (.common error)
  | .ok fd =>
    modifyConn ({ · with fd := fd })
    Act.modify (register k.id)
    modifyConn (startConnectTimer cfg k)
    match ← platformConnect k with
    | some error => startClose .connectFailed error
    | none => return

/-! ### Completions -/

def handleConnectCompletion (ev : Completion) : ConnM Unit := do
  match ev.errorCode with
  | some code => startClose .connectFailed (.common (.errno code))
  | none => handleConnected cfg k

/-- What was received is added to the input. -/
def appendInput (data : List Byte) (c : Conn) : Conn :=
  { c with toConnFields := c.toConnFields.appendInput data }

/-- The end of the stream. -/
def handleEndOfStream : ConnM Unit := do
  let c ← getConn
  if 0 < c.recvBuffer.getBufferLength then
    modifyConn (deferCloseUntilInputDrained .remoteClosed (.common .empty))
    if !c.parseContinuationPending then
      let _ ← parseInput cfg
  else
    startClose .remoteClosed (.common .empty)

/-- The part of `HandleRecvCompletion` after its checks. -/
def handleReceived (data : List Byte) : ConnM Unit := do
  modifyConn (appendInput data)
  let status ← parseInput cfg
  if status = .closed then
    return
  match ← platformStartRecv cfg k with
  | some error => startClose .error error
  | none => return

/-- `HandleRecvCompletion`; `ev.received` is what the system has put into the buffer of the
request. -/
def handleRecvCompletion (ev : Completion) : ConnM Unit := do
  modifyConn ({ · with recvPending := false })
  let c ← getConn
  if !c.connected then
    return
  match ev.errorCode with
  | some code => startClose .error (.common (.errno code))
  | none =>
    if ev.bytes = 0 then
      handleEndOfStream cfg
    else if ev.received.length < ev.bytes then
      startClose .error .invalidRecvCompletion
    else
      handleReceived cfg k (ev.received.take ev.bytes)

/-- The counters after the system has sent `sent` bytes. -/
def afterSend (sent : Nat) (c : Conn) : Conn :=
  { c with bytesSent := c.bytesSent + sent, pendingBytes := c.pendingBytes - sent }

/-- `send_buffer_.MoveHeader(sent)`. -/
def moveSendHeader (sent : Nat) : ConnM Bool := do
  let c ← getConn
  modifyConn ({ · with sendBuffer := (c.sendBuffer.moveHeader sent).2 })
  return (c.sendBuffer.moveHeader sent).1

/-- The end of `HandleSendCompletion`. -/
def sendNext : ConnM Unit := do
  match ← platformStartSend k with
  | some error => startClose .error error
  | none => return

def handleSendCompletion (ev : Completion) : ConnM Unit := do
  modifyConn ({ · with sendPending := false })
  let c ← getConn
  if !c.connected then
    return
  match ev.errorCode with
  | some code => startClose .error (.common (.errno code))
  | none =>
    if 0 < ev.bytes then
      modifyConn (afterSend ev.bytes)
      if ← moveSendHeader ev.bytes then
        sendNext k
      else
        startClose .error .invalidSendCompletion
    else
      sendNext k

/-- The part of `HandlePollEvent` for events that are no completions; `PlatformFinishConnect`,
`PlatformHandleReadable` and `PlatformHandleWritable` do nothing. -/
def handleReadyEvent (ev : Completion) : ConnM Unit := do
  let c ← getConn
  if c.state = .idle ∨ c.state = .closing then
    return
  match ev.errorCode with
  | some code =>
    startClose (if c.connected then .error else .connectFailed) (.common (.errno code))
  | none =>
    if c.state = .connecting ∧ (ev.readable ∨ ev.writable) then
      handleConnected cfg k

def handlePollEvent (ev : Completion) : ConnM Unit := do
  let c ← getConn
  if ev.id ≠ c.id then
    return
  match ev.operation with
  | .connect => handleConnectCompletion cfg k ev
  | .recv => handleRecvCompletion cfg k ev
  | .send => handleSendCompletion k ev
  | .ready => handleReadyEvent cfg k ev

def handleTimerEvent (ev : TimerEvent) : ConnM Unit := windows.handleTimerEvent ev

/-- The lambda `SendBuffer` posts. -/
def sendTask (msg : List Byte) : ConnM Unit := windows.sendTask (platformStartSend k) msg

/-- The lambda `ScheduleParseContinuation` posts. -/
def continueParse : ConnM Unit := windows.continueParse cfg.codec

/-- The code of a task. -/
def taskBody : Task → ConnM Unit
  | .connectResolved => connectResolved cfg k
  | .resolveFailed desc => startClose .connectFailed (.common desc)
  | .disconnect => startClose .user (.common .empty)
  | .send msg => sendTask k msg
  | .completion ev => handlePollEvent cfg k ev
  | .timerEvent ev => handleTimerEvent ev
  | .parseContinuation => continueParse cfg

end Connx.Windows
