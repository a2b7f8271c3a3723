import Connx.Net.Connection.Portable

/-!
# `ClientConnection` on POSIX: the code of its tasks

Translated from `client_connection_posix.cc`, with the parts of `client_connection.cc` that depend
on the events and the sockets of the platform.
-/

namespace Connx

variable (cfg : Config) (k : Kernel)

/-! ### Closing -/

/-- `PlatformCloseSocket`. -/
def closeFd (s : Local) : Local :=
  if isValidSocketHandle s.conn.fd then
    { conn := { s.conn with fd := -1 }, rt := s.rt.closeSocket cfg.self s.conn.fd }
  else s

def resetAfterClose (c : Conn) : Conn :=
  { c with
    toConnFields := c.toConnFields.resetAfterClose .empty
    pollInterest := {}
    output := c.output ++ [.cleared] }

/-- The first statement of `FinishClose`: leave the poller and the connection table. -/
def unregisterConn (s : Local) : Local :=
  if s.conn.id.valid then
    { conn := { s.conn with id := {} },
      rt := (s.rt.pollerRemove s.conn.fd).unregister cfg.self s.conn.id }
  else s

/-- The platform of the portable code. -/
abbrev posix : Platform Local Conn ErrorText where
  getConn := getConn
  modifyConn := modifyConn
  fields := Conn.toConnFields
  setFields c f := { c with toConnFields := f }
  text desc := desc
  callback := callback
  hasSocket c := isValidSocketHandle c.fd
  unregisterConn := Act.modify (unregisterConn cfg)
  closeFd := Act.modify (closeFd cfg)
  resetAfterClose := resetAfterClose
  logClose reason desc c := c.note (.closing reason desc)
  passMessage offset _ := modifyConn ({ · with parsed := offset })
  addMessage msg := modifyConn fun c => { c with toConnFields := c.toConnFields.addMessage msg }

def startClose (reason : CloseReason) (desc : ErrorText) : ConnM Unit :=
  (posix cfg).startClose reason desc

/-! ### Input -/

def deferCloseUntilInputDrained (reason : CloseReason) (desc : ErrorText) (c : Conn) : Conn :=
  { c with toConnFields := c.toConnFields.deferCloseUntilInputDrained reason desc }

def finishDeferredClose : ConnM Unit := (posix cfg).finishDeferredClose

def scheduleParseContinuation : ConnM Unit := (posix cfg).scheduleParseContinuation

def doneOrClosed : ConnM ParseStatus := (posix cfg).doneOrClosed

def parseLoop (merged : List Byte) (fuel offset : Nat) : ConnM (Option (Nat × Nat)) :=
  (posix cfg).parseLoop cfg.codec merged fuel offset

def yieldOrFinish (fuel : Nat) : ConnM ParseStatus := (posix cfg).yieldOrFinish fuel

def parseTail (offset fuel : Nat) : ConnM ParseStatus := (posix cfg).parseTail offset fuel

def parseInput : ConnM ParseStatus := (posix cfg).parseInput cfg.codec

def appendInput (data : List Byte) (c : Conn) : Conn :=
  { c.note (.appended data) with toConnFields := c.toConnFields.appendInput data }

/-- The loop of `PlatformHandleReadable`, which ends with the close it asks for. -/
def recvLoop : List RecvResult → Nat → ConnM (Option (CloseReason × ErrorText))
  | [], _ => return none
  | r :: rs, bytesThisEvent => do
    if maxReadBytesPerEvent ≤ bytesThisEvent then
      return none
    match r with
    | .bytes [] => return some (.remoteClosed, .empty)
    | .bytes data =>
      modifyConn (appendInput data)
      recvLoop rs (bytesThisEvent + data.length)
    | .eintr => recvLoop rs bytesThisEvent
    | .eagain => return none
    | .failed e => return some (.error, .errno e)

/-- What `PlatformHandleReadable` does with the close its loop asks for, after `ParseInput`. -/
def closeAfterParse (status : ParseStatus) : Option (CloseReason × ErrorText) → ConnM Unit
  | none => return
  | some (reason, desc) =>
    match status with
    | .closed => return
    | .yielded => modifyConn (deferCloseUntilInputDrained reason desc)
    | .done => startClose cfg reason desc

def platformHandleReadable : ConnM Unit := do
  let close ← recvLoop k.recv 0
  let c ← getConn
  if 0 < c.recvBuffer.getBufferLength then
    let status ← parseInput cfg
    closeAfterParse cfg status close
  else
    closeAfterParse cfg .done close

/-! ### Output -/

/-- `PlatformStartSend`; the error of a failing `Modify` is returned. -/
def platformStartSend : ConnM (Option ErrorText) := do
  let c ← getConn
  let interest : Interest := { readable := true, writable := !c.sendBuffer.isEmpty }
  if interest = c.pollInterest then
    return none
  match k.modifySend with
  | some e => return some (.errno e)
  | none =>
    Act.modify fun s => { s with rt := s.rt.pollerSet s.conn.fd s.conn.id interest }
    modifyConn ({ · with pollInterest := interest })
    return none

def updateWriteInterest : ConnM Unit := (posix cfg).updateWriteInterest (platformStartSend k)

/-- The counters and the buffer after the kernel took `sent` bytes. -/
def afterSend (sent : Nat) (c : Conn) : Conn :=
  { c with
    bytesSent := c.bytesSent + sent
    pendingBytes := c.pendingBytes - sent
    sendBuffer := (c.sendBuffer.moveHeader sent).2
    output := c.output ++
      [.accepted (c.sendBuffer.front.take sent) c.pendingBytes c.sendBuffer.getBufferLength] }

/-- The loop of `PlatformHandleWritable`. The kernel takes at most the slice it was given. -/
def sendLoop : List SendResult → Nat → ConnM Unit
  | [], _ => updateWriteInterest cfg k
  | r :: rs, bytesThisEvent => do
    if maxWriteBytesPerEvent ≤ bytesThisEvent then
      updateWriteInterest cfg k
    else
      let c ← getConn
      if c.sendBuffer.isEmpty then
        updateWriteInterest cfg k
      else
        match r with
        | .eintr => sendLoop rs bytesThisEvent
        | .eagain => updateWriteInterest cfg k
        | .failed e => startClose cfg .error (.errno e)
        | .sent 0 => updateWriteInterest cfg k
        | .sent (n + 1) =>
          let sent := min (n + 1) c.sendBuffer.front.length
          modifyConn (afterSend sent)
          sendLoop rs (bytesThisEvent + sent)

def platformHandleWritable : ConnM Unit := sendLoop cfg k k.send 0

/-! ### Connecting -/

/-- `PlatformAfterConnected`. -/
def platformAfterConnected : ConnM (Option ErrorText) := do
  modifyConn ({ · with pollInterest := { readable := true } })
  match k.modifyConnected with
  | some e => return some (.errno e)
  | none =>
    Act.modify fun s => { s with rt := s.rt.pollerSet s.conn.fd s.conn.id s.conn.pollInterest }
    return none

def handleConnected : ConnM Unit := (posix cfg).handleConnected (platformAfterConnected k)

/-- The poller registration in `PlatformConnect`. -/
def registerInterest (interest : Interest) : ConnM (Option ErrorText) := do
  modifyConn ({ · with pollInterest := interest })
  match k.pollerAdd with
  | some e => return some (.errno e)
  | none =>
    Act.modify fun s => { s with rt := s.rt.pollerSet s.conn.fd s.conn.id interest }
    return none

/-- `PlatformConnect`: an error, or whether the connection is already established. -/
def platformConnect : ConnM (Except ErrorText Bool) := do
  match k.connect with
  | .done =>
    match ← registerInterest k { readable := true } with
    | some error => return .error error
    | none => return .ok true
  | .inProgress =>
    match ← registerInterest k { readable := true, writable := true } with
    | some error => return .error error
    | none => return .ok false
  | .failed e => return .error (.errno e)

/-- The socket, its registration and its timer, in `ConnectResolved`. -/
def adoptSocket (fd : Int) (s : Local) : Local :=
  let (id, rt) := (s.rt.openSocket cfg.self fd).register cfg.self
  { conn := { s.conn with fd := fd, id := id }, rt := rt }

/-- The connect timer; its registration is the latest one. -/
def startConnectTimer (s : Local) : Local :=
  if 0 < cfg.connectTimeoutMs then
    let deadline := k.nowMs + cfg.connectTimeoutMs
    { conn := { s.conn with connectDeadlineMs := deadline },
      rt := s.rt.addTimer ⟨deadline, s.conn.id, .connectTimeout, s.rt.registrations.length - 1⟩ }
  else s

def connectResolved : ConnM Unit := do
  match k.openSocket with
  | .failed error => startClose cfg .connectFailed error
  | .opened fd =>
    Act.modify (adoptSocket cfg fd)
    Act.modify (startConnectTimer cfg k)
    match ← platformConnect k with
    | .error error => startClose cfg .connectFailed error
    | .ok true => handleConnected cfg k
    | .ok false => return

/-! ### Events -/

/-- `PlatformFinishConnect`. -/
def platformFinishConnect : Option ErrorText := k.finishConnect.map .errno

/-- The `kPollEventError` branch of `HandlePollEvent`. -/
def handleErrorEvent (ev : PollEvent) : ConnM Unit := do
  let c ← getConn
  match if c.state = .connecting then platformFinishConnect k else none with
  | some error => startClose cfg .connectFailed error
  | none => startClose cfg (if c.connected then .error else .connectFailed) (.errno ev.errorCode)

/-- The connection is asked to finish connecting, when it still is; the result says whether
`HandlePollEvent` goes on. -/
def finishConnecting (ev : PollEvent) : ConnM Bool := do
  let c ← getConn
  if c.state = .connecting ∧ (ev.readable ∨ ev.writable) then
    match platformFinishConnect k with
    | some error =>
      startClose cfg .connectFailed error
      return false
    | none =>
      handleConnected cfg k
      let c ← getConn
      return c.connected
  else
    return true

/-- The readable part of `HandlePollEvent`; the result says whether it goes on. -/
def handleReadableEvent (ev : PollEvent) : ConnM Bool := do
  if ev.readable then
    platformHandleReadable cfg k
    let c ← getConn
    return c.connected
  else
    return true

/-- The part of `HandlePollEvent` after the error branch. -/
def handleReadyEvent (ev : PollEvent) : ConnM Unit := do
  if ← finishConnecting cfg k ev then
    if ← handleReadableEvent cfg k ev then
      if ev.writable then
        platformHandleWritable cfg k

def handlePollEvent (ev : PollEvent) : ConnM Unit := do
  let c ← getConn
  if ev.id ≠ c.id then
    return
  -- the completions are empty functions on POSIX
  if ev.operation ≠ .ready then
    return
  if c.state = .idle ∨ c.state = .closing then
    return
  if ev.error then
    handleErrorEvent cfg k ev
  else
    handleReadyEvent cfg k ev

def handleTimerEvent (ev : TimerEvent) : ConnM Unit := (posix cfg).handleTimerEvent ev

/-- The lambda `SendBuffer` posts. -/
def sendTask (msg : List Byte) : ConnM Unit := (posix cfg).sendTask (platformStartSend k) msg

/-- The lambda `ScheduleParseContinuation` posts. -/
def continueParse : ConnM Unit := (posix cfg).continueParse cfg.codec

/-- The code of a task. -/
def taskBody : Task → ConnM Unit
  | .connectResolved _ => connectResolved cfg k
  | .resolveFailed desc _ => startClose cfg .connectFailed desc
  | .disconnect _ => startClose cfg .user .empty
  | .send msg => sendTask cfg k msg
  | .pollEvent ev => handlePollEvent cfg k ev
  | .timerEvent ev => handleTimerEvent cfg ev
  | .parseContinuation => continueParse cfg

end Connx
