import Connx.Lib.Resumption
import Connx.Utils.ByteBuffer
import Connx.Net.Runtime

/-!
# `ClientConnection`: data

The fields of a client connection, the tasks other threads post to it, the callbacks of its
handler, and the answers of the operating system. A task runs on one thread at a time and is
suspended only while it is inside a handler callback or a `Post` of its own, so tasks are programs
in the sense of `Connx.Lib.Resumption` over the connection and the shared runtime.

The executor is given here by what it does as a whole: `Post` adds a task to a queue, the drain
takes it off the front. Tasks do not touch the queue except by calling out to `Post`.

The last fields of `Conn` are history: they are written and never read by the code.
-/

namespace Connx

/-- `ClientConnection::State`. -/
inductive State where
  | idle
  | connecting
  | connected
  | closing
  deriving DecidableEq, Repr

/-- `ClientConnection::CloseReason`. -/
inductive CloseReason where
  | user
  | connectFailed
  | connectTimeout
  | remoteClosed
  | error
  | release
  deriving DecidableEq, Repr

/-- The descriptions a close can carry. -/
inductive ErrorText where
  | empty
  | errno (code : Int)
  | resolve (text : String)
  | connectTimeout
  | invalidLocalAddress
  | protocolDecodeError
  | protocolBufferStateError
  deriving DecidableEq, Repr

/-- The text of a description; `strerror` is the C library's. -/
def ErrorText.toString (strerror : Int → String) : ErrorText → String
  | .empty => ""
  | .errno code => "code: " ++ ToString.toString code ++ " (" ++ strerror code ++ ")"
  | .resolve text => text
  | .connectTimeout => "connect timeout"
  | .invalidLocalAddress => "invalid local address"
  | .protocolDecodeError => "protocol decode error"
  | .protocolBufferStateError => "protocol buffer state error"

/-- The callbacks of `ClientHandler`; the descriptions depend on the platform. -/
inductive HandlerCall (τ : Type) where
  | onConnected
  | onConnectFailed (reason : τ)
  | onClosed
  | onMessage (data : List Byte)
  deriving DecidableEq, Repr

abbrev Callback := HandlerCall ErrorText

/-- `enum class DecodeResult`. -/
inductive DecodeResult where
  | success
  | needMoreData
  | error
  deriving DecidableEq, Repr

/-- `enum PollOperation`; on POSIX the poller reports `ready` only. -/
inductive PollOperation where
  | ready
  | connect
  | recv
  | send
  deriving DecidableEq, Repr

/-- `struct PollEvent`. The event mask is given by its three flags, and `reg` is the number of the
registration the poller reports on. -/
structure PollEvent where
  id : ConnectionId
  readable : Bool := false
  writable : Bool := false
  error : Bool := false
  errorCode : Int := 0
  operation : PollOperation := .ready
  reg : Nat
  deriving DecidableEq, Repr

/-- What can be posted to a connection. `call` numbers the `Connect` or `Disconnect` call that
posted the task; `resolveFailed` and `disconnect` are its two lambdas around `StartClose`. -/
inductive Task where
  | connectResolved (call : Nat)
  | resolveFailed (desc : ErrorText) (call : Nat)
  | disconnect (call : Nat)
  | send (msg : List Byte)
  | pollEvent (ev : PollEvent)
  | timerEvent (ev : TimerEvent)
  | parseContinuation
  deriving DecidableEq, Repr

/-- What a task calls out for while it runs: the handler, or `Post` of its parse continuation. -/
inductive TaskRequest (τ : Type) where
  | callback (cb : HandlerCall τ)
  | postContinuation
  deriving DecidableEq, Repr

abbrev Request := TaskRequest ErrorText

/-- What happened to a connection, oldest first. `closing` is the line `StartClose` logs. -/
inductive Event where
  | ran (task : Task)
  | call (cb : Callback)
  | appended (bytes : List Byte)
  | closing (reason : CloseReason) (desc : ErrorText)
  | connectBegan (call : Nat)
  | connectMoved (call : Nat)
  | disconnectReturned (call : Nat)
  | ownerReturned
  deriving DecidableEq, Repr

/-- What happened to `send_buffer_`, oldest first: the kernel took bytes off its front, when
`pending_bytes_` and the length of the buffer had the given values, or it was cleared. -/
inductive OutputEvent where
  | accepted (bytes : List Byte) (pending length : Nat)
  | cleared
  deriving DecidableEq, Repr

/-- What a connection is constructed with. The codec answers its `n`-th call; a codec without
state ignores `n`. -/
structure Config where
  self : Nat
  codec : Nat → List Byte → DecodeResult × Nat
  connectTimeoutMs : Int := 0

/-- `PlatformOpenSocket`: the step that fails, or the new socket. -/
inductive OpenResult where
  | failed (error : ErrorText)
  | opened (fd : Int)
  deriving DecidableEq, Repr

/-- `connect(2)`, after the `EINTR` loop. -/
inductive ConnectResult where
  | done
  | inProgress
  | failed (errno : Int)
  deriving DecidableEq, Repr

/-- `recv(2)`; no bytes are the end of the stream. -/
inductive RecvResult where
  | bytes (data : List Byte)
  | eintr
  | eagain
  | failed (errno : Int)
  deriving DecidableEq, Repr

/-- `send(2)`. -/
inductive SendResult where
  | sent (n : Nat)
  | eintr
  | eagain
  | failed (errno : Int)
  deriving DecidableEq, Repr

/-- The answers the operating system gives to one task; a failing call gives its `errno`. When a
list of answers is used up the next answer is `EAGAIN`. -/
structure Kernel where
  openSocket : OpenResult := .failed .empty
  connect : ConnectResult := .inProgress
  pollerAdd : Option Int := none
  finishConnect : Option Int := none
  modifyConnected : Option Int := none
  recv : List RecvResult := []
  send : List SendResult := []
  modifySend : Option Int := none
  nowMs : Int := 0

/-- The fields of `ClientConnection` that the portable code works on. `parsed` counts the bytes at
the front of `recvBuffer` already handed to the handler (the local `offset` of `ParseInput`). -/
structure ConnFields (τ : Type) where
  state : State := .idle
  id : ConnectionId := {}
  connectDeadlineMs : Int := 0
  connected : Bool := false
  bytesSent : Nat := 0
  bytesReceived : Nat := 0
  pendingBytes : Nat := 0
  drainYieldRequested : Bool := false
  parseContinuationPending : Bool := false
  deferredClosePending : Bool := false
  deferredCloseReason : CloseReason := .remoteClosed
  deferredCloseDesc : τ
  recvBuffer : ByteBuffer := .empty
  sendBuffer : ByteBuffer := .empty
  acceptingTasks : Bool := true
  ownerClosing : Bool := false
  parsed : Nat := 0
  decodeCalls : Nat := 0

/-- The fields of `ClientConnection` on POSIX, with the tasks that are queued. -/
structure Conn extends ConnFields ErrorText where
  deferredCloseDesc := .empty
  fd : Int := -1
  pollInterest : Interest := {}
  queue : List Task := []
  trace : List Event := []
  output : List OutputEvent := []

/-- What a task of one connection works on. -/
structure Local where
  conn : Conn
  rt : Runtime

/-- Tasks as programs. -/
abbrev ConnM := Act Local Request

/-- `kParseMessageBudget`. -/
def parseMessageBudget : Nat := 64

/-- `kMaxReadBytesPerEvent`. -/
def maxReadBytesPerEvent : Nat := 1024 * 1024

/-- `kMaxWriteBytesPerEvent`. -/
def maxWriteBytesPerEvent : Nat := 1024 * 1024

/-- `IsValidSocketHandle`. -/
def isValidSocketHandle (fd : Int) : Bool := decide (0 ≤ fd)

namespace Conn

/-- Add an event to the history. -/
def note (c : Conn) (e : Event) : Conn := { c with trace := c.trace ++ [e] }

/-- `task_queue_.push`. -/
def push (c : Conn) (t : Task) : Conn := { c with queue := c.queue ++ [t] }

/-- `Post`, seen from outside: the task is queued unless the connection is being released. -/
def post (c : Conn) (t : Task) : Conn := if c.acceptingTasks then c.push t else c

/-- The bytes received and not yet handed to the handler. -/
def input (c : Conn) : List Byte := c.recvBuffer.content.drop c.parsed

end Conn

def modifyConn (f : Conn → Conn) : ConnM Unit := Act.modify fun s => { s with conn := f s.conn }

def getConn : ConnM Conn := do
  let s ← Act.get
  return s.conn

/-- Invoke a handler callback. -/
def callback (cb : Callback) : ConnM Unit := do
  modifyConn (·.note (.call cb))
  Act.call (.callback cb)

end Connx
