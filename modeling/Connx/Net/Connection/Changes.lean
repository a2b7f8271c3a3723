import Connx.Net.Connection.Programs

/-!
# What tasks do to a connection, and what others may do meanwhile

`Change` lists every way in which the code of a task changes a connection and the shared runtime
between two suspensions, with what holds of the connection then. `Outside` lists what the
application's threads and the other connections can do while a task is suspended. Later results
are checked against these two lists and never against the code again.
-/

namespace Connx

open Relation

variable (cfg : Config) (k : Kernel)

/-! ### Input that has been drained -/

/-- Decoding `x` gives no message now: it is empty, or the codec asks for more. -/
def Drained (x : List Byte) : Prop :=
  x = [] ∨ ∃ call n, cfg.codec call x = (.needMoreData, n)

/-- Decoding `x` gives the messages `ms` one after the other and leaves `y`. -/
inductive Decodes : List Byte → List (List Byte) → List Byte → Prop
  | nil (x : List Byte) : Decodes x [] x
  | cons {x y : List Byte} {ms : List (List Byte)} (call n : Nat)
      (h : cfg.codec call x = (.success, n)) (hpos : 0 < n) (hle : n ≤ x.length)
      (hrest : Decodes (x.drop n) ms y) : Decodes x (x.take n :: ms) y

/-- What one `ParseInput` leaves of `x`: the budget is used up, or the rest is drained. -/
def Leftover (x y : List Byte) : Prop :=
  ∃ ms, Decodes cfg x ms y ∧ ms.length ≤ parseMessageBudget ∧
    (ms.length = parseMessageBudget ∨ Drained cfg y)

/-- The codec rejects `x`: an error, or a message of impossible length. -/
def Rejected (x : List Byte) : Prop :=
  x ≠ [] ∧ ∃ call n, (cfg.codec call x).1 ≠ .needMoreData ∧ (cfg.codec call x).2 = n ∧
    ((cfg.codec call x).1 = .error ∨ n = 0 ∨ x.length < n)

/-! ### Changes made by tasks -/

/-- Facts about the steps of a run: about a socket that is adopted, about an attempt that fails on
an established connection, about the input over which an error closes a connection, and about a
`Connect` that moves the state. A result about all runs assumes none of them. -/
structure Facts where
  opening : Local → Int → Prop := fun _ _ => True
  strayFail : Prop := True
  abrupt : Config → List Byte → Prop := fun _ _ => True
  moving : Conn → Nat → Prop := fun _ _ => True

/-- The reasons and descriptions of a close that the peer or the network causes. -/
def NetworkClose (reason : CloseReason) (desc : ErrorText) : Prop :=
  (reason = .remoteClosed ∧ desc = .empty) ∨ (reason = .error ∧ ∃ e, desc = .errno e)

/-- Why a task calls `StartClose` on an active connection. -/
inductive Cause (F : Facts) (c : Conn) : CloseReason → ErrorText → Prop
  | user (call : Nat) (h : c.trace.getLast? = some (.ran (.disconnect call))) :
      Cause F c .user .empty
  | attemptFailed (h : c.state = .connecting) (desc : ErrorText) : Cause F c .connectFailed desc
  | timeout (h : c.state = .connecting) : Cause F c .connectTimeout .connectTimeout
  | decodeError (h : c.connected = true) (hr : Rejected cfg c.input) :
      Cause F c .error .protocolDecodeError
  | drained (h : c.connected = true) (hd : Drained cfg c.input) {reason : CloseReason}
      {desc : ErrorText} (hn : NetworkClose reason desc) : Cause F c reason desc
  | abrupt (h : c.connected = true) (hF : F.abrupt cfg c.input) (e : Int) :
      Cause F c .error (.errno e)
  | stray (h : c.state = .connected) (hF : F.strayFail) (desc : ErrorText) :
      Cause F c .connectFailed desc

/-- `StartClose` and `FinishClose` on an active connection, up to the callback. -/
def closeConn (reason : CloseReason) (desc : ErrorText) (s : Local) : Local :=
  let s := { s with conn := { s.conn.note (.closing reason desc) with
    state := .closing, connected := false, connectDeadlineMs := 0 } }
  let s := closeFd cfg (unregisterConn cfg s)
  { s with conn := { resetAfterClose s.conn with state := .idle } }

section closeConn

variable (reason : CloseReason) (desc : ErrorText) (s : Local)

lemma closeConn_conn : (closeConn cfg reason desc s).conn =
    { s.conn.note (.closing reason desc) with
      state := .idle
      connected := false
      connectDeadlineMs := 0
      id := if s.conn.id.valid then {} else s.conn.id
      fd := if isValidSocketHandle s.conn.fd then -1 else s.conn.fd
      pollInterest := {}
      recvBuffer := .empty
      sendBuffer := .empty
      pendingBytes := 0
      drainYieldRequested := false
      parseContinuationPending := false
      deferredClosePending := false
      deferredCloseDesc := .empty
      parsed := 0
      output := s.conn.output ++ [.cleared] } := by
  by_cases hid : s.conn.id.valid <;> by_cases hfd : isValidSocketHandle s.conn.fd <;>
    simp [closeConn, closeFd, unregisterConn, resetAfterClose, ConnFields.resetAfterClose,
      Conn.note, ByteBuffer.clearBuffer, hid, hfd]

lemma closeConn_trace :
    (closeConn cfg reason desc s).conn.trace = s.conn.trace ++ [.closing reason desc] := by
  rw [closeConn_conn]; rfl

/-- The table after a close. -/
lemma closeConn_connections : (closeConn cfg reason desc s).rt.connections =
    if s.conn.id.valid then s.rt.connections.unregister s.conn.id else s.rt.connections := by
  by_cases hid : s.conn.id.valid <;> by_cases hfd : isValidSocketHandle s.conn.fd <;>
    simp [closeConn, closeFd, unregisterConn, Conn.note, hid, hfd, Runtime.closeSocket,
      Runtime.pollerRemove, Runtime.unregister]

lemma closeConn_sockets : (closeConn cfg reason desc s).rt.sockets =
    if isValidSocketHandle s.conn.fd then s.rt.sockets.filter (· ≠ (cfg.self, s.conn.fd))
    else s.rt.sockets := by
  by_cases hid : s.conn.id.valid <;> by_cases hfd : isValidSocketHandle s.conn.fd <;>
    simp [closeConn, closeFd, unregisterConn, Conn.note, hid, hfd, Runtime.closeSocket,
      Runtime.pollerRemove, Runtime.unregister]

lemma closeConn_poller : (closeConn cfg reason desc s).rt.poller =
    if s.conn.id.valid then Function.update s.rt.poller s.conn.fd none else s.rt.poller := by
  by_cases hid : s.conn.id.valid <;> by_cases hfd : isValidSocketHandle s.conn.fd <;>
    simp [closeConn, closeFd, unregisterConn, Conn.note, hid, hfd, Runtime.closeSocket,
      Runtime.pollerRemove, Runtime.unregister]

end closeConn

/-- The connection as the callback of a close finds it. -/
def noteClose (reason : CloseReason) (desc : ErrorText) (c : Conn) : Conn :=
  if closeNotifies reason then c.note (.call (closeCallback reason desc)) else c

/-- A connection on which `StartClose` acts. -/
def Conn.Active (c : Conn) : Prop := c.state = .connecting ∨ c.state = .connected

/-- The fields that bookkeeping leaves alone. -/
structure Conn.SameCore (c c' : Conn) : Prop where
  state : c'.state = c.state
  id : c'.id = c.id
  fd : c'.fd = c.fd
  connected : c'.connected = c.connected
  recvBuffer : c'.recvBuffer = c.recvBuffer
  queue : c'.queue = c.queue
  acceptingTasks : c'.acceptingTasks = c.acceptingTasks
  ownerClosing : c'.ownerClosing = c.ownerClosing
  parsed : c'.parsed = c.parsed
  trace : c'.trace = c.trace

/-- The fields that `SameCore` compares. -/
def Conn.core (c : Conn) :=
  (c.state, c.id, c.fd, c.connected, c.recvBuffer, c.queue, c.acceptingTasks, c.ownerClosing,
    c.parsed, c.trace)

lemma Conn.SameCore.of_core {c c' : Conn} (h : c'.core = c.core) : c.SameCore c' := by
  simp only [Conn.core, Prod.mk.injEq] at h
  obtain ⟨hstate, hid, hfd, hconnected, hrecv, hqueue, haccepting, howner, hparsed, htrace⟩ := h
  exact ⟨hstate, hid, hfd, hconnected, hrecv, hqueue, haccepting, howner, hparsed, htrace⟩

/-- A task may act on an established connection, or as long as nothing was reported since it
began. -/
def Conn.Acting (c : Conn) : Prop := c.connected = true ∨ ∃ t, c.trace.getLast? = some (.ran t)

/-- One change made by the code of a task. -/
inductive Change (F : Facts) : Local → Local → Prop
  | bookkeeping {s : Local} (c' : Conn) (p : Int → Option (ConnectionId × Interest))
      (hacting : s.conn.Acting) (h : s.conn.SameCore c') :
      Change F s ⟨c', { s.rt with poller := p }⟩
  | adopt {s : Local} (call : Nat) (fd : Int)
      (hran : s.conn.trace.getLast? = some (.ran (.connectResolved call))) (h : F.opening s fd) :
      Change F s (startConnectTimer cfg k (adoptSocket cfg fd s))
  | establish {s : Local} (hacting : s.conn.Acting) (h : s.conn.state = .connecting)
      (hown : .ownerReturned ∉ s.conn.trace) :
      Change F s { s with conn := { s.conn.note (.call .onConnected) with
        state := .connected, connected := true } }
  | append {s : Local} (data : List Byte) (h : s.conn.connected = true) (hne : data ≠ []) :
      Change F s { s with conn := appendInput data s.conn }
  | deliver {s : Local} (call n : Nat) (h : s.conn.connected = true)
      (hcodec : cfg.codec call s.conn.input = (.success, n)) (hpos : 0 < n)
      (hle : n ≤ s.conn.input.length) (hown : .ownerReturned ∉ s.conn.trace) :
      Change F s { s with conn := { s.conn.note (.call (.onMessage (s.conn.input.take n))) with
        parsed := s.conn.parsed + n } }
  | commit {s : Local} (h : s.conn.connected = true)
      (hle : s.conn.parsed ≤ s.conn.recvBuffer.content.length) :
      Change F s { s with conn := { s.conn with
        recvBuffer := (s.conn.recvBuffer.moveHeader s.conn.parsed).2, parsed := 0 } }
  | close {s : Local} (reason : CloseReason) (desc : ErrorText) (hacting : s.conn.Acting)
      (hact : s.conn.Active) (h : Cause cfg F s.conn reason desc)
      (hown : closeNotifies reason = true → .ownerReturned ∉ s.conn.trace) :
      Change F s { closeConn cfg reason desc s with
        conn := noteClose reason desc (closeConn cfg reason desc s).conn }

/-- What a task may do between two suspensions. -/
abbrev Changes (F : Facts) : Local → Local → Prop := ReflTransGen (Change cfg k F)

/-- What holds when a task calls out: the history ends with the callback, or the connection is
established and its input goes on later. -/
def Calls : Request → Local → Prop
  | .callback cb => fun s => s.conn.trace.getLast? = some (.call cb)
  | .postContinuation => fun s => s.conn.connected = true

/-! ### Interference while a task is suspended -/

/-- One change by another thread, or by the handler while it is called. -/
inductive Outside : Conn → Conn → Prop
  | connectBegan {c : Conn} (call : Nat) : Outside c (c.note (.connectBegan call))
  | connectMoved {c : Conn} (call : Nat) (h : c.state = .idle) :
      Outside c { c.note (.connectMoved call) with state := .connecting, connected := false }
  | disconnectReturned {c : Conn} (call : Nat) : Outside c (c.note (.disconnectReturned call))
  | push {c : Conn} (t : Task) : Outside c (c.push t)
  | ownerClosing {c : Conn} : Outside c { c with ownerClosing := true }
  | stopAccepting {c : Conn} : Outside c { c with acceptingTasks := false }

/-- `StartClose(kRelease)`, which calls nothing. -/
def closeRelease (s : Local) : Local :=
  if s.conn.state = .idle ∨ s.conn.state = .closing then s else closeConn cfg .release .empty s

/-- What `CloseFromOwner` does when the handler calls it, besides giving up the queue. -/
inductive Releasing : Conn → Conn → Prop
  | discard {c : Conn} {t : Task} {rest : List Task} (hq : c.queue = t :: rest)
      (h : c.acceptingTasks = false) : Releasing c { c with queue := rest }
  | close {c : Conn} (rt : Runtime) : Releasing c (closeRelease cfg ⟨c, rt⟩).conn
  | returned {c : Conn} (h : c.connected = false) : Releasing c (c.note .ownerReturned)

/-- What can happen to the connection in a callback. -/
def Meanwhile (c c' : Conn) : Prop := Outside c c' ∨ Releasing cfg c c'

/-- What can happen during one suspension; other connections are free to change the runtime. Only
a callback can release the connection; a `Post` ends with the task queued, unless tasks are not
accepted any more. -/
def Rely : Request → Local → Local → Prop
  | .callback _ => fun s s' => ReflTransGen (Meanwhile cfg) s.conn s'.conn
  | .postContinuation => fun s s' => ReflTransGen Outside s.conn s'.conn ∧
      (.parseContinuation ∈ s'.conn.queue ∨ s'.conn.acceptingTasks = false)

end Connx
