import Connx.Net.Connection.Programs
import Connx.Lib.Run

/-!
# Clients, their threads and the poll thread

Any number of client connections share one runtime. A step is one atomic action of an application
thread inside `Connect`, `Disconnect`, `SendBuffer` or `CloseFromOwner`, one stretch of a task
between two callbacks, or one action of `GlobalRuntime::PollLoop`. `Connect` is taken apart into
its beginning, its change of `state_`, and its `Post` after the address was resolved; what the
resolver, the kernel and the poller answer is part of the label of the step.
-/

namespace Connx

/-- What is left of a task that is inside a callback. -/
abbrev Suspended := Local → Resum Local Request Unit

/-- A client connection, the rest of its current task, and the calls its threads have under way:
`Connect` before and after its change of `state_`, `Disconnect` after its `Post`, `SendBuffer`
before its `Post`. -/
structure Client where
  conn : Conn := {}
  running : Option Suspended := none
  begun : List Nat := []
  resolving : List Nat := []
  leaving : List Nat := []
  sending : List (List Byte) := []

/-- The local variables of `PollLoop`: the events and timers still to be dispatched, and the
connection acquired for one of them. -/
structure PollThread where
  events : List PollEvent := []
  timers : List TimerEvent := []
  acquired : Option (Nat × Task) := none

/-- The whole system; `calls` numbers the calls of the application. -/
structure System where
  clients : Nat → Client := fun _ => {}
  rt : Runtime := {}
  poll : PollThread := {}
  calls : Nat := 0

/-- The steps of the system. -/
inductive Label where
  | connectBegin (client : Nat)
  | connectMove (client call : Nat)
  | connectPost (client call : Nat) (error : Option String)
  | disconnectPost (client : Nat)
  | disconnectReturn (client call : Nat)
  | sendCheck (client : Nat) (msg : List Byte)
  | sendPost (client : Nat) (msg : List Byte)
  | ownerClosing (client : Nat)
  | stopAccepting (client : Nat)
  | ownerReturn (client : Nat)
  | releaseInCallback (client : Nat)
  | drain (client : Nat) (kernel : Kernel)
  | resume (client : Nat)
  | pollWait (events : List PollEvent)
  | acquireEvent
  | popExpired (nowMs : Int)
  | acquireTimer
  | postAcquired

/-- Run a task up to its next callback. `Post` of a parse continuation is carried out at once. -/
def untilCallback : Resum Local Request Unit → Local × Option Suspended
  | .ret _ s => (s, none)
  | .call (.callback _) s k => (s, some k)
  | .call .postContinuation s k =>
    untilCallback (k { s with conn := s.conn.post .parseContinuation })

/-- The kernel returns a valid descriptor that is not open. -/
def Kernel.fits (k : Kernel) (rt : Runtime) : Bool :=
  match k.openSocket with
  | .failed _ => true
  | .opened fd => isValidSocketHandle fd && !(rt.sockets.map Prod.snd).contains fd

/-- The event reports on a registration, whose id has been through the tag of the poller. -/
def PollEvent.reports (ev : PollEvent) (rt : Runtime) : Bool :=
  match rt.registrations[ev.reg]? with
  | some (_, id) => ev.id == .fromUint64 id.toUint64
  | none => false

/-- A connection knows its own number. -/
def cfgOf (cfgs : Nat → Config) (i : Nat) : Config := { cfgs i with self := i }

/-- `DrainTaskQueue`. -/
def Conn.drainTaskQueue (c : Conn) : Conn := { c with queue := [] }

/-- The first two statements of `CloseFromOwner`. -/
def Conn.stopTasks (c : Conn) : Conn := { c with ownerClosing := true, acceptingTasks := false }

/-- `DrainTaskQueue` and `StartClose(kRelease)`, which calls nothing. -/
def drainClosing (cfg : Config) (s : Local) : Local :=
  (untilCallback (startClose cfg .release .empty ⟨s.conn.drainTaskQueue, s.rt⟩)).1

/-- `CloseFromOwner` when the handler calls it. -/
def closeFromCallback (cfg : Config) (s : Local) : Local :=
  let s := drainClosing cfg ⟨s.conn.stopTasks, s.rt⟩
  { s with conn := s.conn.note .ownerReturned }

/-- The connection that starts its task `t`. -/
def Conn.start (c : Conn) (t : Task) (rest : List Task) : Conn :=
  { c with queue := rest }.note (.ran t)

namespace System

variable (cfgs : Nat → Config) (S : System)

/-- What a task of the client works on. -/
def loc (i : Nat) : Local := ⟨(S.clients i).conn, S.rt⟩

def setClient (i : Nat) (c : Client) : System :=
  { S with clients := Function.update S.clients i c }

def setConn (i : Nat) (c : Conn) : System := S.setClient i { S.clients i with conn := c }

/-- The system after a task of the client ran to its end or to a callback. -/
def land (i : Nat) (r : Local × Option Suspended) : System :=
  { S.setClient i { S.clients i with conn := r.1.conn, running := r.2 } with rt := r.1.rt }

def postTo (i : Nat) (t : Task) : System := S.setConn i ((S.clients i).conn.post t)

/-- `PollLoop` between two of its lists. -/
def pollIdle : Bool := S.poll.events.isEmpty && S.poll.timers.isEmpty && S.poll.acquired.isNone

/-- `Connect` is called. -/
def connectBegin (i : Nat) : System :=
  let c := S.clients i
  { S.setClient i { c with
      conn := c.conn.note (.connectBegan S.calls), begun := S.calls :: c.begun } with
    calls := S.calls + 1 }

/-- `Connect` holds `state_mtx_`. -/
def connectMove (i call : Nat) : Option System :=
  let c := S.clients i
  if call ∈ c.begun then
    if c.conn.state = .idle then
      some (S.setClient i { c with
        conn := { c.conn.note (.connectMoved call) with state := .connecting, connected := false }
        begun := c.begun.erase call
        resolving := call :: c.resolving })
    else some (S.setClient i { c with begun := c.begun.erase call })
  else none

/-- The task `Connect` posts when the address was resolved, or could not be. -/
def resolvedTask (call : Nat) : Option String → Task
  | none => .connectResolved call
  | some text => .resolveFailed (.resolve text) call

/-- `Connect` posts its task. -/
def connectPost (i call : Nat) (error : Option String) : Option System :=
  let c := S.clients i
  if call ∈ c.resolving then
    some (S.setClient i { c with
      conn := c.conn.post (resolvedTask call error), resolving := c.resolving.erase call })
  else none

/-- The drain of one task, or of a connection that is closing. -/
def drainStep (i : Nat) (k : Kernel) : Option System :=
  let c := S.clients i
  if c.running.isSome then none
  else if c.conn.ownerClosing then some (S.land i (drainClosing (cfgOf cfgs i) (S.loc i), none))
  else match c.conn.queue with
    | [] => none
    | t :: rest =>
      if k.fits S.rt then
        some (S.land i (untilCallback (taskBody (cfgOf cfgs i) k t ⟨c.conn.start t rest, S.rt⟩)))
      else none

/-- The steps of the poll thread. -/
def pollStep : Label → Option System
  | .pollWait events =>
    if S.pollIdle ∧ ∀ ev ∈ events, ev.reports S.rt then
      some { S with poll := { S.poll with events := events } }
    else none
  | .acquireEvent =>
    match S.poll.acquired, S.poll.events with
    | none, ev :: rest =>
      some { S with poll := { S.poll with
        events := rest
        acquired := (S.rt.connections.acquire ev.id).map (·, .pollEvent ev) } }
    | _, _ => none
  | .popExpired nowMs =>
    if S.pollIdle then
      some { S with
        poll := { S.poll with timers := (S.rt.timers.popExpired nowMs).1 }
        rt := { S.rt with timers := (S.rt.timers.popExpired nowMs).2 } }
    else none
  | .acquireTimer =>
    match S.poll.acquired, S.poll.timers with
    | none, ev :: rest =>
      some { S with poll := { S.poll with
        timers := rest
        acquired := (S.rt.connections.acquire ev.id).map (·, .timerEvent ev) } }
    | _, _ => none
  | .postAcquired =>
    match S.poll.acquired with
    | some (i, t) => some { S.postTo i t with poll := { S.poll with acquired := none } }
    | none => none
  | _ => none

/-- One step. -/
def step : Label → Option System
  | .connectBegin i => some (S.connectBegin i)
  | .connectMove i call => S.connectMove i call
  | .connectPost i call error => S.connectPost i call error
  | .disconnectPost i =>
    some { S.setClient i { S.clients i with
      conn := (S.clients i).conn.post (.disconnect S.calls)
      leaving := S.calls :: (S.clients i).leaving } with calls := S.calls + 1 }
  | .disconnectReturn i call =>
    let c := S.clients i
    if call ∈ c.leaving then
      some (S.setClient i { c with
        conn := c.conn.note (.disconnectReturned call), leaving := c.leaving.erase call })
    else none
  | .sendCheck i msg =>
    let c := S.clients i
    if msg ≠ [] ∧ c.conn.connected then
      some (S.setClient i { c with sending := msg :: c.sending })
    else none
  | .sendPost i msg =>
    let c := S.clients i
    if msg ∈ c.sending then
      some (S.setClient i { c with
        conn := c.conn.post (.send msg), sending := c.sending.erase msg })
    else none
  | .ownerClosing i =>
    let c := (S.clients i).conn
    if c.ownerClosing then none else some (S.setConn i { c with ownerClosing := true })
  | .stopAccepting i =>
    let c := (S.clients i).conn
    if c.ownerClosing then some (S.setConn i { c with acceptingTasks := false }) else none
  | .ownerReturn i =>
    let c := S.clients i
    if c.conn.ownerClosing ∧ !c.conn.acceptingTasks ∧ c.running.isNone ∧ c.conn.queue = [] ∧
        .ownerReturned ∉ c.conn.trace then
      some (S.setConn i (c.conn.note .ownerReturned))
    else none
  | .releaseInCallback i =>
    let c := S.clients i
    if c.running.isSome ∧ !c.conn.ownerClosing then
      some (S.land i (closeFromCallback (cfgOf cfgs i) (S.loc i), c.running))
    else none
  | .drain i k => S.drainStep cfgs i k
  | .resume i =>
    match (S.clients i).running with
    | some rest => some (S.land i (untilCallback (rest (S.loc i))))
    | none => none
  | l => S.pollStep l

end System

end Connx
