import Connx.Net.System
import Connx.Net.Executor.Basic

/-!
# One connection on its executor

`Connx.Net.System` takes a `Post`, a drain of the queue and a release as one step each. Here one
connection is put together with the executor of `Connx.Net.Executor.Basic`, which does them one
atomic operation at a time. The task that a `Drain` runs is a program on the connection; it is
suspended while it is inside a callback or inside the `Post` of its parse continuation, and only a
callback can call `CloseFromOwner`. Any thread may post any task at any time, and other connections
may change the runtime.

The queue and the two flags of the connection are what the executor shows of itself: a task is
queued from the exchange of its push until a `Drain` pops it.
-/

namespace Connx

open Executor (Proc Shared DrainPc)

/-- How far the task has come that a `Drain` runs. It has no task, or the task is inside a callback
or inside a `Post`, which is the process given, or its code has ended. -/
inductive Progress where
  | idle
  | callback (rest : Suspended)
  | posting (process : Nat) (rest : Suspended)
  | over

def Progress.inCallback : Progress → Bool
  | .callback _ => true
  | _ => false

def Progress.isPosting (i : Nat) : Progress → Bool
  | .posting process _ => process == i
  | _ => false

structure Machine where
  exec : Executor.State Task := {}
  conn : Conn := {}
  rt : Runtime := {}
  progress : Progress := .idle

namespace Machine

/-- The steps of the machine. `exec` is a step of the executor other than the start and the end of a
task; the others start, resume and end the task of the `Drain` `i` on the given thread, or are made
by other threads. -/
inductive Label where
  | exec (l : Executor.Label Task)
  | start (i : Nat) (kernel : Kernel) (thread : Nat)
  | resume (i thread : Nat)
  | posted (i thread : Nat)
  | finish (i : Nat)
  | connectBegin (call : Nat)
  | connectMove (call : Nat)
  | disconnectReturn (call : Nat)
  | others (rt : Runtime)

variable (cfg : Config) (M : Machine)

def loc : Local := ⟨M.conn, M.rt⟩

/-- `StartClose(kRelease)`, which calls nothing. -/
def startRelease (s : Local) : Local := (untilCallback (startClose cfg .release .empty s)).1

/-- What an operation of the executor does to the connection. -/
def effect (p p' : Proc Task) (s : Local) : Local :=
  match p, p' with
  | .post _ t .exchange, _ => { s with conn := s.conn.push t }
  | .drain _ .pop, .drain _ (.count _) =>
    { s with conn := { s.conn with queue := s.conn.queue.tail } }
  | .drain _ (.discarding .pop), .drain _ (.discarding .count) =>
    { s with conn := { s.conn with queue := s.conn.queue.tail } }
  | .drain _ (.closing .pop), .drain _ (.closing .count) =>
    { s with conn := { s.conn with queue := s.conn.queue.tail } }
  | .drain _ .startClose, _ =>
    { startRelease cfg s with conn := (startRelease cfg s).conn.note .ownerReturned }
  | .drain _ .closeConn, _ => startRelease cfg s
  | .closer (.waiting .unlock), _ => { s with conn := s.conn.note .ownerReturned }
  | _, _ => s

/-- The flags of the connection are those of the executor. -/
def sync (g : Shared Task) (c : Conn) : Conn :=
  { c with acceptingTasks := g.accepting, ownerClosing := g.ownerClosing }

/-- A step of the executor that neither starts nor ends a task. The parse continuation is posted
with memory at hand: an exception would leave the task. -/
def free : Executor.Label Task → Bool
  | .step i c =>
    match M.exec.procs[i]? with
    | some (.drain _ (.count _)) => false
    | some (.drain _ .running) => c == .closeFromOwner && M.progress.inCallback
    | _ => !(c == .noMemory && M.progress.isPosting i)
  | _ => true

/-- The connection after a step of the executor. A `Drain` begins by resetting
`drain_yield_requested_`. -/
def after (l : Executor.Label Task) (S : Executor.State Task) : Local :=
  match l with
  | .start => { M.loc with conn := { M.conn with drainYieldRequested := false } }
  | _ =>
    match l.process.bind (M.exec.procs[·]?), l.process.bind (S.procs[·]?) with
    | some p, some p' => effect cfg p p' M.loc
    | _, _ => M.loc

def stepExec (l : Executor.Label Task) : Option Machine :=
  if M.free l then
    (M.exec.step l).map fun S => { M with
      exec := S
      conn := sync S.shared (M.after cfg l S).conn
      rt := (M.after cfg l S).rt }
  else none

/-- The task runs up to its end or its next suspension. -/
def land (thread : Nat) : Resum Local Request Unit → Option Machine
  | .ret _ s => some { M with conn := s.conn, rt := s.rt, progress := .over }
  | .call (.callback _) s rest =>
    some { M with conn := s.conn, rt := s.rt, progress := .callback rest }
  | .call .postContinuation s rest =>
    (M.exec.step (.post thread .parseContinuation)).map fun S =>
      ⟨S, s.conn, s.rt, .posting M.exec.procs.length rest⟩

/-- `Drain` calls the task it has popped. -/
def stepStart (i : Nat) (k : Kernel) (thread : Nat) : Option Machine :=
  match M.exec.procs[i]? with
  | some (.drain _ (.count node)) =>
    if k.fits M.rt then
      (M.exec.step (.step i .go)).bind fun S =>
        let c := M.conn.note (.ran node.task)
        land { M with exec := S, conn := c } thread (taskBody cfg k node.task ⟨c, M.rt⟩)
    else none
  | _ => none

/-- The `Drain` `i` is inside its task and not inside `CloseFromOwner`. -/
def runs (i : Nat) : Bool :=
  match M.exec.procs[i]? with
  | some (.drain _ .running) => true
  | _ => false

def step : Label → Option Machine
  | .exec l => M.stepExec cfg l
  | .start i k thread => M.stepStart cfg i k thread
  | .resume i thread =>
    match M.progress with
    | .callback rest => if M.runs i then M.land thread (rest M.loc) else none
    | _ => none
  | .posted i thread =>
    match M.progress with
    | .posting j rest =>
      match M.exec.procs[j]? with
      | some (.post _ _ .done) => if M.runs i then M.land thread (rest M.loc) else none
      | _ => none
    | _ => none
  | .finish i =>
    match M.progress with
    | .over =>
      if M.runs i then
        (M.exec.step (.step i (.finish M.conn.drainYieldRequested))).map fun S => { M with
          exec := S
          conn := { M.conn with drainYieldRequested := false }
          progress := .idle }
      else none
    | _ => none
  | .connectBegin call => some { M with conn := M.conn.note (.connectBegan call) }
  | .connectMove call =>
    if M.conn.state = .idle then
      some { M with conn :=
        { M.conn.note (.connectMoved call) with state := .connecting, connected := false } }
    else some M
  | .disconnectReturn call => some { M with conn := M.conn.note (.disconnectReturned call) }
  | .others rt => some { M with rt := rt }

end Machine

end Connx
