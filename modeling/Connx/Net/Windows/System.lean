import Connx.Lib.Run
import Connx.Net.Windows.Connection

/-!
# A connection on Windows and everything around it

A step is one atomic action of an application thread, one stretch of a task between two callbacks,
one action of the poll thread, or one of the system. Other connections share the poller: they start
operations under their own ids. What the resolver, the system and the connection table answer is
part of the label of the step.
-/

namespace Connx.Windows

open Poll (Operation Outcome Completion Service maxCompletions)

/-- What is left of a task that is inside a callback. -/
abbrev Suspended := World → Resum World Request Unit

/-- The connection with its surroundings, and the rest of its current task. -/
structure System where
  world : World := {}
  running : Option Suspended := none

/-- The steps. `complete` and `foreign` are the system and the other connections; `wait`, `acquire`
and `postAcquired` are the poll thread. -/
inductive Label where
  | connectMove
  | post (task : Task)
  | ownerClosing
  | stopAccepting
  | releaseInCallback
  | drain (kernel : Kernel)
  | resume
  | foreign (op : Operation)
  | complete (op : Operation) (o : Outcome)
  | wake
  | wait
  | acquire
  | postAcquired

/-- What other threads than the poll thread post: `SendBuffer` refuses to send nothing. -/
def Task.external : Task → Bool
  | .completion _ => false
  | .parseContinuation => false
  | .send msg => !msg.isEmpty
  | _ => true

/-- Run a task up to its next callback. `Post` of a parse continuation is carried out at once. -/
def untilCallback : Resum World Request Unit → System
  | .ret _ w => ⟨w, none⟩
  | .call (.callback _) w k => ⟨w, some k⟩
  | .call .postContinuation w k =>
    untilCallback (k { w with conn := w.conn.post .parseContinuation })

/-- What `Wait` takes out of the queue: at most `n` completions, up to a wake-up. -/
def collect : Nat → List (Option Completion) → List Completion × List (Option Completion)
  | 0, done => ([], done)
  | _ + 1, [] => ([], [])
  | _ + 1, none :: done => ([], done)
  | n + 1, some ev :: done => (ev :: (collect n done).1, (collect n done).2)

namespace World

variable (w : World)

def setConn (c : Conn) : World := { w with conn := c }

/-- `Connect` holds `state_mtx_`. -/
def connectMove : Option World :=
  if w.conn.state = .idle then
    some (w.setConn { w.conn with state := .connecting, connected := false })
  else none

/-- `DrainTaskQueue` and `StartClose(kRelease)`, which calls nothing. -/
def drainClosing : World :=
  (untilCallback
    (startClose .release (.common .empty) (w.setConn { w.conn with queue := [] }))).world

/-- `CloseFromOwner` when the handler calls it. -/
def closeFromCallback : World :=
  (w.setConn { w.conn with ownerClosing := true, acceptingTasks := false }).drainClosing

/-- Another connection starts an operation. -/
def foreign (op : Operation) : World := { w.start op with others := op.id :: w.others }

/-- The system completes an operation. -/
def complete (op : Operation) (o : Outcome) : World :=
  { w with
    service := { w.service with
      started := w.service.started.erase op
      done := w.service.done ++ [some (op.report o)] }
    sent := if op.kind = .send then w.sent.add op.id (op.buffer.take o.bytes) else w.sent
    received := w.received.add op.id (op.report o).received }

/-- `Wake`. -/
def wake : World :=
  { w with service := { w.service with done := w.service.done ++ [none] } }

/-- `Wait`. -/
def wait : World :=
  { w with
    events := (collect maxCompletions w.service.done).1
    service := { w.service with done := (collect maxCompletions w.service.done).2 } }

/-- `Acquire` finds the connection under its id only. -/
def acquire (ev : Completion) (rest : List Completion) : World :=
  { w with events := rest, acquired := if ev.id.valid ∧ ev.id = w.conn.id then some ev else none }

/-- `PostPollEvent`. -/
def postAcquired (ev : Completion) : World :=
  { w with conn := w.conn.post (.completion ev), acquired := none }

/-- The steps that are not part of a task. -/
def envStep : Label → Option World
  | .connectMove => w.connectMove
  | .post t => if t.external then some (w.setConn (w.conn.post t)) else none
  | .ownerClosing => some (w.setConn { w.conn with ownerClosing := true })
  | .stopAccepting =>
    if w.conn.ownerClosing then some (w.setConn { w.conn with acceptingTasks := false }) else none
  | .foreign op => if op.id.valid then some (w.foreign op) else none
  | .complete op o =>
    if op ∈ w.service.started ∧ o.Fits op then some (w.complete op o) else none
  | .wake => some w.wake
  | .wait => if w.events = [] ∧ w.acquired = none then some w.wait else none
  | .acquire =>
    match w.acquired, w.events with
    | none, ev :: rest => some (w.acquire ev rest)
    | _, _ => none
  | .postAcquired =>
    match w.acquired with
    | some ev => some (w.postAcquired ev)
    | none => none
  | _ => none

end World

namespace System

variable (cfg : Config) (S : System)

/-- The drain of one task, or of a connection that is closing. -/
def drainStep (k : Kernel) : Option System :=
  if S.running.isSome then none
  else if S.world.conn.ownerClosing then some ⟨S.world.drainClosing, none⟩
  else match S.world.conn.queue with
    | [] => none
    | t :: rest =>
      some (untilCallback (taskBody cfg k t (S.world.setConn { S.world.conn with queue := rest })))

/-- One step. -/
def step : Label → Option System
  | .drain k => S.drainStep cfg k
  | .resume =>
    match S.running with
    | some rest => some (untilCallback (rest S.world))
    | none => none
  | .releaseInCallback =>
    if S.running.isSome ∧ !S.world.conn.ownerClosing then
      some { S with world := S.world.closeFromCallback }
    else none
  | l => (S.world.envStep l).map ({ S with world := · })

end System

/-- What the surroundings keep to. Sockets are valid, the connection table never returns an id
twice, and a resolved address is not connected to while there is a connection. -/
def Ok (S : System) : Label → Prop
  | .drain k =>
    S.world.conn.queue.head? = some .connectResolved →
      k.openSocket ≠ .ok Poll.Iocp.invalidSocket ∧ k.id.valid = true ∧ k.id ∉ S.world.ids ∧
        k.id ∉ S.world.others ∧ S.world.conn.connected = false
  | .foreign op => op.id ∉ S.world.ids
  | _ => True

instance (S : System) (l : Label) : Decidable (Ok S l) := by
  cases l <;> unfold Ok <;> infer_instance

end Connx.Windows
