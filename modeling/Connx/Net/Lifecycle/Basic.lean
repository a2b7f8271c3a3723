import Connx.Lib.Run
import Connx.Lib.Pool

/-!
# Creating and releasing clients

`CreateClient` and `ReleaseClient` with what they wait for: `g_init_mtx` in `LibraryInit` and
`LibraryShutdown`, the idle wait of `CloseFromOwner`, and the joins of `GlobalRuntime::Stop` and
`WorkerPool::Stop`. Callers are application threads and the handler callbacks that a worker invokes
while it drains a client.

The drain of a client is kept as one activation on the worker the client is pinned to; what its
tasks do is left open, except that they call handlers. `PickWorker` may choose any worker.
-/

namespace Connx.Lifecycle

inductive Thread where
  | app (i : Nat)
  | worker (w : Nat)
  | poll
  deriving DecidableEq, Repr

/-- A thread of the pool: the client it is draining, and whether `Run` has returned. -/
structure Worker where
  drains : Option Nat := none
  ended : Bool := false
  deriving DecidableEq, Repr

/-- A `ClientAdaptor` with its connection. It is `counted` in `g_initializations` until its
`LibraryShutdown`; `closing` is `owner_closing_`; `work` says that a drain is due or running;
`selfClosed` that it was released from inside its own drain. -/
structure Client where
  worker : Nat
  counted : Bool := true
  closing : Bool := false
  work : Bool := false
  selfClosed : Bool := false
  deriving DecidableEq, Repr

/-- `CreateClient` and `ReleaseClient`, before each operation that matters to others. -/
inductive CallPc where
  | initLock
  | initCount
  | startWorkers
  | startPoll
  | failStop
  | failJoin (rest : List Nat)
  | failCount
  | initUnlock (ok : Bool)
  | construct
  | idleWait (b : Nat)
  | shutLock (b : Nat)
  | shutCount (b : Nat)
  | stopRunning
  | joinPoll
  | stopWorkers
  | joinWorkers (rest : List Nat)
  | shutUnlock
  | done
  deriving DecidableEq, Repr

structure Call where
  thread : Thread
  pc : CallPc
  deriving DecidableEq, Repr

/-- `g_initializations`, `g_init_mtx`, `running_`, the poll thread, `workers_`, and the workers of
all generations, the clients and the calls so far. -/
structure State where
  count : Nat := 0
  holder : Option Thread := none
  running : Bool := false
  poll : Bool := false
  current : List Nat := []
  workers : List Worker := []
  clients : List Client := []
  calls : List Call := []

/-- What the environment decides: how many threads `Start` makes, whether that and the poll thread
succeed, and the worker that `PickWorker` returns. -/
structure Choice where
  ok : Bool := true
  threads : Nat := 1
  worker : Nat := 0
  deriving DecidableEq, Repr

/-! ### The code -/

section code

variable (S : State)

def State.drained (b : Nat) : Bool := S.workers.any fun W => W.drains = some b

/-- The predicate of the idle wait. -/
def State.isIdle (b : Nat) : Bool := S.clients[b]?.any (fun C => !C.work) && !S.drained b

def State.setClient (b : Nat) (f : Client → Client) : State :=
  { S with clients := S.clients.modify b f }

/-- The join of one worker; a thread does not join itself. -/
def State.joins (t : Thread) (w : Nat) : Bool :=
  t = .worker w || S.workers[w]?.any fun W => W.ended

def callAct (t : Thread) (x : Choice) : CallPc → Option (State × CallPc)
  | .initLock => if S.holder = none then some ({ S with holder := some t }, .initCount) else none
  | .initCount => some ({ S with count := S.count + 1 },
      if S.count + 1 = 1 then .startWorkers else .initUnlock true)
  | .startWorkers =>
    if S.running then some (S, .initUnlock true)
    else if x.ok then
      let threads := if x.threads = 0 then 1 else x.threads
      some ({ S with
        running := true
        current := List.range' S.workers.length threads
        workers := S.workers ++ List.replicate threads {} }, .startPoll)
    else some (S, .failCount)
  | .startPoll =>
    some (if x.ok then ({ S with poll := true }, .initUnlock true)
      else ({ S with running := false }, .failStop))
  | .failStop => some ({ S with current := [] }, .failJoin S.current)
  | .failJoin [] => some (S, .failCount)
  | .failJoin (w :: rest) => if S.joins t w then some (S, .failJoin rest) else none
  | .failCount => some ({ S with count := S.count - 1 }, .initUnlock false)
  | .initUnlock ok => some ({ S with holder := none }, if ok then .construct else .done)
  | .construct =>
    let worker := S.current[x.worker % S.current.length]?.getD 0
    some ({ S with clients := S.clients ++ [{ worker := worker }] }, .done)
  | .idleWait b => if S.isIdle b then some (S, .shutLock b) else none
  | .shutLock b =>
    if S.holder = none then some ({ S with holder := some t }, .shutCount b) else none
  | .shutCount b =>
    some ({ S.setClient b ({ · with counted := false }) with count := S.count - 1 },
      if S.count = 1 then .stopRunning else .shutUnlock)
  | .stopRunning =>
    some (if S.running then ({ S with running := false }, .joinPoll) else (S, .shutUnlock))
  | .joinPoll => if S.poll then none else some (S, .stopWorkers)
  | .stopWorkers => some ({ S with current := [] }, .joinWorkers S.current)
  | .joinWorkers [] => some (S, .shutUnlock)
  | .joinWorkers (w :: rest) => if S.joins t w then some (S, .joinWorkers rest) else none
  | .shutUnlock => some ({ S with holder := none }, .done)
  | .done => none

/-- `t_draining_connection`. -/
def State.draining : Thread → Option Nat
  | .worker w => S.workers[w]?.bind Worker.drains
  | _ => none

/-- `CloseFromOwner`: from inside the drain of the client it empties the queue and returns,
otherwise it sees to it that a drain is due and waits. -/
def State.close (t : Thread) (b : Nat) : State × CallPc :=
  if S.draining t = some b then
    (S.setClient b ({ · with closing := true, work := false, selfClosed := true }), .shutLock b)
  else (S.setClient b ({ · with closing := true, work := true }), .idleWait b)

/-! ### Runs -/

/-- The thread is inside a call. -/
def State.isBusy (t : Thread) : Bool := S.calls.any fun c => c.thread = t ∧ c.pc ≠ .done

/-- Application threads may call, and callbacks, which run inside a drain. -/
def State.mayCall : Thread → Bool
  | .app i => !S.isBusy (.app i)
  | .worker w => !S.isBusy (.worker w) && (S.draining (.worker w)).isSome
  | .poll => false

/-- A call of `CreateClient` or `ReleaseClient` begins, or does its next operation; a task is posted
to a client; a worker begins the drain of a client pinned to it, or ends it, with or without a
further one being due; and the threads of a stopped runtime end. -/
inductive Label where
  | create (t : Thread)
  | release (t : Thread) (b : Nat)
  | step (k : Nat) (x : Choice)
  | post (b : Nat)
  | drain (w b : Nat)
  | finish (w : Nat) (more : Bool)
  | quit (w : Nat)
  | quitPoll
  deriving DecidableEq, Repr

/-- A client is released once, and not used afterwards. -/
def State.isOpen (b : Nat) : Bool := S.clients[b]?.any fun C => !C.closing

def State.setWorker (w : Nat) (f : Worker → Worker) : State :=
  { S with workers := S.workers.modify w f }

def State.step : Label → Option State
  | .create t =>
    if S.mayCall t then some { S with calls := S.calls ++ [⟨t, .initLock⟩] } else none
  | .release t b =>
    if S.mayCall t && S.isOpen b then
      some { (S.close t b).1 with calls := S.calls ++ [⟨t, (S.close t b).2⟩] }
    else none
  | .step k x => S.calls[k]?.bind fun c => (callAct S c.thread x c.pc).map fun (S', pc) =>
      { S' with calls := S'.calls.set k { c with pc := pc } }
  | .post b => if S.isOpen b then some (S.setClient b ({ · with work := true })) else none
  | .drain w b =>
    if (S.workers[w]?.any fun W => !W.ended && W.drains = none) &&
        (S.clients[b]?.any fun C => C.worker = w && C.work) then
      some (S.setWorker w ({ · with drains := some b }))
    else none
  | .finish w more => (S.draining (.worker w)).bind fun a =>
      if S.isBusy (.worker w) then none
      else some ((S.setClient a fun C =>
        { C with work := C.work && more && !C.selfClosed }).setWorker
        w ({ · with drains := none }))
  | .quit w =>
    if (S.workers[w]?.any fun W => !W.ended && W.drains = none) && w ∉ S.current then
      some (S.setWorker w ({ · with ended := true }))
    else none
  | .quitPoll => if S.poll && !S.running then some { S with poll := false } else none

end code

/-! ### Waiting -/

/-- The call waits for the thread: at `g_init_mtx` for its holder, in the idle wait for the worker
that has to drain the client, and in a join for the thread to be joined. -/
def State.CallWaits (S : State) (t : Thread) : CallPc → Thread → Prop
  | .initLock, u => S.holder = some u
  | .shutLock _, u => S.holder = some u
  | .idleWait b, u => S.isIdle b = false ∧ ∃ C, S.clients[b]? = some C ∧ u = .worker C.worker
  | .joinPoll, u => S.poll = true ∧ u = .poll
  | .joinWorkers (w :: _), u => S.joins t w = false ∧ u = .worker w
  | .failJoin (w :: _), u => S.joins t w = false ∧ u = .worker w
  | _, _ => False

def State.Waits (S : State) (t u : Thread) : Prop :=
  ∃ c ∈ S.calls, c.thread = t ∧ S.CallWaits t c.pc u

end Connx.Lifecycle
