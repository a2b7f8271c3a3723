import Connx.Lib.Signed
import Connx.Net.Runtime

/-!
# Starting and stopping the library

`LibraryInit` and `LibraryShutdown` with the runtime they start and stop, and the clients that hold
the library. What the system answers to the attempts of one call (descriptors, threads, memory) is
an argument of the call. Calls are serialised by `g_init_mtx`. An exception that nothing catches
leaves the state as it was when it was thrown; one that leaves a destructor ends the program.
-/

namespace Connx.Library

/-- How a call ends. -/
inductive Outcome (α : Type) where
  | returned (result : α)
  | thrown
  deriving DecidableEq

/-- The allocations with `operator new` that are made outside of the loop of `WorkerPool::Start`,
which catches what is thrown in it. -/
inductive Allocation where
  /-- `std::make_shared<Status>` of an error, with its text. -/
  | status
  /-- `ToString` of an error of the poller, for the log of `GlobalRuntime::Start`. -/
  | runtimeLog
  /-- `ToString` of the error, for the log of `LibraryInit`. -/
  | initLog
  /-- The list that `WorkerPool::Start` fills. -/
  | workerList
  /-- The empty list that `WorkerPool::Stop`, or a `Start` that fails, leaves. -/
  | emptyList
  | clientAdaptor
  | clientImpl
  /-- `std::make_shared<ClientConnection>`. -/
  | connection
  deriving DecidableEq

/-- The answers to one call, in the order of the source; `none` is a descriptor of `-1`. -/
structure Answers where
  /-- `winsock_init` returned 0; there is no such stage on other systems. -/
  winsock : Bool := true
  epollCreate1 : Option Nat := some 3
  epollCreate : Option Nat := some 3
  setCloseOnExec : Bool := true
  eventfd : Option Nat := some 4
  epollCtl : Bool := true
  /-- `connx_format` has memory for the text of an error. -/
  message : Bool := true
  hardwareConcurrency : Nat := 0
  /-- The `i`-th worker thread starts. -/
  workerThread : Nat → Bool := fun _ => true
  pollThread : Bool := true
  memory : Allocation → Bool := fun _ => true

/-! ### The poller -/

/-- `poll_fd_` and `wake_fd_`. -/
structure Poller where
  pollFd : Option Nat := none
  wakeFd : Option Nat := none
  deriving DecidableEq

/-- The call an error of `Poller::Init` names. -/
inductive PollerError where
  | epollCreate
  | fcntlEpoll
  | eventfd
  | epollCtlWake
  deriving DecidableEq

/-- `CONNX_POSIX_ERROR`: without memory for its text an error is null, which is
`CONNX_ERROR_NONE`. -/
def posixError (a : Answers) (e : PollerError) : Outcome (Option PollerError) :=
  if ¬a.message then .returned none
  else if a.memory .status then .returned (some e)
  else .thrown

/-- The part of `Poller::Init` behind the creation of `poll_fd_`. -/
def Poller.initWake (a : Answers) (pollFd : Nat) : Outcome (Option PollerError) × Poller :=
  match a.eventfd with
  | none => (posixError a .eventfd, { pollFd := none, wakeFd := none })
  | some wakeFd =>
    if a.epollCtl then (.returned none, { pollFd := some pollFd, wakeFd := some wakeFd })
    else (posixError a .epollCtlWake, { pollFd := none, wakeFd := none })

/-- `Poller::Init`. -/
def Poller.init (p : Poller) (a : Answers) : Outcome (Option PollerError) × Poller :=
  if p.pollFd.isSome then (.returned none, p)
  else
    match a.epollCreate1 with
    | some pollFd => Poller.initWake a pollFd
    | none =>
      match a.epollCreate with
      | none => (posixError a .epollCreate, { p with pollFd := none })
      | some pollFd =>
        if a.setCloseOnExec then Poller.initWake a pollFd
        else (posixError a .fcntlEpoll, { p with pollFd := none })

/-- `Poller::Shutdown`. -/
def Poller.shutdown (_ : Poller) : Poller := { pollFd := none, wakeFd := none }

/-! ### The worker pool -/

/-- `WorkerPool`, between calls of `Start` and `Stop`: `workers` is the size of the list of workers,
`threads` counts the threads that were started and neither joined nor detached. The rest is history:
`detached` counts the threads that were detached, which go on until their task has ended, and
`requested` is the number the last `Start` that succeeded was to start. -/
structure WorkerPool where
  stopping : Bool := true
  generation : Nat := 0
  workers : Nat := 0
  threads : Nat := 0
  detached : Nat := 0
  requested : Nat := 0
  deriving DecidableEq

/-- The loop of `WorkerPool::Start`: the workers put on the list and the threads started, and
whether the loop came to its end. A worker is put on the list before its thread starts. -/
def startThreads (thread : Nat → Bool) : Nat → Nat → Nat → Bool × Nat × Nat
  | 0, pushed, started => (true, pushed, started)
  | left + 1, pushed, started =>
    if thread pushed then startThreads thread left (pushed + 1) (started + 1)
    else (false, pushed + 1, started)

/-- `WorkerPool::Start`. -/
def WorkerPool.start (p : WorkerPool) (a : Answers) (threads : Nat) : Outcome Bool × WorkerPool :=
  let threads := if threads = 0 then 1 else threads
  if ¬p.stopping then (.returned true, p)
  else if ¬a.memory .workerList then
    (.thrown, { p with stopping := false, generation := p.generation + 1 })
  else
    match startThreads a.workerThread threads 0 0 with
    | (true, pushed, started) =>
      (.returned true, { p with
        stopping := false
        generation := p.generation + 1
        workers := pushed
        threads := p.threads + started
        requested := threads })
    -- the threads already started are joined and the list is dropped
    | (false, _, started) =>
      let p := { p with
        stopping := true
        generation := p.generation + 1 + 1
        threads := p.threads + started - started }
      if a.memory .emptyList then (.returned false, { p with workers := 0 }) else (.thrown, p)

/-- `WorkerPool::Stop`: every worker of the list is joined, but the one it is called on, which is
detached; `memory` is there for the empty list. -/
def WorkerPool.stop (p : WorkerPool) (onWorker memory : Bool) : Outcome Unit × WorkerPool :=
  if p.stopping then (.returned (), p)
  else
    let p := { p with stopping := true, generation := p.generation + 1 }
    if ¬memory then (.thrown, p)
    else
      (.returned (), { p with
        workers := 0
        threads := p.threads - p.workers
        detached := if onWorker then p.detached + 1 else p.detached })

/-! ### The runtime -/

inductive WorkerThreadMode where
  | default
  | auto
  | fixed
  deriving DecidableEq

def kDefaultWorkerThreads : Nat := 2
def kDefaultMaxWorkerThreads : Nat := 8

def defaultWorkerThreads (hardwareConcurrency : Nat) : Nat :=
  if hardwareConcurrency = 0 then 2
  else if hardwareConcurrency ≤ 2 then 1
  else min (max 2 (hardwareConcurrency / 2)) kDefaultMaxWorkerThreads

/-- `GlobalRuntime`; `pollThread` says that `poll_thread_` is joinable. -/
structure GlobalRuntime where
  running : Bool := false
  mode : WorkerThreadMode := .default
  configured : Nat := kDefaultWorkerThreads
  pollThread : Bool := false
  poller : Poller := {}
  timers : TimerQueue := {}
  workers : WorkerPool := {}
  connections : ConnectionTable := {}

namespace GlobalRuntime

def resolveWorkerThreads (rt : GlobalRuntime) (hardwareConcurrency : Nat) : Nat :=
  if rt.mode = .auto then defaultWorkerThreads hardwareConcurrency
  else if 0 < rt.configured then rt.configured
  else kDefaultWorkerThreads

/-- The errors of `GlobalRuntime::Start`. -/
inductive StartError where
  | poller (e : PollerError)
  | workerPool
  | pollThread
  deriving DecidableEq

/-- `CONNX_ERROR_FROM_STATIC_STRING`. -/
def staticError (a : Answers) (e : StartError) : Outcome (Option StartError) :=
  if a.memory .status then .returned (some e) else .thrown

/-- `GlobalRuntime::Start` behind `poller_.Init`. -/
def startThreads (rt : GlobalRuntime) (a : Answers) : Outcome (Option StartError) × GlobalRuntime :=
  match rt.workers.start a (rt.resolveWorkerThreads a.hardwareConcurrency) with
  | (.thrown, workers) => (.thrown, { rt with workers })
  | (.returned false, workers) =>
    (staticError a .workerPool, { rt with workers, poller := rt.poller.shutdown })
  | (.returned true, workers) =>
    if a.pollThread then
      (.returned none, { rt with workers, running := true, pollThread := true })
    else
      -- the workers have just been started, so the caller is none of them
      match workers.stop false (a.memory .emptyList) with
      | (.thrown, workers) => (.thrown, { rt with workers, running := false })
      | (.returned _, workers) =>
        (staticError a .pollThread,
          { rt with workers, running := false, poller := rt.poller.shutdown })

/-- `GlobalRuntime::Start`. -/
def start (rt : GlobalRuntime) (a : Answers) : Outcome (Option StartError) × GlobalRuntime :=
  if rt.running then (.returned none, rt)
  else
    match rt.poller.init a with
    | (.thrown, poller) => (.thrown, { rt with poller })
    | (.returned (some e), poller) =>
      (if a.memory .runtimeLog then .returned (some (.poller e)) else .thrown, { rt with poller })
    | (.returned none, poller) => { rt with poller }.startThreads a

/-- `GlobalRuntime::Stop`. -/
def stop (rt : GlobalRuntime) (onWorker memory : Bool) : Outcome Unit × GlobalRuntime :=
  if ¬rt.running then (.returned (), rt)
  else
    let rt := { rt with running := false, pollThread := false }
    match rt.workers.stop onWorker memory with
    | (.thrown, workers) => (.thrown, { rt with workers })
    | (.returned _, workers) =>
      (.returned (), { rt with
        workers
        timers := {}
        connections := {}
        poller := rt.poller.shutdown })

def setWorkerThreads (rt : GlobalRuntime) (workerThreads : Nat) : GlobalRuntime :=
  if rt.running then rt
  else if workerThreads = 0 then { rt with configured := kDefaultWorkerThreads, mode := .default }
  else { rt with configured := workerThreads, mode := .fixed }

def setWorkerThreadsAuto (rt : GlobalRuntime) : GlobalRuntime :=
  if rt.running then rt else { rt with configured := 0, mode := .auto }

end GlobalRuntime

/-! ### The library -/

/-- A `ClientAdaptor`, by its `LibraryInitService`. -/
structure ClientAdaptor where
  initCalled : Bool
  deriving DecidableEq

/-- `g_initializations`, the runtime and the clients that exist. `inits` and `shutdowns` are
history: the successful explicit calls of `LibraryInit`, and the explicit calls of
`LibraryShutdown`. -/
structure State where
  initializations : Int := 0
  winsock : Bool := false
  runtime : GlobalRuntime := {}
  clients : List ClientAdaptor := []
  inits : Nat := 0
  shutdowns : Nat := 0

/-- `LibraryInit`: its result and the state. -/
def libraryInit (S : State) (a : Answers) : Outcome Bool × State :=
  let S := { S with initializations := Signed.wrap 32 (S.initializations + 1) }
  if S.initializations = 1 then
    if ¬a.winsock then
      (.returned false, { S with initializations := Signed.wrap 32 (S.initializations - 1) })
    else
      match S.runtime.start a with
      | (.thrown, runtime) => (.thrown, { S with winsock := true, runtime })
      | (.returned none, runtime) => (.returned true, { S with winsock := true, runtime })
      | (.returned (some _), runtime) =>
        (if a.memory .initLog then .returned false else .thrown, { S with
          winsock := false, runtime, initializations := Signed.wrap 32 (S.initializations - 1) })
  else (.returned true, S)

/-- `LibraryShutdown`. -/
def libraryShutdown (S : State) (onWorker memory : Bool) : Outcome Unit × State :=
  if S.initializations ≤ 0 then (.returned (), S)
  else
    let S := { S with initializations := Signed.wrap 32 (S.initializations - 1) }
    if S.initializations = 0 then
      match S.runtime.stop onWorker memory with
      | (.thrown, runtime) => (.thrown, { S with runtime })
      | (.returned _, runtime) => (.returned (), { S with runtime, winsock := false })
    else (.returned (), S)

/-- The destructor of a client, which ends in that of its `LibraryInitService`; `none` when an
exception leaves it. -/
def destroyClient (S : State) (client : ClientAdaptor) (onWorker memory : Bool) : Option State :=
  if client.initCalled then
    match libraryShutdown S onWorker memory with
    | (.thrown, _) => none
    | (.returned _, S) => some S
  else some S

/-- `CreateClient`; `given` says that a handler and a codec were passed. -/
def createClient (S : State) (given : Bool) (a : Answers) : Option (Outcome Bool × State) :=
  if ¬given then some (.returned false, S)
  else if ¬a.memory .clientAdaptor then some (.thrown, S)
  else
    match libraryInit S a with
    | (.thrown, S) => some (.thrown, S)
    | (.returned false, S) =>
      (destroyClient S ⟨false⟩ false (a.memory .emptyList)).map (.returned false, ·)
    | (.returned true, S) =>
      -- the constructor has made `library_`, which is destroyed when the rest of it throws
      if ¬a.memory .clientImpl then
        (destroyClient S ⟨true⟩ false (a.memory .emptyList)).map (.thrown, ·)
      -- nothing destroys the client when `Init` throws
      else if ¬a.memory .connection then some (.thrown, S)
      else some (.returned true, { S with clients := S.clients ++ [⟨true⟩] })

/-- The calls. A call that may shut down says whether it is made on a worker of the pool, by a
callback, and whether there is memory for the empty list of workers. -/
inductive Label where
  | libraryInit (a : Answers)
  | libraryShutdown (onWorker memory : Bool)
  | createClient (given : Bool) (a : Answers)
  /-- `ReleaseClient` of the `i`-th of the clients that exist, or of a null pointer. -/
  | releaseClient (client : Option Nat) (onWorker memory : Bool)
  | setWorkerThreads (workerThreads : Nat)
  | setWorkerThreadsAuto
  /-- Connections register and add timers. -/
  | activity (timers : TimerQueue) (connections : ConnectionTable)

def step (S : State) : Label → Option State
  | .libraryInit a =>
    let (outcome, S) := libraryInit S a
    some (if outcome = .returned true then { S with inits := S.inits + 1 } else S)
  | .libraryShutdown onWorker memory =>
    some { (libraryShutdown S onWorker memory).2 with shutdowns := S.shutdowns + 1 }
  | .createClient given a => (createClient S given a).map Prod.snd
  | .releaseClient none _ _ => some S
  | .releaseClient (some i) onWorker memory => do
    let client ← S.clients[i]?
    destroyClient { S with clients := S.clients.eraseIdx i } client onWorker memory
  | .setWorkerThreads n => some { S with runtime := S.runtime.setWorkerThreads n }
  | .setWorkerThreadsAuto => some { S with runtime := S.runtime.setWorkerThreadsAuto }
  | .activity timers connections =>
    some { S with runtime := { S.runtime with timers, connections } }

end Connx.Library
