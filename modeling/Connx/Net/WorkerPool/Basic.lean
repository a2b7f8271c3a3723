import Connx.Lib.Run
import Connx.Net.WorkerPool.Worker

/-!
# The worker pool

`WorkerPool` with any number of calls of `Post`, `Start` and `Stop`, one atomic operation a step.
`mtx_` is kept as the critical section that is in progress. A call of `Start` or `Stop` begins when
it gets `mtx_`; before that it has done nothing. A call of `Stop` may be made by the task a worker
is running, and the task does not end before the call has.

Allocation and the creation of threads fail only where the code catches it, in the loop of `Start`.
-/

namespace Connx.WorkerPool

/-! ### Calls -/

/-- `Post`: the loads of `stopping_` and `workers_`, then `PostToWorker` on the worker chosen. -/
inductive ChoicePc where
  | loadStopping
  | loadWorkers
  | inside (w : Nat)
  | refused
  deriving DecidableEq, Repr

/-- A call of `Post` with `worker_index`. `began` is history: `generation_` when the call found
`stopping_` false. -/
structure Post where
  index : Nat
  began : Nat := 0
  pc : ChoicePc := .loadStopping
  deriving DecidableEq, Repr

/-- `Stop` after its critical section: the loops over the workers of the list. It is `early` when it
found `stopping_` set. -/
inductive StopPc where
  | locked
  | early
  | lock (rest : List Nat)
  | wake (rest : List Nat)
  | unlock (rest : List Nat)
  | join (rest : List Nat)
  | waitLock (rest : List Nat)
  | waitCheck (rest : List Nat)
  | waitUnlock (rest : List Nat)
  | waiting (rest : List Nat)
  | drain (rest : List Nat)
  | draining (rest : List Nat)
  | done
  deriving DecidableEq, Repr

/-- The critical section of `Stop`. -/
inductive StopRegion where
  | loadStopping
  | storeStopping
  | advance
  | loadWorkers
  | storeWorkers
  | refuse (rest : List Nat)
  deriving DecidableEq, Repr

/-- `Start`, whose body is its critical section; `made` is the list it builds. -/
inductive StartRegion where
  | loadStopping (threads : Nat)
  | storeStopping (threads : Nat)
  | advance (threads : Nat)
  | spawn (generation left : Nat) (made : List Nat)
  | publish (made : List Nat)
  | failStopping (made : List Nat)
  | failAdvance (made : List Nat)
  | failRefuse (made rest : List Nat)
  | failLock (made rest : List Nat)
  | failWake (made rest : List Nat)
  | failUnlock (made rest : List Nat)
  | failJoin (made rest : List Nat)
  | failDrain (made rest : List Nat)
  | failDraining (made rest : List Nat)
  | failPublish (made : List Nat)
  deriving DecidableEq, Repr

/-- How a turn of the loop of `Start` ends: with a worker, without one, or with a worker that has no
thread. -/
inductive Outcome where
  | ok
  | noMemory
  | noThread
  deriving DecidableEq, Repr

/-- Who holds `mtx_`. -/
inductive Holder where
  | stop (k : Nat) (pc : StopRegion)
  | start (pc : StartRegion)
  deriving DecidableEq, Repr

/-- A call of `Stop`, made by the task of the worker `caller` or from outside. `list` is the local
of that name; `stopped` is history: the generation that is stopped when the call has looked at
`stopping_`. -/
structure Stop where
  caller : Option Nat
  stopped : Nat := 0
  list : List Nat := []
  pc : StopPc := .locked
  deriving DecidableEq, Repr

/-- The call has returned. -/
def Stop.returned (s : Stop) : Bool := s.pc = .early ∨ s.pc = .done

/-- The pool; workers are named by their place in `workers`, which keeps those of all generations,
and `current` is `workers_`. Tasks are named by the calls of `Post`. -/
structure State where
  stopping : Bool := true
  generation : Nat := 0
  current : List Nat := []
  mutex : Option Holder := none
  workers : List Worker := []
  posts : List Post := []
  stops : List Stop := []

/-! ### The code -/

section code

variable (S : State)

def State.onWorker (w : Nat) (l : Worker.Label) : Option State :=
  S.workers[w]?.bind fun W => (W.step l).map fun W' => { S with workers := S.workers.set w W' }

def postStep (n : Nat) (p : Post) : Option State :=
  match p.pc with
  | .loadStopping => some { S with posts := S.posts.set n { p with
      began := S.generation, pc := if S.stopping then .refused else .loadWorkers } }
  | .loadWorkers =>
    match S.current[p.index % S.current.length]? with
    | none => some { S with posts := S.posts.set n { p with pc := .refused } }
    | some w => (S.onWorker w (.call n)).map fun S' =>
        { S' with posts := S'.posts.set n { p with pc := .inside w } }
  | _ => none

/-- `PopTask` of `DrainQueue` after an operation on the queue: the next worker when the end is
reported. -/
def afterDrain (w : Nat) (rest : List Nat) : Mpscq.PopPc Nat → Bool × List Nat
  | .done none true => (false, rest)
  | .done _ _ => (false, w :: rest)
  | _ => (true, w :: rest)

/-- One operation of `DrainQueue` on a worker, with whether the call of `PopAndCheckEnd` goes on and
the workers that are left. -/
def State.discard (w : Nat) (rest : List Nat) : Option (State × Bool × List Nat) :=
  (S.onWorker w .discard).bind fun S' =>
    S'.workers[w]?.map fun W => (S', afterDrain w rest W.queue.pop)

def State.hasReturned (w : Nat) : Bool := S.workers[w]?.any fun W => W.run = .returned

def State.isIdle (w : Nat) : Bool := S.workers[w]?.any fun W => W.activePosts = 0

def stopAct (s : Stop) : StopPc → Option (State × StopPc)
  | .lock [] => some (S, .join s.list)
  | .lock (w :: rest) => (S.onWorker w .lock).map (·, .wake (w :: rest))
  | .wake (w :: rest) => (S.onWorker w .wake).map (·, .unlock (w :: rest))
  | .unlock (w :: rest) => (S.onWorker w .unlock).map (·, .lock rest)
  | .join [] => some (S, .waitLock s.list)
  | .join (w :: rest) =>
    if s.caller = some w ∨ S.hasReturned w then some (S, .join rest) else none
  | .waitLock [] => some (S, .drain s.list)
  | .waitLock (w :: rest) => (S.onWorker w .lock).map (·, .waitCheck (w :: rest))
  | .waitCheck (w :: rest) =>
    if S.isIdle w then some (S, .waitUnlock (w :: rest))
    else (S.onWorker w .unlock).map (·, .waiting (w :: rest))
  | .waitUnlock (w :: rest) => (S.onWorker w .unlock).map (·, .waitLock rest)
  | .waiting rest => some (S, .waitLock rest)
  | .drain [] => some (S, .done)
  | .drain (w :: rest) => (S.onWorker w .beginPop).map (·, .draining (w :: rest))
  | .draining (w :: rest) =>
    (S.discard w rest).map fun (S', more, rest') =>
      (S', if more then .draining rest' else .drain rest')
  | _ => none

/-- The critical section of the call `k` of `Stop`. -/
def stopRegionAct (k : Nat) (s : Stop) : StopRegion → Option State
  | .loadStopping => some <|
    if S.stopping then { S with
      mutex := none
      stops := S.stops.set k { s with stopped := S.generation - 1, pc := .early } }
    else { S with
      mutex := some (.stop k .storeStopping)
      stops := S.stops.set k { s with stopped := S.generation } }
  | .storeStopping => some { S with stopping := true, mutex := some (.stop k .advance) }
  | .advance => some { S with
      generation := S.generation + 1, mutex := some (.stop k .loadWorkers) }
  | .loadWorkers => some { S with
      mutex := some (.stop k .storeWorkers), stops := S.stops.set k { s with list := S.current } }
  | .storeWorkers => some { S with current := [], mutex := some (.stop k (.refuse s.list)) }
  | .refuse [] => some { S with
      mutex := none, stops := S.stops.set k { s with pc := .lock s.list } }
  | .refuse (w :: rest) => (S.onWorker w .refuse).map fun S' =>
      { S' with mutex := some (.stop k (.refuse rest)) }

/-- `std::thread(&WorkerPool::Run, this, worker, generation)`, or a worker without its thread. -/
def State.spawn (generation : Nat) (run : RunPc) : State :=
  { S with workers := S.workers ++ [{ generation := generation, run := run }] }

def State.holding (pc : StartRegion) : State := { S with mutex := some (.start pc) }

def startAct (outcome : Outcome) : StartRegion → Option State
  | .loadStopping threads =>
    some (if S.stopping then S.holding (.storeStopping threads) else { S with mutex := none })
  | .storeStopping threads =>
    some { S with stopping := false, mutex := some (.start (.advance threads)) }
  | .advance threads => some { S with
      generation := S.generation + 1
      mutex := some (.start (.spawn (S.generation + 1) threads [])) }
  | .spawn _ 0 made => some (S.holding (.publish made))
  | .spawn generation (left + 1) made =>
    match outcome with
    | .ok => some ((S.spawn generation .lock).holding
        (.spawn generation left (made ++ [S.workers.length])))
    | .noMemory => some (S.holding (.failStopping made))
    | .noThread => some ((S.spawn generation .returned).holding
        (.failStopping (made ++ [S.workers.length])))
  | .publish made => some { S with current := made, mutex := none }
  | .failStopping made =>
    some { S with stopping := true, mutex := some (.start (.failAdvance made)) }
  | .failAdvance made => some { S with
      generation := S.generation + 1, mutex := some (.start (.failRefuse made made)) }
  | .failRefuse made [] => some (S.holding (.failJoin made made))
  | .failRefuse made (w :: rest) =>
    (S.onWorker w .refuse).map (·.holding (.failLock made (w :: rest)))
  | .failLock made (w :: rest) => (S.onWorker w .lock).map (·.holding (.failWake made (w :: rest)))
  | .failWake made (w :: rest) =>
    (S.onWorker w .wake).map (·.holding (.failUnlock made (w :: rest)))
  | .failUnlock made (w :: rest) => (S.onWorker w .unlock).map (·.holding (.failRefuse made rest))
  | .failJoin made [] => some (S.holding (.failDrain made made))
  | .failJoin made (w :: rest) =>
    if S.hasReturned w then some (S.holding (.failJoin made rest)) else none
  | .failDrain made [] => some (S.holding (.failPublish made))
  | .failDrain made (w :: rest) =>
    (S.onWorker w .beginPop).map (·.holding (.failDraining made (w :: rest)))
  | .failDraining made (w :: rest) => (S.discard w rest).map fun (S', more, rest') =>
      S'.holding (if more then .failDraining made rest' else .failDrain made rest')
  | .failPublish _ => some { S with current := [], mutex := none }
  | _ => none

/-! ### Runs -/

/-- The task of the worker is inside a call of `Stop`. -/
def State.isStopping (w : Nat) : Bool := S.stops.any fun s => s.caller = some w ∧ ¬ s.returned

def State.isRunning (w : Nat) : Bool := S.workers[w]?.any fun W => W.run matches .running _

/-- A call of `Post` begins, or does its next operation before it has chosen a worker; the call in
`PostToWorker` with place `i` on the worker `w`, its thread, or the end of the task it runs; a call
of `Stop` or of `Start` gets `mtx_`; its holder does its next operation; or the call `k` of `Stop`
does, after that. -/
inductive Label where
  | post (index : Nat)
  | choose (n : Nat)
  | call (w i : Nat)
  | run (w : Nat)
  | finish (w : Nat)
  | stop (caller : Option Nat)
  | start (threads : Nat)
  | region (outcome : Outcome)
  | control (k : Nat)
  deriving DecidableEq, Repr

def State.step : Label → Option State
  | .post index => some { S with posts := S.posts ++ [{ index := index }] }
  | .choose n => S.posts[n]?.bind (postStep S n)
  | .call w i => S.onWorker w (.post i)
  | .run w => S.onWorker w (.run S.generation S.stopping)
  | .finish w => if S.isStopping w then none else S.onWorker w .finish
  | .stop caller =>
    if S.mutex = none ∧ caller.all fun w => S.isRunning w && !S.isStopping w then some { S with
      mutex := some (.stop S.stops.length .loadStopping)
      stops := S.stops ++ [{ caller := caller }] }
    else none
  | .start threads =>
    if S.mutex = none then
      some (S.holding (.loadStopping (if threads = 0 then 1 else threads)))
    else none
  | .region outcome =>
    match S.mutex with
    | some (.stop k pc) => S.stops[k]?.bind fun s => stopRegionAct S k s pc
    | some (.start pc) => startAct S outcome pc
    | none => none
  | .control k => S.stops[k]?.bind fun s =>
      (stopAct S s s.pc).map fun (S', pc) => { S' with stops := S'.stops.set k { s with pc := pc } }

end code

end Connx.WorkerPool
