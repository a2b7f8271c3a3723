import Connx.Lib.Pool
import Connx.Utils.Mpscq.Basic

/-!
# A worker of the pool

`WorkerState` with the calls of `PostToWorker` that have chosen it, its thread in `Run`, and what
`Stop` does to it, one atomic operation a step. `ShouldStop` reads `generation_` and `stopping_`,
which belong to the pool; their values are given to the step that reads them.

A thread that waits on `cv` may be woken at any time, so `notify_one` and `notify_all` are not
steps. A task is opaque: it runs until it ends.
-/

namespace Connx.WorkerPool

/-- What became of a task that was taken off the queue. -/
inductive Fate where
  | run
  | discarded
  deriving DecidableEq, Repr

/-! ### Program counters -/

/-- `PostToWorker` from `active_posts.fetch_add` on; it returns `accepted`. -/
inductive PostPc where
  | enter
  | loadAccepting
  | push
  | lock
  | wake
  | unlock
  | leave (accepted : Bool)
  | checkAccepting
  | notifyLock (accepted : Bool)
  | notifyUnlock (accepted : Bool)
  | done (accepted : Bool)
  deriving DecidableEq, Repr

/-- The two loads of `ShouldStop`. -/
inductive Check where
  | generation
  | stopping
  deriving DecidableEq, Repr

/-- `Run`: the wait for `wake_pending`, and the inner loop with its three calls of `ShouldStop`. -/
inductive RunPc where
  | lock
  | check
  | waiting
  | unlock
  | loop (c : Check)
  | pop
  | popping
  | popped (n : Nat) (c : Check)
  | running (n : Nat)
  | breaking (c : Check)
  | returned
  deriving DecidableEq, Repr

/-- A call of `PostToWorker`; tasks are named by the calls of `Post`. -/
structure Call where
  task : Nat
  pc : PostPc
  deriving DecidableEq, Repr

/-- `WorkerState`. `generation` is the argument of `Run`; `calls` are the calls of `PostToWorker` on
this worker; `fates` is history: the tasks whose node was deleted, in order. -/
structure Worker where
  generation : Nat
  accepting : Bool := true
  activePosts : Int := 0
  wakePending : Bool := false
  locked : Bool := false
  queue : Mpscq.State Nat := {}
  run : RunPc := .lock
  calls : List Call := []
  fates : List (Nat × Fate) := []

/-! ### The code -/

variable (W : Worker)

/-- `PostToWorker` after its push; only the producer that found the stub wakes the worker. -/
def PostPc.afterPush : Option (Mpscq.PushPc Nat) → PostPc
  | some (.done true) => .lock
  | some (.done false) => .leave true
  | _ => .push

def postAct (n : Nat) : PostPc → Option (Worker × PostPc)
  | .enter => some ({ W with activePosts := W.activePosts + 1 }, .loadAccepting)
  | .loadAccepting =>
    if W.accepting then (W.queue.step (.push n)).map fun q => ({ W with queue := q }, .push)
    else some (W, .leave false)
  | .push =>
    (W.queue.step (.step n)).map fun q => ({ W with queue := q }, .afterPush (q.pushes n))
  | .lock => if W.locked then none else some ({ W with locked := true }, .wake)
  | .wake => some ({ W with wakePending := true }, .unlock)
  | .unlock => some ({ W with locked := false }, .leave true)
  | .leave accepted =>
    some ({ W with activePosts := W.activePosts - 1 },
      if W.activePosts = 1 then if accepted then .checkAccepting else .notifyLock false
      else .done accepted)
  | .checkAccepting => some (W, if W.accepting then .done true else .notifyLock true)
  | .notifyLock accepted =>
    if W.locked then none else some ({ W with locked := true }, .notifyUnlock accepted)
  | .notifyUnlock accepted => some ({ W with locked := false }, .done accepted)
  | .done _ => none

/-- `PopTask` after a call of `PopAndCheckEnd`. -/
def RunPc.afterPop : Mpscq.PopPc Nat → RunPc
  | .done (some (.node n)) _ => .popped n .generation
  | .done none true => .breaking .generation
  | .done _ _ => .pop
  | _ => .popping

/-- The worker's thread, with what it reads in `generation_` and `stopping_`. -/
def runAct (generation : Nat) (stopping : Bool) : RunPc → Option (Worker × RunPc)
  | .lock => if W.locked then none else some ({ W with locked := true }, .check)
  | .check =>
    some (if W.wakePending then ({ W with wakePending := false }, .unlock)
      else ({ W with locked := false }, .waiting))
  | .waiting => some (W, .lock)
  | .unlock => some ({ W with locked := false }, .loop .generation)
  | .loop .generation =>
    some (W, if W.generation ≠ generation then .returned else .loop .stopping)
  | .loop .stopping => some (W, if stopping then .returned else .pop)
  | .pop => (W.queue.step .pop).map fun q => ({ W with queue := q }, .popping)
  | .popping => (W.queue.step .consume).map fun q => ({ W with queue := q }, .afterPop q.pop)
  | .popped n .generation =>
    some (if W.generation ≠ generation then
        ({ W with fates := W.fates ++ [(n, .discarded)] }, .returned)
      else (W, .popped n .stopping))
  | .popped n .stopping =>
    some (if stopping then ({ W with fates := W.fates ++ [(n, .discarded)] }, .returned)
      else ({ W with fates := W.fates ++ [(n, .run)] }, .running n))
  | .running _ => none
  | .breaking .generation =>
    some (W, if W.generation ≠ generation then .returned else .breaking .stopping)
  | .breaking .stopping => some (W, if stopping then .returned else .lock)
  | .returned => none

/-- The nodes `DrainQueue` deletes when `PopAndCheckEnd` has returned. -/
def discards : Mpscq.PopPc Nat → List (Nat × Fate)
  | .done (some (.node n)) _ => [(n, .discarded)]
  | _ => []

/-! ### Runs -/

/-- A call of `PostToWorker` chooses the worker; one does its next operation; the thread does its
next operation; the task ends; and what `Stop` and `Start` do: `accepting`, the mutex,
`wake_pending`, and `DrainQueue`. -/
inductive Worker.Label where
  | call (n : Nat)
  | post (i : Nat)
  | run (generation : Nat) (stopping : Bool)
  | finish
  | refuse
  | lock
  | wake
  | unlock
  | beginPop
  | discard
  deriving DecidableEq, Repr

def Worker.step : Worker.Label → Option Worker
  | .call n =>
    if W.calls.any (·.task == n) then none else some { W with calls := W.calls ++ [⟨n, .enter⟩] }
  | .post i =>
    W.calls[i]?.bind fun c => (postAct W c.task c.pc).map fun (W', pc) =>
      { W' with calls := W'.calls.set i { c with pc := pc } }
  | .run generation stopping =>
    (runAct W generation stopping W.run).map fun (W', pc) => { W' with run := pc }
  | .finish =>
    match W.run with
    | .running _ => some { W with run := .loop .generation }
    | _ => none
  | .refuse => some { W with accepting := false }
  | .lock => if W.locked then none else some { W with locked := true }
  | .wake => some { W with wakePending := true }
  | .unlock => some { W with locked := false }
  | .beginPop => (W.queue.step .pop).map fun q => { W with queue := q }
  | .discard =>
    (W.queue.step .consume).map fun q => { W with queue := q, fates := W.fates ++ discards q.pop }

end Connx.WorkerPool
