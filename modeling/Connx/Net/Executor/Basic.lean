import Connx.Lib.Pool
import Connx.Lib.Run

/-!
# The task executor of a connection

`Post`, `Drain` and `CloseFromOwner` of one `ClientConnection`, one atomic operation a step. A call
of one of them is a process; any number of them run at once. Read-modify-writes, loads and mutex
operations take effect at once. A plain store is put in flight first and becomes visible at some
later step, at the latest when the storing thread is about to do a read-modify-write or to take the
mutex.

A task is opaque here: it runs, it may call `CloseFromOwner`, and it ends. A `Drain` that the worker
pool refuses runs on the thread that wanted to schedule it; that is one of the threads on which a
scheduled `Drain` may start. A `Post` from inside a task is a process of its own.
-/

namespace Connx.Executor

variable {τ : Type}

/-- `kDrainTaskBudget`. -/
def drainTaskBudget : Nat := 64

/-- A node of `task_queue_`, named by the `Post` that pushed it. It is linked when the push has
written the `next` field that leads to it. -/
structure Node (τ : Type) where
  id : Nat
  task : τ
  linked : Bool
  deriving DecidableEq, Repr

/-- What became of a node that was taken off the queue. -/
inductive Fate where
  | run
  | discarded
  deriving DecidableEq, Repr

/-- The two waits of `CloseFromOwner` on `idle_cv_`. -/
inductive Wait where
  | first
  | second
  deriving DecidableEq, Repr

/-- The atomics, the queue, `idle_mtx_` and `idle_cv_`, and the `Drain`s the worker pool has been
given. A thread in `waiters` is blocked and has not been notified. `nodes` are in the order of the
exchanges of `push`. The last two fields are history: what was pushed, and what was taken off. -/
structure Shared (τ : Type) where
  accepting : Bool := true
  ownerClosing : Bool := false
  draining : Bool := false
  activePosts : Int := 0
  queuedTasks : Int := 0
  nodes : List (Node τ) := []
  locked : Bool := false
  waiters : List (Nat × Wait) := []
  scheduled : Nat := 0
  pushed : List Nat := []
  taken : List (Nat × Fate) := []
  deriving DecidableEq, Repr

/-! ### Program counters -/

/-- `NotifyIdle`, before each of its operations. -/
inductive NotifyPc where
  | loadOwner
  | lock
  | loadActive
  | unlock
  deriving DecidableEq, Repr

/-- `DrainTaskQueue`. -/
inductive DiscardPc where
  | pop
  | count
  | loadActive
  | loadQueued
  deriving DecidableEq, Repr

/-- `CloseFromOwner` up to the end of its first wait. Of its two stores `issued` have been made and
`visible` can be seen by other threads. -/
inductive ReleasePc where
  | stores (issued visible : Nat)
  | relock
  | check
  | block
  | blocked
  | unlock
  deriving DecidableEq, Repr

/-- The second wait of `CloseFromOwner`. -/
inductive WaitPc where
  | lock
  | loadDraining
  | loadQueued
  | loadActive
  | block
  | blocked
  | unlock
  deriving DecidableEq, Repr

/-- `Post`; `won` says whether it has to schedule a `Drain`. -/
inductive PostPc where
  | enter
  | check
  | count
  | exchange
  | link
  | acquire
  | leave (won : Bool)
  | notify (won : Bool) (pc : NotifyPc)
  | schedule
  | done
  deriving DecidableEq, Repr

/-- `Drain`. From `release` and `closeStore` on, `visible` says whether its store to `draining_` is;
after `closeStore` the `Drain` is `ending`. The task that runs may be inside `CloseFromOwner`, which
is then `releasing`, `discarding` and `startClose`. -/
inductive DrainPc (τ : Type) where
  | top
  | pop
  | count (node : Node τ)
  | running
  | releasing (pc : ReleasePc)
  | discarding (pc : DiscardPc)
  | startClose
  | yield
  | release
  | notifying (visible ending : Bool) (pc : NotifyPc)
  | recheckOwner (visible : Bool)
  | recheckQueued (visible : Bool)
  | recheckActive (visible : Bool)
  | reacquire (visible : Bool)
  | closing (pc : DiscardPc)
  | closeConn
  | closeStore
  | returned (visible : Bool)
  deriving DecidableEq, Repr

/-- `CloseFromOwner` on a thread that is not draining the connection. -/
inductive CloserPc where
  | releasing (pc : ReleasePc)
  | acquire
  | schedule
  | waiting (pc : WaitPc)
  | done
  deriving DecidableEq, Repr

/-- A call that is under way or over; `processed` counts the tasks of a `Drain`. -/
inductive Proc (τ : Type) where
  | post (thread : Nat) (task : τ) (pc : PostPc)
  | drain (processed : Nat) (pc : DrainPc τ)
  | closer (pc : CloserPc)
  deriving DecidableEq, Repr

/-- What is left open by the state: whether `PopAndCheckEnd` meets a push that is under way, whether
`new TaskNode` throws, and what a running task does. -/
inductive Choice where
  | go
  | retry
  | noMemory
  | finish (yield : Bool)
  | closeFromOwner
  deriving DecidableEq, Repr

/-! ### The code -/

variable (i : Nat) (g : Shared τ) (c : Choice)

/-- The node `PopAndCheckEnd` finds. A node that is not linked yet is not found; the queue then
looks empty, or there is a push to wait for. -/
def Shared.front : Option (Node τ) :=
  match g.nodes with
  | [] => none
  | node :: _ => if node.linked then some node else none

def Shared.take (node : Node τ) (fate : Fate) : Shared τ :=
  { g with nodes := g.nodes.tail, taken := g.taken ++ [(node.id, fate)] }

/-- One step of `NotifyIdle`; it ends with `none`. -/
def notifyAct : NotifyPc → Option (Shared τ × Option NotifyPc)
  | .loadOwner => some (g, if g.ownerClosing then some .lock else none)
  | .lock => if g.locked then none else some ({ g with locked := true }, some .loadActive)
  | .loadActive => some (if g.activePosts = 0 then { g with waiters := [] } else g, some .unlock)
  | .unlock => some ({ g with locked := false }, none)

def discardAct : DiscardPc → Option (Shared τ × Option DiscardPc)
  | .pop =>
    match g.front with
    | some node =>
      if c = .retry then some (g, some .pop) else some (g.take node .discarded, some .count)
    | none => some (g, some .loadActive)
  | .count => some ({ g with queuedTasks := g.queuedTasks - 1 }, some .pop)
  | .loadActive => some (g, some (if g.activePosts = 0 then .loadQueued else .pop))
  | .loadQueued => some (g, if g.queuedTasks = 0 then none else some .pop)

def releaseAct : ReleasePc → Option (Shared τ × Option ReleasePc)
  | .stores issued visible =>
    if issued < 2 then some (g, some (.stores (issued + 1) visible))
    else if visible < 2 ∨ g.locked then none
    else some ({ g with locked := true }, some .check)
  | .relock => if g.locked then none else some ({ g with locked := true }, some .check)
  | .check => some (g, some (if g.activePosts = 0 then .unlock else .block))
  | .block =>
    some ({ g with locked := false, waiters := g.waiters ++ [(i, .first)] }, some .blocked)
  | .blocked => some ({ g with waiters := g.waiters.filter (·.1 ≠ i) }, some .relock)
  | .unlock => some ({ g with locked := false }, none)

def waitAct : WaitPc → Option (Shared τ × Option WaitPc)
  | .lock => if g.locked then none else some ({ g with locked := true }, some .loadDraining)
  | .loadDraining => some (g, some (if g.draining then .block else .loadQueued))
  | .loadQueued => some (g, some (if g.queuedTasks = 0 then .loadActive else .block))
  | .loadActive => some (g, some (if g.activePosts = 0 then .unlock else .block))
  | .block =>
    some ({ g with locked := false, waiters := g.waiters ++ [(i, .second)] }, some .blocked)
  | .blocked => some ({ g with waiters := g.waiters.filter (·.1 ≠ i) }, some .lock)
  | .unlock => some ({ g with locked := false }, none)

/-- `Post` after `active_posts_` was decremented and the owner perhaps notified. -/
def PostPc.afterLeave (won : Bool) : PostPc := if won then .schedule else .done

def postAct (task : τ) : PostPc → Option (Shared τ × PostPc)
  | .enter => some ({ g with activePosts := g.activePosts + 1 }, .check)
  | .check => some (g, if c ≠ .noMemory ∧ g.accepting then .count else .leave false)
  | .count => some ({ g with queuedTasks := g.queuedTasks + 1 }, .exchange)
  | .exchange =>
    some ({ g with nodes := g.nodes ++ [⟨i, task, false⟩], pushed := g.pushed ++ [i] }, .link)
  | .link =>
    some ({ g with nodes := g.nodes.map fun node =>
      if node.id = i then { node with linked := true } else node }, .acquire)
  | .acquire =>
    if g.draining then some (g, .leave false) else some ({ g with draining := true }, .leave true)
  | .leave won =>
    some ({ g with activePosts := g.activePosts - 1 },
      if g.activePosts = 1 then .notify won .loadOwner else .afterLeave won)
  | .notify won pc =>
    (notifyAct g pc).map fun (g', pc') => (g', pc'.elim (.afterLeave won) (.notify won))
  | .schedule => some ({ g with scheduled := g.scheduled + 1 }, .done)
  | .done => none

/-- `Drain` after `NotifyIdle`. -/
def DrainPc.afterNotify (visible ending : Bool) : DrainPc τ :=
  if ending then .returned visible else .recheckOwner visible

/-- `Drain` after a task. -/
def DrainPc.afterTask (processed : Nat) (yield : Bool) : DrainPc τ :=
  if yield ∨ drainTaskBudget ≤ processed then .yield else .top

def drainAct (processed : Nat) : DrainPc τ → Option (Shared τ × Nat × DrainPc τ)
  | .top => some (g, processed, if g.ownerClosing then .closing .pop else .pop)
  | .pop =>
    match g.front with
    | some node =>
      if c = .retry then some (g, processed, .pop)
      else some (g.take node .run, processed, .count node)
    | none => some (g, processed, .release)
  | .count _ => some ({ g with queuedTasks := g.queuedTasks - 1 }, processed, .running)
  | .running =>
    match c with
    | .finish yield => some (g, processed + 1, .afterTask (processed + 1) yield)
    | .closeFromOwner => some (g, processed, .releasing (.stores 0 0))
    | _ => none
  | .releasing pc =>
    (releaseAct i g pc).map fun (g', pc') => (g', processed, pc'.elim (.discarding .pop) .releasing)
  | .discarding pc =>
    (discardAct g c pc).map fun (g', pc') => (g', processed, pc'.elim .startClose .discarding)
  | .startClose => some (g, processed, .running)
  | .yield =>
    if g.ownerClosing then some (g, processed, .top)
    else some ({ g with scheduled := g.scheduled + 1 }, processed, .returned true)
  | .release => some (g, processed, .notifying false false .loadOwner)
  | .notifying visible ending pc =>
    if pc = .lock ∧ !visible then none
    else (notifyAct g pc).map fun (g', pc') =>
      (g', processed, pc'.elim (.afterNotify visible ending) (.notifying visible ending))
  | .recheckOwner visible =>
    some (g, processed, if g.ownerClosing then .reacquire visible else .recheckQueued visible)
  | .recheckQueued visible =>
    some (g, processed,
      if g.queuedTasks = 0 then .recheckActive visible else .reacquire visible)
  | .recheckActive visible =>
    some (g, processed, if g.activePosts = 0 then .returned visible else .reacquire visible)
  | .reacquire visible =>
    if !visible then none
    else if g.draining then some (g, processed, .returned true)
    else some ({ g with draining := true }, processed, .top)
  | .closing pc =>
    (discardAct g c pc).map fun (g', pc') => (g', processed, pc'.elim .closeConn .closing)
  | .closeConn => some (g, processed, .closeStore)
  | .closeStore => some (g, processed, .notifying false true .loadOwner)
  | .returned _ => none

def closerAct : CloserPc → Option (Shared τ × CloserPc)
  | .releasing pc =>
    (releaseAct i g pc).map fun (g', pc') => (g', pc'.elim .acquire .releasing)
  | .acquire =>
    if g.draining then some (g, .waiting .lock) else some ({ g with draining := true }, .schedule)
  | .schedule => some ({ g with scheduled := g.scheduled + 1 }, .waiting .lock)
  | .waiting pc => (waitAct i g pc).map fun (g', pc') => (g', pc'.elim .done .waiting)
  | .done => none

/-- One operation of the process `i`. -/
def act : Proc τ → Option (Shared τ × Proc τ)
  | .post thread task pc =>
    (postAct i g c task pc).map fun (g', pc') => (g', .post thread task pc')
  | .drain processed pc =>
    (drainAct i g c processed pc).map fun (g', processed', pc') => (g', .drain processed' pc')
  | .closer pc => (closerAct i g pc).map fun (g', pc') => (g', .closer pc')

/-! ### Stores that become visible -/

/-- The next store of `CloseFromOwner`. -/
def flushRelease : ReleasePc → Option (Shared τ × ReleasePc)
  | .stores issued visible =>
    if issued ≤ visible then none
    else if visible = 0 then some ({ g with ownerClosing := true }, .stores issued 1)
    else some ({ g with accepting := false }, .stores issued (visible + 1))
  | _ => none

/-- The program counter of a `Drain` once its store to `draining_` is visible. -/
def DrainPc.flushed : DrainPc τ → Option (DrainPc τ)
  | .notifying false ending pc => some (.notifying true ending pc)
  | .recheckOwner false => some (.recheckOwner true)
  | .recheckQueued false => some (.recheckQueued true)
  | .recheckActive false => some (.recheckActive true)
  | .reacquire false => some (.reacquire true)
  | .returned false => some (.returned true)
  | _ => none

/-- A store of the process becomes visible. -/
def flush : Proc τ → Option (Shared τ × Proc τ)
  | .drain processed (.releasing pc) =>
    (flushRelease g pc).map fun (g', pc') => (g', .drain processed (.releasing pc'))
  | .drain processed pc =>
    pc.flushed.map fun pc' => ({ g with draining := false }, .drain processed pc')
  | .closer (.releasing pc) =>
    (flushRelease g pc).map fun (g', pc') => (g', .closer (.releasing pc'))
  | _ => none

/-! ### Runs -/

structure State (τ : Type) where
  shared : Shared τ := {}
  procs : List (Proc τ) := []
  deriving DecidableEq, Repr

/-- A call begins, the pool runs a scheduled `Drain`, a process does its next operation, or a store
becomes visible. -/
inductive Label (τ : Type) where
  | post (thread : Nat) (task : τ)
  | close
  | start
  | step (i : Nat) (c : Choice)
  | flush (i : Nat)
  deriving DecidableEq, Repr

/-- The process a label is about. -/
def Label.process : Label τ → Option Nat
  | .step i _ => some i
  | .flush i => some i
  | _ => none

/-- Several operations of one process. -/
def Label.steps (i n : Nat) : List (Label τ) := List.replicate n (.step i .go)

/-- A `Post` of the thread that is not over. -/
def Proc.busy (thread : Nat) : Proc τ → Bool
  | .post thread' _ pc => thread' == thread && pc != .done
  | _ => false

namespace State

variable (S : State τ)

/-- The process `i` is replaced. -/
def put (r : Shared τ × Proc τ) : State τ := ⟨r.1, S.procs.set i r.2⟩

/-- A process is added. -/
def spawn (g : Shared τ) (p : Proc τ) : State τ := ⟨g, S.procs ++ [p]⟩

def step : Label τ → Option (State τ)
  | .post thread task =>
    if S.procs.any (·.busy thread) then none
    else some (S.spawn S.shared (.post thread task .enter))
  | .close => some (S.spawn S.shared (.closer (.releasing (.stores 0 0))))
  | .start =>
    if S.shared.scheduled = 0 then none
    else some (S.spawn { S.shared with scheduled := S.shared.scheduled - 1 } (.drain 0 .top))
  | .step i c => S.procs[i]?.bind fun p => (act i S.shared c p).map (S.put i)
  | .flush i => S.procs[i]?.bind fun p => (flush S.shared p).map (S.put i)

end State

end Connx.Executor
