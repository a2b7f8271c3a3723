import Connx.Lib.Run
import Connx.Net.Poller.Basic
import Connx.Net.TimerQueue

/-!
# The poll thread, the threads that add timers, and `Stop`

`GlobalRuntime::PollLoop` with `Stop` and with the connections that add a timer: a connection first
adds the timer to the queue and then wakes the poller, and the poll thread computes its timeout
before it sleeps. Each step is one access to the queue, to `running_` or to the poller. `Wait` of
the poller is two steps, the return of the kernel and the loop that takes the wake-up, between which
other threads may wake the poller again.

Connections are not part of this model; to dispatch an event is to take it off the list.
-/

namespace Connx.PollLoop

/-- `kMaxPollTimeoutMs`. -/
def maxPollTimeoutMs : Int := 1000

/-- Where the poll thread is in `PollLoop`. -/
inductive Pc where
  | check
  | compute
  | waiting (nowMs timeout : Int)
  | drain (reports : List Poll.Report)
  | dispatch (reports : List Poll.Report)
  | pop
  | dispatchTimers (timers : List TimerEvent)
  | exited
  deriving DecidableEq

/-- Where the thread that stops the runtime is in `Stop`. -/
inductive StopPc where
  | notCalled
  | exchanged
  | woken
  | joined
  deriving DecidableEq

variable (P : PriorityQueue TimerEvent Timers.compare)

/-- The state from `Start` to the end of the poll thread. `adding` counts the threads between
`timers().Add` and `poller().Wake`. -/
structure State where
  running : Bool := true
  pc : Pc := .check
  timers : P.Carrier
  wake : Bool := false
  adding : Nat := 0
  stop : StopPc := .notCalled

/-- The state `Start` leaves. -/
def State.init : State P := { timers := P.empty }

inductive Label where
  | check
  | compute (nowMs : Int)
  | waitReturns (result : Poll.WaitResult)
  | drainWake
  | dispatch
  | popExpired (nowMs : Int)
  | dispatchTimer
  | addTimer (ev : TimerEvent)
  | wakeAfterAdd
  | stopExchange
  | stopWake
  | stopJoin

/-- The steps of the poll thread. -/
def Label.ofPollThread : Label → Bool
  | .check => true
  | .compute _ => true
  | .waitReturns _ => true
  | .drainWake => true
  | .dispatch => true
  | .popExpired _ => true
  | .dispatchTimer => true
  | _ => false

/-- What the poll thread does when `Wait` comes back. -/
def afterWait : Poll.WaitResult → Pc
  | .events reports true => .drain reports
  | result => .dispatch result.reports

/-- The poller may come back so: it sleeps until the timeout only without a wake-up. -/
def returns (wake : Bool) : Poll.WaitResult → Bool
  | .timeout => !wake
  | .events _ woken => !woken || wake
  | .interrupted => true
  | .failed => true
  | .closed => false

variable {P}

/-- The steps of the poll thread, where it is. -/
def pollStep (S : State P) : Label → Option (State P)
  | .check =>
    match S.pc with
    | .check => some { S with pc := if S.running then .compute else .exited }
    | _ => none
  | .compute nowMs =>
    match S.pc with
    | .compute => some { S with
        pc := .waiting nowMs (Timers.nextTimeoutMs P S.timers nowMs maxPollTimeoutMs) }
    | _ => none
  | .waitReturns result =>
    match S.pc with
    | .waiting _ _ => if returns S.wake result then some { S with pc := afterWait result } else none
    | _ => none
  | .drainWake =>
    match S.pc with
    | .drain reports => some { S with pc := .dispatch reports, wake := false }
    | _ => none
  | .dispatch =>
    match S.pc with
    | .dispatch [] => some { S with pc := .pop }
    | .dispatch (_ :: reports) => some { S with pc := .dispatch reports }
    | _ => none
  | .popExpired nowMs =>
    match S.pc with
    | .pop =>
      some { S with
        pc := .dispatchTimers ((Timers.popExpired P S.timers nowMs (some [])).1.getD [])
        timers := (Timers.popExpired P S.timers nowMs (some [])).2 }
    | _ => none
  | .dispatchTimer =>
    match S.pc with
    | .dispatchTimers [] => some { S with pc := .check }
    | .dispatchTimers (_ :: timers) => some { S with pc := .dispatchTimers timers }
    | _ => none
  | _ => none

def step (S : State P) : Label → Option (State P)
  | .addTimer ev => some { S with timers := Timers.add P S.timers ev, adding := S.adding + 1 }
  | .wakeAfterAdd =>
    match S.adding with
    | 0 => none
    | n + 1 => some { S with adding := n, wake := true }
  | .stopExchange =>
    if S.stop = .notCalled then some { S with running := false, stop := .exchanged } else none
  | .stopWake => if S.stop = .exchanged then some { S with wake := true, stop := .woken } else none
  | .stopJoin =>
    if S.stop = .woken ∧ S.pc = .exited then some { S with stop := .joined } else none
  | l => pollStep S l

end Connx.PollLoop
