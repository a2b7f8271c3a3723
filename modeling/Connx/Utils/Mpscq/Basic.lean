import Mathlib.Logic.Function.Basic
import Connx.Lib.Run

/-!
# The queue of many producers and one consumer

`MultiProducerSingleConsumerQueue`, one atomic operation a step. Any number of calls of `push` run
at once, each with a node of its own; one thread calls `PopAndCheckEnd`. The consumer keeps
`oldest_` to itself, and it takes part as a producer when it pushes `stub_` again.
-/

namespace Connx.Mpscq

variable {ν : Type}

/-- A `Node` of the list: `stub_`, or a node that was given to `push`. -/
inductive Cell (ν : Type) where
  | stub
  | node (n : ν)
  deriving DecidableEq, Repr

structure Queue (ν : Type) where
  newest : Cell ν := .stub
  oldest : Cell ν := .stub
  next : Cell ν → Option (Cell ν) := fun _ => none

/-- `push`, before each of its operations; at its end whether it found `stub_` in `newest_`. -/
inductive PushPc (ν : Type) where
  | clear
  | exchange
  | link (prev : Cell ν)
  | done (first : Bool)
  deriving DecidableEq, Repr

/-- `PopAndCheckEnd`, before each of its operations; at its end the node it returns and `*empty`. -/
inductive PopPc (ν : Type) where
  | load
  | loadNext (tail : Cell ν)
  | loadNewest (tail : Cell ν)
  | reinsert (tail : Cell ν) (pc : PushPc ν)
  | reload (tail : Cell ν)
  | done (result : Option (Cell ν)) (empty : Bool)
  deriving DecidableEq, Repr

/-! ### The code -/

section code

variable [DecidableEq ν] (q : Queue ν)

def Queue.setNext (c : Cell ν) (target : Option (Cell ν)) : Queue ν :=
  { q with next := Function.update q.next c target }

def pushAct (c : Cell ν) : PushPc ν → Option (Queue ν × PushPc ν)
  | .clear => some (q.setNext c none, .exchange)
  | .exchange => some ({ q with newest := c }, .link q.newest)
  | .link prev => some (q.setNext prev (some c), .done (prev = .stub))
  | .done _ => none

/-- The last two returns of `PopAndCheckEnd`: `tail` can be given away once its successor is
known. -/
def finish (tail : Cell ν) (otherwise : PopPc ν) : Queue ν × PopPc ν :=
  match q.next tail with
  | some obj => ({ q with oldest := obj }, .done (some tail) false)
  | none => (q, otherwise)

def popAct : PopPc ν → Option (Queue ν × PopPc ν)
  | .load =>
    if q.oldest = .stub then
      match q.next .stub with
      | none => some (q, .done none true)
      | some obj => some ({ q with oldest := obj }, .loadNext obj)
    else some (finish q q.oldest (.loadNewest q.oldest))
  | .loadNext tail => some (finish q tail (.loadNewest tail))
  | .loadNewest tail =>
    some (q, if tail = q.newest then .reinsert tail .clear else .done none false)
  | .reinsert tail pc =>
    (pushAct q .stub pc).map fun (q', pc') =>
      (q', match pc' with | .done _ => .reload tail | _ => .reinsert tail pc')
  | .reload tail => some (finish q tail (.done none false))
  | .done _ _ => none

end code

/-! ### Runs -/

/-- The queue with the calls on it. The last two fields are history: the nodes in the order of their
exchanges on `newest_`, and the nodes `PopAndCheckEnd` has returned. -/
structure State (ν : Type) where
  queue : Queue ν := {}
  pushes : ν → Option (PushPc ν) := fun _ => none
  pop : PopPc ν := .done none true
  exchanged : List ν := []
  returned : List (Cell ν) := []

/-- A call of `push` with a node begins or does its next operation; likewise for
`PopAndCheckEnd`. -/
inductive Label (ν : Type) where
  | push (n : ν)
  | step (n : ν)
  | pop
  | consume
  deriving DecidableEq, Repr

/-- `PopAndCheckEnd` is not being called. -/
def PopPc.isDone : PopPc ν → Bool
  | .done _ _ => true
  | _ => false

namespace State

variable [DecidableEq ν] (S : State ν)

def step : Label ν → Option (State ν)
  | .push n =>
    if S.pushes n = none then some { S with pushes := Function.update S.pushes n (some .clear) }
    else none
  | .step n =>
    (S.pushes n).bind fun pc =>
      (pushAct S.queue (.node n) pc).map fun (q, pc') => { S with
        queue := q
        pushes := Function.update S.pushes n (some pc')
        exchanged := if pc = .exchange then S.exchanged ++ [n] else S.exchanged }
  | .pop => if S.pop.isDone then some { S with pop := .load } else none
  | .consume =>
    (popAct S.queue S.pop).map fun (q, pc) => { S with
      queue := q
      pop := pc
      returned := match pc with | .done (some c) _ => S.returned ++ [c] | _ => S.returned }

end State

end Connx.Mpscq
