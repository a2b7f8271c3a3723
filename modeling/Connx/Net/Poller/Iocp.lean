import Connx.Lib.Pool
import Connx.Lib.Simulation
import Connx.Net.Poller.Completion

/-!
# The poller over a completion port

`poller_win32.cc`, with the threads that start operations, the poll thread and the system between
them. An operation is a `WinIoRequest` on the heap. The poller keeps the requests that are under way
in a map under the address of their `OVERLAPPED`; the system keeps the address until the operation
completes, and then puts it into the queue of the port; the poll thread looks the address up and
hands the request over to a `shared_ptr`. Each step is one critical section, one call of the system
or one use of the heap.

A request is named by the number of its allocation. Addresses are used again: an allocation may
return any address at which no request lives. To delete a request twice or to use one after it was
deleted sets `bad`, and so does a call of `ConnectEx` before it was loaded.
-/

namespace Connx.Poll.Iocp

/-- `SOCKET`. -/
abbrev Socket := UInt64

/-- `INVALID_SOCKET`. -/
def invalidSocket : Socket := 0xFFFFFFFFFFFFFFFF

def isValidSocketHandle (fd : Socket) : Bool := fd != invalidSocket

/-- `struct WinIoRequest`; `address` is where it is on the heap, which is also the address of its
`overlapped`, and `frees` counts how often it was deleted. -/
structure WinIoRequest where
  address : Nat
  operation : PollOperation
  id : ConnectionId
  buffer : List Byte
  frees : Nat := 0
  deriving DecidableEq, Repr

instance : Inhabited WinIoRequest := ⟨⟨0, .ready, {}, [], 0⟩⟩

/-- What the request asks for. -/
def WinIoRequest.op (req : WinIoRequest) : Operation := ⟨req.id, req.operation, req.buffer⟩

/-- `PollEvent`, as `PollOne` fills it in; `data` points to the request. -/
structure PollEvent where
  id : ConnectionId
  readable : Bool := false
  writable : Bool := false
  error : Bool := false
  errorCode : Int := 0
  operation : PollOperation
  bytesTransferred : Nat
  data : Nat
  deriving DecidableEq, Repr

/-- What a call of `StartConnect`, `StartRecv` or `StartSend` returns; the description of an error
is `FormatErrorMessage` of the code. -/
inductive StartResult where
  | started
  | notInitialized
  | failed (code : Int)
  deriving DecidableEq, Repr

/-- A thread in `StartConnect`, `StartRecv` or `StartSend`. The first three are in
`LoadConnectEx`. -/
inductive Call where
  | check (fd : Socket) (op : Operation)
  | ioctl (fd : Socket) (op : Operation)
  | store (fd : Socket) (op : Operation)
  | allocate (fd : Socket) (op : Operation)
  | fresh (fd : Socket) (op : Operation) (req : Nat)
  | tracked (fd : Socket) (op : Operation) (req : Nat)
  | refused (req : Nat) (code : Int)
  | removed (req : Option Nat) (code : Int)
  | returned (result : StartResult)
  deriving DecidableEq, Repr

/-- An entry of the queue of the port. -/
inductive Packet where
  | wake
  | completion (req : Nat) (o : Outcome)
  deriving DecidableEq, Repr

/-- The poll thread in `Wait`, with the events it has so far. -/
inductive WaitPc where
  | idle
  | polling (events : List PollEvent)
  | dequeued (req : Nat) (o : Outcome) (events : List PollEvent)
  deriving DecidableEq, Repr

/-- The poller, the heap and the system. `pending` are the operations the system has taken on, with
whether their socket belongs to the port; `refs` counts the `shared_ptr`s to a request. `lost` is
history: the requests that `Shutdown` forgot. -/
structure State where
  opened : Bool := false
  connectex : Bool := false
  requests : Nat → Option Nat := fun _ => none
  associated : Socket → Bool := fun _ => false
  pending : List (Nat × Bool) := []
  queue : List Packet := []
  heap : List WinIoRequest := []
  refs : Nat → Nat := fun _ => 0
  calls : List Call := []
  wait : WaitPc := .idle
  lost : Nat → Bool := fun _ => false
  bad : Bool := false

/-- The events of `Wait` so far. -/
def WaitPc.collected : WaitPc → List PollEvent
  | .idle => []
  | .polling events => events
  | .dequeued _ _ events => events

/-- The request with a number. -/
def request (heap : List WinIoRequest) (k : Nat) : WinIoRequest := heap[k]?.getD default

namespace State

variable (S : State) (i k : Nat)

/-! ### Requests -/

def req : WinIoRequest := request S.heap k

/-- The request is used. -/
def touch : State := { S with bad := S.bad || (S.req k).frees != 0 }

/-- `delete req`. -/
def delete : State :=
  { S.touch k with heap := S.heap.modify k fun req => { req with frees := req.frees + 1 } }

/-- `TrackRequest`. -/
def trackRequest : State :=
  { S with requests := Function.update S.requests (S.req k).address (some k) }

/-- `RemoveRequest`, for the address of the request `k`. -/
def removeRequest : Option Nat × State :=
  match S.requests (S.req k).address with
  | none => (none, S)
  | some j =>
    (some j, { S with requests := Function.update S.requests (S.req k).address none })

/-- `UntrackRequest`, for the address of the request `k`: the request that is found gets its first
`shared_ptr`. -/
def untrackRequest : Option Nat × State :=
  match S.removeRequest k with
  | (none, S') => (none, S')
  | (some j, S') =>
    (some j, { S' with
      refs := Function.update S.refs j (S.refs j + 1)
      bad := S.bad || S.refs j != 0 })

/-- An allocation may return the address. -/
def vacant (address : Nat) : Bool := S.heap.all fun req => req.frees != 0 || req.address != address

/-! ### `Init`, `Shutdown`, `Add` and `Wake` -/

/-- `Init`; the system may refuse to create the port. -/
def init (created : Bool) : State :=
  if S.opened then S
  else if created then
    { S with
      opened := true
      connectex := false
      requests := fun _ => none
      associated := fun _ => false
      queue := [] }
  else S

/-- `Shutdown`. The system drops the queue of the port, and what it has taken on completes without
being reported. -/
def shutdown : State :=
  if S.opened then
    { S with
      opened := false
      connectex := false
      requests := fun _ => none
      associated := fun _ => false
      pending := S.pending.map fun p => (p.1, false)
      queue := []
      lost := fun k => S.lost k || S.requests (S.req k).address == some k }
  else S

/-- `Add`; the system takes a socket that belongs to no port yet. -/
def add (fd : Socket) (created : Bool) : State :=
  if !S.opened || !isValidSocketHandle fd then S
  else if created && !S.associated fd then
    { S with associated := Function.update S.associated fd true }
  else S

/-- `Wake`. -/
def wake : State := if S.opened then { S with queue := S.queue ++ [.wake] } else S

/-! ### `StartConnect`, `StartRecv` and `StartSend` -/

/-- A call begins; only `StartConnect` goes through `LoadConnectEx`. -/
def start (fd : Socket) (op : Operation) : State :=
  if !S.opened || !isValidSocketHandle fd then
    { S with calls := S.calls ++ [.returned .notInitialized] }
  else if op.kind = .connect then { S with calls := S.calls ++ [.check fd op] }
  else { S with calls := S.calls ++ [.allocate fd op] }

def setCall (call : Call) : State := { S with calls := S.calls.set i call }

/-- `ConnectEx`, `WSARecv` or `WSASend` for the request `k`: the system takes the operation on or
answers with an error code. -/
def issue (fd : Socket) (op : Operation) : Option Int → State
  | none =>
    { (S.touch k).setCall i (.returned .started) with
      bad := (S.touch k).bad || (op.kind == .connect && !S.connectex)
      pending := S.pending ++ [(k, S.associated fd)] }
  | some code =>
    { (S.touch k).setCall i (.refused k code) with
      bad := (S.touch k).bad || (op.kind == .connect && !S.connectex) }

/-- The next step of the call. `address` and `code` are the answers of the allocator and of the
system where one of them is asked. -/
def callStep (address : Nat) (code : Option Int) : Call → Option State
  | .check fd op =>
    some (S.setCall i (if S.connectex then .allocate fd op else .ioctl fd op))
  | .ioctl fd op =>
    match code with
    | none => some (S.setCall i (.store fd op))
    | some code => some (S.setCall i (.returned (.failed code)))
  | .store fd op => some { S.setCall i (.allocate fd op) with connectex := true }
  | .allocate fd op =>
    if S.vacant address then
      some { S.setCall i (.fresh fd op S.heap.length) with
        heap := S.heap ++ [⟨address, op.kind, op.id, op.buffer, 0⟩] }
    else none
  | .fresh fd op k => some ((S.trackRequest k).setCall i (.tracked fd op k))
  | .tracked fd op k => some (S.issue i k fd op code)
  | .refused k code =>
    some ((S.removeRequest k).2.setCall i (.removed (S.removeRequest k).1 code))
  | .removed none code => some (S.setCall i (.returned (.failed code)))
  | .removed (some k) code => some ((S.delete k).setCall i (.returned (.failed code)))
  | .returned _ => none

/-! ### The system completes an operation -/

/-- A receive fills the buffer of its request. -/
def fill (received : List Byte) : State :=
  { S.touch k with
    heap := S.heap.modify k fun req =>
      if req.operation = .recv then
        { req with buffer := received ++ req.buffer.drop received.length }
      else req }

/-- The operation completes, and is put into the queue if its socket belongs to the port. -/
def complete (reported : Bool) (o : Outcome) : Option State :=
  if (k, reported) ∈ S.pending ∧ o.Fits (S.req k).op then
    some { S.fill k o.received with
      pending := S.pending.erase (k, reported)
      queue := if reported then S.queue ++ [.completion k o] else S.queue }
  else none

/-! ### `Wait` -/

/-- The event of `PollOne` for a request that was found. -/
def event (o : Outcome) : PollEvent where
  id := (S.req k).id
  operation := (S.req k).operation
  bytesTransferred := o.bytes
  data := k
  error := o.error.isSome
  errorCode := o.error.getD 0
  writable := o.error.isNone && ((S.req k).operation == .connect || (S.req k).operation == .send)
  readable := o.error.isNone && (S.req k).operation == .recv

/-- `Wait` begins. -/
def beginWait : Option State :=
  match S.wait with
  | .idle => some (if S.opened then { S with wait := .polling [] } else S)
  | _ => none

/-- `GetQueuedCompletionStatus` in `PollOne` finds a packet or runs into its timeout. -/
def dequeue : Option State :=
  match S.wait with
  | .polling events =>
    match S.queue with
    | [] => some { S with wait := .idle }
    | .wake :: queue => some { S with wait := .idle, queue := queue }
    | .completion k o :: queue => some { S with wait := .dequeued k o events, queue := queue }
  | _ => none

/-- The rest of `PollOne`, and whether `Wait` goes on. -/
def untrack : Option State :=
  match S.wait with
  | .dequeued k o events =>
    match S.untrackRequest k with
    | (none, S') => some { S' with wait := .idle }
    | (some j, S') =>
      some { S'.touch j with
        wait := if events.length + 1 < maxCompletions then .polling (events ++ [S.event j o])
          else .idle }
  | _ => none

/-! ### The events are used -/

/-- How many of the events of `Wait` so far point to the request. -/
def collectedRefs : Nat := S.wait.collected.countP fun ev => ev.data == k

/-- A `shared_ptr` is copied, with the event that holds it. -/
def copyRef : Option State :=
  if 0 < S.refs k then some { S with refs := Function.update S.refs k (S.refs k + 1) } else none

/-- A `shared_ptr` goes, other than those of the events of `Wait`; the last one deletes the
request. -/
def dropRef : Option State :=
  if S.collectedRefs k < S.refs k then
    if S.refs k = 1 then some { S.delete k with refs := Function.update S.refs k 0 }
    else some { S with refs := Function.update S.refs k (S.refs k - 1) }
  else none

/-- `HandleRecvCompletion` reads the buffer. -/
def readData : Option State := if 0 < S.refs k then some (S.touch k) else none

end State

inductive Label where
  | init (created : Bool)
  | shutdown
  | add (fd : Socket) (created : Bool)
  | closeSocket (fd : Socket)
  | wake
  | start (fd : Socket) (op : Operation)
  | call (i address : Nat) (code : Option Int)
  | complete (k : Nat) (reported : Bool) (o : Outcome)
  | beginWait
  | dequeue
  | untrack
  | copyRef (k : Nat)
  | dropRef (k : Nat)
  | readData (k : Nat)

def step (S : State) : Label → Option State
  | .init created => some (S.init created)
  | .shutdown => some S.shutdown
  | .add fd created => some (S.add fd created)
  | .closeSocket fd => some { S with associated := Function.update S.associated fd false }
  | .wake => some S.wake
  | .start fd op => some (S.start fd op)
  | .call i address code => S.calls[i]?.bind fun call => S.callStep i address code call
  | .complete k reported o => S.complete k reported o
  | .beginWait => S.beginWait
  | .dequeue => S.dequeue
  | .untrack => S.untrack
  | .copyRef k => S.copyRef k
  | .dropRef k => S.dropRef k
  | .readData k => S.readData k

def Call.isReturned : Call → Bool
  | .returned _ => true
  | _ => false

/-- The socket that the call is about to use belongs to the port. -/
def Call.onPort (associated : Socket → Bool) : Call → Bool
  | .tracked fd _ _ => associated fd
  | _ => true

/-- What the callers see to: operations are started on sockets that were added, and the poller is
shut down when nobody uses it any more. -/
def Ok (S : State) : Label → Prop
  | .shutdown => S.calls.all Call.isReturned = true ∧ S.wait = .idle
  | .call i _ _ => S.calls[i]?.all (Call.onPort S.associated) = true
  | _ => True

instance (S : State) (l : Label) : Decidable (Ok S l) := by
  cases l <;> unfold Ok <;> infer_instance

/-! ### What is observed -/

/-- An event as a connection sees it. -/
def PollEvent.report (heap : List WinIoRequest) (ev : PollEvent) : Completion where
  id := ev.id
  operation := ev.operation
  readable := ev.readable
  writable := ev.writable
  errorCode := if ev.error then some ev.errorCode else none
  bytes := ev.bytesTransferred
  received := if ev.readable then (request heap ev.data).buffer.take ev.bytesTransferred else []

def observeCall (code : Option Int) : Call → ServiceOp
  | .tracked _ op _ => if code.isNone then .accepted op else .silent
  | _ => .silent

/-- `Wait` returns when there is nothing to take, when it has taken a wake-up, and when it has
`kMaxCompletions` events. -/
def observe (S : State) : Label → ServiceOp
  | .init created => .init (!S.opened && !created)
  | .shutdown => .shutdown
  | .wake => .wake
  | .call i _ code => ((S.calls[i]?).map (observeCall code)).getD .silent
  | .complete k reported o => if reported then .completed (S.req k).op o else .silent
  | .beginWait => if S.opened then .silent else .wait []
  | .dequeue =>
    match S.wait, S.queue with
    | .polling events, [] => .wait (events.map (PollEvent.report S.heap))
    | .polling events, .wake :: _ => .wait (events.map (PollEvent.report S.heap))
    | _, _ => .silent
  | .untrack =>
    match S.wait with
    | .dequeued k o events =>
      match (S.removeRequest k).1 with
      | none => .wait (events.map (PollEvent.report S.heap))
      | some j =>
        if events.length + 1 < maxCompletions then .silent
        else .wait ((events ++ [S.event j o]).map (PollEvent.report S.heap))
    | _ => .silent
  | _ => .silent

end Connx.Poll.Iocp
