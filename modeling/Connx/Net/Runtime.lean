import Mathlib.Data.List.Sort
import Mathlib.Tactic
import Connx.Net.ConnectionTable

/-!
# The parts of `GlobalRuntime` that connections share

The connection table, the timer queue, the interests registered with the poller, and the sockets
that are open. The registration log is a history variable: it lists, in order, what was registered
and unregistered, so that a registration can be named by its position.
-/

namespace Connx

inductive TimerKind where
  | connectTimeout
  deriving DecidableEq, Repr

/-- `struct TimerEvent`; `reg` is the number of the registration the timer was added for. -/
structure TimerEvent where
  deadlineMs : Int
  id : ConnectionId
  kind : TimerKind
  reg : Nat
  deriving DecidableEq, Repr

lemma TimerEvent.pairwise_nil :
    ([] : List TimerEvent).Pairwise fun a b => a.deadlineMs ≤ b.deadlineMs := .nil

/-- `std::priority_queue` under `TimerQueue::Compare`: `top()` is the head of a list sorted by
deadline. -/
structure TimerQueue where
  timers : List TimerEvent := []
  sorted : timers.Pairwise (fun a b => a.deadlineMs ≤ b.deadlineMs) := by
    exact TimerEvent.pairwise_nil

namespace TimerQueue

instance : Inhabited TimerQueue := ⟨{}⟩

instance : Std.Total (fun a b : TimerEvent => a.deadlineMs ≤ b.deadlineMs) :=
  ⟨fun a b => le_total a.deadlineMs b.deadlineMs⟩

instance : IsTrans TimerEvent (fun a b => a.deadlineMs ≤ b.deadlineMs) :=
  ⟨fun _ _ _ => le_trans⟩

/-- `Add`; an invalid id is ignored. -/
def add (q : TimerQueue) (ev : TimerEvent) : TimerQueue :=
  if ev.id.valid then
    ⟨q.timers.orderedInsert (fun a b => a.deadlineMs ≤ b.deadlineMs) ev, q.sorted.orderedInsert _ _⟩
  else q

/-- The loop of `PopExpired`: take off the top while its deadline has passed. -/
def popExpired (q : TimerQueue) (nowMs : Int) : List TimerEvent × TimerQueue :=
  (q.timers.takeWhile (fun ev => ev.deadlineMs ≤ nowMs),
    ⟨q.timers.dropWhile (fun ev => ev.deadlineMs ≤ nowMs),
      q.sorted.sublist (List.dropWhile_sublist _)⟩)

lemma mem_add {q : TimerQueue} {ev ev' : TimerEvent} (h : ev' ∈ (q.add ev).timers) :
    ev' = ev ∨ ev' ∈ q.timers := by
  unfold add at h
  split_ifs at h with hv
  · simpa [List.mem_orderedInsert] using h
  · exact Or.inr h

lemma mem_of_mem_popExpired {q : TimerQueue} {now : Int} {ev : TimerEvent}
    (h : ev ∈ (q.popExpired now).1) : ev ∈ q.timers :=
  (List.takeWhile_sublist _).subset h

lemma mem_of_mem_rest {q : TimerQueue} {now : Int} {ev : TimerEvent}
    (h : ev ∈ (q.popExpired now).2.timers) : ev ∈ q.timers :=
  (List.dropWhile_sublist _).subset h

end TimerQueue

/-- `enum PollInterest`, as the set of its flags. -/
structure Interest where
  readable : Bool := false
  writable : Bool := false
  deriving DecidableEq, Repr, Inhabited

/-- An entry of the registration log: which connection registered or unregistered which id. -/
inductive RegEvent where
  | registered (conn : Nat) (id : ConnectionId)
  | unregistered (conn : Nat) (id : ConnectionId)
  deriving DecidableEq, Repr

namespace RegEvent

/-- The connection whose call it was. -/
def conn : RegEvent → Nat
  | registered conn _ => conn
  | unregistered conn _ => conn

def registration : RegEvent → Option (Nat × ConnectionId)
  | registered conn id => some (conn, id)
  | unregistered _ _ => none

end RegEvent

/-- `GlobalRuntime`, as far as connections use it. `sockets` lists the open sockets with the
connection that opened each. -/
structure Runtime where
  connections : ConnectionTable := {}
  timers : TimerQueue := {}
  poller : Int → Option (ConnectionId × Interest) := fun _ => none
  sockets : List (Nat × Int) := []
  log : List RegEvent := []

namespace Runtime

/-- The registrations made so far, oldest first. -/
def registrations (rt : Runtime) : List (Nat × ConnectionId) :=
  rt.log.filterMap RegEvent.registration

/-- `connections().Register(conn)`. -/
def register (rt : Runtime) (conn : Nat) : ConnectionId × Runtime :=
  ((rt.connections.register conn).1,
    { rt with
      connections := (rt.connections.register conn).2
      log := rt.log ++ [.registered conn (rt.connections.register conn).1] })

/-- `connections().Unregister(id)`, called by the connection `conn`. -/
def unregister (rt : Runtime) (conn : Nat) (id : ConnectionId) : Runtime :=
  { rt with
    connections := rt.connections.unregister id
    log := rt.log ++ [.unregistered conn id] }

/-- `poller().Add` and `poller().Modify`, when they succeed. -/
def pollerSet (rt : Runtime) (fd : Int) (id : ConnectionId) (interest : Interest) : Runtime :=
  { rt with poller := Function.update rt.poller fd (some (id, interest)) }

/-- `poller().Remove`. -/
def pollerRemove (rt : Runtime) (fd : Int) : Runtime :=
  { rt with poller := Function.update rt.poller fd none }

def openSocket (rt : Runtime) (conn : Nat) (fd : Int) : Runtime :=
  { rt with sockets := (conn, fd) :: rt.sockets }

def closeSocket (rt : Runtime) (conn : Nat) (fd : Int) : Runtime :=
  { rt with sockets := rt.sockets.filter (· ≠ (conn, fd)) }

def addTimer (rt : Runtime) (ev : TimerEvent) : Runtime :=
  { rt with timers := rt.timers.add ev }

end Runtime

end Connx
