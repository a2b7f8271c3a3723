import Mathlib.Data.Multiset.AddSub
import Connx.Lib.Simulation
import Connx.Net.Connection.Basic

/-!
# What the Windows poller is for

On Windows the poller does not say when a socket is ready: it starts operations and reports their
completion. This is the service the rest of the library expects, without requests, addresses and
completion ports: an operation that was started completes at most once, completions are reported in
their order, each once, and a wake-up is one entry of the same queue.
-/

namespace Connx.Poll

/-- An operation on a socket: what `StartConnect`, `StartRecv` or `StartSend` is called with. The
buffer holds what is to be sent, or is there to be filled. -/
structure Operation where
  id : ConnectionId
  kind : PollOperation
  buffer : List Byte
  deriving DecidableEq, Repr

/-- `wsa_buffer.len`, a `ULONG`. -/
def Operation.length (op : Operation) : Nat := op.buffer.length % 2 ^ 32

/-- How the system completes an operation. -/
structure Outcome where
  bytes : Nat
  received : List Byte := []
  error : Option Int := none
  deriving DecidableEq, Repr

/-- No more is transferred than there is room for, and what was received is what was transferred. -/
def Outcome.Fits (o : Outcome) (op : Operation) : Prop :=
  o.bytes ≤ op.length ∧ o.received.length ≤ op.length ∧
    (op.kind = .recv → o.error = none → o.received.length = o.bytes)

instance (o : Outcome) (op : Operation) : Decidable (o.Fits op) :=
  inferInstanceAs (Decidable (_ ∧ _ ∧ _))

/-- A completion as a connection sees it, with what a receive has put into its buffer. -/
structure Completion where
  id : ConnectionId
  operation : PollOperation
  readable : Bool
  writable : Bool
  errorCode : Option Int
  bytes : Nat
  received : List Byte
  deriving DecidableEq, Repr

/-- What is reported for an operation. -/
def Operation.report (op : Operation) (o : Outcome) : Completion where
  id := op.id
  operation := op.kind
  readable := o.error.isNone && op.kind == .recv
  writable := o.error.isNone && (op.kind == .connect || op.kind == .send)
  errorCode := o.error
  bytes := o.bytes
  received := if o.error.isNone && op.kind == .recv then o.received else []

/-- `kMaxCompletions`. -/
def maxCompletions : Nat := 256

/-- What can be observed of the poller. -/
inductive ServiceOp where
  | init (error : Bool)
  | shutdown
  | accepted (op : Operation)
  | completed (op : Operation) (o : Outcome)
  | wake
  | wait (reports : List Completion)
  | silent
  deriving DecidableEq, Repr

/-- The state of the service: the operations under way, and what is to be reported, with `none` for
a wake-up. -/
structure Service where
  opened : Bool := false
  started : Multiset Operation := 0
  done : List (Option Completion) := []

/-- What the service may do. -/
inductive Service.Step : Service → ServiceOp → Service → Prop
  | init {s : Service} (h : s.opened = false) : Step s (.init false) { s with opened := true }
  | initAgain {s : Service} (h : s.opened = true) : Step s (.init false) s
  | initFailed {s : Service} (h : s.opened = false) : Step s (.init true) s
  | shutdown {s : Service} : Step s .shutdown {}
  | accepted {s : Service} (op : Operation) (h : s.opened = true) :
      Step s (.accepted op) { s with started := op ::ₘ s.started }
  | completed {s : Service} (op : Operation) (o : Outcome) (rest : Multiset Operation)
      (hstarted : s.started = op ::ₘ rest) (hfits : o.Fits op) :
      Step s (.completed op o)
        { s with started := rest, done := s.done ++ [some (op.report o)] }
  | wake {s : Service} (h : s.opened = true) : Step s .wake { s with done := s.done ++ [none] }
  | wakeClosed {s : Service} (h : s.opened = false) : Step s .wake s
  | wait {s : Service} (reports : List Completion) (woken : Bool) (rest : List (Option Completion))
      (hdone : s.done = reports.map some ++ (if woken then [none] else []) ++ rest)
      (hlength : reports.length ≤ maxCompletions)
      (hend : woken = true ∨ reports.length = maxCompletions ∨ rest = []) :
      Step s (.wait reports) { s with done := rest }
  | waitClosed {s : Service} (h : s.opened = false) : Step s (.wait []) s
  | silent {s : Service} : Step s .silent s

/-! ### Whole runs of the service -/

namespace ServiceOp

/-- The operation that was started. -/
def acceptedOp : ServiceOp → Option Operation
  | .accepted op => some op
  | _ => none

/-- The operation that completed. -/
def completedOp : ServiceOp → Option Operation
  | .completed op _ => some op
  | _ => none

/-- What the completion has to be reported as. -/
def completion : ServiceOp → Option Completion
  | .completed op o => some (op.report o)
  | _ => none

/-- What `Wait` reported. -/
def reports : ServiceOp → List Completion
  | .wait reports => reports
  | _ => []

end ServiceOp

namespace Service

variable {s s' : Service} {o : ServiceOp} {os : List ServiceOp}

/-- What was reported comes off the front of what was to be reported, and completions are put to its
end. -/
lemma Step.order (h : Step s o s') (ho : o ≠ .shutdown) :
    o.reports ++ s'.done.filterMap id = s.done.filterMap id ++ o.completion.toList := by
  cases h with
  | shutdown => exact absurd rfl ho
  | completed op out rest hstarted hfits => simp [ServiceOp.reports, ServiceOp.completion]
  | wake hopened => simp [ServiceOp.reports, ServiceOp.completion]
  | wait reports woken rest hdone hlength hend =>
    cases woken <;>
      simp [ServiceOp.reports, ServiceOp.completion, hdone, List.filterMap_map]
  | _ => simp [ServiceOp.reports, ServiceOp.completion]

lemma Step.order_sublist (h : Step s o s') : (o.reports ++ s'.done.filterMap id).Sublist
    (s.done.filterMap id ++ o.completion.toList) := by
  by_cases ho : o = .shutdown
  · subst ho
    cases h
    exact List.nil_sublist _
  · rw [h.order ho]

/-- Only what was started completes. -/
lemma Step.once (h : Step s o s') : (o.completedOp.toList : Multiset Operation) + s'.started ≤
    s.started + (o.acceptedOp.toList : Multiset Operation) := by
  cases h with
  | shutdown => exact Multiset.zero_le _
  | accepted op hopened =>
    simp [ServiceOp.completedOp, ServiceOp.acceptedOp, add_comm s.started]
  | completed op out rest hstarted hfits =>
    simp [ServiceOp.completedOp, ServiceOp.acceptedOp, hstarted]
  | _ => simp [ServiceOp.completedOp, ServiceOp.acceptedOp]

/-- In a run without `Shutdown`, what was reported and what is still to be reported is what was to
be reported before and what has completed since, in this order. -/
lemma order_of_follows (h : Run.Follows Step s os s') (hos : .shutdown ∉ os) :
    os.flatMap ServiceOp.reports ++ s'.done.filterMap id =
      s.done.filterMap id ++ os.filterMap ServiceOp.completion := by
  induction h with
  | nil s => simp
  | cons hstep _ ih =>
    have ho := hstep.order fun heq => hos (heq ▸ List.mem_cons_self)
    rw [List.flatMap_cons, List.append_assoc, ih fun hmem => hos (List.mem_cons_of_mem _ hmem),
      ← List.append_assoc, ho, List.append_assoc, List.filterMap_cons]
    cases ServiceOp.completion _ <;> simp

/-- In every run nothing is reported twice or out of order. -/
lemma order_sublist_of_follows (h : Run.Follows Step s os s') :
    (os.flatMap ServiceOp.reports ++ s'.done.filterMap id).Sublist
      (s.done.filterMap id ++ os.filterMap ServiceOp.completion) := by
  induction h with
  | nil s => simp
  | cons hstep _ ih =>
    rw [List.flatMap_cons, List.append_assoc]
    refine (List.Sublist.append (List.Sublist.refl _) ih).trans ?_
    rw [← List.append_assoc]
    refine (hstep.order_sublist.append_right _).trans ?_
    rw [List.append_assoc, List.filterMap_cons]
    cases ServiceOp.completion _ <;> simp

/-- In every run each operation completes at most once. -/
lemma once_of_follows (h : Run.Follows Step s os s') :
    (os.filterMap ServiceOp.completedOp : Multiset Operation) + s'.started ≤
      s.started + (os.filterMap ServiceOp.acceptedOp : Multiset Operation) := by
  induction h with
  | nil s => simp
  | @cons s s₁ s' o os hstep _ ih =>
    have hcompleted : (List.filterMap ServiceOp.completedOp (o :: os) : Multiset Operation) =
        (o.completedOp.toList : Multiset Operation) +
          (os.filterMap ServiceOp.completedOp : List _) := by
      rw [List.filterMap_cons]
      cases o.completedOp <;> simp
    have haccepted : (List.filterMap ServiceOp.acceptedOp (o :: os) : Multiset Operation) =
        (o.acceptedOp.toList : Multiset Operation) +
          (os.filterMap ServiceOp.acceptedOp : List _) := by
      rw [List.filterMap_cons]
      cases o.acceptedOp <;> simp
    rw [hcompleted, haccepted, add_assoc, ← add_assoc s.started]
    calc _ ≤ (o.completedOp.toList : Multiset Operation) +
          (s₁.started + (os.filterMap ServiceOp.acceptedOp : List Operation)) :=
        add_le_add le_rfl ih
      _ ≤ _ := by
        rw [← add_assoc]
        exact add_le_add hstep.once le_rfl

end Service

end Connx.Poll
