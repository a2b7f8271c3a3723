import Connx.Net.Windows.System

/-!
# The operations of a connection and its two streams

An operation is under way from the call that starts it until a task of the connection has handled
its completion. The invariant says that a connection has at most one receive and one send under way,
that `recv_pending_` and `send_pending_` say so, and how far the two byte streams are at each moment
in between.
-/

namespace Connx.Windows

open Poll (Operation Outcome Completion Service)

/-- The completion a task is about. -/
def Task.event : Task → Option Completion
  | .completion ev => some ev
  | _ => none

/-- The completions that no task has handled yet, oldest first: those in the task queue, the one the
poll thread is about to post, those it still has to dispatch, and those in the queue of the port. -/
def World.landed (w : World) : List Completion :=
  w.conn.queue.filterMap Task.event ++ w.acquired.toList ++ w.events ++
    w.service.done.filterMap id

/-- The number of operations of a kind that are under way for an id. -/
def inFlight (started : Multiset Operation) (landed : List Completion) (kind : PollOperation)
    (id : ConnectionId) : Nat :=
  started.countP (fun op => op.kind = kind ∧ op.id = id) +
    landed.countP fun ev => ev.operation = kind ∧ ev.id = id

section inFlight

variable {started : Multiset Operation} {landed : List Completion} {kind : PollOperation}
  {id : ConnectionId} {op : Operation} {ev : Completion}

lemma inFlight_start :
    inFlight (op ::ₘ started) landed kind id =
      inFlight started landed kind id + if op.kind = kind ∧ op.id = id then 1 else 0 := by
  unfold inFlight
  rw [Multiset.countP_cons]
  split_ifs <;> omega

lemma inFlight_land :
    inFlight started (landed ++ [ev]) kind id =
      inFlight started landed kind id + if ev.operation = kind ∧ ev.id = id then 1 else 0 := by
  unfold inFlight
  rw [List.countP_append, List.countP_singleton]
  split_ifs <;> simp_all [Nat.add_assoc]

lemma inFlight_handle :
    inFlight started (ev :: landed) kind id =
      inFlight started landed kind id + if ev.operation = kind ∧ ev.id = id then 1 else 0 := by
  unfold inFlight
  rw [List.countP_cons]
  split_ifs <;> simp_all [Nat.add_assoc]

/-- An operation stays under way when it completes. -/
lemma inFlight_complete (o : Outcome) :
    inFlight started (landed ++ [op.report o]) kind id =
      inFlight (op ::ₘ started) landed kind id := by
  rw [inFlight_land, inFlight_start]
  rfl

lemma inFlight_eq_zero : inFlight started landed kind id = 0 ↔
    (∀ op ∈ started, op.kind = kind → op.id ≠ id) ∧
      ∀ ev ∈ landed, ev.operation = kind → ev.id ≠ id := by
  simp [inFlight, Multiset.countP_eq_zero, List.countP_eq_zero]

lemma inFlight_drop {landed' : List Completion} (h : landed'.Sublist landed) :
    inFlight started landed' kind id ≤ inFlight started landed kind id :=
  Nat.add_le_add le_rfl h.countP_le

end inFlight

/-! ### The parts of the invariant -/

section parts

variable (ids others : List ConnectionId) (id : ConnectionId) (started : Multiset Operation)
  (landed : List Completion) (given sent received delivered : Bytes)

/-- Everything that is under way belongs to an id that was handed out. -/
structure Known : Prop where
  valid : ∀ i ∈ ids ++ others, i.valid = true
  apart : ∀ i ∈ ids, i ∉ others
  own : id.valid = true → id ∈ ids
  started : ∀ op ∈ started, op.id ∈ ids ++ others
  landed : ∀ ev ∈ landed, ev.id ∈ ids ++ others
  fresh : ∀ i, i ∉ ids ++ others →
    given i = [] ∧ sent i = [] ∧ received i = [] ∧ delivered i = []

/-- Under every id of the connection, also an earlier one, the system has taken the first bytes that
were to be sent and the next send goes on from there; the handler has the first bytes that were
received. -/
structure Wire : Prop where
  once : ∀ i ∈ ids, started.countP (fun op => op.kind = .send ∧ op.id = i) ≤ 1
  next : ∀ op ∈ started, op.kind = .send → op.id ∈ ids →
    sent op.id ++ op.buffer <+: given op.id
  sent : ∀ i ∈ ids, sent i <+: given i
  delivered : ∀ i ∈ ids, delivered i <+: received i

/-- At most one operation of a kind is under way, and `pending` says whether one is. After the
connection stopped to accept tasks its completions are dropped. -/
structure Slot (kind : PollOperation) (pending accepting : Bool) : Prop where
  le : inFlight started landed kind id ≤ pending.toNat
  eq : accepting = true → inFlight started landed kind id = pending.toNat

/-- Where the output stands: `acked` is what the connection knows the system to have taken, and
`content` what it still has. The system has taken more while a completion is on its way. -/
structure Sending (content : List Byte) (pending : Bool) (acked : List Byte) : Prop where
  given : given id = acked ++ content
  rest : pending = false → sent id = acked
  started : ∀ op ∈ started, op.kind = .send → op.id = id →
    sent id = acked ∧ op.buffer <+: content
  landed : ∀ ev ∈ landed, ev.operation = .send → ev.id = id →
    ev.bytes ≤ content.length ∧ sent id = acked ++ content.take ev.bytes

/-- `pending_bytes_` counts the bytes of `send_buffer_`, and the output stands somewhere. -/
structure Output (content : List Byte) (pending : Bool) (pendingBytes : Nat) : Prop where
  pendingBytes : pendingBytes = content.length
  sending : id.valid = true → ∃ acked, Sending id started landed given sent content pending acked

/-- A completion of a receive is what the service makes of it. -/
def Sound (ev : Completion) : Prop :=
  (ev.errorCode = none → ev.received.length = ev.bytes) ∧ (ev.errorCode ≠ none → ev.received = [])

/-- Where the input stands: the handler has what was received but for `input`, and for what a
completion on its way carries. -/
structure Receiving (input : List Byte) (pending : Bool) : Prop where
  known : delivered id ++ input <+: received id
  rest : pending = false → received id = delivered id ++ input
  started : ∀ op ∈ started, op.kind = .recv → op.id = id → received id = delivered id ++ input
  landed : ∀ ev ∈ landed, ev.operation = .recv → ev.id = id →
    received id = delivered id ++ input ++ ev.received

end parts

/-- The operations and the streams of a connection. -/
structure Streams (w : World) : Prop where
  known : Known w.ids w.others w.conn.id w.service.started w.landed w.given w.sent w.received
    w.delivered
  wire : Wire w.ids w.service.started w.given w.sent w.received w.delivered
  recv : Slot w.conn.id w.service.started w.landed .recv w.conn.recvPending w.conn.acceptingTasks
  send : Slot w.conn.id w.service.started w.landed .send w.conn.sendPending w.conn.acceptingTasks
  output : Output w.conn.id w.service.started w.landed w.given w.sent w.conn.sendBuffer.content
    w.conn.sendPending w.conn.pendingBytes
  input : w.conn.id.valid = true → Receiving w.conn.id w.service.started w.landed w.received
    w.delivered w.conn.input w.conn.recvPending
  sound : ∀ ev ∈ w.landed, ev.operation = .recv → Sound ev

/-- The close did not come from a completion that cannot be. -/
def Expected (desc : ErrorText) : Prop :=
  desc ≠ .invalidRecvCompletion ∧ desc ≠ .invalidSendCompletion

/-- A connection that is not established holds nothing. -/
structure Down (c : Conn) : Prop where
  recvPending : c.recvPending = false
  sendPending : c.sendPending = false
  sendBuffer : c.sendBuffer.content = []
  recvBuffer : c.recvBuffer.content = []
  parsed : c.parsed = 0
  deferred : c.deferredClosePending = false
  continuation : c.parseContinuationPending = false

/-- What `Down` looks at. -/
def Conn.held (c : Conn) : Bool × Bool × List Byte × List Byte × Nat × Bool × Bool :=
  (c.recvPending, c.sendPending, c.sendBuffer.content, c.recvBuffer.content, c.parsed,
    c.deferredClosePending, c.parseContinuationPending)

lemma Down.of_eq {c c' : Conn} (h : Down c) (heq : c'.held = c.held) : Down c' := by
  obtain ⟨h₁, h₂, h₃, h₄, h₅, h₆, h₇⟩ := h
  simp only [Conn.held, Prod.mk.injEq] at heq
  obtain ⟨e₁, e₂, e₃, e₄, e₅, e₆, e₇⟩ := heq
  exact ⟨e₁.trans h₁, e₂.trans h₂, e₃.trans h₃, e₄.trans h₄, e₅.trans h₅, e₆.trans h₆,
    e₇.trans h₇⟩

/-- An established connection is registered. -/
structure Up (c : Conn) : Prop where
  state : c.state = .connected
  valid : c.id.valid = true

/-- What holds of a connection between two stretches of its tasks. -/
structure Phase (c : Conn) : Prop where
  notClosing : c.state ≠ .closing
  up : c.connected = true → Up c
  down : c.connected = false → Down c
  socket : c.id.valid = true → Poll.Iocp.isValidSocketHandle c.fd = true
  parsed : c.parsed ≤ c.recvBuffer.content.length
  deferred : Expected c.deferredCloseDesc
  closes : ∀ p ∈ c.closes, Expected p.2

/-- The invariant. Whoever waits for a continuation of the parse has one in the queue, and what is
to be sent is being sent. -/
structure Inv (w : World) : Prop extends Streams w, Phase w.conn where
  continuation : w.conn.parseContinuationPending = true → w.conn.acceptingTasks = true →
    .parseContinuation ∈ w.conn.queue
  pushed : w.conn.sendBuffer.content ≠ [] → w.conn.sendPending = true

/-- Between two tasks an established connection receives, or has come to the end of the input and
waits for the continuation of the parse. What the handler has is not in the buffer any more. -/
structure Settled (c : Conn) : Prop where
  listening : c.connected = true →
    c.recvPending = true ∨ c.deferredClosePending = true ∧ c.parseContinuationPending = true
  handed : c.parsed = 0

/-! ### Lemmas about the parts -/

section parts

variable {ids others : List ConnectionId} {id : ConnectionId} {started : Multiset Operation}
  {landed landed' : List Completion} {given sent received delivered : Bytes}
  {kind : PollOperation} {pending accepting : Bool} {content acked input : List Byte}
  {op : Operation} {ev : Completion} {o : Outcome}

lemma Known.drop (h : Known ids others id started landed given sent received delivered)
    (hsub : landed' ⊆ landed) :
    Known ids others id started landed' given sent received delivered :=
  ⟨h.valid, h.apart, h.own, h.started, fun ev hev => h.landed ev (hsub hev), h.fresh⟩

/-- Nothing is under way for an id that was not handed out. -/
lemma Known.inFlight_eq_zero
    (h : Known ids others id started landed given sent received delivered) {i : ConnectionId}
    (hi : i ∉ ids ++ others) : inFlight started landed kind i = 0 := by
  rw [Windows.inFlight_eq_zero]
  refine ⟨fun op hop _ heq => hi ?_, fun ev hev _ heq => hi ?_⟩
  · exact heq ▸ h.started op hop
  · exact heq ▸ h.landed ev hev

lemma Known.not_mem (h : Known ids others id started landed given sent received delivered)
    {i : ConnectionId} (hi : i.valid = false) : i ∉ ids ++ others := fun hmem => by
  simp [h.valid i hmem] at hi

/-- The connection leaves its id. -/
lemma Known.leave (h : Known ids others id started landed given sent received delivered)
    {i : ConnectionId} (hi : i.valid = false) :
    Known ids others i started landed given sent received delivered :=
  ⟨h.valid, h.apart, fun hvalid => by simp [hi] at hvalid, h.started, h.landed, h.fresh⟩

/-- The connection is registered under a new id. -/
lemma Known.register (h : Known ids others id started landed given sent received delivered)
    {i : ConnectionId} (hvalid : i.valid = true) (hothers : i ∉ others) :
    Known (i :: ids) others i started landed given sent received delivered where
  valid j hj := by
    rcases List.mem_cons.mp hj with rfl | hj
    · exact hvalid
    · exact h.valid j hj
  apart j hj := by
    rcases List.mem_cons.mp hj with rfl | hj
    · exact hothers
    · exact h.apart j hj
  own _ := List.mem_cons_self
  started op hop := List.mem_cons_of_mem _ (h.started op hop)
  landed ev hev := List.mem_cons_of_mem _ (h.landed ev hev)
  fresh j hj := h.fresh j fun hmem => hj (List.mem_cons_of_mem _ hmem)

lemma Known.start (h : Known ids others id started landed given sent received delivered)
    (hop : op.id ∈ ids ++ others) :
    Known ids others id (op ::ₘ started) landed given sent received delivered where
  valid := h.valid
  apart := h.apart
  own := h.own
  started op' hop' := by
    rcases Multiset.mem_cons.mp hop' with rfl | hop'
    · exact hop
    · exact h.started op' hop'
  landed := h.landed
  fresh := h.fresh

lemma Slot.drop (h : Slot id started landed kind pending accepting)
    (hsub : landed'.Sublist landed) {accepting' : Bool}
    (heq : accepting' = true → accepting = true ∧
      inFlight started landed' kind id = inFlight started landed kind id) :
    Slot id started landed' kind pending accepting' where
  le := (inFlight_drop hsub).trans h.le
  eq haccept := (heq haccept).2.trans (h.eq (heq haccept).1)

/-- Nothing is under way. -/
lemma Slot.empty (h : inFlight started landed kind id = 0) :
    Slot id started landed kind false accepting :=
  ⟨h.le, fun _ => h⟩

lemma Slot.eq_zero (h : Slot id started landed kind false accepting) :
    inFlight started landed kind id = 0 := Nat.le_zero.mp h.le

lemma Slot.le_one (h : Slot id started landed kind pending accepting) :
    inFlight started landed kind id ≤ 1 :=
  h.le.trans (Bool.toNat_le pending)

lemma Slot.pending_iff (h : Slot id started landed kind pending accepting)
    (haccept : accepting = true) : pending = true ↔ inFlight started landed kind id = 1 := by
  rw [h.eq haccept]
  cases pending <;> simp

/-- An operation that has not completed is still with the system. -/
lemma Slot.started_of_not_landed (h : Slot id started landed kind pending accepting)
    (haccept : accepting = true) (hpending : pending = true)
    (hlanded : ∀ ev ∈ landed, ev.operation = kind → ev.id ≠ id) :
    ∃ op ∈ started, op.kind = kind ∧ op.id = id := by
  have hone := (h.pending_iff haccept).mp hpending
  by_contra hnone
  push Not at hnone
  have hzero : inFlight started landed kind id = 0 := inFlight_eq_zero.mpr ⟨hnone, hlanded⟩
  omega

/-- An operation is started when none is under way. -/
lemma Slot.start (h : Slot id started landed kind false accepting) (hkind : op.kind = kind)
    (hid : op.id = id) : Slot id (op ::ₘ started) landed kind true accepting := by
  have heq : inFlight (op ::ₘ started) landed kind id = 1 := by
    rw [inFlight_start, h.eq_zero, if_pos ⟨hkind, hid⟩]
  exact ⟨heq.le, fun _ => heq⟩

/-- An operation of another kind, or for another id, is started. -/
lemma Slot.frame (h : Slot id started landed kind pending accepting)
    (hop : ¬ (op.kind = kind ∧ op.id = id)) :
    Slot id (op ::ₘ started) landed kind pending accepting := by
  have heq : inFlight (op ::ₘ started) landed kind id = inFlight started landed kind id := by
    rw [inFlight_start, if_neg hop, Nat.add_zero]
  exact ⟨heq ▸ h.le, fun haccept => heq.trans (h.eq haccept)⟩

lemma Slot.complete (h : Slot id (op ::ₘ started) landed kind pending accepting) :
    Slot id started (landed ++ [op.report o]) kind pending accepting := by
  have heq : inFlight started (landed ++ [op.report o]) kind id =
      inFlight (op ::ₘ started) landed kind id := inFlight_complete o
  exact ⟨heq ▸ h.le, fun haccept => heq.trans (h.eq haccept)⟩

/-- A completion is handled. -/
lemma Slot.handle (h : Slot id started (ev :: landed) kind pending accepting)
    (hkind : ev.operation = kind) (hid : ev.id = id) :
    pending = true ∧ Slot id started landed kind false accepting := by
  have hle := h.le
  rw [inFlight_handle, if_pos ⟨hkind, hid⟩] at hle
  cases pending with
  | false => simp at hle
  | true => exact ⟨rfl, .empty (by simpa using hle)⟩

/-- A completion that is not for this slot is handled. -/
lemma Slot.skip (h : Slot id started (ev :: landed) kind pending accepting)
    (hev : ¬ (ev.operation = kind ∧ ev.id = id)) :
    Slot id started landed kind pending accepting := by
  have heq : inFlight started (ev :: landed) kind id = inFlight started landed kind id := by
    rw [inFlight_handle, if_neg hev, Nat.add_zero]
  exact ⟨heq ▸ h.le, fun haccept => heq ▸ h.eq haccept⟩

/-- While one operation is under way there is no other. -/
lemma Slot.alone (h : Slot id (op ::ₘ started) landed kind pending accepting)
    (hkind : op.kind = kind) (hid : op.id = id) :
    pending = true ∧ inFlight started landed kind id = 0 := by
  have hle := h.le
  rw [inFlight_start, if_pos ⟨hkind, hid⟩] at hle
  cases pending with
  | false => simp at hle
  | true => exact ⟨rfl, by simpa using hle⟩

lemma Sending.drop (h : Sending id started landed given sent content pending acked)
    (hsub : landed' ⊆ landed) : Sending id started landed' given sent content pending acked :=
  ⟨h.given, h.rest, h.started, fun ev hev => h.landed ev (hsub hev)⟩

lemma Output.drop {n : Nat} (h : Output id started landed given sent content pending n)
    (hsub : landed' ⊆ landed) : Output id started landed' given sent content pending n :=
  ⟨h.pendingBytes, fun hvalid => (h.sending hvalid).imp fun _ hs => hs.drop hsub⟩

lemma Receiving.drop (h : Receiving id started landed received delivered input pending)
    (hsub : landed' ⊆ landed) : Receiving id started landed' received delivered input pending :=
  ⟨h.known, h.rest, h.started, fun ev hev => h.landed ev (hsub hev)⟩

/-- Another operation is started. -/
lemma Sending.frame (h : Sending id started landed given sent content pending acked)
    (hop : ¬ (op.kind = .send ∧ op.id = id)) :
    Sending id (op ::ₘ started) landed given sent content pending acked where
  given := h.given
  rest := h.rest
  started op' hop' hkind hid := by
    rcases Multiset.mem_cons.mp hop' with rfl | hop'
    · exact absurd ⟨hkind, hid⟩ hop
    · exact h.started op' hop' hkind hid
  landed := h.landed

lemma Output.frame {n : Nat} (h : Output id started landed given sent content pending n)
    (hop : ¬ (op.kind = .send ∧ op.id = id)) :
    Output id (op ::ₘ started) landed given sent content pending n :=
  ⟨h.pendingBytes, fun hvalid => (h.sending hvalid).imp fun _ hs => hs.frame hop⟩

lemma Receiving.frame (h : Receiving id started landed received delivered input pending)
    (hop : ¬ (op.kind = .recv ∧ op.id = id)) :
    Receiving id (op ::ₘ started) landed received delivered input pending where
  known := h.known
  rest := h.rest
  started op' hop' hkind hid := by
    rcases Multiset.mem_cons.mp hop' with rfl | hop'
    · exact absurd ⟨hkind, hid⟩ hop
    · exact h.started op' hop' hkind hid
  landed := h.landed

@[simp] lemma Bytes.add_self (h : Bytes) (i : ConnectionId) (data : List Byte) :
    h.add i data i = h i ++ data := by
  simp [Bytes.add]

lemma Bytes.add_of_ne (h : Bytes) {i j : ConnectionId} (hne : j ≠ i) (data : List Byte) :
    h.add i data j = h j := by
  simp [Bytes.add, hne]

@[simp] lemma Bytes.add_nil (h : Bytes) (i : ConnectionId) : h.add i [] = h := by
  simp [Bytes.add]

lemma Bytes.prefix_add (h : Bytes) (i j : ConnectionId) (data : List Byte) :
    h j <+: h.add i data j := by
  by_cases hij : j = i
  · subst hij
    simp
  · rw [h.add_of_ne hij]

/-- What the system has sent after the completion. -/
def sentBy (op : Operation) (o : Outcome) (sent : Bytes) : Bytes :=
  if op.kind = .send then sent.add op.id (op.buffer.take o.bytes) else sent

lemma sentBy_self (hkind : op.kind = .send) (hid : op.id = id) :
    sentBy op o sent id = sent id ++ op.buffer.take o.bytes := by
  subst hid
  simp [sentBy, hkind]

lemma sentBy_frame (hop : ¬ (op.kind = .send ∧ op.id = id)) : sentBy op o sent id = sent id := by
  unfold sentBy
  split_ifs with hkind
  · exact sent.add_of_ne (fun heq => hop ⟨hkind, heq.symm⟩) _
  · rfl

/-- Only a receive brings bytes. -/
lemma received_frame (hop : ¬ (op.kind = .recv ∧ op.id = id)) :
    received.add op.id (op.report o).received id = received id := by
  by_cases hid : op.id = id
  · have hnil : (op.report o).received = [] := by
      simp [Operation.report, show op.kind ≠ .recv from fun hkind => hop ⟨hkind, hid⟩]
    rw [hnil, Bytes.add_nil]
  · exact received.add_of_ne (fun heq => hid heq.symm) _

lemma Fits.bytes_le (h : o.Fits op) : o.bytes ≤ op.buffer.length :=
  h.1.trans (Nat.mod_le _ _)

lemma sound_report (h : o.Fits op) (hkind : op.kind = .recv) : Sound (op.report o) := by
  refine ⟨fun herror => ?_, fun herror => ?_⟩
  · have hnone : o.error = none := herror
    simpa [Operation.report, hnone, hkind] using h.2.2 hkind hnone
  · have hsome : o.error.isNone = false := by
      simpa [Operation.report, Option.isNone_eq_false_iff, Option.isSome_iff_ne_none] using herror
    simp [Operation.report, hsome]

lemma Known.complete
    (h : Known ids others id (op ::ₘ started) landed given sent received delivered) :
    Known ids others id started (landed ++ [op.report o]) given (sentBy op o sent)
      (received.add op.id (op.report o).received) delivered where
  valid := h.valid
  apart := h.apart
  own := h.own
  started op' hop' := h.started op' (Multiset.mem_cons_of_mem hop')
  landed ev hev := by
    rcases List.mem_append.mp hev with hev | hev
    · exact h.landed ev hev
    · obtain rfl := List.mem_singleton.mp hev
      exact h.started op (Multiset.mem_cons_self _ _)
  fresh i hi := by
    have hne : op.id ≠ i := fun heq => hi (heq ▸ h.started op (Multiset.mem_cons_self _ _))
    rw [sentBy_frame fun hop => hne hop.2, received_frame fun hop => hne hop.2]
    exact h.fresh i hi

lemma Wire.complete (h : Wire ids (op ::ₘ started) given sent received delivered) :
    Wire ids started given (sentBy op o sent) (received.add op.id (op.report o).received)
      delivered where
  once i hi := (Multiset.countP_le_of_le _ (Multiset.le_cons_self _ _)).trans (h.once i hi)
  next op' hop' hkind' hid' := by
    have hframe : ¬ (op.kind = .send ∧ op.id = op'.id) := by
      intro hop
      have honce := h.once op'.id hid'
      rw [Multiset.countP_cons, if_pos hop] at honce
      have hpos : 0 < started.countP (fun op => op.kind = .send ∧ op.id = op'.id) :=
        Multiset.countP_pos.mpr ⟨op', hop', hkind', rfl⟩
      omega
    rw [sentBy_frame hframe]
    exact h.next op' (Multiset.mem_cons_of_mem hop') hkind' hid'
  sent i hi := by
    by_cases hop : op.kind = .send ∧ op.id = i
    · obtain ⟨hkind, rfl⟩ := hop
      rw [sentBy_self hkind rfl]
      exact ((List.prefix_append_right_inj _).mpr (List.take_prefix _ _)).trans
        (h.next op (Multiset.mem_cons_self _ _) hkind hi)
    · rw [sentBy_frame hop]
      exact h.sent i hi
  delivered i hi := (h.delivered i hi).trans (received.prefix_add _ _ _)

lemma Sending.complete (h : Sending id (op ::ₘ started) landed given sent content pending acked)
    (hslot : Slot id (op ::ₘ started) landed .send pending accepting) (hfits : o.Fits op) :
    Sending id started (landed ++ [op.report o]) given (sentBy op o sent) content pending
      acked := by
  by_cases hop : op.kind = .send ∧ op.id = id
  · obtain ⟨hkind, hid⟩ := hop
    obtain ⟨hpending, hzero⟩ := hslot.alone hkind hid
    obtain ⟨hstarted, hlanded⟩ := inFlight_eq_zero.mp hzero
    obtain ⟨hsent, hbuffer⟩ := h.started op (Multiset.mem_cons_self _ _) hkind hid
    refine ⟨h.given, fun hrest => by simp [hpending] at hrest,
      fun op' hop' hkind' hid' => absurd hid' (hstarted op' hop' hkind'), ?_⟩
    intro ev hev hevkind hevid
    rcases List.mem_append.mp hev with hev | hev
    · exact absurd hevid (hlanded ev hev hevkind)
    · obtain rfl := List.mem_singleton.mp hev
      obtain ⟨rest, rfl⟩ := hbuffer
      have hbytes : o.bytes ≤ op.buffer.length := Fits.bytes_le hfits
      refine ⟨hbytes.trans (by simp), ?_⟩
      rw [sentBy_self hkind hid, hsent]
      exact congrArg _ (List.take_append_of_le_length hbytes).symm
  · refine ⟨h.given, ?_, ?_, ?_⟩
    · rw [sentBy_frame hop]
      exact h.rest
    · intro op' hop' hkind' hid'
      rw [sentBy_frame hop]
      exact h.started op' (Multiset.mem_cons_of_mem hop') hkind' hid'
    · intro ev hev hevkind hevid
      rw [sentBy_frame hop]
      rcases List.mem_append.mp hev with hev | hev
      · exact h.landed ev hev hevkind hevid
      · obtain rfl := List.mem_singleton.mp hev
        exact absurd ⟨hevkind, hevid⟩ hop

lemma Receiving.complete
    (h : Receiving id (op ::ₘ started) landed received delivered input pending)
    (hslot : Slot id (op ::ₘ started) landed .recv pending accepting) :
    Receiving id started (landed ++ [op.report o]) (received.add op.id (op.report o).received)
      delivered input pending := by
  by_cases hop : op.kind = .recv ∧ op.id = id
  · obtain ⟨hkind, rfl⟩ := hop
    obtain ⟨hpending, hzero⟩ := hslot.alone hkind rfl
    obtain ⟨hstarted, hlanded⟩ := inFlight_eq_zero.mp hzero
    refine ⟨h.known.trans (received.prefix_add _ _ _), fun hrest => by simp [hpending] at hrest,
      fun op' hop' hkind' hid' => absurd hid' (hstarted op' hop' hkind'), ?_⟩
    intro ev hev hevkind hevid
    rcases List.mem_append.mp hev with hev | hev
    · exact absurd hevid (hlanded ev hev hevkind)
    · obtain rfl := List.mem_singleton.mp hev
      rw [Bytes.add_self, h.started op (Multiset.mem_cons_self _ _) hkind rfl]
  · refine ⟨?_, ?_, ?_, ?_⟩
    · rw [received_frame hop]
      exact h.known
    · rw [received_frame hop]
      exact h.rest
    · intro op' hop' hkind' hid'
      rw [received_frame hop]
      exact h.started op' (Multiset.mem_cons_of_mem hop') hkind' hid'
    · intro ev hev hevkind hevid
      rw [received_frame hop]
      rcases List.mem_append.mp hev with hev | hev
      · exact h.landed ev hev hevkind hevid
      · obtain rfl := List.mem_singleton.mp hev
        exact absurd ⟨hevkind, hevid⟩ hop

/-! An operation of the connection is started. -/

lemma Wire.start (h : Wire ids started given sent received delivered)
    (hop : op.kind = .send → started.countP (fun op' => op'.kind = .send ∧ op'.id = op.id) = 0 ∧
      sent op.id ++ op.buffer <+: given op.id) :
    Wire ids (op ::ₘ started) given sent received delivered where
  once i hi := by
    rw [Multiset.countP_cons]
    split_ifs with hi'
    · obtain ⟨hkind, rfl⟩ := hi'
      rw [(hop hkind).1]
    · exact h.once i hi
  next op' hop' hkind hid := by
    rcases Multiset.mem_cons.mp hop' with rfl | hop'
    · exact (hop hkind).2
    · exact h.next op' hop' hkind hid
  sent := h.sent
  delivered := h.delivered

lemma Sending.start (h : Sending id started landed given sent content false acked)
    (hbuffer : op.buffer <+: content) :
    Sending id (op ::ₘ started) landed given sent content true acked where
  given := h.given
  rest hpending := by simp at hpending
  started op' hop' hkind hid := by
    rcases Multiset.mem_cons.mp hop' with rfl | hop'
    · exact ⟨h.rest rfl, hbuffer⟩
    · exact h.started op' hop' hkind hid
  landed := h.landed

lemma Receiving.start (h : Receiving id started landed received delivered input false) :
    Receiving id (op ::ₘ started) landed received delivered input true where
  known := h.known
  rest hpending := by simp at hpending
  started op' hop' hkind hid := by
    rcases Multiset.mem_cons.mp hop' with rfl | hop'
    · exact h.rest rfl
    · exact h.started op' hop' hkind hid
  landed := h.landed

/-! The completion of an operation of the connection is handled. -/

lemma Sending.handle (h : Sending id started (ev :: landed) given sent content pending acked)
    (hzero : inFlight started landed .send id = 0) (hkind : ev.operation = .send)
    (hid : ev.id = id) :
    ev.bytes ≤ content.length ∧ Sending id started landed given sent (content.drop ev.bytes) false
      (acked ++ content.take ev.bytes) := by
  obtain ⟨hstarted, hlanded⟩ := inFlight_eq_zero.mp hzero
  obtain ⟨hle, hsent⟩ := h.landed ev List.mem_cons_self hkind hid
  refine ⟨hle, ?_, fun _ => hsent, ?_, ?_⟩
  · rw [List.append_assoc, List.take_append_drop, h.given]
  · exact fun op hop hkind hid => absurd hid (hstarted op hop hkind)
  · exact fun ev hev hkind hid => absurd hid (hlanded ev hev hkind)

lemma Receiving.handle
    (h : Receiving id started (ev :: landed) received delivered input pending)
    (hzero : inFlight started landed .recv id = 0) (hkind : ev.operation = .recv)
    (hid : ev.id = id) :
    Receiving id started landed received delivered (input ++ ev.received) false := by
  obtain ⟨hstarted, hlanded⟩ := inFlight_eq_zero.mp hzero
  have hreceived := h.landed ev List.mem_cons_self hkind hid
  rw [List.append_assoc] at hreceived
  refine ⟨hreceived ▸ List.prefix_rfl, fun _ => hreceived, ?_, ?_⟩
  · exact fun op hop hkind hid => absurd hid (hstarted op hop hkind)
  · exact fun ev hev hkind hid => absurd hid (hlanded ev hev hkind)

/-! The handler is given bytes, and bytes are given to the connection. -/

lemma Known.deliver (h : Known ids others id started landed given sent received delivered)
    (hid : id ∈ ids) (data : List Byte) :
    Known ids others id started landed given sent received (delivered.add id data) :=
  { h with
    fresh := fun i hi => by
      have hne : i ≠ id := fun heq => hi (heq ▸ List.mem_append_left _ hid)
      rw [delivered.add_of_ne hne]
      exact h.fresh i hi }

lemma Known.give (h : Known ids others id started landed given sent received delivered)
    (hid : id ∈ ids) (data : List Byte) :
    Known ids others id started landed (given.add id data) sent received delivered :=
  { h with
    fresh := fun i hi => by
      have hne : i ≠ id := fun heq => hi (heq ▸ List.mem_append_left _ hid)
      rw [given.add_of_ne hne]
      exact h.fresh i hi }

lemma Wire.deliver (h : Wire ids started given sent received delivered) {data : List Byte}
    (hdata : delivered id ++ data <+: received id) :
    Wire ids started given sent received (delivered.add id data) :=
  { h with
    delivered := fun i hi => by
      by_cases hid : i = id
      · subst hid
        rw [Bytes.add_self]
        exact hdata
      · rw [delivered.add_of_ne hid]
        exact h.delivered i hi }

lemma Wire.give (h : Wire ids started given sent received delivered) (data : List Byte) :
    Wire ids started (given.add id data) sent received delivered :=
  { h with
    next := fun op hop hkind hid => (h.next op hop hkind hid).trans (given.prefix_add _ _ _)
    sent := fun i hi => (h.sent i hi).trans (given.prefix_add _ _ _) }

lemma Receiving.deliver {data : List Byte}
    (h : Receiving id started landed received delivered (data ++ input) pending) :
    Receiving id started landed received (delivered.add id data) input pending := by
  have happend : delivered.add id data id ++ input = delivered id ++ (data ++ input) := by
    rw [Bytes.add_self, List.append_assoc]
  refine ⟨?_, ?_, ?_, ?_⟩ <;> rw [happend]
  · exact h.known
  · exact h.rest
  · exact h.started
  · exact h.landed

lemma Sending.give (h : Sending id started landed given sent content pending acked)
    (data : List Byte) :
    Sending id started landed (given.add id data) sent (content ++ data) pending acked where
  given := by rw [Bytes.add_self, h.given, List.append_assoc]
  rest := h.rest
  started op hop hkind hid :=
    ⟨(h.started op hop hkind hid).1,
      (h.started op hop hkind hid).2.trans (List.prefix_append _ _)⟩
  landed ev hev hkind hid := by
    obtain ⟨hle, hsent⟩ := h.landed ev hev hkind hid
    refine ⟨hle.trans (by simp), ?_⟩
    rw [List.take_append_of_le_length hle]
    exact hsent

end parts

/-! ### The steps around a task -/

section around

variable {w w' : World}

/-- While a task is in a callback the invariant is kept, and a connection that is still established
has only been given other tasks. -/
structure Meanwhile (w w' : World) : Prop where
  inv : Inv w'
  kept : w'.conn.connected = true → ∃ queue accepting closing, w'.conn = { w.conn with
    queue := queue, acceptingTasks := accepting, ownerClosing := closing }

lemma Meanwhile.refl (h : Inv w) : Meanwhile w w :=
  ⟨h, fun _ => ⟨_, _, _, rfl⟩⟩

lemma Meanwhile.trans {w'' : World} (h : Meanwhile w w') (h' : Meanwhile w' w'') :
    Meanwhile w w'' := by
  refine ⟨h'.inv, fun hconn => ?_⟩
  obtain ⟨queue', accepting', closing', heq'⟩ := h'.kept hconn
  have hconn' : w'.conn.connected = true := by simpa [heq'] using hconn
  obtain ⟨queue, accepting, closing, heq⟩ := h.kept hconn'
  exact ⟨queue', accepting', closing', by rw [heq', heq]⟩

/-- A connection that was closed when the callback began is closed when it ends. -/
lemma Meanwhile.closed (h : Meanwhile w w') (hw : w.conn.connected = false) :
    w'.conn.connected = false := by
  by_contra hconn
  obtain ⟨queue, accepting, closing, heq⟩ := h.kept (by simpa using hconn)
  simp [heq, hw] at hconn

lemma Meanwhile.settled (h : Meanwhile w w') (hw : Settled w.conn) : Settled w'.conn := by
  by_cases hconn : w'.conn.connected = true
  · obtain ⟨queue, accepting, closing, heq⟩ := h.kept hconn
    rw [heq]
    exact ⟨hw.listening, hw.handed⟩
  · refine ⟨fun htrue => absurd htrue hconn, ?_⟩
    exact (h.inv.down (by simpa using hconn)).parsed

/-- Tasks and completions are handed on. -/
def World.dispatch (w : World) (queue : List Task) (accepting closing : Bool)
    (events : List Completion) (acquired : Option Completion) (done : List (Option Completion)) :
    World :=
  { w with
    conn := { w.conn with
      queue := queue, acceptingTasks := accepting, ownerClosing := closing }
    service := { w.service with done := done }
    events := events
    acquired := acquired }

/-- A completion is dropped only if it is for another id or if the connection is being released. -/
lemma Inv.dispatch (h : Inv w) {queue : List Task} {accepting closing : Bool}
    {events : List Completion} {acquired : Option Completion} {done : List (Option Completion)}
    (hsub : (w.dispatch queue accepting closing events acquired done).landed.Sublist w.landed)
    (hkeep : accepting = true → w.conn.acceptingTasks = true ∧ ∀ kind, kind = .recv ∨ kind = .send →
      inFlight w.service.started (w.dispatch queue accepting closing events acquired done).landed
        kind w.conn.id = inFlight w.service.started w.landed kind w.conn.id)
    (hcontinue : w.conn.parseContinuationPending = true → accepting = true →
      .parseContinuation ∈ w.conn.queue → .parseContinuation ∈ queue) :
    Meanwhile w (w.dispatch queue accepting closing events acquired done) where
  inv :=
    { known := h.known.drop hsub.subset
      wire := h.wire
      recv := h.recv.drop hsub fun haccept => ⟨(hkeep haccept).1, (hkeep haccept).2 _ (.inl rfl)⟩
      send := h.send.drop hsub fun haccept => ⟨(hkeep haccept).1, (hkeep haccept).2 _ (.inr rfl)⟩
      output := h.output.drop hsub.subset
      input := fun hvalid => (h.input hvalid).drop hsub.subset
      sound := fun ev hev => h.sound ev (hsub.subset hev)
      notClosing := h.notClosing
      up := fun hconn => ⟨(h.up hconn).state, (h.up hconn).valid⟩
      down := fun hconn => (h.down hconn).of_eq rfl
      socket := h.socket
      parsed := h.parsed
      deferred := h.deferred
      closes := h.closes
      continuation := fun hpending haccept =>
        hcontinue hpending haccept (h.continuation hpending (hkeep haccept).1)
      pushed := h.pushed }
  kept _ := ⟨queue, accepting, closing, rfl⟩

/-- The completions stay where they are, or move on. -/
lemma Inv.dispatch_all (h : Inv w) {queue : List Task} {accepting closing : Bool}
    {events : List Completion} {acquired : Option Completion} {done : List (Option Completion)}
    (heq : (w.dispatch queue accepting closing events acquired done).landed = w.landed)
    (haccept : accepting = true → w.conn.acceptingTasks = true)
    (hcontinue : .parseContinuation ∈ w.conn.queue → .parseContinuation ∈ queue) :
    Meanwhile w (w.dispatch queue accepting closing events acquired done) :=
  h.dispatch (heq ▸ .refl _) (fun ha => ⟨haccept ha, fun kind _ => by rw [heq]⟩)
    fun _ _ => hcontinue

/-- The connection itself is the same. -/
lemma Meanwhile.of_conn (h : Inv w) (hs : Streams w') (hconn : w'.conn = w.conn) :
    Meanwhile w w' where
  inv :=
    { toStreams := hs
      toPhase := hconn ▸ h.toPhase
      continuation := hconn ▸ h.continuation
      pushed := hconn ▸ h.pushed }
  kept _ := ⟨_, _, _, hconn⟩

lemma Streams.foreign (h : Streams w) {op : Operation} (hvalid : op.id.valid = true)
    (hnew : op.id ∉ w.ids) : Streams (w.foreign op) := by
  have hne : op.id ≠ w.conn.id := by
    intro heq
    exact hnew (heq ▸ h.known.own (heq ▸ hvalid))
  have hframe : ∀ kind, ¬ (op.kind = kind ∧ op.id = w.conn.id) := fun kind hop => hne hop.2
  refine ⟨⟨?_, ?_, h.known.own, ?_, ?_, ?_⟩, ⟨?_, ?_, h.wire.sent, h.wire.delivered⟩,
    h.recv.frame (hframe _), h.send.frame (hframe _), h.output.frame (hframe _),
    fun hconn => (h.input hconn).frame (hframe _), h.sound⟩
  · intro i hi
    rcases List.mem_append.mp hi with hi | hi
    · exact h.known.valid i (List.mem_append_left _ hi)
    · rcases List.mem_cons.mp hi with rfl | hi
      · exact hvalid
      · exact h.known.valid i (List.mem_append_right _ hi)
  · intro i hi hmem
    rcases List.mem_cons.mp hmem with rfl | hmem
    · exact hnew hi
    · exact h.known.apart i hi hmem
  · intro op' hop'
    rcases Multiset.mem_cons.mp hop' with rfl | hop'
    · exact List.mem_append_right _ List.mem_cons_self
    · have hmem := h.known.started op' hop'
      simp only [List.mem_append, World.foreign, List.mem_cons] at hmem ⊢
      tauto
  · intro ev hev
    have hmem := h.known.landed ev hev
    simp only [List.mem_append, World.foreign, List.mem_cons] at hmem ⊢
    tauto
  · intro i hi
    refine h.known.fresh i fun hmem => hi ?_
    simp only [List.mem_append, World.foreign, List.mem_cons] at hmem ⊢
    tauto
  · intro i hi
    have hop : ¬ (op.kind = .send ∧ op.id = i) := fun hop => hnew (hop.2 ▸ hi)
    have honce := h.wire.once i hi
    simpa only [World.foreign, World.start, Multiset.countP_cons, if_neg hop, Nat.add_zero]
      using honce
  · intro op' hop' hkind hid
    rcases Multiset.mem_cons.mp hop' with rfl | hop'
    · exact absurd hid hnew
    · exact h.wire.next op' hop' hkind hid

lemma Streams.complete (h : Streams w) {op : Operation} {o : Outcome}
    (hop : op ∈ w.service.started) (hfits : o.Fits op) : Streams (w.complete op o) := by
  have hlanded : (w.complete op o).landed = w.landed ++ [op.report o] := by
    simp [World.landed, World.complete]
  obtain ⟨rest, hrest⟩ := Multiset.exists_cons_of_mem hop
  have hstarted : (w.complete op o).service.started = rest := by
    simp [World.complete, hrest]
  obtain ⟨hknown, hwire, hrecv, hsend, ⟨hpending, hsending⟩, hinput, hsound⟩ := h
  rw [hrest] at hknown hwire hrecv hsend hsending hinput
  refine ⟨?_, ?_, ?_, ?_, ⟨hpending, fun hvalid => ?_⟩, fun hvalid => ?_, ?_⟩
  · rw [hlanded, hstarted]
    exact hknown.complete
  · rw [hstarted]
    exact hwire.complete
  · rw [hlanded, hstarted]
    exact hrecv.complete
  · rw [hlanded, hstarted]
    exact hsend.complete
  · rw [hlanded, hstarted]
    exact (hsending hvalid).imp fun _ hs => hs.complete hsend hfits
  · rw [hlanded, hstarted]
    exact (hinput hvalid).complete hrecv
  · intro ev hev hkind
    rw [hlanded] at hev
    rcases List.mem_append.mp hev with hev | hev
    · exact hsound ev hev hkind
    · obtain rfl := List.mem_singleton.mp hev
      exact sound_report hfits hkind

lemma Inv.state_of_idle (h : Inv w) (hidle : w.conn.state = .idle) :
    w.conn.connected = false := by
  by_contra hconn
  simp [(h.up (by simpa using hconn)).state] at hidle

lemma Inv.connectMove (h : Inv w) (hstep : w.connectMove = some w') : Meanwhile w w' := by
  obtain ⟨hidle, heq⟩ := Option.ite_none_right_eq_some.mp hstep
  obtain rfl := Option.some.inj heq
  have hdown := h.down (h.state_of_idle hidle)
  refine ⟨?_, fun hconn => by simp [World.setConn] at hconn⟩
  exact
    { known := h.known
      wire := h.wire
      recv := h.recv
      send := h.send
      output := h.output
      input := h.input
      sound := h.sound
      notClosing := by simp [World.setConn]
      up := fun hconn => by simp [World.setConn] at hconn
      down := fun _ => hdown.of_eq rfl
      socket := h.socket
      parsed := h.parsed
      deferred := h.deferred
      closes := h.closes
      continuation := h.continuation
      pushed := h.pushed }

/-- A task that is no completion is posted. -/
lemma Inv.post (h : Inv w) {t : Task} (ht : t.event = none) :
    Meanwhile w (w.setConn (w.conn.post t)) := by
  unfold Conn.post
  split_ifs with haccept
  · have hlanded : (w.setConn { w.conn with queue := w.conn.queue ++ [t] }).landed = w.landed := by
      simp [World.landed, World.setConn, ht]
    exact h.dispatch_all hlanded (fun _ => haccept) fun hmem => List.mem_append_left _ hmem
  · exact Meanwhile.refl h

lemma collect_spec (n : Nat) (done : List (Option Completion)) :
    (collect n done).1 ++ (collect n done).2.filterMap id = done.filterMap id := by
  induction n generalizing done with
  | zero => rfl
  | succ n ih =>
    rcases done with _ | ⟨_ | ev, done⟩
    · rfl
    · simp [collect]
    · exact congrArg (List.cons ev) (ih done)

/-- `Wait` takes the completions over. -/
lemma Inv.wait (h : Inv w) (hevents : w.events = []) (hacquired : w.acquired = none) :
    Meanwhile w w.wait := by
  have hlanded : w.wait.landed = w.landed := by
    simpa [World.landed, World.wait, hevents, hacquired] using
      collect_spec Poll.maxCompletions w.service.done
  exact h.dispatch_all hlanded id id

/-- A completion for another id is dropped. -/
lemma inFlight_skip {started : Multiset Operation} {before after : List Completion}
    {ev : Completion} {kind : PollOperation} {id : ConnectionId} (h : ev.id ≠ id) :
    inFlight started (before ++ after) kind id =
      inFlight started (before ++ ev :: after) kind id := by
  simp [inFlight, List.countP_append, h]

lemma Inv.acquire (h : Inv w) {ev : Completion} {rest : List Completion}
    (hacquired : w.acquired = none) (hevents : w.events = ev :: rest) :
    Meanwhile w (w.acquire ev rest) := by
  have hlanded : w.landed = w.conn.queue.filterMap Task.event ++
      ev :: (rest ++ w.service.done.filterMap id) := by
    simp [World.landed, hacquired, hevents]
  by_cases hid : ev.id.valid ∧ ev.id = w.conn.id
  · have hlanded' : (w.acquire ev rest).landed = w.landed := by
      rw [hlanded]
      simp [World.landed, World.acquire, if_pos hid]
    exact h.dispatch_all hlanded' id id
  · have hlanded' : (w.acquire ev rest).landed = w.conn.queue.filterMap Task.event ++
        (rest ++ w.service.done.filterMap id) := by
      simp [World.landed, World.acquire, if_neg hid]
    have hne : ev.id ≠ w.conn.id := by
      intro heq
      have hmem := h.known.landed ev (by simp [hlanded])
      exact hid ⟨h.known.valid _ hmem, heq⟩
    refine h.dispatch ?_ (fun haccept => ⟨haccept, fun kind _ => ?_⟩) fun _ _ => id
    · change (w.acquire ev rest).landed.Sublist w.landed
      rw [hlanded, hlanded']
      exact (List.sublist_cons_self _ _).append_left _
    · change inFlight _ (w.acquire ev rest).landed _ _ = _
      rw [hlanded, hlanded']
      exact inFlight_skip hne

lemma Inv.postAcquired (h : Inv w) {ev : Completion} (hacquired : w.acquired = some ev) :
    Meanwhile w (w.postAcquired ev) := by
  by_cases haccept : w.conn.acceptingTasks = true
  · have hlanded : (w.postAcquired ev).landed = w.landed := by
      simp [World.landed, World.postAcquired, Conn.post, haccept, hacquired, Task.event]
    have heq : w.postAcquired ev = w.dispatch (w.conn.queue ++ [.completion ev])
        w.conn.acceptingTasks w.conn.ownerClosing w.events none w.service.done := by
      rw [World.postAcquired, Conn.post, if_pos haccept]
      rfl
    rw [heq] at hlanded ⊢
    exact h.dispatch_all hlanded id fun hmem => List.mem_append_left _ hmem
  · have heq : w.postAcquired ev = w.dispatch w.conn.queue w.conn.acceptingTasks
        w.conn.ownerClosing w.events none w.service.done := by
      rw [World.postAcquired, Conn.post, if_neg haccept]
      rfl
    rw [heq]
    refine h.dispatch ?_ (fun htrue => absurd htrue haccept) fun _ _ => id
    simp [World.landed, World.dispatch, hacquired]

/-- The steps that are not part of a task keep the invariant. -/
lemma Inv.envStep (h : Inv w) {l : Label} (hok : Ok ⟨w, none⟩ l)
    (hstep : w.envStep l = some w') : Meanwhile w w' := by
  cases l with
  | connectMove => exact h.connectMove hstep
  | post t =>
    obtain ⟨ht, heq⟩ := Option.ite_none_right_eq_some.mp hstep
    obtain rfl := Option.some.inj heq
    apply h.post
    cases t <;> simp [Task.external] at ht <;> rfl
  | ownerClosing =>
    obtain rfl := Option.some.inj hstep
    exact h.dispatch_all rfl id id
  | stopAccepting =>
    obtain ⟨-, heq⟩ := Option.ite_none_right_eq_some.mp hstep
    obtain rfl := Option.some.inj heq
    exact h.dispatch (.refl _) (fun hfalse => by simp at hfalse) fun _ _ => id
  | foreign op =>
    obtain ⟨hvalid, heq⟩ := Option.ite_none_right_eq_some.mp hstep
    obtain rfl := Option.some.inj heq
    exact .of_conn h (h.toStreams.foreign hvalid hok) rfl
  | complete op o =>
    obtain ⟨⟨hop, hfits⟩, heq⟩ := Option.ite_none_right_eq_some.mp hstep
    obtain rfl := Option.some.inj heq
    exact .of_conn h (h.toStreams.complete hop hfits) rfl
  | wake =>
    obtain rfl := Option.some.inj hstep
    have hlanded : w.wake.landed = w.landed := by simp [World.landed, World.wake]
    exact h.dispatch_all hlanded id id
  | wait =>
    obtain ⟨⟨hevents, hacquired⟩, heq⟩ := Option.ite_none_right_eq_some.mp hstep
    obtain rfl := Option.some.inj heq
    exact h.wait hevents hacquired
  | acquire =>
    simp only [World.envStep] at hstep
    split at hstep
    · rename_i ev rest hacquired hevents
      obtain rfl := Option.some.inj hstep
      exact h.acquire hacquired hevents
    · simp at hstep
  | postAcquired =>
    simp only [World.envStep] at hstep
    split at hstep
    · rename_i ev hacquired
      obtain rfl := Option.some.inj hstep
      exact h.postAcquired hacquired
    · simp at hstep
  | _ => simp [World.envStep] at hstep

end around

/-- The output of a connection that knows of all that the system has taken. -/
lemma Inv.given_eq {w : World} (h : Inv w) (hconn : w.conn.connected = true)
    (haccept : w.conn.acceptingTasks = true)
    (hlanded : ∀ ev ∈ w.landed, ev.operation = .send → ev.id ≠ w.conn.id) :
    w.given w.conn.id = w.sent w.conn.id ++ w.conn.sendBuffer.content := by
  obtain ⟨acked, hsending⟩ := h.output.sending (h.up hconn).valid
  cases hpending : w.conn.sendPending with
  | false => rw [hsending.given, hsending.rest hpending]
  | true =>
    obtain ⟨op, hop, hkind, hid⟩ := h.send.started_of_not_landed haccept hpending hlanded
    rw [hsending.given, (hsending.started op hop hkind hid).1]

end Connx.Windows
