import Connx.Net.Windows.Invariant

/-!
# Rules for the code of tasks, closing and parsing

The rely-guarantee judgement of `Connx.Lib.Resumption` for tasks: a task calls the handler in a
state that satisfies the invariant, may rely on `Meanwhile` for the time it is in there, and between
two calls does no more than `Stretch` around the connection. Here and in the module that follows
there is one specification for each function of the code.
-/

namespace Connx.Windows

open Resum
open Poll (Operation Outcome Completion Service)

/-- The callbacks are made in a state that satisfies the invariant. -/
def Calls : Request → World → Prop
  | .callback _, w => Inv w
  | .postContinuation, _ => True

/-- What happens during a call. -/
def RelyOn : Request → World → World → Prop
  | .callback _, w, w' => Meanwhile w w'
  | .postContinuation, w, w' => w' = w.setConn (w.conn.post .parseContinuation)

/-- What a task does between two calls to what is around the connection: it starts operations, adds
to what is to be sent, and posts continuations of the parse. -/
structure Stretch (w w' : World) : Prop where
  service : ∃ ops : List Operation,
    w'.service = { w.service with started := (ops : Multiset Operation) + w.service.started }
  events : w'.events = w.events
  acquired : w'.acquired = w.acquired
  sent : w'.sent = w.sent
  given : ∀ id, w.given id <+: w'.given id
  queue : ∃ n, w'.conn.queue = w.conn.queue ++ List.replicate n .parseContinuation

/-- What `Stretch` looks at. -/
def World.around (w : World) :
    Service × List Completion × Option Completion × Bytes × Bytes × List Task :=
  (w.service, w.events, w.acquired, w.sent, w.given, w.conn.queue)

lemma Stretch.of_eq {w w' : World} (h : w'.around = w.around) : Stretch w w' := by
  simp only [World.around, Prod.mk.injEq] at h
  obtain ⟨hservice, hevents, hacquired, hsent, hgiven, hqueue⟩ := h
  exact ⟨⟨[], by simp [hservice]⟩, hevents, hacquired, hsent, fun _ => hgiven ▸ List.prefix_rfl,
    0, by simp [hqueue]⟩

lemma Stretch.refl (w : World) : Stretch w w := .of_eq rfl

lemma Stretch.started {w w' : World} {op : Operation}
    (hservice : w'.service = { w.service with started := op ::ₘ w.service.started })
    (h : { w' with service := w.service }.around = w.around) : Stretch w w' := by
  obtain ⟨-, hevents, hacquired, hsent, hgiven, hqueue⟩ := Stretch.of_eq h
  exact ⟨⟨[op], hservice⟩, hevents, hacquired, hsent, hgiven, hqueue⟩

lemma Stretch.post (w : World) : Stretch w (w.setConn (w.conn.post .parseContinuation)) := by
  refine ⟨⟨[], by simp [World.setConn]⟩, rfl, rfl, rfl, fun _ => List.prefix_rfl, ?_⟩
  unfold World.setConn Conn.post
  split_ifs
  · exact ⟨1, rfl⟩
  · exact ⟨0, by simp⟩

lemma Stretch.give {w w' : World} {id : ConnectionId} {data : List Byte}
    (hgiven : w'.given = w.given.add id data)
    (h : { w' with given := w.given }.around = w.around) : Stretch w w' := by
  obtain ⟨hservice, hevents, hacquired, hsent, -, hqueue⟩ := Stretch.of_eq h
  refine ⟨hservice, hevents, hacquired, hsent, fun i => ?_, hqueue⟩
  by_cases hi : i = id
  · subst hi
    simp [hgiven, Bytes.add]
  · simp [hgiven, Bytes.add, hi]

instance : IsTrans World Stretch where
  trans w w' w'' h h' := by
    obtain ⟨ops, hservice⟩ := h.service
    obtain ⟨ops', hservice'⟩ := h'.service
    obtain ⟨n, hqueue⟩ := h.queue
    obtain ⟨n', hqueue'⟩ := h'.queue
    refine ⟨⟨ops' ++ ops, ?_⟩, h'.events.trans h.events, h'.acquired.trans h.acquired,
      h'.sent.trans h.sent, fun id => (h.given id).trans (h'.given id), n + n', ?_⟩
    · rw [hservice', hservice, ← Multiset.coe_add, add_assoc]
    · rw [hqueue', hqueue, List.append_assoc, List.replicate_append_replicate]

/-- The program, started in `w`, ends as `Q` says. -/
abbrev Does {α : Type} (m : ConnM α) (w : World) (Q : α → World → Prop) : Prop :=
  Sat Calls Stretch RelyOn Q w (m w)

section rules

variable {α β : Type} {w : World} {P : α → World → Prop} {Q : β → World → Prop}

lemma Does.bind {m : ConnM α} {f : α → ConnM β} (h : Does m w P)
    (hf : ∀ a w', P a w' → Does (f a) w' Q) : Does (m >>= f) w Q :=
  Sat.bind h hf

lemma Does.pure {b : β} (h : Q b w) : Does (pure b) w Q := ⟨.refl w, h⟩

lemma Does.getConn_bind {f : Conn → ConnM β} (h : Does (f w.conn) w Q) :
    Does (getConn >>= f) w Q := h

lemma Does.modify_bind {g : World → World} {f : Unit → ConnM β} (hg : Stretch w (g w))
    (h : Does (f ()) (g w) Q) : Does (Act.modify g >>= f) w Q :=
  Sat.enter hg h

lemma Does.modifyConn_bind {g : Conn → Conn} {f : Unit → ConnM β}
    (hg : (g w.conn).queue = w.conn.queue) (h : Does (f ()) (w.setConn (g w.conn)) Q) :
    Does (modifyConn g >>= f) w Q :=
  Sat.enter (.of_eq (by simp [World.around, World.setConn, hg])) h

lemma Does.callback {cb : Callback} {Q : Unit → World → Prop} (hw : Inv w)
    (h : ∀ w', Meanwhile w w' → Q () w') : Does (callback cb) w Q :=
  ⟨.refl w, hw, fun w' hw' => ⟨.refl w', h w' hw'⟩⟩

lemma Does.mono {m : ConnM β} {Q' : β → World → Prop} (h : Does m w Q)
    (hQ : ∀ b w', Q b w' → Q' b w') : Does m w Q' :=
  Sat.mono h hQ

end rules

/-! ### Closing -/

variable {cfg : Config} {k : Kernel} {w : World}

/-- The connection after `StartClose`. -/
def closedConn (reason : CloseReason) (desc : ErrorText) (c : Conn) : Conn :=
  { resetAfterClose (closeFd (unregisterConn { c with
      state := .closing, connected := false, connectDeadlineMs := 0
      closes := c.closes ++ [(reason, desc)] })) with state := .idle }

lemma valid_unregisterConn (c : Conn) : (unregisterConn c).id.valid = false := by
  unfold unregisterConn
  split_ifs with h
  · rfl
  · simpa using h

section closedConn

variable {reason : CloseReason} {desc : ErrorText} {c : Conn}

lemma valid_closedConn : (closedConn reason desc c).id.valid = false := by
  unfold closedConn resetAfterClose platformResetIoState closeFd
  split_ifs
  all_goals exact valid_unregisterConn _

lemma queue_closedConn : (closedConn reason desc c).queue = c.queue := by
  unfold closedConn resetAfterClose platformResetIoState closeFd unregisterConn
  split_ifs <;> rfl

lemma connected_closedConn : (closedConn reason desc c).connected = false := by
  unfold closedConn resetAfterClose platformResetIoState closeFd unregisterConn
  split_ifs <;> rfl

lemma closes_closedConn : (closedConn reason desc c).closes = c.closes ++ [(reason, desc)] := by
  unfold closedConn resetAfterClose platformResetIoState closeFd unregisterConn
  split_ifs <;> rfl

lemma stretch_closedConn {w : World} :
    Stretch w (w.setConn (closedConn reason desc w.conn)) :=
  .of_eq (by simp [World.around, World.setConn, queue_closedConn])

lemma down_closedConn : Down (closedConn reason desc c) := ⟨rfl, rfl, rfl, rfl, rfl, rfl, rfl⟩

end closedConn

lemma expected_common (text : Connx.ErrorText) : Expected (.common text) := by
  constructor <;> simp

/-- What a close needs: everything under way is known, and the streams are right so far. -/
structure Closable (w : World) : Prop where
  known : Known w.ids w.others w.conn.id w.service.started w.landed w.given w.sent w.received
    w.delivered
  wire : Wire w.ids w.service.started w.given w.sent w.received w.delivered
  sound : ∀ ev ∈ w.landed, ev.operation = .recv → Sound ev
  closes : ∀ p ∈ w.conn.closes, Expected p.2

lemma Inv.closable (h : Inv w) : Closable w := ⟨h.known, h.wire, h.sound, h.closes⟩

lemma Closable.inv {reason : CloseReason} {desc : ErrorText} (h : Closable w)
    (hdesc : Expected desc) : Inv (w.setConn (closedConn reason desc w.conn)) := by
  have hlanded : (w.setConn (closedConn reason desc w.conn)).landed = w.landed := by
    simp [World.landed, World.setConn, queue_closedConn]
  have hvalid : (closedConn reason desc w.conn).id.valid = false := valid_closedConn
  have hzero : ∀ kind, inFlight w.service.started w.landed kind
      (closedConn reason desc w.conn).id = 0 := fun kind =>
    h.known.inFlight_eq_zero (h.known.not_mem hvalid)
  have hdown : Down (closedConn reason desc w.conn) := down_closedConn
  exact
    { known := by rw [hlanded]; exact h.known.leave hvalid
      wire := h.wire
      recv := by rw [hlanded]; exact .empty (hzero .recv)
      send := by rw [hlanded]; exact .empty (hzero .send)
      output := ⟨rfl, fun hv => absurd hv (by simp [World.setConn, hvalid])⟩
      input := fun hv => absurd hv (by simp [World.setConn, hvalid])
      sound := by rw [hlanded]; exact h.sound
      notClosing := by simp [World.setConn, closedConn]
      up := fun hconn => absurd hconn (by simp [World.setConn, connected_closedConn])
      down := fun _ => hdown
      socket := fun hv => absurd hv (by simp [World.setConn, hvalid])
      parsed := Nat.zero_le _
      deferred := expected_common .empty
      closes := by
        intro p hp
        rw [World.setConn, closes_closedConn] at hp
        rcases List.mem_append.mp hp with hp | hp
        · exact h.closes p hp
        · obtain rfl := List.mem_singleton.mp hp
          exact hdesc
      continuation := fun hpending => by simp [World.setConn, hdown.continuation] at hpending
      pushed := fun hne => absurd hdown.sendBuffer hne }

lemma startClose_inactive {reason : CloseReason} {desc : ErrorText}
    (h : w.conn.state = .idle ∨ w.conn.state = .closing) :
    startClose reason desc w = .ret () w := by
  simp [startClose, Platform.startClose, getConn, h]

lemma startClose_active {reason : CloseReason} {desc : ErrorText}
    (h : ¬ (w.conn.state = .idle ∨ w.conn.state = .closing)) :
    startClose reason desc w =
      if closeNotifies reason then
        .call (.callback (closeCallback reason desc))
          (w.setConn (closedConn reason desc w.conn)) fun w' => .ret () w'
      else .ret () (w.setConn (closedConn reason desc w.conn)) := by
  simp only [startClose, Platform.startClose, getConn, h, Act.bind_apply, Act.get_apply, ret_bind,
    Act.pure_apply, if_false, modifyConn, Act.modify_apply, Platform.finishClose]
  split_ifs <;> rfl

/-- A task has ended. -/
structure Done (w : World) : Prop extends Inv w, Settled w.conn

lemma Inv.done (h : Inv w) (hconn : w.conn.connected = false) : Done w :=
  ⟨h, fun htrue => by simp [hconn] at htrue, (h.down hconn).parsed⟩

/-- After `StartClose` the connection is down, also if there was nothing to close. -/
lemma startClose_spec {reason : CloseReason} {desc : ErrorText} (h : Closable w)
    (hidle : w.conn.state = .idle ∨ w.conn.state = .closing → Inv w) (hdesc : Expected desc) :
    Does (startClose reason desc) w fun _ w' => Inv w' ∧ w'.conn.connected = false := by
  unfold Does
  by_cases hstate : w.conn.state = .idle ∨ w.conn.state = .closing
  · rw [startClose_inactive hstate]
    have hinv := hidle hstate
    exact ⟨.refl w, hinv, hinv.state_of_idle (hstate.resolve_right hinv.notClosing)⟩
  · rw [startClose_active hstate]
    have hinv : Inv (w.setConn (closedConn reason desc w.conn)) := h.inv hdesc
    split_ifs
    · refine ⟨stretch_closedConn, hinv, fun w' hw' => ⟨.refl w', hw'.inv, ?_⟩⟩
      exact hw'.closed connected_closedConn
    · exact ⟨stretch_closedConn, hinv, connected_closedConn⟩

lemma Closable.close {reason : CloseReason} {desc : ErrorText} (h : Closable w)
    (hidle : w.conn.state = .idle ∨ w.conn.state = .closing → Inv w) (hdesc : Expected desc) :
    Does (startClose reason desc) w fun _ w' => Done w' :=
  (startClose_spec h hidle hdesc).mono fun _ _ hw => hw.1.done hw.2

lemma Inv.close {reason : CloseReason} {desc : ErrorText} (h : Inv w) (hdesc : Expected desc) :
    Does (startClose reason desc) w fun _ w' => Done w' :=
  h.closable.close (fun _ => h) hdesc

lemma expected_startError {r : Poll.Iocp.StartResult} {error : ErrorText}
    (h : startError r = some error) : Expected error := by
  cases r with
  | started => simp [startError] at h
  | notInitialized =>
    obtain rfl := Option.some.inj h
    constructor <;> simp
  | failed code =>
    obtain rfl := Option.some.inj h
    exact expected_common _

/-! ### Input -/

/-- Fields that no invariant looks at. -/
lemma Inv.bookkeep (h : Inv w) (deadline : Int) (sent received calls : Nat) (yield : Bool)
    (reason : CloseReason) :
    Inv (w.setConn { w.conn with
      connectDeadlineMs := deadline, bytesSent := sent, bytesReceived := received
      decodeCalls := calls, drainYieldRequested := yield, deferredCloseReason := reason }) :=
  { known := h.known
    wire := h.wire
    recv := h.recv
    send := h.send
    output := h.output
    input := h.input
    sound := h.sound
    notClosing := h.notClosing
    up := fun hconn => ⟨(h.up hconn).state, (h.up hconn).valid⟩
    down := fun hconn => (h.down hconn).of_eq rfl
    socket := h.socket
    parsed := h.parsed
    deferred := h.deferred
    closes := h.closes
    continuation := h.continuation
    pushed := h.pushed }

/-- The flags of the parse and of a deferred close, on an established connection. -/
lemma Inv.flags (h : Inv w) (hconn : w.conn.connected = true) {deferred continuation : Bool}
    {desc : ErrorText} (hdesc : Expected desc)
    (hqueue : continuation = true → w.conn.acceptingTasks = true →
      .parseContinuation ∈ w.conn.queue) :
    Inv (w.setConn { w.conn with
      deferredClosePending := deferred, deferredCloseDesc := desc
      parseContinuationPending := continuation }) :=
  { known := h.known
    wire := h.wire
    recv := h.recv
    send := h.send
    output := h.output
    input := h.input
    sound := h.sound
    notClosing := h.notClosing
    up := fun hconn => ⟨(h.up hconn).state, (h.up hconn).valid⟩
    down := fun hfalse => absurd (hconn.symm.trans hfalse) (by simp)
    socket := h.socket
    parsed := h.parsed
    deferred := hdesc
    closes := h.closes
    continuation := hqueue
    pushed := h.pushed }

/-- The next bytes of the input go to the handler. -/
lemma Inv.deliver (h : Inv w) (hconn : w.conn.connected = true) {data : List Byte}
    (hdata : data <+: w.conn.input) :
    Inv { w with
      conn := { w.conn with parsed := w.conn.parsed + data.length }
      delivered := w.delivered.add w.conn.id data } := by
  have hvalid : w.conn.id.valid = true := (h.up hconn).valid
  have hinput : w.conn.input = data ++ w.conn.recvBuffer.content.drop
      (w.conn.parsed + data.length) := by
    obtain ⟨rest, hrest⟩ := hdata
    rw [← List.drop_drop, ← Conn.input, ← hrest, List.drop_left]
  have hlength : w.conn.parsed + data.length ≤ w.conn.recvBuffer.content.length := by
    have hle := hdata.length_le
    rw [Conn.input, List.length_drop] at hle
    have hparsed := h.parsed
    omega
  have hrecv := h.input hvalid
  have hreceived : w.delivered w.conn.id ++ data <+: w.received w.conn.id :=
    ((List.prefix_append_right_inj _).mpr hdata).trans hrecv.known
  rw [hinput] at hrecv
  exact
    { known := h.known.deliver (h.known.own hvalid) data
      wire := h.wire.deliver hreceived
      recv := h.recv
      send := h.send
      output := h.output
      input := fun _ => hrecv.deliver
      sound := h.sound
      notClosing := h.notClosing
      up := fun hconn => ⟨(h.up hconn).state, (h.up hconn).valid⟩
      down := fun hfalse => absurd (hconn.symm.trans hfalse) (by simp)
      socket := h.socket
      parsed := hlength
      deferred := h.deferred
      closes := h.closes
      continuation := h.continuation
      pushed := h.pushed }

/-- What the handler has goes off the buffer. -/
lemma Inv.moveHeader (h : Inv w) (hconn : w.conn.connected = true) :
    Inv (w.setConn { w.conn with
      recvBuffer := (w.conn.recvBuffer.moveHeader w.conn.parsed).2, parsed := 0 }) := by
  have hcontent := (w.conn.recvBuffer.moveHeader_of_le h.parsed).2
  have hinput : Conn.input { w.conn with
      recvBuffer := (w.conn.recvBuffer.moveHeader w.conn.parsed).2, parsed := 0 } =
      w.conn.input := by
    rw [Conn.input, hcontent, List.drop_zero, Conn.input]
  exact
    { known := h.known
      wire := h.wire
      recv := h.recv
      send := h.send
      output := h.output
      input := fun hvalid => by
        rw [World.setConn, hinput]
        exact h.input hvalid
      sound := h.sound
      notClosing := h.notClosing
      up := fun hconn => ⟨(h.up hconn).state, (h.up hconn).valid⟩
      down := fun hfalse => absurd (hconn.symm.trans hfalse) (by simp)
      socket := h.socket
      parsed := Nat.zero_le _
      deferred := h.deferred
      closes := h.closes
      continuation := h.continuation
      pushed := h.pushed }

/-- The parse goes on: what the tasks before it left of the connection is still there. -/
structure Serving (c₀ c : Conn) : Prop where
  connected : c.connected = true
  recvPending : c.recvPending = c₀.recvPending
  deferred : c.deferredClosePending = c₀.deferredClosePending
  continuation : c.parseContinuationPending = false

/-- The decode loop is in the buffer. -/
structure Reading (c₀ c : Conn) : Prop extends Serving c₀ c where
  recvBuffer : c.recvBuffer = c₀.recvBuffer

lemma Meanwhile.reading {w' : World} {c₀ : Conn} (h : Meanwhile w w') (hw : Reading c₀ w.conn)
    (hconn : w'.conn.connected = true) :
    Reading c₀ w'.conn ∧ w'.conn.parsed = w.conn.parsed := by
  obtain ⟨queue, accepting, closing, heq⟩ := h.kept hconn
  rw [heq]
  exact ⟨⟨⟨hw.connected, hw.recvPending, hw.deferred, hw.continuation⟩, hw.recvBuffer⟩, rfl⟩

/-- How the decode loop ends. -/
def LoopEnds (c₀ : Conn) : Option (Nat × Nat) → World → Prop
  | none, w => Inv w ∧ w.conn.connected = false
  | some (offset, _), w => Inv w ∧ Reading c₀ w.conn ∧ w.conn.parsed = offset

/-- The decode loop passes a message and hands it on. -/
lemma Does.deliver_bind {β : Type} {f : Unit → ConnM β} {Q : β → World → Prop} {c₀ : Conn}
    {n : Nat} {data : List Byte} (hn : data.length = n) (h : Inv w) (hread : Reading c₀ w.conn)
    (hdata : data <+: w.conn.input)
    (hf : ∀ w', Inv w' → (w'.conn.connected = true →
      Reading c₀ w'.conn ∧ w'.conn.parsed = w.conn.parsed + n) → Does (f ()) w' Q) :
    Does (windows.passMessage (w.conn.parsed + n) data >>= fun _ =>
      Windows.callback (.onMessage data) >>= f) w Q := by
  subst hn
  have hread' : Reading c₀ { w.conn with parsed := w.conn.parsed + data.length } :=
    ⟨⟨hread.connected, hread.recvPending, hread.deferred, hread.continuation⟩, hread.recvBuffer⟩
  refine Does.modify_bind (.of_eq rfl) ?_
  refine ⟨.refl _, h.deliver hread.connected hdata, fun w' hw' => hf w' hw'.inv fun hconn => ?_⟩
  exact hw'.reading hread' hconn

lemma parseLoop_spec {c₀ : Conn} (fuel : Nat) (h : Inv w) (hread : Reading c₀ w.conn) :
    Does (parseLoop cfg c₀.recvBuffer.content fuel w.conn.parsed) w (LoopEnds c₀) := by
  induction fuel generalizing w with
  | zero => exact Does.pure ⟨h, hread, rfl⟩
  | succ fuel ih =>
    dsimp only [parseLoop, Platform.parseLoop]
    split_ifs with hend
    · exact Does.pure ⟨h, hread, rfl⟩
    have h' : Inv (w.setConn { w.conn with decodeCalls := w.conn.decodeCalls + 1 }) :=
      h.bookkeep _ _ _ _ _ _
    have hread' : Reading c₀ (w.setConn { w.conn with
        decodeCalls := w.conn.decodeCalls + 1 }).conn :=
      ⟨⟨hread.connected, hread.recvPending, hread.deferred, hread.continuation⟩, hread.recvBuffer⟩
    refine Does.bind (P := fun _ w' => Inv w' ∧ Reading c₀ w'.conn ∧
      w'.conn.parsed = w.conn.parsed) ⟨.of_eq rfl, h', hread', rfl⟩ ?_
    rintro ⟨result, consumed⟩ w' ⟨hinv, hread, hparsed⟩
    dsimp only
    split_ifs with hmore hbad
    · exact Does.pure ⟨hinv, hread, hparsed⟩
    · refine Does.bind (startClose_spec hinv.closable (fun _ => hinv) (expected_common _)) ?_
      intro _ w'' hw''
      exact Does.pure hw''
    · simp only [not_or, not_lt] at hbad
      obtain ⟨-, -, hconsumed⟩ := hbad
      rw [← hparsed] at hconsumed ⊢
      have hdata : (c₀.recvBuffer.content.drop w'.conn.parsed).take consumed <+: w'.conn.input := by
        rw [Conn.input, hread.recvBuffer]
        exact List.take_prefix _ _
      have hlen : ((c₀.recvBuffer.content.drop w'.conn.parsed).take consumed).length =
          consumed := by
        rw [List.length_take, List.length_drop, min_eq_left hconsumed]
      refine Does.deliver_bind hlen hinv hread hdata fun w'' hinv' hread' => ?_
      refine Does.getConn_bind ?_
      by_cases hconn : w''.conn.connected = true
      · obtain ⟨hread', hparsed'⟩ := hread' hconn
        rw [if_neg (by simp [hconn]), ← hparsed']
        exact ih hinv' hread'
      · rw [if_pos (by simp [hconn])]
        exact Does.pure ⟨hinv', by simpa using hconn⟩

/-- How `ParseInput` ends: a connection that is still there receives as before, and if its close is
deferred then the parse is to be continued. -/
def ParseEnds (c₀ : Conn) (status : ParseStatus) (w : World) : Prop :=
  Inv w ∧ if status = .closed then w.conn.connected = false else
    w.conn.connected = true ∧ w.conn.recvPending = c₀.recvPending ∧
      w.conn.deferredClosePending = c₀.deferredClosePending ∧
        (c₀.deferredClosePending = true → w.conn.parseContinuationPending = true) ∧
          w.conn.parsed = 0

lemma finishDeferredClose_spec {c₀ : Conn} (h : Inv w) (hserving : Serving c₀ w.conn)
    (hparsed : w.conn.parsed = 0) :
    Does (finishDeferredClose >>= fun _ => doneOrClosed) w (ParseEnds c₀) := by
  have hends : ∀ w' : World, Inv w' ∧ w'.conn.connected = false →
      Does doneOrClosed w' (ParseEnds c₀) := by
    rintro w' ⟨hinv, hclosed⟩
    refine Does.getConn_bind (Does.pure ?_)
    simp [ParseEnds, hinv, hclosed]
  dsimp only [finishDeferredClose, Platform.finishDeferredClose]
  by_cases hpending : w.conn.deferredClosePending = true
  · have hinv : Inv (w.setConn { w.conn with
        deferredClosePending := false, deferredCloseDesc := .common .empty }) :=
      h.flags hserving.connected (expected_common _) h.continuation
    refine Does.bind ?_ fun _ => hends
    refine Does.getConn_bind ?_
    rw [if_pos hpending]
    refine Does.modifyConn_bind rfl ?_
    exact startClose_spec hinv.closable (fun _ => hinv) h.deferred
  · refine Does.bind (P := fun _ w' => w' = w) ?_ ?_
    · refine Does.getConn_bind ?_
      rw [if_neg hpending]
      exact Does.pure rfl
    · rintro _ _ rfl
      refine Does.getConn_bind (Does.pure ?_)
      refine ⟨h, ?_⟩
      rw [if_neg (by simp [hserving.connected])]
      exact ⟨hserving.connected, hserving.recvPending, hserving.deferred,
        fun htrue => absurd (hserving.deferred.trans htrue) hpending, hparsed⟩

/-- The continuation is in the queue before anything else happens. -/
lemma Inv.schedule (h : Inv w) (hconn : w.conn.connected = true) :
    Inv (w.setConn (Conn.post { w.conn with parseContinuationPending := true }
      .parseContinuation)) := by
  have hpost : Inv (w.setConn (w.conn.post .parseContinuation)) := (h.post rfl).inv
  have hfields : (w.conn.post .parseContinuation).connected = true ∧
      Conn.post { w.conn with parseContinuationPending := true } .parseContinuation =
        { w.conn.post .parseContinuation with parseContinuationPending := true } := by
    unfold Conn.post
    split_ifs
    · exact ⟨hconn, rfl⟩
    · exact ⟨hconn, rfl⟩
  rw [hfields.2]
  refine hpost.flags hfields.1 hpost.deferred fun _ haccept => ?_
  by_cases haccepting : w.conn.acceptingTasks = true
  · simp [World.setConn, Conn.post, haccepting]
  · rw [World.setConn, Conn.post, if_neg haccepting] at haccept
    exact absurd haccept haccepting

lemma scheduleParseContinuation_spec (h : Inv w) (hconn : w.conn.connected = true)
    (hcontinue : w.conn.parseContinuationPending = false) :
    Does scheduleParseContinuation w fun _ w' => Inv w' ∧ w'.conn =
      Conn.post { w.conn with parseContinuationPending := true } .parseContinuation := by
  dsimp only [scheduleParseContinuation, Platform.scheduleParseContinuation]
  refine Does.getConn_bind ?_
  rw [if_neg (by simp [hcontinue])]
  refine Does.modifyConn_bind rfl ?_
  refine ⟨.refl _, trivial, ?_⟩
  rintro w' rfl
  exact ⟨.refl _, h.schedule hconn, rfl⟩

lemma yieldOrFinish_spec {c₀ : Conn} {fuel : Nat} (h : Inv w) (hserving : Serving c₀ w.conn)
    (hparsed : w.conn.parsed = 0) :
    Does (yieldOrFinish fuel) w (ParseEnds c₀) := by
  dsimp only [yieldOrFinish, Platform.yieldOrFinish]
  refine Does.getConn_bind ?_
  split_ifs with hyield
  · refine Does.bind (scheduleParseContinuation_spec h hserving.connected hserving.continuation) ?_
    rintro _ w' ⟨hinv, heq⟩
    refine Does.modifyConn_bind rfl (Does.pure ⟨hinv.bookkeep _ _ _ _ _ _, ?_⟩)
    have hpost : w'.conn.connected = true ∧ w'.conn.recvPending = w.conn.recvPending ∧
        w'.conn.deferredClosePending = w.conn.deferredClosePending ∧
        w'.conn.parseContinuationPending = true ∧ w'.conn.parsed = w.conn.parsed := by
      rw [heq]
      unfold Conn.post
      split_ifs
      all_goals exact ⟨hserving.connected, rfl, rfl, rfl, rfl⟩
    obtain ⟨hconn, hrecv, hdeferred, hcontinue, hparsed'⟩ := hpost
    rw [if_neg (by simp)]
    exact ⟨hconn, hrecv.trans hserving.recvPending, hdeferred.trans hserving.deferred,
      fun _ => hcontinue, hparsed'.trans hparsed⟩
  · exact finishDeferredClose_spec h hserving hparsed

lemma parseTail_spec {c₀ : Conn} {fuel : Nat} (h : Inv w) (hread : Reading c₀ w.conn) :
    Does (parseTail w.conn.parsed fuel) w (ParseEnds c₀) := by
  dsimp only [parseTail, Platform.parseTail]
  split_ifs with hoffset
  · have hmove : (w.conn.recvBuffer.moveHeader w.conn.parsed).1 = true :=
      (w.conn.recvBuffer.moveHeader_of_le h.parsed).1
    refine Does.bind (P := fun moved w' => moved = true ∧ w' = w.setConn { w.conn with
      recvBuffer := (w.conn.recvBuffer.moveHeader w.conn.parsed).2, parsed := 0 })
      ⟨.of_eq rfl, hmove, rfl⟩ ?_
    rintro _ _ ⟨rfl, rfl⟩
    rw [if_pos rfl]
    exact yieldOrFinish_spec (h.moveHeader hread.connected)
      ⟨hread.connected, hread.recvPending, hread.deferred, hread.continuation⟩ rfl
  · exact yieldOrFinish_spec h hread.toServing (by omega)

/-- The first statement of `ParseInput`. -/
def beginParse (w : World) : World := w.setConn { w.conn with parseContinuationPending := false }

lemma parseInput_spec (h : Inv (beginParse w)) (hconn : w.conn.connected = true)
    (hparsed : w.conn.parsed = 0) : Does (parseInput cfg) w (ParseEnds w.conn) := by
  dsimp only [parseInput, Platform.parseInput]
  refine Does.modifyConn_bind rfl ?_
  refine Does.getConn_bind ?_
  split_ifs
  · exact finishDeferredClose_spec h ⟨hconn, rfl, rfl, rfl⟩ hparsed
  · have hloop : Does (parseLoop cfg w.conn.recvBuffer.content parseMessageBudget w.conn.parsed)
        (beginParse w) (LoopEnds w.conn) :=
      parseLoop_spec parseMessageBudget h ⟨⟨hconn, rfl, rfl, rfl⟩, rfl⟩
    rw [hparsed] at hloop
    rw [ByteBuffer.merge_eq_content]
    refine Does.bind hloop ?_
    rintro (_ | ⟨offset, fuel⟩) w' hends
    · exact Does.pure ⟨hends.1, by simpa using hends.2⟩
    · obtain ⟨hinv, hread, rfl⟩ := hends
      exact parseTail_spec hinv hread

end Connx.Windows
