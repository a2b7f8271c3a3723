import Connx.Net.Windows.Parsing

/-!
# What the tasks do

The functions that start operations, those that handle their completions, and every task.
-/

namespace Connx.Windows

open Resum
open Poll (Operation Outcome Completion Service)

variable {cfg : Config} {k : Kernel} {w : World}

/-! ### Operations -/

/-- The operation of `PlatformStartRecv`. -/
def recvOp (cfg : Config) (c : Conn) : Operation :=
  ⟨c.id, .recv, List.replicate cfg.recvCacheSize 0⟩

/-- The operation of `PlatformStartSend`. -/
def sendOp (c : Conn) : Operation := ⟨c.id, .send, c.sendBuffer.front⟩

/-- After `StartRecv`. -/
def recvStarted (cfg : Config) (w : World) : World :=
  (w.setConn { w.conn with recvPending := true }).start (recvOp cfg w.conn)

/-- After `StartSend`. -/
def sendStarted (w : World) : World :=
  (w.setConn { w.conn with sendPending := true }).start (sendOp w.conn)

lemma stretch_recvStarted : Stretch w (recvStarted cfg w) :=
  .started rfl rfl

lemma stretch_sendStarted : Stretch w (sendStarted w) :=
  .started rfl rfl

lemma platformStartRecv_eq (hvalid : w.conn.id.valid = true)
    (hfd : Poll.Iocp.isValidSocketHandle w.conn.fd = true) (hpending : w.conn.recvPending = false) :
    platformStartRecv cfg k w =
      match startError k.startRecv with
      | some error => .ret (some error) (w.setConn { w.conn with recvPending := false })
      | none => .ret none (recvStarted cfg w) := by
  simp only [platformStartRecv, getConn, Act.bind_apply, Act.get_apply, ret_bind, Act.pure_apply,
    hvalid, hfd, hpending, Bool.not_true, Bool.false_eq_true, or_self, if_false]
  cases startError k.startRecv <;> rfl

lemma platformStartSend_pending (hpending : w.conn.sendPending = true) :
    platformStartSend k w = .ret none w := by
  simp [platformStartSend, getConn, hpending]

lemma platformStartSend_empty (hempty : w.conn.sendBuffer.content = []) :
    platformStartSend k w = .ret none w := by
  have hisEmpty : w.conn.sendBuffer.isEmpty = true := w.conn.sendBuffer.isEmpty_iff.mpr hempty
  simp [platformStartSend, getConn, hisEmpty]

lemma platformStartSend_eq (hvalid : w.conn.id.valid = true)
    (hfd : Poll.Iocp.isValidSocketHandle w.conn.fd = true) (hpending : w.conn.sendPending = false)
    (hcontent : w.conn.sendBuffer.content ≠ []) :
    platformStartSend k w =
      match startError k.startSend with
      | some error => .ret (some error) (w.setConn { w.conn with sendPending := false })
      | none => .ret none (sendStarted w) := by
  have hisEmpty : w.conn.sendBuffer.isEmpty = false := by
    rw [← Bool.not_eq_true, w.conn.sendBuffer.isEmpty_iff]
    exact hcontent
  simp only [platformStartSend, getConn, Act.bind_apply, Act.get_apply, ret_bind, Act.pure_apply,
    hvalid, hfd, hpending, hisEmpty, Bool.not_true, Bool.false_eq_true, or_self, if_false]
  cases startError k.startSend <;> rfl

lemma Streams.recvStarted (h : Streams w) (hvalid : w.conn.id.valid = true)
    (hpending : w.conn.recvPending = false) : Streams (Windows.recvStarted cfg w) := by
  have hrecv := h.recv
  have hinput := h.input hvalid
  rw [hpending] at hrecv hinput
  have hsend : ¬ ((recvOp cfg w.conn).kind = .send ∧ (recvOp cfg w.conn).id = w.conn.id) := by
    simp [recvOp]
  exact
    { known := h.known.start (List.mem_append_left _ (h.known.own hvalid))
      wire := h.wire.start fun hkind => by simp [recvOp] at hkind
      recv := hrecv.start rfl rfl
      send := h.send.frame hsend
      output := h.output.frame hsend
      input := fun _ => hinput.start
      sound := h.sound }

lemma Streams.sendStarted (h : Streams w) (hvalid : w.conn.id.valid = true)
    (hpending : w.conn.sendPending = false) : Streams (Windows.sendStarted w) := by
  have hsend := h.send
  have hsending := h.output.sending hvalid
  rw [hpending] at hsend hsending
  obtain ⟨acked, hsending⟩ := hsending
  have hfront : (sendOp w.conn).buffer <+: w.conn.sendBuffer.content :=
    w.conn.sendBuffer.front_prefix_content
  have hrecv : ¬ ((sendOp w.conn).kind = .recv ∧ (sendOp w.conn).id = w.conn.id) := by
    simp [sendOp]
  refine
    { known := h.known.start (List.mem_append_left _ (h.known.own hvalid))
      wire := h.wire.start fun _ => ⟨?_, ?_⟩
      recv := h.recv.frame hrecv
      send := hsend.start rfl rfl
      output := ⟨h.output.pendingBytes, fun _ => ⟨acked, hsending.start hfront⟩⟩
      input := fun hvalid => (h.input hvalid).frame hrecv
      sound := h.sound }
  · exact (Nat.add_eq_zero_iff.mp hsend.eq_zero).1
  · change w.sent w.conn.id ++ _ <+: w.given w.conn.id
    rw [hsending.rest rfl, hsending.given]
    exact (List.prefix_append_right_inj _).mpr hfront

/-- An established connection in which all is well, except that what is to be sent may be
waiting. -/
structure Ready (w : World) : Prop extends Streams w, Phase w.conn, Settled w.conn where
  connected : w.conn.connected = true
  continuation : w.conn.parseContinuationPending = true → w.conn.acceptingTasks = true →
    .parseContinuation ∈ w.conn.queue

lemma Ready.closable (h : Ready w) : Closable w := ⟨h.known, h.wire, h.sound, h.closes⟩

lemma Ready.close {reason : CloseReason} {desc : ErrorText} (h : Ready w) (hdesc : Expected desc) :
    Does (startClose reason desc) w fun _ w' => Done w' :=
  h.closable.close (fun hidle => by simp [(h.up h.connected).state] at hidle) hdesc

lemma Ready.done (h : Ready w)
    (hpushed : w.conn.sendBuffer.content ≠ [] → w.conn.sendPending = true) : Done w :=
  { toInv := ⟨h.toStreams, h.toPhase, h.continuation, hpushed⟩
    toSettled := h.toSettled }

lemma Ready.sendStarted (h : Ready w) (hpending : w.conn.sendPending = false) :
    Done (Windows.sendStarted w) :=
  { toStreams := h.toStreams.sendStarted (h.up h.connected).valid hpending
    notClosing := h.notClosing
    up := fun hconn => ⟨(h.up hconn).state, (h.up hconn).valid⟩
    down := fun hfalse => absurd (h.connected.symm.trans hfalse) (by simp)
    socket := h.socket
    parsed := h.parsed
    deferred := h.deferred
    closes := h.closes
    continuation := h.continuation
    pushed := fun _ => rfl
    listening := h.listening
    handed := h.handed }

/-- `PlatformStartSend` and what follows an error of it. -/
lemma Ready.startSend {m : Option ErrorText → ConnM Unit} (h : Ready w)
    (herror : ∀ error, m (some error) = startClose .error error)
    (hnone : m none = pure ()) :
    Does (platformStartSend k >>= m) w fun _ w' => Done w' := by
  by_cases hpending : w.conn.sendPending = true
  · refine Does.bind (P := fun r w' => r = none ∧ w' = w) ?_ ?_
    · rw [Does, platformStartSend_pending hpending]
      exact ⟨.refl w, rfl, rfl⟩
    · rintro _ _ ⟨rfl, rfl⟩
      rw [hnone]
      exact Does.pure (h.done fun _ => hpending)
  by_cases hcontent : w.conn.sendBuffer.content = []
  · refine Does.bind (P := fun r w' => r = none ∧ w' = w) ?_ ?_
    · rw [Does, platformStartSend_empty hcontent]
      exact ⟨.refl w, rfl, rfl⟩
    · rintro _ _ ⟨rfl, rfl⟩
      rw [hnone]
      exact Does.pure (h.done fun hne => absurd hcontent hne)
  have hvalid := (h.up h.connected).valid
  have hidle : w.conn.sendPending = false := by simpa using hpending
  have heq := platformStartSend_eq (k := k) hvalid (h.socket hvalid) hidle hcontent
  cases hstart : startError k.startSend with
  | none =>
    simp only [hstart] at heq
    refine Does.bind (P := fun r w' => r = none ∧ w' = Windows.sendStarted w) ?_ ?_
    · rw [Does, heq]
      exact ⟨stretch_sendStarted, rfl, rfl⟩
    · rintro _ _ ⟨rfl, rfl⟩
      rw [hnone]
      exact Does.pure (h.sendStarted hidle)
  | some error =>
    simp only [hstart, ← hidle] at heq
    refine Does.bind (P := fun r w' => r = some error ∧ w' = w) ?_ ?_
    · rw [Does, heq]
      exact ⟨.refl w, rfl, rfl⟩
    · rintro _ _ ⟨rfl, rfl⟩
      rw [herror]
      exact h.close (expected_startError hstart)

lemma Inv.recvStarted (h : Inv w) (hconn : w.conn.connected = true)
    (hpending : w.conn.recvPending = false) : Inv (Windows.recvStarted cfg w) :=
  { toStreams := h.toStreams.recvStarted (h.up hconn).valid hpending
    notClosing := h.notClosing
    up := fun hconn => ⟨(h.up hconn).state, (h.up hconn).valid⟩
    down := fun hfalse => absurd (hconn.symm.trans hfalse) (by simp)
    socket := h.socket
    parsed := h.parsed
    deferred := h.deferred
    closes := h.closes
    continuation := h.continuation
    pushed := h.pushed }

/-- `PlatformStartRecv` and what follows an error of it. -/
lemma Inv.startRecv {m : Option ErrorText → ConnM Unit} (h : Inv w)
    (hconn : w.conn.connected = true) (hpending : w.conn.recvPending = false)
    (hparsed : w.conn.parsed = 0) (herror : ∀ error, m (some error) = startClose .error error)
    (hnone : m none = pure ()) :
    Does (platformStartRecv cfg k >>= m) w fun _ w' => Done w' := by
  have hvalid := (h.up hconn).valid
  have heq : platformStartRecv cfg k w = _ :=
    platformStartRecv_eq hvalid (h.socket hvalid) hpending
  cases hstart : startError k.startRecv with
  | none =>
    simp only [hstart] at heq
    refine Does.bind (P := fun r w' => r = none ∧ w' = Windows.recvStarted cfg w) ?_ ?_
    · rw [Does, heq]
      exact ⟨stretch_recvStarted, rfl, rfl⟩
    · rintro _ _ ⟨rfl, rfl⟩
      rw [hnone]
      exact Does.pure ⟨h.recvStarted hconn hpending, fun _ => Or.inl rfl, hparsed⟩
  | some error =>
    simp only [hstart, ← hpending] at heq
    refine Does.bind (P := fun r w' => r = some error ∧ w' = w) ?_ ?_
    · rw [Does, heq]
      exact ⟨.refl w, rfl, rfl⟩
    · rintro _ _ ⟨rfl, rfl⟩
      rw [herror]
      exact h.close (expected_startError hstart)

/-! ### A task is taken off the queue -/

/-- The drain has taken the first task. -/
def World.pop (w : World) (rest : List Task) : World := w.setConn { w.conn with queue := rest }

lemma landed_pop {t : Task} {rest : List Task} (hqueue : w.conn.queue = t :: rest) :
    w.landed = t.event.toList ++ (w.pop rest).landed := by
  cases ht : t.event <;>
    simp [World.landed, World.pop, World.setConn, hqueue, ht]

lemma Inv.pop {t : Task} {rest : List Task} (h : Inv w) (hqueue : w.conn.queue = t :: rest)
    (ht : t.event = none) (hcontinue : t = .parseContinuation →
      w.conn.parseContinuationPending = false) : Meanwhile w (w.pop rest) := by
  have hlanded : (w.pop rest).landed = w.landed := by
    rw [landed_pop hqueue, ht]
    rfl
  refine h.dispatch (hlanded ▸ .refl _)
    (fun haccept => ⟨haccept, fun kind _ => congrArg (inFlight _ · _ _) hlanded⟩) ?_
  intro hpending _ hmem
  rw [hqueue] at hmem
  rcases List.mem_cons.mp hmem with heq | hmem
  · simp [hcontinue heq.symm] at hpending
  · exact hmem

/-- A completion that is not for an operation of the connection's stream. -/
lemma Inv.pop_skip {ev : Completion} {rest : List Task} (h : Inv w)
    (hqueue : w.conn.queue = .completion ev :: rest)
    (hev : ev.id = w.conn.id → ev.operation ≠ .recv ∧ ev.operation ≠ .send) :
    Meanwhile w (w.pop rest) := by
  have hlanded : w.landed = ev :: (w.pop rest).landed := landed_pop hqueue
  refine h.dispatch ?_ (fun haccept => ⟨haccept, fun kind hkind => ?_⟩) ?_
  · exact hlanded ▸ List.sublist_cons_self _ _
  · have hne : ¬ (ev.operation = kind ∧ ev.id = w.conn.id) := by
      rintro ⟨rfl, hid⟩
      rcases hkind with hkind | hkind
      · exact (hev hid).1 hkind
      · exact (hev hid).2 hkind
    rw [hlanded, inFlight_handle, if_neg hne]
    rfl
  · intro _ _ hmem
    rw [hqueue] at hmem
    exact (List.mem_cons.mp hmem).resolve_left (by simp)

/-- What is left of a close when the connection was being torn down by a completion. -/
lemma Inv.closable_pop {ev : Completion} {rest : List Task} (h : Inv w)
    (hqueue : w.conn.queue = .completion ev :: rest) : Closable (w.pop rest) := by
  have hlanded : w.landed = ev :: (w.pop rest).landed := landed_pop hqueue
  have hsub : (w.pop rest).landed ⊆ w.landed := hlanded ▸ List.subset_cons_self _ _
  exact ⟨h.known.drop hsub, h.wire, fun ev hev => h.sound ev (hsub hev), h.closes⟩

/-! ### Completions -/

section completions

variable {ev : Completion} {rest : List Task}

/-- A receive has completed: what it brought belongs to the input. -/
lemma Inv.pop_recv (h : Inv w) (hqueue : w.conn.queue = .completion ev :: rest)
    (hkind : ev.operation = .recv) (hid : ev.id = w.conn.id) :
    w.conn.connected = true ∧ Sound ev ∧ Inv ((w.pop rest).setConn
      (appendInput ev.received { w.conn with queue := rest, recvPending := false })) := by
  have hlanded : w.landed = ev :: (w.pop rest).landed := landed_pop hqueue
  have hsub : (w.pop rest).landed ⊆ w.landed := hlanded ▸ List.subset_cons_self _ _
  have hrecv := h.recv
  have hsend := h.send
  rw [hlanded] at hrecv hsend
  obtain ⟨hpending, hslot⟩ := hrecv.handle hkind hid
  have hconn : w.conn.connected = true := by
    by_contra hfalse
    simp [(h.down (by simpa using hfalse)).recvPending] at hpending
  have hinput : Conn.input (appendInput ev.received { w.conn with
      queue := rest, recvPending := false }) = w.conn.input ++ ev.received := by
    simp only [Conn.input, appendInput, ConnFields.appendInput, ByteBuffer.content_addSlice]
    exact List.drop_append_of_le_length h.parsed
  refine ⟨hconn, h.sound ev (hlanded ▸ List.mem_cons_self) hkind, ?_⟩
  exact
    { known := h.known.drop hsub
      wire := h.wire
      recv := hslot
      send := hsend.skip fun hev => by simp [hkind] at hev
      output := h.output.drop hsub
      input := fun hvalid => by
        rw [World.setConn, hinput]
        have hreceiving := h.input hvalid
        rw [hlanded] at hreceiving
        exact hreceiving.handle hslot.eq_zero hkind hid
      sound := fun ev hev => h.sound ev (hsub hev)
      notClosing := h.notClosing
      up := fun hconn => ⟨(h.up hconn).state, (h.up hconn).valid⟩
      down := fun hfalse => absurd (hconn.symm.trans hfalse) (by simp)
      socket := h.socket
      parsed := h.parsed.trans (by simp [World.setConn, appendInput, ConnFields.appendInput])
      deferred := h.deferred
      closes := h.closes
      continuation := fun hpending haccept => by
        have hmem := h.continuation hpending haccept
        rw [hqueue] at hmem
        exact (List.mem_cons.mp hmem).resolve_left (by simp)
      pushed := h.pushed }

/-- `ParseInput` is called outside of it only. -/
lemma Inv.beginParse (h : Inv w) (hconn : w.conn.connected = true) :
    Inv (Windows.beginParse w) :=
  h.flags hconn h.deferred fun hpending => by simp at hpending

lemma handleReceived_spec {data : List Byte}
    (h : Inv (w.setConn (appendInput data w.conn))) (hconn : w.conn.connected = true)
    (hpending : w.conn.recvPending = false) (hparsed : w.conn.parsed = 0) :
    Does (handleReceived cfg k data) w fun _ w' => Done w' := by
  refine Does.modifyConn_bind rfl ?_
  refine Does.bind (parseInput_spec (h.beginParse hconn) hconn hparsed) ?_
  rintro status w' ⟨hinv, hends⟩
  split_ifs with hstatus
  · rw [if_pos hstatus] at hends
    exact Does.pure (hinv.done hends)
  · rw [if_neg hstatus] at hends
    obtain ⟨hconn', hpending', -, -, hparsed'⟩ := hends
    exact hinv.startRecv hconn' (hpending'.trans hpending) hparsed' (fun _ => rfl) rfl

lemma handleEndOfStream_spec (h : Inv w) (hconn : w.conn.connected = true)
    (hparsed : w.conn.parsed = 0) :
    Does (handleEndOfStream cfg) w fun _ w' => Done w' := by
  refine Does.getConn_bind ?_
  split_ifs with hlength hcontinue
  · have hinv : Inv (w.setConn (deferCloseUntilInputDrained .remoteClosed (.common .empty)
        w.conn)) := (h.flags hconn (expected_common _) h.continuation).bookkeep _ _ _ _ _ _
    refine Does.modifyConn_bind rfl ?_
    refine Does.bind (parseInput_spec (hinv.beginParse hconn) hconn hparsed) ?_
    rintro status w' ⟨hinv', hends⟩
    refine Does.pure ?_
    split_ifs at hends with hstatus
    · exact hinv'.done hends
    · obtain ⟨-, -, hdeferred, hcontinue, hparsed'⟩ := hends
      exact ⟨hinv', fun _ => Or.inr ⟨hdeferred, hcontinue rfl⟩, hparsed'⟩
  · have hinv : Inv (w.setConn (deferCloseUntilInputDrained .remoteClosed (.common .empty)
        w.conn)) := (h.flags hconn (expected_common _) h.continuation).bookkeep _ _ _ _ _ _
    have hpending : w.conn.parseContinuationPending = true := by simpa using hcontinue
    exact Does.modifyConn_bind rfl (Does.pure ⟨hinv, fun _ => Or.inr ⟨rfl, hpending⟩, hparsed⟩)
  · exact h.close (expected_common _)

lemma handleRecvCompletion_spec (h : Inv w) (hsettled : Settled w.conn)
    (hqueue : w.conn.queue = .completion ev :: rest) (hkind : ev.operation = .recv)
    (hid : ev.id = w.conn.id) :
    Does (handleRecvCompletion cfg k ev) (w.pop rest) fun _ w' => Done w' := by
  obtain ⟨hconn, hsound, hinv⟩ := h.pop_recv hqueue hkind hid
  have hnothing : ev.received = [] → Inv ((w.pop rest).setConn { w.conn with
      queue := rest, recvPending := false }) := by
    intro hnil
    rw [hnil] at hinv
    exact hinv
  refine Does.modifyConn_bind rfl (Does.getConn_bind ?_)
  rw [if_neg (by simp [World.pop, World.setConn, hconn])]
  cases herror : ev.errorCode with
  | some code => exact (hnothing (hsound.2 (by simp [herror]))).close (expected_common _)
  | none =>
    have hlength := hsound.1 herror
    dsimp only
    split_ifs with hzero hshort
    · have hnil : ev.received = [] := List.eq_nil_of_length_eq_zero (hlength.trans hzero)
      exact handleEndOfStream_spec (hnothing hnil) hconn hsettled.handed
    · omega
    · rw [← hlength, List.take_length]
      exact handleReceived_spec hinv hconn rfl hsettled.handed

/-- A send has completed, and what was sent is taken off the buffer. -/
lemma Inv.pop_send (h : Inv w) (hsettled : Settled w.conn)
    (hqueue : w.conn.queue = .completion ev :: rest) (hkind : ev.operation = .send)
    (hid : ev.id = w.conn.id) :
    w.conn.connected = true ∧ ev.bytes ≤ w.conn.sendBuffer.content.length ∧
      ∀ (b : ByteBuffer) (n pending : Nat), b.content = w.conn.sendBuffer.content.drop ev.bytes →
        pending = b.content.length →
          Ready ((w.pop rest).setConn { w.conn with
            queue := rest, sendPending := false, bytesSent := n, pendingBytes := pending
            sendBuffer := b }) := by
  have hlanded : w.landed = ev :: (w.pop rest).landed := landed_pop hqueue
  have hsub : (w.pop rest).landed ⊆ w.landed := hlanded ▸ List.subset_cons_self _ _
  have hrecv := h.recv
  have hsend := h.send
  rw [hlanded] at hrecv hsend
  obtain ⟨hpending, hslot⟩ := hsend.handle hkind hid
  have hconn : w.conn.connected = true := by
    by_contra hfalse
    simp [(h.down (by simpa using hfalse)).sendPending] at hpending
  obtain ⟨acked, hsending⟩ := h.output.sending (h.up hconn).valid
  rw [hlanded] at hsending
  obtain ⟨hle, hsending⟩ := hsending.handle hslot.eq_zero hkind hid
  refine ⟨hconn, hle, fun b n pending hb hpending => ?_⟩
  rw [← hb] at hsending
  exact
    { known := h.known.drop hsub
      wire := h.wire
      recv := hrecv.skip fun hev => by simp [hkind] at hev
      send := hslot
      output := ⟨hpending, fun _ => ⟨_, hsending⟩⟩
      input := fun hvalid => (h.input hvalid).drop hsub
      sound := fun ev hev => h.sound ev (hsub hev)
      notClosing := h.notClosing
      up := fun hconn => ⟨(h.up hconn).state, (h.up hconn).valid⟩
      down := fun hfalse => absurd (hconn.symm.trans hfalse) (by simp)
      socket := h.socket
      parsed := h.parsed
      deferred := h.deferred
      closes := h.closes
      listening := hsettled.listening
      handed := hsettled.handed
      connected := hconn
      continuation := fun hpending haccept => by
        have hmem := h.continuation hpending haccept
        rw [hqueue] at hmem
        exact (List.mem_cons.mp hmem).resolve_left (by simp) }

lemma handleSendCompletion_spec (h : Inv w) (hsettled : Settled w.conn)
    (hqueue : w.conn.queue = .completion ev :: rest) (hkind : ev.operation = .send)
    (hid : ev.id = w.conn.id) :
    Does (handleSendCompletion k ev) (w.pop rest) fun _ w' => Done w' := by
  obtain ⟨hconn, hle, hready⟩ := h.pop_send hsettled hqueue hkind hid
  have hmove := w.conn.sendBuffer.moveHeader_of_le hle
  have hcount := h.output.pendingBytes
  refine Does.modifyConn_bind rfl (Does.getConn_bind ?_)
  rw [if_neg (by simp [World.pop, World.setConn, hconn])]
  cases herror : ev.errorCode with
  | some code =>
    have hclosable := h.closable_pop hqueue
    refine Closable.close ⟨hclosable.known, hclosable.wire, hclosable.sound, hclosable.closes⟩ ?_
      (expected_common _)
    intro hidle
    simp [World.pop, World.setConn, (h.up hconn).state] at hidle
  | none =>
    dsimp only
    split_ifs with hbytes
    · have hleft : w.conn.pendingBytes - ev.bytes =
          (w.conn.sendBuffer.moveHeader ev.bytes).2.content.length := by
        rw [hmove.2, List.length_drop, hcount]
      refine Does.modifyConn_bind rfl ?_
      refine Does.bind (P := fun moved w' => moved = true ∧ Ready w')
        ⟨.of_eq rfl, hmove.1, hready _ _ _ hmove.2 hleft⟩ ?_
      rintro _ w' ⟨rfl, hw'⟩
      rw [if_pos rfl]
      exact hw'.startSend (fun _ => rfl) rfl
    · have hzero : ev.bytes = 0 := by omega
      have hsame : w.conn.sendBuffer.content = w.conn.sendBuffer.content.drop ev.bytes := by
        rw [hzero, List.drop_zero]
      exact (hready w.conn.sendBuffer w.conn.bytesSent w.conn.pendingBytes hsame hcount).startSend
        (fun _ => rfl) rfl

end completions

/-! ### Sending and parsing -/

lemma Inv.ready (h : Inv w) (hsettled : Settled w.conn) (hconn : w.conn.connected = true) :
    Ready w :=
  ⟨h.toStreams, h.toPhase, hsettled, hconn, h.continuation⟩

/-- A message is added to what is to be sent. -/
lemma Ready.give (h : Ready w) (msg : List Byte) :
    Ready { w with
      conn := { w.conn with
        pendingBytes := w.conn.pendingBytes + msg.length
        sendBuffer := w.conn.sendBuffer.addSlice msg }
      given := w.given.add w.conn.id msg } := by
  have hvalid := (h.up h.connected).valid
  obtain ⟨acked, hsending⟩ := h.output.sending hvalid
  have hcontent := w.conn.sendBuffer.content_addSlice msg
  exact
    { known := h.known.give (h.known.own hvalid) msg
      wire := h.wire.give msg
      recv := h.recv
      send := h.send
      output := by
        rw [hcontent]
        refine ⟨?_, fun _ => ⟨acked, hsending.give msg⟩⟩
        rw [h.output.pendingBytes, List.length_append]
      input := h.input
      sound := h.sound
      notClosing := h.notClosing
      up := fun hconn => ⟨(h.up hconn).state, (h.up hconn).valid⟩
      down := fun hfalse => absurd (h.connected.symm.trans hfalse) (by simp)
      socket := h.socket
      parsed := h.parsed
      deferred := h.deferred
      closes := h.closes
      listening := h.listening
      handed := h.handed
      connected := h.connected
      continuation := h.continuation }

lemma sendTask_spec (h : Inv w) (hsettled : Settled w.conn) (msg : List Byte) :
    Does (sendTask k msg) w fun _ w' => Done w' := by
  dsimp only [sendTask, Platform.sendTask]
  refine Does.getConn_bind ?_
  split_ifs with hconn
  · have hready := (h.ready hsettled hconn).give msg
    have hvalid := (h.up hconn).valid
    refine Does.modify_bind (.give rfl rfl) (Does.getConn_bind ?_)
    rw [if_neg (by simp [ConnFields.addMessage, hvalid, h.socket hvalid])]
    exact hready.startSend (fun _ => rfl) rfl
  · exact Does.pure ⟨h, hsettled⟩

/-- The continuation of the parse runs. -/
lemma continueParse_spec {rest : List Task} (h : Inv w) (hsettled : Settled w.conn)
    (hqueue : w.conn.queue = .parseContinuation :: rest) :
    Does (continueParse cfg) (w.pop rest) fun _ w' => Done w' := by
  refine Does.getConn_bind ?_
  split_ifs with hconn
  · have hbegin : Inv (beginParse (w.pop rest)) :=
      ((h.beginParse hconn).pop hqueue rfl fun _ => rfl).inv
    refine Does.bind (parseInput_spec hbegin hconn hsettled.handed) ?_
    rintro status w' ⟨hinv, hends⟩
    refine Does.pure ?_
    split_ifs at hends
    · exact hinv.done hends
    · obtain ⟨-, hpending, hdeferred, hcontinue, hparsed⟩ := hends
      refine ⟨hinv, fun _ => ?_, hparsed⟩
      rcases hsettled.listening hconn with hlistening | hlistening
      · exact Or.inl (hpending.trans hlistening)
      · exact Or.inr ⟨hdeferred.trans hlistening.1, hcontinue hlistening.1⟩
  · have hclosed : w.conn.connected = false := Bool.eq_false_of_not_eq_true hconn
    have hdown := h.down hclosed
    have hmean := h.pop hqueue rfl fun _ => hdown.continuation
    exact Does.pure ⟨hmean.inv, hmean.settled hsettled⟩

/-! ### Connecting -/

/-- The connection is there. -/
def becomeConnected (w : World) : World :=
  w.setConn { w.conn with state := .connected, connected := true }

lemma Inv.becomeConnected (h : Inv w) (hvalid : w.conn.id.valid = true)
    (hconn : w.conn.connected = false) :
    Inv (Windows.becomeConnected (Windows.recvStarted cfg w)) := by
  have hdown := h.down hconn
  have hstreams : Streams (Windows.recvStarted cfg w) :=
    h.toStreams.recvStarted hvalid hdown.recvPending
  exact
    { known := hstreams.known
      wire := hstreams.wire
      recv := hstreams.recv
      send := hstreams.send
      output := hstreams.output
      input := hstreams.input
      sound := hstreams.sound
      notClosing := by simp [Windows.becomeConnected, World.setConn]
      up := fun _ => ⟨rfl, hvalid⟩
      down := fun hfalse => by simp [Windows.becomeConnected, World.setConn] at hfalse
      socket := h.socket
      parsed := h.parsed
      deferred := h.deferred
      closes := h.closes
      continuation := h.continuation
      pushed := fun hne => absurd hdown.sendBuffer hne }

lemma announceConnected_spec (h : Inv w) (hvalid : w.conn.id.valid = true)
    (hstate : w.conn.state = .connecting) (hconn : w.conn.connected = false) :
    Does windows.announceConnected (recvStarted cfg w) fun _ w' => Done w' := by
  dsimp only [Platform.announceConnected]
  have hinv : Inv (becomeConnected (recvStarted cfg w)) := h.becomeConnected hvalid hconn
  have hconnecting : ¬ (recvStarted cfg w).conn.state ≠ .connecting := not_not.mpr hstate
  refine Does.getConn_bind ?_
  rw [if_neg hconnecting]
  refine Does.modifyConn_bind rfl (Does.callback hinv fun w' hw' => ⟨hw'.inv, hw'.settled ?_⟩)
  exact ⟨fun _ => Or.inl rfl, (h.down hconn).parsed⟩

lemma handleConnected_spec (h : Inv w) (hsettled : Settled w.conn)
    (hvalid : w.conn.id.valid = true) :
    Does (handleConnected cfg k) w fun _ w' => Done w' := by
  dsimp only [handleConnected, Platform.handleConnected]
  refine Does.getConn_bind ?_
  split_ifs with hstate
  · exact Does.pure ⟨h, hsettled⟩
  · have hstate' : w.conn.state = .connecting := not_not.mp hstate
    have hconn : w.conn.connected = false := by
      by_contra hconn
      simp [(h.up (by simpa using hconn)).state] at hstate'
    have hinv : Inv (w.setConn { w.conn with connectDeadlineMs := 0 }) := h.bookkeep _ _ _ _ _ _
    refine Does.modifyConn_bind rfl ?_
    cases hupdate : k.updateContext with
    | some code =>
      refine Does.bind (P := fun r w' => r = some (.common (.errno code)) ∧
        w' = w.setConn { w.conn with connectDeadlineMs := 0 }) ?_ ?_
      · simp only [Does, platformAfterConnected, hupdate]
        exact ⟨.refl _, rfl, rfl⟩
      · rintro _ _ ⟨rfl, rfl⟩
        exact hinv.close (expected_common _)
    | none =>
      have heq : platformStartRecv cfg k (w.setConn { w.conn with connectDeadlineMs := 0 }) = _ :=
        platformStartRecv_eq hvalid (h.socket hvalid) (h.down hconn).recvPending
      simp only [platformAfterConnected, hupdate]
      cases hstart : startError k.startRecv with
      | none =>
        simp only [hstart] at heq
        refine Does.bind (P := fun r w' => r = none ∧
          w' = recvStarted cfg (w.setConn { w.conn with connectDeadlineMs := 0 })) ?_ ?_
        · rw [Does, heq]
          exact ⟨stretch_recvStarted, rfl, rfl⟩
        · rintro _ _ ⟨rfl, rfl⟩
          exact announceConnected_spec hinv hvalid hstate' hconn
      | some error =>
        have hpending : w.conn.recvPending = false := (h.down hconn).recvPending
        simp only [hstart] at heq
        refine Does.bind (P := fun r w' => r = some error ∧ Inv w') ?_ ?_
        · rw [Does, heq]
          refine ⟨.of_eq rfl, rfl, ?_⟩
          rw [← hpending]
          exact hinv
        · rintro _ w' ⟨rfl, hw'⟩
          exact hw'.close (expected_startError hstart)

/-- Nothing is known yet of the new id. -/
lemma Inv.register (h : Inv w) (hconn : w.conn.connected = false) {id : ConnectionId}
    {fd : Poll.Iocp.Socket} (hvalid : id.valid = true) (hids : id ∉ w.ids) (hothers : id ∉ w.others)
    (hfd : Poll.Iocp.isValidSocketHandle fd = true) :
    Inv (Windows.register id (w.setConn { w.conn with fd := fd })) := by
  have hdown := h.down hconn
  have hnew : id ∉ w.ids ++ w.others := by simp [hids, hothers]
  obtain ⟨hgiven, hsent, hreceived, hdelivered⟩ := h.known.fresh id hnew
  have hzero : ∀ kind, inFlight w.service.started w.landed kind id = 0 := fun kind =>
    h.known.inFlight_eq_zero hnew
  obtain ⟨hstarted, hlanded⟩ := inFlight_eq_zero.mp (hzero .send)
  obtain ⟨hstarted', hlanded'⟩ := inFlight_eq_zero.mp (hzero .recv)
  have hpending : w.conn.pendingBytes = w.conn.sendBuffer.content.length := h.output.pendingBytes
  have hinput : w.conn.input = [] := by simp [Conn.input, hdown.recvBuffer]
  refine
    { known := h.known.register hvalid hothers
      wire := ⟨?_, ?_, ?_, ?_⟩
      recv := ?_
      send := ?_
      output := ⟨hpending, fun _ => ⟨[], ?_, fun _ => hsent, ?_, ?_⟩⟩
      input := fun _ => ⟨?_, fun _ => ?_, ?_, ?_⟩
      sound := h.sound
      notClosing := h.notClosing
      up := fun htrue => absurd (hconn.symm.trans htrue) (by simp)
      down := fun _ => hdown.of_eq rfl
      socket := fun _ => hfd
      parsed := h.parsed
      deferred := h.deferred
      closes := h.closes
      continuation := h.continuation
      pushed := h.pushed }
  · intro i hi
    rcases List.mem_cons.mp hi with rfl | hi
    · exact (Nat.add_eq_zero_iff.mp (hzero .send)).1.le.trans (Nat.zero_le _)
    · exact h.wire.once i hi
  · intro op hop hkind hid
    exact h.wire.next op hop hkind ((List.mem_cons.mp hid).resolve_left (hstarted op hop hkind))
  · intro i hi
    rcases List.mem_cons.mp hi with rfl | hi
    · exact hsent ▸ List.nil_prefix
    · exact h.wire.sent i hi
  · intro i hi
    rcases List.mem_cons.mp hi with rfl | hi
    · exact hdelivered ▸ List.nil_prefix
    · exact h.wire.delivered i hi
  · rw [show (Windows.register id (w.setConn { w.conn with fd := fd })).conn.recvPending = false
      from hdown.recvPending]
    exact .empty (hzero .recv)
  · rw [show (Windows.register id (w.setConn { w.conn with fd := fd })).conn.sendPending = false
      from hdown.sendPending]
    exact .empty (hzero .send)
  · exact hgiven.trans hdown.sendBuffer.symm
  · exact fun op hop hkind hid => absurd hid (hstarted op hop hkind)
  · exact fun ev hev hkind hid => absurd hid (hlanded ev hev hkind)
  · change w.delivered id ++ w.conn.input <+: _
    rw [hdelivered, hinput]
    exact List.nil_prefix
  · change w.received id = w.delivered id ++ w.conn.input
    rw [hreceived, hdelivered, hinput, List.nil_append]
  · exact fun op hop hkind hid => absurd hid (hstarted' op hop hkind)
  · exact fun ev hev hkind hid => absurd hid (hlanded' ev hev hkind)

/-- A connect is started. -/
lemma Inv.startConnect (h : Inv w) (hvalid : w.conn.id.valid = true) :
    Inv (w.start ⟨w.conn.id, .connect, []⟩) := by
  have hframe : ∀ kind, kind = .recv ∨ kind = .send →
      ¬ ((⟨w.conn.id, .connect, []⟩ : Operation).kind = kind ∧
        (⟨w.conn.id, .connect, []⟩ : Operation).id = w.conn.id) := by
    rintro kind (rfl | rfl) ⟨hkind, -⟩
    · cases hkind
    · cases hkind
  exact
    { known := h.known.start (List.mem_append_left _ (h.known.own hvalid))
      wire := h.wire.start fun hkind => by cases hkind
      recv := h.recv.frame (hframe _ (.inl rfl))
      send := h.send.frame (hframe _ (.inr rfl))
      output := h.output.frame (hframe _ (.inr rfl))
      input := fun hvalid => (h.input hvalid).frame (hframe _ (.inl rfl))
      sound := h.sound
      toPhase := h.toPhase
      continuation := h.continuation
      pushed := h.pushed }

lemma platformConnect_spec (h : Inv w) (hvalid : w.conn.id.valid = true) :
    Does (platformConnect k) w fun r w' => Inv w' ∧ w'.conn.connected = w.conn.connected ∧
      ∀ error, r = some error → Expected error := by
  refine Does.getConn_bind ?_
  cases k.add with
  | some code =>
    refine Does.pure ⟨h, rfl, fun error herror => ?_⟩
    obtain rfl := Option.some.inj herror
    exact expected_common _
  | none =>
    cases hstart : startError k.startConnect with
    | some error =>
      dsimp only
      refine Does.pure ⟨h, rfl, fun error' herror => ?_⟩
      obtain rfl := Option.some.inj herror
      exact expected_startError hstart
    | none =>
      dsimp only
      exact Does.modify_bind (.started rfl rfl)
        (Does.pure ⟨h.startConnect hvalid, rfl, fun _ herror => by simp at herror⟩)

lemma queue_startConnectTimer {c : Conn} : (startConnectTimer cfg k c).queue = c.queue := by
  unfold startConnectTimer
  split_ifs <;> rfl

lemma connectResolved_spec (h : Inv w) (hconn : w.conn.connected = false)
    (hsocket : k.openSocket ≠ .ok Poll.Iocp.invalidSocket) (hvalid : k.id.valid = true)
    (hids : k.id ∉ w.ids) (hothers : k.id ∉ w.others) :
    Does (connectResolved cfg k) w fun _ w' => Done w' := by
  unfold connectResolved
  cases hopen : k.openSocket with
  | error text =>
    dsimp only
    exact h.close (expected_common _)
  | ok fd =>
    have hfd : Poll.Iocp.isValidSocketHandle fd = true := by
      simpa [Poll.Iocp.isValidSocketHandle, hopen] using hsocket
    have hreg := h.register hconn hvalid hids hothers hfd
    dsimp only
    refine Does.modifyConn_bind rfl (Does.modify_bind (.of_eq rfl)
      (Does.modifyConn_bind queue_startConnectTimer ?_))
    have hinv : Inv ((register k.id (w.setConn { w.conn with fd := fd })).setConn
        (startConnectTimer cfg k (register k.id (w.setConn { w.conn with fd := fd })).conn)) := by
      unfold startConnectTimer
      split_ifs
      · exact hreg.bookkeep _ _ _ _ _ _
      · exact hreg
    refine Does.bind (platformConnect_spec hinv ?_) ?_
    · unfold startConnectTimer
      split_ifs
      all_goals exact hvalid
    · rintro (_ | error) w' ⟨hinv', hconn', herror⟩
      · refine Does.pure (hinv'.done (hconn'.trans ?_))
        unfold startConnectTimer
        split_ifs
        all_goals exact hconn
      · exact hinv'.close (herror error rfl)

/-! ### Every task -/

lemma handleReadyEvent_spec (h : Inv w) (hsettled : Settled w.conn)
    (hvalid : w.conn.id.valid = true) (ev : Completion) :
    Does (handleReadyEvent cfg k ev) w fun _ w' => Done w' := by
  unfold handleReadyEvent
  refine Does.getConn_bind ?_
  by_cases hstate : w.conn.state = .idle ∨ w.conn.state = .closing
  · rw [if_pos hstate]
    exact Does.pure ⟨h, hsettled⟩
  · rw [if_neg hstate]
    cases ev.errorCode with
    | some code => exact h.close (expected_common _)
    | none =>
      dsimp only
      split_ifs
      · exact handleConnected_spec h hsettled hvalid
      · exact Does.pure ⟨h, hsettled⟩

lemma handlePollEvent_spec {ev : Completion} {rest : List Task} (h : Inv w)
    (hsettled : Settled w.conn) (hqueue : w.conn.queue = .completion ev :: rest) :
    Does (handlePollEvent cfg k ev) (w.pop rest) fun _ w' => Done w' := by
  have hlanded : w.landed = ev :: (w.pop rest).landed := landed_pop hqueue
  have hvalid : ev.id.valid = true :=
    h.known.valid _ (h.known.landed ev (hlanded ▸ List.mem_cons_self))
  have hskip : (ev.id = w.conn.id → ev.operation ≠ .recv ∧ ev.operation ≠ .send) →
      Inv (w.pop rest) ∧ Settled (w.pop rest).conn := fun hev =>
    ⟨(h.pop_skip hqueue hev).inv, (h.pop_skip hqueue hev).settled hsettled⟩
  refine Does.getConn_bind ?_
  split_ifs with hid
  · obtain ⟨hinv, hset⟩ := hskip fun heq => absurd heq hid
    exact Does.pure ⟨hinv, hset⟩
  have hid' : ev.id = w.conn.id := not_not.mp hid
  have hvalid' : (w.pop rest).conn.id.valid = true := hid' ▸ hvalid
  cases hkind : ev.operation with
  | recv => exact handleRecvCompletion_spec h hsettled hqueue hkind hid'
  | send => exact handleSendCompletion_spec h hsettled hqueue hkind hid'
  | connect =>
    obtain ⟨hinv, hset⟩ := hskip fun _ => by simp [hkind]
    dsimp only [handleConnectCompletion]
    cases ev.errorCode with
    | some code => exact hinv.close (expected_common _)
    | none => exact handleConnected_spec hinv hset hvalid'
  | ready =>
    obtain ⟨hinv, hset⟩ := hskip fun _ => by simp [hkind]
    exact handleReadyEvent_spec hinv hset hvalid' ev

lemma handleTimerEvent_spec (h : Inv w) (hsettled : Settled w.conn) (ev : TimerEvent) :
    Does (handleTimerEvent ev) w fun _ w' => Done w' := by
  refine Does.getConn_bind ?_
  split_ifs
  · exact Does.pure ⟨h, hsettled⟩
  · exact h.close (expected_common _)
  · exact Does.pure ⟨h, hsettled⟩

/-- A task that starts between two tasks ends between two tasks. -/
lemma taskBody_spec {t : Task} {rest : List Task} (h : Inv w) (hsettled : Settled w.conn)
    (hqueue : w.conn.queue = t :: rest) (hok : Ok ⟨w, none⟩ (.drain k)) :
    Does (taskBody cfg k t) (w.pop rest) fun _ w' => Done w' := by
  have hpop : t.event = none → t ≠ .parseContinuation →
      Inv (w.pop rest) ∧ Settled (w.pop rest).conn := fun ht hne =>
    have hmean := h.pop hqueue ht fun heq => absurd heq hne
    ⟨hmean.inv, hmean.settled hsettled⟩
  cases t with
  | completion ev => exact handlePollEvent_spec h hsettled hqueue
  | parseContinuation => exact continueParse_spec h hsettled hqueue
  | connectResolved =>
    obtain ⟨hsocket, hvalid, hids, hothers, hconn⟩ := hok (by simp [hqueue])
    exact connectResolved_spec (hpop rfl (by simp)).1 hconn hsocket hvalid hids hothers
  | resolveFailed desc => exact (hpop rfl (by simp)).1.close (expected_common _)
  | disconnect => exact (hpop rfl (by simp)).1.close (expected_common _)
  | send msg =>
    obtain ⟨hinv, hset⟩ := hpop rfl (by simp)
    exact sendTask_spec hinv hset msg
  | timerEvent ev =>
    obtain ⟨hinv, hset⟩ := hpop rfl (by simp)
    exact handleTimerEvent_spec hinv hset ev

end Connx.Windows
