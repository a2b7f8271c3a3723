import Connx.Net.Connection.Tasks
import Connx.Net.Connection.Writing

/-!
# The write side of a connection

`SendBuffer` tasks append to `send_buffer_`, writable events take bytes off its front, and the
counters follow. The interest registered with the poller is cached in `poll_interest_` and changed
after each of these. `Settled` says what holds of all this between the functions of a task; the
module shows that every task keeps it.
-/

namespace Connx

open Relation Resum

/-! ### Accounts -/

/-- The bytes the kernel took since `send_buffer_` was last cleared. -/
def acceptedBytes (output : List OutputEvent) : List Byte :=
  output.foldl (fun bytes e => match e with
    | .accepted b _ _ => bytes ++ b
    | .cleared => []) []

/-- The bytes the kernel took since the connection was constructed. -/
def allAccepted (output : List OutputEvent) : List Byte :=
  output.flatMap fun
    | .accepted b _ _ => b
    | .cleared => []

/-- What the kernel took was in the buffer and was counted as pending. -/
def OutputEvent.InBounds : OutputEvent → Prop
  | .accepted bytes pending length => bytes.length ≤ pending ∧ bytes.length ≤ length
  | .cleared => True

/-- The bytes a task adds to `send_buffer_`. -/
def Task.payload : Task → List Byte
  | .send msg => msg
  | _ => []

/-- What the tasks of the connected period were given to send. -/
def payloads (trace : List Event) : List Byte := (ranInPeriod trace).flatMap Task.payload

@[simp] lemma acceptedBytes_accepted (output : List OutputEvent) (b : List Byte) (m n : Nat) :
    acceptedBytes (output ++ [.accepted b m n]) = acceptedBytes output ++ b := by
  simp [acceptedBytes]

@[simp] lemma acceptedBytes_cleared (output : List OutputEvent) :
    acceptedBytes (output ++ [.cleared]) = [] := by
  simp [acceptedBytes]

@[simp] lemma allAccepted_accepted (output : List OutputEvent) (b : List Byte) (m n : Nat) :
    allAccepted (output ++ [.accepted b m n]) = allAccepted output ++ b := by
  simp [allAccepted]

@[simp] lemma allAccepted_cleared (output : List OutputEvent) :
    allAccepted (output ++ [.cleared]) = allAccepted output := by
  simp [allAccepted]

/-- The accounts of the write side; `owed` is the payload of the current task, as long as it was
not added. -/
structure Balanced (owed : List Byte) (c : Conn) : Prop where
  connected : c.connected = true ↔ c.state = .connected
  stream : c.state = .connected →
    acceptedBytes c.output ++ c.sendBuffer.content ++ owed = payloads c.trace
  idle : c.state ≠ .connected → acceptedBytes c.output = [] ∧ c.sendBuffer.content = []
  pending : c.pendingBytes = c.sendBuffer.content.length
  counted : c.bytesSent = (allAccepted c.output).length
  inBounds : ∀ e ∈ c.output, e.InBounds

namespace Balanced

variable {owed : List Byte} {c c' : Conn}

/-- Fields that the accounts do not mention. -/
lemma of_eq (h : Balanced owed c) (hstate : c'.state = c.state)
    (hconnected : c'.connected = c.connected) (hbuffer : c'.sendBuffer = c.sendBuffer)
    (hpending : c'.pendingBytes = c.pendingBytes) (hsent : c'.bytesSent = c.bytesSent)
    (houtput : c'.output = c.output) (hran : ranInPeriod c'.trace = ranInPeriod c.trace) :
    Balanced owed c' where
  connected := by rw [hconnected, hstate]; exact h.connected
  stream := by rw [hstate, houtput, hbuffer, payloads, hran]; exact h.stream
  idle := by rw [hstate, houtput, hbuffer]; exact h.idle
  pending := by rw [hpending, hbuffer]; exact h.pending
  counted := by rw [hsent, houtput]; exact h.counted
  inBounds := by rw [houtput]; exact h.inBounds

lemma same (h : Balanced owed c) (hc : c.SameWriting c') : Balanced owed c' :=
  h.of_eq hc.state hc.connected hc.sendBuffer hc.pendingBytes hc.bytesSent hc.output hc.ran

/-- Without a connection nothing is owed. -/
lemma of_not_connected (h : Balanced owed c) (hc : c.state ≠ .connected) : Balanced [] c :=
  ⟨h.connected, fun hs => absurd hs hc, h.idle, h.pending, h.counted, h.inBounds⟩

/-- The payload of a `SendBuffer` task is added to the buffer. -/
lemma addSlice {msg : List Byte} (h : Balanced msg c) (hc : c.state = .connected) :
    Balanced [] { c with
      pendingBytes := c.pendingBytes + msg.length, sendBuffer := c.sendBuffer.addSlice msg } where
  connected := h.connected
  stream hs := by simpa [← List.append_assoc] using h.stream hc
  idle hs := absurd hc hs
  pending := by simp [h.pending]
  counted := h.counted
  inBounds := h.inBounds

/-- The kernel took bytes of the first slice. -/
lemma afterSend (h : Balanced [] c) (hc : c.state = .connected) {sent : Nat}
    (hle : sent ≤ c.sendBuffer.front.length) : Balanced [] (afterSend sent c) := by
  obtain ⟨rest, hrest⟩ := c.sendBuffer.front_prefix_content
  have hlen : sent ≤ c.sendBuffer.content.length := by
    rw [← hrest, List.length_append]
    omega
  have hcontent : (c.sendBuffer.moveHeader sent).2.content = c.sendBuffer.content.drop sent :=
    (c.sendBuffer.moveHeader_of_le hlen).2
  have htake : c.sendBuffer.front.take sent = c.sendBuffer.content.take sent := by
    rw [← hrest, List.take_append_of_le_length hle]
  refine ⟨h.connected, fun _ => ?_, fun hs => absurd hc hs, ?_, ?_, ?_⟩
  · change acceptedBytes (c.output ++ [_]) ++ (c.sendBuffer.moveHeader sent).2.content ++ [] = _
    rw [acceptedBytes_accepted, hcontent, htake, List.append_assoc (acceptedBytes _),
      List.take_append_drop]
    exact h.stream hc
  · change c.pendingBytes - sent = (c.sendBuffer.moveHeader sent).2.content.length
    rw [hcontent, List.length_drop, h.pending]
  · change c.bytesSent + sent = (allAccepted (c.output ++ [_])).length
    rw [allAccepted_accepted, List.length_append, List.length_take, Nat.min_eq_left hle, h.counted]
  · intro e he
    rcases List.mem_append.mp he with he | he
    · exact h.inBounds e he
    · obtain rfl := List.mem_singleton.mp he
      have htaken : (c.sendBuffer.front.take sent).length ≤ c.sendBuffer.content.length :=
        (List.length_take_le _ _).trans hlen
      refine ⟨?_, ?_⟩
      · rwa [h.pending]
      · rwa [ByteBuffer.getBufferLength_eq]

/-- A connection is established with nothing to send. -/
lemma establish (h : Balanced owed c) (hc : c.state = .connecting) :
    Balanced [] ({ c with state := .connected, connected := true }.note
      (.call .onConnected)) := by
  obtain ⟨haccepted, hcontent⟩ := h.idle (by simp [hc])
  refine ⟨by simp [Conn.note], fun _ => ?_, fun hs => absurd rfl hs, h.pending, h.counted,
    h.inBounds⟩
  simp [Conn.note, payloads, haccepted, hcontent]

/-- A close gives up what was not sent. -/
lemma closeConn {s : Local} (h : Balanced owed s.conn) (cfg : Config) (reason : CloseReason)
    (desc : ErrorText) : Balanced [] (closeConn cfg reason desc s).conn := by
  rw [closeConn_conn]
  refine ⟨by simp, fun hs => by simp at hs, fun _ => ?_, rfl, ?_, ?_⟩
  · simp
  · simpa [Conn.note] using h.counted
  · intro e he
    rcases List.mem_append.mp he with he | he
    · exact h.inBounds e he
    · obtain rfl := List.mem_singleton.mp he
      trivial

/-- `Connect` moves an idle connection. -/
lemma connecting (h : Balanced [] c) (hc : c.state = .idle) (call : Nat) :
    Balanced [] { c.note (.connectMoved call) with state := .connecting, connected := false } :=
  ⟨by simp, fun hs => by simp at hs, fun _ => h.idle (by simp [hc]), h.pending, h.counted,
    h.inBounds⟩

end Balanced

/-! ### Sockets and the poller -/

/-- The connection `i` has a registration exactly while it has a socket, and no descriptor is open
twice. -/
structure Holding (i : Nat) (s : Local) : Prop where
  nodup : (s.rt.sockets.map Prod.snd).Nodup
  own : isValidSocketHandle s.conn.fd = true → (i, s.conn.fd) ∈ s.rt.sockets
  handle : s.conn.id.valid = isValidSocketHandle s.conn.fd

/-- What the connection `i` leaves of the sockets of others. -/
def Apart (i : Nat) (s s' : Local) : Prop :=
  ∀ j fd, j ≠ i → (j, fd) ∈ s.rt.sockets →
    (j, fd) ∈ s'.rt.sockets ∧ s'.rt.poller fd = s.rt.poller fd

instance (i : Nat) : IsPreorder Local (Apart i) where
  refl _ _ _ _ h := ⟨h, rfl⟩
  trans _ _ _ h h' j fd hj hfd := by
    obtain ⟨hmem, hpoller⟩ := h j fd hj hfd
    obtain ⟨hmem', hpoller'⟩ := h' j fd hj hmem
    exact ⟨hmem', hpoller'.trans hpoller⟩

lemma Apart.of_rt {i : Nat} {s s' : Local} (h : s'.rt = s.rt) : Apart i s s' :=
  fun _ _ _ hfd => by rw [h]; exact ⟨hfd, rfl⟩

namespace Holding

variable {i : Nat} {s : Local}

lemma of_eq {s' : Local} (h : Holding i s) (hid : s'.conn.id = s.conn.id)
    (hfd : s'.conn.fd = s.conn.fd) (hsockets : s'.rt.sockets = s.rt.sockets) : Holding i s' where
  nodup := by rw [hsockets]; exact h.nodup
  own := by rw [hfd, hsockets]; exact h.own
  handle := by rw [hid, hfd]; exact h.handle

/-- A descriptor belongs to one connection. -/
lemma fd_ne (h : Holding i s) (hfd : isValidSocketHandle s.conn.fd = true) {j : Nat} {fd : Int}
    (hj : j ≠ i) (hmem : (j, fd) ∈ s.rt.sockets) : fd ≠ s.conn.fd := by
  rintro rfl
  exact hj (congrArg Prod.fst (List.inj_on_of_nodup_map h.nodup hmem (h.own hfd) rfl))

lemma apart_pollerSet (h : Holding i s) (hfd : isValidSocketHandle s.conn.fd = true)
    (id : ConnectionId) (interest : Interest) :
    Apart i s { s with rt := s.rt.pollerSet s.conn.fd id interest } := fun _ _ hj hmem =>
  ⟨hmem, Function.update_of_ne (h.fd_ne hfd hj hmem) _ _⟩

end Holding

/-- A closed connection has neither an id nor a socket. -/
lemma Holding.closeConn {cfg : Config} {s : Local} (h : Holding cfg.self s) (reason : CloseReason)
    (desc : ErrorText) :
    Holding cfg.self (closeConn cfg reason desc s) ∧
      Apart cfg.self s (closeConn cfg reason desc s) := by
  have hinvalid : isValidSocketHandle (-1) = false := rfl
  refine ⟨⟨?_, ?_, ?_⟩, fun j fd hj hmem => ⟨?_, ?_⟩⟩
  · rw [closeConn_sockets]
    split_ifs
    · exact h.nodup.sublist (List.filter_sublist.map _)
    · exact h.nodup
  · rw [closeConn_conn, closeConn_sockets]
    dsimp only
    split_ifs with hfd
    · simp [hinvalid]
    · simp [hfd]
  · rw [closeConn_conn]
    dsimp only
    rw [h.handle]
    split_ifs with hfd
    · rfl
    · rw [h.handle]
  · rw [closeConn_sockets]
    split_ifs
    · simpa [hj] using hmem
    · exact hmem
  · rw [closeConn_poller, h.handle]
    split_ifs with hfd
    · exact Function.update_of_ne (h.fd_ne hfd hj hmem) _ _
    · rfl

/-- The connection takes a socket that was not open. -/
lemma Holding.adopt {cfg : Config} {k : Kernel} {s : Local} {fd : Int} (h : Holding cfg.self s)
    (hfd : isValidSocketHandle fd = true) (hnew : fd ∉ s.rt.sockets.map Prod.snd) :
    Holding cfg.self (startConnectTimer cfg k (adoptSocket cfg fd s)) ∧
      Apart cfg.self s (startConnectTimer cfg k (adoptSocket cfg fd s)) := by
  obtain ⟨-, hsockets, hid, hfd', -⟩ := adopt_runtime cfg k fd s
  have hvalid : (s.rt.connections.register cfg.self).1.valid = true :=
    ConnectionTable.valid_register _
  have hpoller : (startConnectTimer cfg k (adoptSocket cfg fd s)).rt.poller = s.rt.poller := by
    unfold startConnectTimer
    split_ifs <;> rfl
  refine ⟨⟨?_, fun _ => ?_, ?_⟩, fun j fd' hj hmem => ⟨?_, by rw [hpoller]⟩⟩
  · rw [hsockets]
    exact List.nodup_cons.mpr ⟨hnew, h.nodup⟩
  · rw [hsockets, hfd']
    exact List.mem_cons_self
  · rw [hid, hfd', hvalid, hfd]
  · rw [hsockets]
    exact List.mem_cons_of_mem _ hmem

/-! ### Settled connections -/

/-- The write side inside the functions of a task. -/
structure Inside (owed : List Byte) (i : Nat) (s : Local) : Prop extends
    Balanced owed s.conn, Holding i s where
  queue : ∀ t ∈ s.conn.queue, t.HasValidId

/-- No `ConnectResolved` ran since the connection was established. -/
def Undisturbed (c : Conn) : Prop := ∀ call, .connectResolved call ∉ ranInPeriod c.trace

/-- The poller has the cached interest, for the socket and the id of the connection. -/
def Polled (s : Local) : Prop :=
  Undisturbed s.conn → s.conn.id.valid = true ∧
    s.rt.poller s.conn.fd = some (s.conn.id, s.conn.pollInterest)

/-- The write side between the functions of a task. -/
structure Settled (i : Nat) (s : Local) : Prop extends Inside [] i s where
  polled : s.conn.state = .connected → Polled s
  writable : s.conn.state = .connected → Undisturbed s.conn → s.conn.sendBuffer.content ≠ [] →
    s.conn.pollInterest.writable = true

namespace Settled

variable {i : Nat} {s : Local} {c' : Conn}

lemma of_not_connected (h : Inside [] i s) (hs : s.conn.state ≠ .connected) : Settled i s :=
  ⟨h, fun hc => absurd hc hs, fun hc => absurd hc hs⟩

lemma of_disturbed (h : Inside [] i s) (hs : ¬ Undisturbed s.conn) : Settled i s :=
  ⟨h, fun _ hu => absurd hu hs, fun _ hu => absurd hu hs⟩

lemma same (h : Settled i s) (hc : s.conn.SameWriting c') : Settled i { s with conn := c' } where
  toBalanced := h.toBalanced.same hc
  toHolding := h.toHolding.of_eq hc.id hc.fd rfl
  queue t ht := (hc.queue t ht).elim (h.queue t) id
  polled := by
    unfold Polled Undisturbed
    rw [hc.state, hc.ran, hc.id, hc.fd, hc.pollInterest]
    exact h.polled
  writable := by
    unfold Undisturbed
    rw [hc.state, hc.ran, hc.sendBuffer, hc.pollInterest]
    exact h.writable

end Settled

lemma queue_closeConn (cfg : Config) (reason : CloseReason) (desc : ErrorText) (s : Local) :
    (closeConn cfg reason desc s).conn.queue = s.conn.queue := by
  rw [closeConn_conn]
  rfl

section functions

variable {cfg : Config} {k : Kernel} {s : Local}

/-- What reads and parses, and what closes, leaves a settled connection. -/
lemma spares_settled (cfg : Config) :
    Spares cfg (fun s => ∃ owed, Inside owed cfg.self s) (Settled cfg.self) (Apart cfg.self) where
  inside h := ⟨[], h.toInside⟩
  same h hc := ⟨h.same hc, .of_rt rfl⟩
  close := by
    rintro s reason desc ⟨owed, h⟩
    obtain ⟨hholding, hapart⟩ := h.toHolding.closeConn reason desc
    refine ⟨.of_not_connected ⟨h.toBalanced.closeConn cfg reason desc, hholding, ?_⟩ ?_, hapart⟩
    · rw [queue_closeConn]
      exact h.queue
    · simp [closeConn_conn]

/-- The program leaves the connection settled wherever it calls out, and ends as `Q` says. -/
abbrev Settles (cfg : Config) {α : Type} (m : ConnM α) (s : Local) (Q : α → Local → Prop) : Prop :=
  Tends (Settled cfg.self) (Apart cfg.self) m s Q

/-! ### Writing -/

/-- `PlatformStartSend` registers the interest that the buffer asks for, or changes nothing. -/
lemma platformStartSend_settles (h : Inside [] cfg.self s) (hp : Polled s)
    (hfd : isValidSocketHandle s.conn.fd = true) :
    Settles cfg (platformStartSend k) s fun r s' =>
      (r = none → Settled cfg.self s') ∧ (r ≠ none → s' = s) := by
  refine .getConn_bind ?_
  dsimp only
  have hwritable : s.conn.sendBuffer.content ≠ [] → (!s.conn.sendBuffer.isEmpty) = true := by
    intro hne
    simpa using mt s.conn.sendBuffer.isEmpty_iff.mp hne
  split_ifs with hsame
  · refine .pure ⟨fun _ => ⟨h, fun _ => hp, fun _ _ hne => ?_⟩, by simp⟩
    rw [← hsame]
    exact hwritable hne
  · cases k.modifySend with
    | some e => exact .pure ⟨by simp, fun _ => rfl⟩
    | none =>
      refine .modify_bind (h.apart_pollerSet hfd _ _) (.modifyConn_bind (.of_rt rfl) ?_)
      refine .pure ⟨fun _ => ⟨⟨h.toBalanced.of_eq rfl rfl rfl rfl rfl rfl rfl,
        h.toHolding.of_eq rfl rfl rfl, h.queue⟩, ?_, ?_⟩, by simp⟩
      · exact fun _ hu => ⟨(hp hu).1, Function.update_self _ _ _⟩
      · exact fun _ _ hne => hwritable hne

lemma updateWriteInterest_settles (h : Inside [] cfg.self s) (hc : s.conn.state = .connected)
    (hp : Polled s) :
    Settles cfg (updateWriteInterest cfg k) s fun _ => Settled cfg.self := by
  refine .getConn_bind ?_
  split_ifs with hinvalid
  · -- a connection without an id was disturbed
    refine .pure (.of_disturbed h fun hu => ?_)
    simp [← h.handle, (hp hu).1] at hinvalid
  · have hfd : isValidSocketHandle s.conn.fd = true := by
      by_contra hfd
      exact hinvalid (Or.inr (by simpa using hfd))
    refine .bind (platformStartSend_settles h hp hfd) ?_
    rintro (_ | error) s' ⟨hnone, hsome⟩
    · exact .pure (hnone rfl)
    · obtain rfl := hsome (by simp)
      exact (spares_settled cfg).startClose_of_inside _ _ ⟨[], h⟩ (Or.inr hc)

lemma sendLoop_settles (rs : List SendResult) (n : Nat) (h : Inside [] cfg.self s)
    (hc : s.conn.state = .connected) (hp : Polled s) :
    Settles cfg (sendLoop cfg k rs n) s fun _ => Settled cfg.self := by
  induction rs generalizing n s with
  | nil => exact updateWriteInterest_settles h hc hp
  | cons r rs ih =>
    have hupdate := updateWriteInterest_settles (k := k) h hc hp
    unfold sendLoop
    split_ifs
    · exact hupdate
    refine .getConn_bind ?_
    split_ifs
    · exact hupdate
    cases r with
    | eintr => exact ih n h hc hp
    | eagain => exact hupdate
    | failed e => exact (spares_settled cfg).startClose_of_inside _ _ ⟨[], h⟩ (Or.inr hc)
    | sent n =>
      cases n with
      | zero => exact hupdate
      | succ sent =>
        refine .modifyConn_bind (.of_rt rfl)
          (ih _ ⟨?_, h.toHolding.of_eq rfl rfl rfl, h.queue⟩ hc hp)
        exact h.toBalanced.afterSend hc (Nat.min_le_right _ _)

/-- The task of `SendBuffer`. -/
lemma sendTask_settles {msg : List Byte} (h : Inside msg cfg.self s)
    (hp : s.conn.state = .connected → Polled s) :
    Settles cfg (sendTask cfg k msg) s fun _ => Settled cfg.self := by
  dsimp only [sendTask, Platform.sendTask]
  refine .getConn_bind ?_
  split_ifs with hconnected
  · have hc : s.conn.state = .connected := h.connected.mp hconnected
    refine .modifyConn_bind (.of_rt rfl) (updateWriteInterest_settles ?_ hc (hp hc))
    exact ⟨h.toBalanced.addSlice hc, h.toHolding.of_eq rfl rfl rfl, h.queue⟩
  · have hc : s.conn.state ≠ .connected := mt h.connected.mpr hconnected
    exact .pure (.of_not_connected ⟨h.toBalanced.of_not_connected hc, h.toHolding, h.queue⟩ hc)

/-! ### Connecting -/

/-- `PlatformAfterConnected` registers the interest in reading, or fails. -/
lemma platformAfterConnected_settles (h : Inside [] cfg.self s)
    (hid : s.conn.id.valid = true) :
    Settles cfg (platformAfterConnected k) s fun r s' => Inside [] cfg.self s' ∧
      s'.conn.state = s.conn.state ∧ s'.conn.id = s.conn.id ∧
        (r = none → s'.rt.poller s'.conn.fd = some (s'.conn.id, s'.conn.pollInterest)) := by
  have hfd : isValidSocketHandle s.conn.fd = true := by rw [← h.handle, hid]
  refine .modifyConn_bind (.of_rt rfl) ?_
  have h' : Inside [] cfg.self
      { s with conn := { s.conn with pollInterest := { readable := true } } } :=
    ⟨h.toBalanced.of_eq rfl rfl rfl rfl rfl rfl rfl, h.toHolding.of_eq rfl rfl rfl, h.queue⟩
  cases k.modifyConnected with
  | some e => exact .pure ⟨h', rfl, rfl, by simp⟩
  | none =>
    refine .modify_bind (h'.apart_pollerSet hfd _ _) (.pure ⟨?_, rfl, rfl, fun _ => ?_⟩)
    · exact ⟨h'.toBalanced, h'.toHolding.of_eq rfl rfl rfl, h'.queue⟩
    · exact Function.update_self _ _ _

/-- `HandleConnected` establishes a connection with nothing to send and a fresh interest. -/
lemma handleConnected_settles (h : Settled cfg.self s) (hid : s.conn.id.valid = true) :
    Settles cfg (handleConnected cfg k) s fun _ => Settled cfg.self := by
  dsimp only [handleConnected, Platform.handleConnected, Platform.announceConnected]
  refine .getConn_bind ?_
  split_ifs with hstate
  · exact .pure h
  replace hstate : s.conn.state = .connecting := not_not.mp hstate
  refine (spares_settled cfg).modifyConn_bind h (.of_eq rfl rfl rfl) fun s₁ hs₁ h₁ => ?_
  refine .bind (platformAfterConnected_settles h₁.toInside (by rw [hs₁]; exact hid)) ?_
  rintro (_ | error) s₂ ⟨h₂, hstate₂, hid₂, hpoller⟩
  · have hconnecting : s₂.conn.state = .connecting := by rw [hstate₂, hs₁]; exact hstate
    refine .getConn_bind ?_
    rw [if_neg (by simp [hconnecting])]
    refine .callback (.of_rt rfl) ⟨⟨h₂.toBalanced.establish hconnecting, ?_, h₂.queue⟩, ?_, ?_⟩
    · exact h₂.toHolding.of_eq rfl rfl rfl
    · refine fun _ _ => ⟨?_, hpoller rfl⟩
      change s₂.conn.id.valid = true
      rw [hid₂, hs₁]
      exact hid
    · -- nothing is left from before
      intro _ _ hne
      exact absurd (h₂.idle (by simp [hconnecting])).2 hne
  · refine (spares_settled cfg).startClose_of_inside _ _ ⟨[], h₂⟩ (Or.inl ?_)
    rw [hstate₂, hs₁]
    exact hstate

lemma registerInterest_settles (interest : Interest) (h : Inside [] cfg.self s)
    (hid : s.conn.id.valid = true) :
    Settles cfg (registerInterest k interest) s fun _ s' => Inside [] cfg.self s' ∧
      s'.conn.id = s.conn.id ∧ s'.conn.trace = s.conn.trace := by
  have hfd : isValidSocketHandle s.conn.fd = true := by rw [← h.handle, hid]
  have h' : Inside [] cfg.self { s with conn := { s.conn with pollInterest := interest } } :=
    ⟨h.toBalanced.of_eq rfl rfl rfl rfl rfl rfl rfl, h.toHolding.of_eq rfl rfl rfl, h.queue⟩
  refine .modifyConn_bind (.of_rt rfl) ?_
  cases k.pollerAdd with
  | some e => exact .pure ⟨h', rfl, rfl⟩
  | none =>
    refine .modify_bind (h'.apart_pollerSet hfd _ _) (.pure ⟨?_, rfl, rfl⟩)
    exact ⟨h'.toBalanced, h'.toHolding.of_eq rfl rfl rfl, h'.queue⟩

lemma platformConnect_settles (h : Inside [] cfg.self s) (hid : s.conn.id.valid = true) :
    Settles cfg (platformConnect k) s fun _ s' => Inside [] cfg.self s' ∧
      s'.conn.id = s.conn.id ∧ s'.conn.trace = s.conn.trace := by
  unfold platformConnect
  cases k.connect with
  | done =>
    refine .bind (registerInterest_settles _ h hid) ?_
    rintro (_ | error) s' h'
    · exact .pure h'
    · exact .pure h'
  | inProgress =>
    refine .bind (registerInterest_settles _ h hid) ?_
    rintro (_ | error) s' h'
    · exact .pure h'
    · exact .pure h'
  | failed e => exact .pure ⟨h, rfl, rfl⟩

/-- `ConnectResolved`; it disturbs a connection that is established. -/
lemma connectResolved_settles (h : Inside [] cfg.self s) (hran : ¬ Undisturbed s.conn)
    (hfresh : ∀ fd, k.openSocket = .opened fd →
      isValidSocketHandle fd = true ∧ fd ∉ s.rt.sockets.map Prod.snd) :
    Settles cfg (connectResolved cfg k) s fun _ => Settled cfg.self := by
  unfold connectResolved
  cases hopen : k.openSocket with
  | failed error => exact (spares_settled cfg).startClose _ _ (.of_disturbed h hran)
  | opened fd =>
    obtain ⟨hfd, hnew⟩ := hfresh fd hopen
    obtain ⟨hholding, hapart⟩ := h.toHolding.adopt (k := k) hfd hnew
    obtain ⟨id, deadline, hconn⟩ := adopt_conn cfg k fd s
    let s₁ := startConnectTimer cfg k (adoptSocket cfg fd s)
    have hid : s₁.conn.id.valid = true := by
      rw [hholding.handle, hconn]
      exact hfd
    have h₁ : Inside [] cfg.self s₁ := by
      refine ⟨?_, hholding, ?_⟩
      · rw [hconn]
        exact h.toBalanced.of_eq rfl rfl rfl rfl rfl rfl rfl
      · rw [hconn]
        exact h.queue
    refine .modify_modify_bind hapart (.bind (platformConnect_settles h₁ hid) ?_)
    intro r s₂ ⟨h₂, hid₂, htrace₂⟩
    have hsettled : Settled cfg.self s₂ := by
      refine .of_disturbed h₂ ?_
      rwa [Undisturbed, htrace₂, hconn]
    match r with
    | .error error => exact (spares_settled cfg).startClose _ _ hsettled
    | .ok true => exact handleConnected_settles hsettled (by rw [hid₂]; exact hid)
    | .ok false => exact .pure hsettled

/-! ### Events and tasks -/

/-- The first part of `HandlePollEvent`: the connection is up if the event goes on with anything. -/
lemma finishConnecting_settles {ev : PollEvent} (h : Settled cfg.self s)
    (hid : s.conn.id.valid = true) (hact : s.conn.Active) :
    Settles cfg (finishConnecting cfg k ev) s fun b s' => Settled cfg.self s' ∧
      (b = true → ev.readable = true ∨ ev.writable = true → s'.conn.connected = true) := by
  refine .getConn_bind ?_
  split_ifs with hconnecting
  · cases platformFinishConnect k with
    | some error =>
      exact .bind ((spares_settled cfg).startClose _ _ h) fun _ _ h' => .pure ⟨h', by simp⟩
    | none =>
      exact .bind (handleConnected_settles h hid) fun _ _ h' =>
        .getConn_bind (.pure ⟨h', fun hb _ => hb⟩)
  · refine .pure ⟨h, fun _ hev => h.connected.mpr ?_⟩
    exact hact.resolve_left fun hc => hconnecting ⟨hc, hev⟩

lemma handleReadyEvent_settles {ev : PollEvent} (h : Settled cfg.self s)
    (hid : s.conn.id.valid = true) (hact : s.conn.Active) :
    Settles cfg (handleReadyEvent cfg k ev) s fun _ => Settled cfg.self := by
  refine .bind (finishConnecting_settles h hid hact) fun b s₁ ⟨h₁, hup⟩ => ?_
  cases b with
  | false => exact .pure h₁
  | true =>
    by_cases hev : ev.readable = true ∨ ev.writable = true
    · refine .bind ((spares_settled cfg).handleReadableEvent ev h₁ (hup rfl hev)) ?_
      rintro (_ | _) s₂ ⟨h₂, hup₂⟩
      · exact .pure h₂
      · have hc : s₂.conn.state = .connected := h₂.connected.mp (hup₂ rfl)
        simp only [if_true]
        split_ifs
        · exact sendLoop_settles _ _ h₂.toInside hc (h₂.polled hc)
        · exact .pure h₂
    · obtain ⟨hread, hwrite⟩ := not_or.mp hev
      simp only [handleReadableEvent, hread, hwrite, if_true, Bool.false_eq_true, if_false]
      exact .pure h₁

lemma handlePollEvent_settles {ev : PollEvent} (h : Settled cfg.self s)
    (hid : ev.id.valid = true) :
    Settles cfg (handlePollEvent cfg k ev) s fun _ => Settled cfg.self := by
  refine .getConn_bind ?_
  split_ifs with hne hop hidle herr
  · exact .pure h
  · exact .pure h
  · exact .pure h
  · exact (spares_settled cfg).handleErrorEvent ev h
  · refine handleReadyEvent_settles h ?_ (Conn.active_of_not_idle hidle)
    rwa [← not_not.mp hne]

variable (cfg) in
/-- Every task leaves a settled connection settled. The task was noted in the history, and what it
has to send is still owed. -/
theorem taskBody_settles {t : Task} (h : Inside t.payload cfg.self s)
    (hp : s.conn.state = .connected → Polled s)
    (hw : s.conn.state = .connected → Undisturbed s.conn → s.conn.sendBuffer.content ≠ [] →
      s.conn.pollInterest.writable = true)
    (ht : t.HasValidId) (hran : ∀ call, t = .connectResolved call → ¬ Undisturbed s.conn)
    (hfresh : ∀ fd, k.openSocket = .opened fd →
      isValidSocketHandle fd = true ∧ fd ∉ s.rt.sockets.map Prod.snd) :
    Settles cfg (taskBody cfg k t) s fun _ => Settled cfg.self := by
  have hspares := spares_settled cfg
  cases t with
  | connectResolved call => exact connectResolved_settles h (hran call rfl) hfresh
  | resolveFailed desc call => exact hspares.startClose _ _ ⟨h, hp, hw⟩
  | disconnect call => exact hspares.startClose _ _ ⟨h, hp, hw⟩
  | send msg => exact sendTask_settles h hp
  | pollEvent ev => exact handlePollEvent_settles ⟨h, hp, hw⟩ ht
  | timerEvent ev => exact hspares.handleTimerEvent ev ⟨h, hp, hw⟩
  | parseContinuation => exact hspares.continueParse ⟨h, hp, hw⟩

end functions

end Connx
