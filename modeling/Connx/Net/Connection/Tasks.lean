import Connx.Net.Connection.Parsing

/-!
# Every task makes only the listed changes

Specifications of the functions that write, connect and handle events, and from them the one of a
whole task: started on a stable connection it makes only the changes of `Change` and leaves the
connection stable.
-/

namespace Connx

open Relation Resum

variable {cfg : Config} {k : Kernel} {F : Facts}

/-! ### Writing -/

/-- `PlatformStartSend` changes the interest, or fails because `Modify` fails. -/
lemma platformStartSend_spec {s : Local} (h : Serving cfg s.conn) :
    Does cfg k F (platformStartSend k) s fun r s' => Serving cfg s'.conn ∧
      s'.conn.recvBuffer.content = s.conn.recvBuffer.content ∧
      ∀ error ∈ r, ∃ e, k.modifySend = some e ∧ error = .errno e := by
  refine .getConn_bind ?_
  dsimp only
  split_ifs with hsame
  · exact .pure ⟨h, rfl, by simp⟩
  · cases hk : k.modifySend with
    | some e => exact .pure ⟨h, rfl, by simp⟩
    | none =>
      refine .modify_bind (changes_pollerSet h.acting _ _ _) ?_
      refine .modifyConn_bind (changes_bookkeeping h.acting (.of_core rfl))
        (.pure ⟨?_, rfl, by simp⟩)
      exact h.bookkeeping h.deferred (.of_core rfl)

lemma updateWriteInterest_spec {s : Local} (h : Serving cfg s.conn)
    (hF : k.modifySend.isSome = true → F.abrupt cfg s.conn.recvBuffer.content) :
    Does cfg k F (updateWriteInterest cfg k) s fun _ s' =>
      Down s'.conn ∨ Serving cfg s'.conn := by
  refine .getConn_bind ?_
  split_ifs with hinvalid
  · exact .pure (Or.inr h)
  · refine Does.bind (platformStartSend_spec h) ?_
    rintro (_ | error) s' ⟨h', hcontent, herr⟩
    · exact .pure (Or.inr h')
    · obtain ⟨e, hk, rfl⟩ := herr error rfl
      refine (h'.toLive.startClose (.abrupt h'.connected ?_ e)).mono fun _ _ => Or.inl
      rw [h'.input, hcontent]
      exact hF (by simp [hk])

/-- Sending fails, or the interest cannot be changed after it. -/
def Kernel.sendFails (k : Kernel) : Bool :=
  k.send.any (fun | .failed _ => true | _ => false) || k.modifySend.isSome

lemma sendLoop_spec (rs : List SendResult) {n : Nat} {s : Local} (h : Serving cfg s.conn)
    (hrs : ∀ r ∈ rs, r ∈ k.send)
    (hF : k.sendFails = true → F.abrupt cfg s.conn.recvBuffer.content) :
    Does cfg k F (sendLoop cfg k rs n) s fun _ s' => Down s'.conn ∨ Serving cfg s'.conn := by
  have hmodify : k.modifySend.isSome = true → k.sendFails = true := fun hk => by
    simp [Kernel.sendFails, hk]
  have hupdate := updateWriteInterest_spec h fun hk => hF (hmodify hk)
  induction rs generalizing n s with
  | nil => exact hupdate
  | cons r rs ih =>
    have hrs' : ∀ r ∈ rs, r ∈ k.send := fun r hr => hrs r (List.mem_cons_of_mem _ hr)
    unfold sendLoop
    split_ifs with hbudget
    · exact hupdate
    refine .getConn_bind ?_
    split_ifs with hempty
    · exact hupdate
    match r with
    | .eintr => exact ih h hrs' hF hupdate
    | .eagain => exact hupdate
    | .failed e =>
      refine (h.toLive.startClose (.abrupt h.connected ?_ e)).mono fun _ _ => Or.inl
      rw [h.input]
      have hmem := hrs (.failed e) List.mem_cons_self
      exact hF (Bool.or_eq_true_iff.mpr (Or.inl (List.any_eq_true.mpr ⟨_, hmem, rfl⟩)))
    | .sent 0 => exact hupdate
    | .sent (sent + 1) =>
      have h' : Serving cfg (afterSend (min (sent + 1) s.conn.sendBuffer.front.length) s.conn) :=
        h.bookkeeping h.deferred (.of_core rfl)
      refine .modifyConn_bind (changes_bookkeeping h.acting (.of_core rfl))
        (ih (s := ⟨_, _⟩) h' hrs' hF ?_)
      exact updateWriteInterest_spec (s := ⟨_, _⟩) h' fun hk => hF (hmodify hk)

/-! ### Connecting -/

/-- What a bookkeeping change leaves of a connection that is down. -/
lemma Down.bookkeeping {c c' : Conn} (h : Down c) (hd : c'.deferredClosePending = false)
    (hc : c.SameCore c') : Down c' where
  state := by rw [hc.state]; exact h.state
  connected := hc.connected.trans h.connected
  deferred := hd
  content := by rw [hc.recvBuffer]; exact h.content
  parsed := hc.parsed.trans h.parsed

lemma platformAfterConnected_spec {t : Task} {s : Local} (hb : Begun t s.conn) (h : Down s.conn) :
    Does cfg k F (platformAfterConnected k) s fun _ s' =>
      Down s'.conn ∧ s'.conn.state = s.conn.state ∧ Begun t s'.conn := by
  refine .modifyConn_bind (changes_bookkeeping hb.acting (.of_core rfl)) ?_
  cases k.modifyConnected with
  | some e => exact .pure ⟨h.bookkeeping h.deferred (.of_core rfl), rfl, hb.of_trace rfl⟩
  | none =>
    refine .modify_bind (changes_pollerSet (by exact hb.acting) _ _ _) (.pure ?_)
    exact ⟨h.bookkeeping h.deferred (.of_core rfl), rfl, hb.of_trace rfl⟩

/-- `HandleConnected` brings a connecting connection up, or fails it, and leaves any other. -/
lemma handleConnected_spec {t : Task} {s : Local} (hb : Begun t s.conn)
    (h : Down s.conn ∨ Serving cfg s.conn) :
    Does cfg k F (handleConnected cfg k) s fun _ s' =>
      Down s'.conn ∨
        (Serving cfg s'.conn ∧ s'.conn.recvBuffer.content = s.conn.recvBuffer.content) := by
  dsimp only [handleConnected, Platform.handleConnected, Platform.announceConnected]
  refine .getConn_bind ?_
  split_ifs with hstate
  · exact .pure (h.imp_right fun h => ⟨h, rfl⟩)
  replace hstate : s.conn.state = .connecting := not_not.mp hstate
  have hdown : Down s.conn := h.resolve_right fun hs => by simp [hs.state] at hstate
  refine .modifyConn_bind (changes_bookkeeping hb.acting (.of_core rfl)) ?_
  have hdown₁ : Down { s.conn with connectDeadlineMs := 0 } :=
    hdown.bookkeeping hdown.deferred (.of_core rfl)
  refine Does.bind (platformAfterConnected_spec (s := ⟨_, _⟩) (hb.of_trace rfl) hdown₁) ?_
  rintro (_ | error) s' ⟨hdown', hstate', hb'⟩
  · refine .getConn_bind ?_
    have hconnecting : s'.conn.state = .connecting := hstate'.trans hstate
    rw [if_neg (by simp [hconnecting])]
    have hserving : Serving cfg ({ s'.conn with state := .connected, connected := true }.note
        (.call .onConnected)) := by
      refine ⟨⟨⟨rfl, rfl, ?_, ?_⟩, ?_⟩, hdown'.parsed, Or.inl (Or.inl hdown'.content)⟩
      · intro hdef
        have hdef' : s'.conn.deferredClosePending = true := hdef
        simp [hdown'.deferred] at hdef'
      · exact hdown'.parsed.trans_le (Nat.zero_le _)
      · simpa [Conn.note] using hb'.notReturned
    refine .callback (.single (.establish hb'.acting hconnecting hb'.notReturned))
      fun s'' hs'' => ?_
    rcases hserving.toUp.meanwhile hs'' with hsame | hdown''
    · refine Or.inr ⟨hsame.serving hserving, ?_⟩
      rw [hsame.recvBuffer, hdown.content]
      exact hdown'.content
    · exact Or.inl hdown''
  · refine (hb'.connectFailed error (Or.inl hdown') ?_).mono fun _ _ => Or.inl
    simp [hstate', hstate]

/-- `PlatformConnect` fails. -/
def Kernel.platformConnectFails (k : Kernel) : Bool :=
  match k.connect with
  | .failed _ => true
  | _ => k.pollerAdd.isSome

/-- `ConnectResolved` fails before the connection is established. -/
def Kernel.connectFails (k : Kernel) : Bool :=
  match k.openSocket with
  | .failed _ => true
  | .opened _ => k.platformConnectFails

lemma registerInterest_spec {t : Task} {s : Local} (interest : Interest) (hb : Begun t s.conn)
    (h : Down s.conn ∨ Serving cfg s.conn) :
    Does cfg k F (registerInterest k interest) s fun r s' =>
      (Down s'.conn ∨ Serving cfg s'.conn) ∧ Begun t s'.conn ∧
        s'.conn.state = s.conn.state ∧ (∀ error ∈ r, k.pollerAdd.isSome = true) := by
  have h' : Down { s.conn with pollInterest := interest } ∨
      Serving cfg { s.conn with pollInterest := interest } :=
    h.imp (fun h => h.bookkeeping h.deferred (.of_core rfl))
      fun h => h.bookkeeping h.deferred (.of_core rfl)
  refine .modifyConn_bind (changes_bookkeeping hb.acting (.of_core rfl)) ?_
  cases hk : k.pollerAdd with
  | some e => exact .pure ⟨h', hb.of_trace rfl, rfl, by simp⟩
  | none =>
    refine .modify_bind (changes_pollerSet (by exact hb.acting) _ _ _) (.pure ?_)
    exact ⟨h', hb.of_trace rfl, rfl, by simp⟩

lemma platformConnect_spec {t : Task} {s : Local} (hb : Begun t s.conn)
    (h : Down s.conn ∨ Serving cfg s.conn) :
    Does cfg k F (platformConnect k) s fun r s' =>
      (Down s'.conn ∨ Serving cfg s'.conn) ∧ Begun t s'.conn ∧
        s'.conn.state = s.conn.state ∧
          ((∃ error, r = .error error) → k.platformConnectFails = true) := by
  unfold platformConnect
  cases hk : k.connect with
  | done =>
    refine Does.bind (registerInterest_spec _ hb h) ?_
    rintro (_ | error) s' ⟨h', hb', hstate, herr⟩
    · exact .pure ⟨h', hb', hstate, by simp⟩
    · refine .pure ⟨h', hb', hstate, fun _ => ?_⟩
      simpa [Kernel.platformConnectFails, hk] using herr error rfl
  | inProgress =>
    refine Does.bind (registerInterest_spec _ hb h) ?_
    rintro (_ | error) s' ⟨h', hb', hstate, herr⟩
    · exact .pure ⟨h', hb', hstate, by simp⟩
    · refine .pure ⟨h', hb', hstate, fun _ => ?_⟩
      simpa [Kernel.platformConnectFails, hk] using herr error rfl
  | failed e => exact .pure ⟨h, hb, rfl, fun _ => by simp [Kernel.platformConnectFails, hk]⟩

/-- The connection after `ConnectResolved` adopted a socket. -/
lemma adopt_conn (cfg : Config) (k : Kernel) (fd : Int) (s : Local) :
    ∃ id deadline, (startConnectTimer cfg k (adoptSocket cfg fd s)).conn =
      { s.conn with fd := fd, id := id, connectDeadlineMs := deadline } := by
  unfold startConnectTimer adoptSocket
  split_ifs
  · exact ⟨_, _, rfl⟩
  · exact ⟨_, _, rfl⟩

/-- The table and the sockets then, and what the connection has of them. -/
lemma adopt_runtime (cfg : Config) (k : Kernel) (fd : Int) (s : Local) :
    (startConnectTimer cfg k (adoptSocket cfg fd s)).rt.connections =
        (s.rt.connections.register cfg.self).2 ∧
      (startConnectTimer cfg k (adoptSocket cfg fd s)).rt.sockets =
        (cfg.self, fd) :: s.rt.sockets ∧
      (startConnectTimer cfg k (adoptSocket cfg fd s)).conn.id =
        (s.rt.connections.register cfg.self).1 ∧
      (startConnectTimer cfg k (adoptSocket cfg fd s)).conn.fd = fd ∧
      (startConnectTimer cfg k (adoptSocket cfg fd s)).conn.state = s.conn.state := by
  unfold startConnectTimer
  split_ifs <;> exact ⟨rfl, rfl, rfl, rfl, rfl⟩

lemma connectResolved_spec {call : Nat} {s : Local} (hb : Begun (.connectResolved call) s.conn)
    (h : Down s.conn ∨ Serving cfg s.conn)
    (hopen : ∀ fd, k.openSocket = .opened fd → F.opening s fd)
    (hF : s.conn.state = .connected → k.connectFails = true → F.strayFail) :
    Does cfg k F (connectResolved cfg k) s fun _ s' => Down s'.conn ∨ Serving cfg s'.conn := by
  unfold connectResolved
  cases hk : k.openSocket with
  | failed error =>
    refine (hb.connectFailed error h fun hs => ?_).mono fun _ _ => Or.inl
    exact hF hs (by simp [Kernel.connectFails, hk])
  | opened fd =>
    let s₁ := startConnectTimer cfg k (adoptSocket cfg fd s)
    obtain ⟨id, deadline, hconn⟩ := adopt_conn cfg k fd s
    have h₁ : Down s₁.conn ∨ Serving cfg s₁.conn := by
      rw [hconn]
      refine h.imp (fun h => ?_) fun h => ?_
      · exact ⟨h.state, h.connected, h.deferred, h.content, h.parsed⟩
      · exact ⟨⟨⟨h.state, h.connected, h.deferred, h.parsed_le⟩, h.notReturned⟩, h.parsed, h.ready⟩
    have hb₁ : Begun (.connectResolved call) s₁.conn := hb.of_trace (by rw [hconn])
    have hstate₁ : s₁.conn.state = s.conn.state := by rw [hconn]
    have hadopt : Changes cfg k F s s₁ := .single (.adopt call fd hb.last (hopen fd hk))
    refine .modify_modify_bind hadopt (Does.bind (platformConnect_spec hb₁ h₁) ?_)
    rintro (error | _ | _) s₂ ⟨h₂, hb₂, hstate₂, hfail⟩
    · refine (hb₂.connectFailed error h₂ fun hs => ?_).mono fun _ _ => Or.inl
      refine hF (by rw [← hstate₁, ← hstate₂, hs]) ?_
      simpa [Kernel.connectFails, hk] using hfail ⟨error, rfl⟩
    · exact .pure h₂
    · exact (handleConnected_spec hb₂ h₂).mono fun _ _ h' => h'.imp_right And.left

/-! ### Events -/

/-- The inputs over which a task may close an established connection without having parsed them:
those of error events, and of events and sends whose sending fails. -/
inductive AbruptInput (cfg : Config) (k : Kernel) (c : Conn) : Task → List Byte → Prop
  | errorEvent (ev : PollEvent) (hid : ev.id = c.id) (he : ev.error = true) :
      AbruptInput cfg k c (.pollEvent ev) c.recvBuffer.content
  | writable (ev : PollEvent) (hid : ev.id = c.id) (hw : ev.writable = true)
      (hr : ev.readable = false) (hk : k.sendFails = true) :
      AbruptInput cfg k c (.pollEvent ev) c.recvBuffer.content
  | readWritable (ev : PollEvent) (hid : ev.id = c.id) (hw : ev.writable = true)
      (hr : ev.readable = true) (hk : k.sendFails = true) {rest : List Byte}
      (hrest : Leftover cfg (c.recvBuffer.content ++ readBytes k.recv 0) rest) :
      AbruptInput cfg k c (.pollEvent ev) rest
  | send (msg : List Byte) (hk : k.modifySend.isSome = true) :
      AbruptInput cfg k c (.send msg) c.recvBuffer.content

/-- The attempt that posted the task fails in it. -/
def Task.failsConnect (k : Kernel) : Task → Bool
  | .connectResolved _ => k.connectFails
  | .resolveFailed _ _ => true
  | _ => false

/-- The facts hold of the task `t` started in `s`. -/
structure Covers (cfg : Config) (k : Kernel) (F : Facts) (t : Task) (s : Local) : Prop where
  opening : ∀ call fd, t = .connectResolved call → k.openSocket = .opened fd → F.opening s fd
  stray : s.conn.state = .connected → t.failsConnect k = true → F.strayFail
  abrupt : ∀ y, AbruptInput cfg k s.conn t y → F.abrupt cfg y

lemma handleErrorEvent_spec {t : Task} {ev : PollEvent} {s : Local} (hb : Begun t s.conn)
    (h : Down s.conn ∨ Serving cfg s.conn) (hact : s.conn.Active)
    (hF : F.abrupt cfg s.conn.recvBuffer.content) :
    Does cfg k F (handleErrorEvent cfg k ev) s fun _ s' => Down s'.conn := by
  refine .getConn_bind ?_
  rcases h with hd | hs
  · have hconn : s.conn.state = .connecting := hact.resolve_right fun hc => by
      rcases hd.state with h | h <;> simp [h] at hc
    simp only [hconn, if_true, hd.connected]
    cases platformFinishConnect k with
    | some error => exact hb.startClose (Or.inl hd) fun _ => .attemptFailed hconn _
    | none => exact hb.startClose (Or.inl hd) fun _ => .attemptFailed hconn _
  · simp only [hs.state, reduceCtorEq, if_false, hs.connected, if_true]
    exact hs.toLive.startClose (.abrupt hs.connected (by rwa [hs.input]) _)

/-- After the first part of `HandlePollEvent` the event is dropped, or the connection is up if
there is anything to read or write. -/
lemma finishConnecting_spec {t : Task} {ev : PollEvent} {s : Local} (hb : Begun t s.conn)
    (h : Down s.conn ∨ Serving cfg s.conn) (hact : s.conn.Active) :
    Does cfg k F (finishConnecting cfg k ev) s fun b s' =>
      (Down s'.conn ∧ (b = true → ev.readable = false ∧ ev.writable = false)) ∨
        (Serving cfg s'.conn ∧ s'.conn.recvBuffer.content = s.conn.recvBuffer.content) := by
  refine .getConn_bind ?_
  split_ifs with hconn
  · cases platformFinishConnect k with
    | some error =>
      have hclose := hb.startClose (k := k) (F := F) h fun _ => .attemptFailed hconn.1 error
      exact Does.bind hclose fun _ s' h' => .pure (Or.inl ⟨h', by simp⟩)
    | none =>
      refine Does.bind (handleConnected_spec hb h) fun _ s' h' => .getConn_bind (.pure ?_)
      refine h'.imp_left fun hd => ⟨hd, ?_⟩
      simp [hd.connected]
  · refine .pure (h.imp (fun hd => ⟨hd, fun _ => ?_⟩) fun hs => ⟨hs, rfl⟩)
    have hstate : s.conn.state = .connecting := hact.resolve_right fun hc => by
      rcases hd.state with h | h <;> simp [h] at hc
    simpa [hstate] using hconn

lemma handleReadableEvent_spec {ev : PollEvent} {s : Local} (h : Serving cfg s.conn) :
    Does cfg k F (handleReadableEvent cfg k ev) s fun b s' =>
      (Down s'.conn ∧ b = false) ∨ (Serving cfg s'.conn ∧
        if ev.readable then Leftover cfg (s.conn.recvBuffer.content ++ readBytes k.recv 0)
          s'.conn.recvBuffer.content
        else s'.conn.recvBuffer.content = s.conn.recvBuffer.content) := by
  unfold handleReadableEvent
  split_ifs with hread
  · refine Does.bind (platformHandleReadable_spec h) fun _ s' h' => .getConn_bind (.pure ?_)
    exact h'.imp_left fun hd => ⟨hd, hd.connected⟩
  · exact .pure (Or.inr ⟨h, rfl⟩)

lemma handleReadyEvent_spec {t : Task} {ev : PollEvent} {s : Local} (hb : Begun t s.conn)
    (h : Down s.conn ∨ Serving cfg s.conn) (hact : s.conn.Active) (hid : ev.id = s.conn.id)
    (hF : ∀ y, AbruptInput cfg k s.conn (.pollEvent ev) y → F.abrupt cfg y) :
    Does cfg k F (handleReadyEvent cfg k ev) s fun _ s' => Down s'.conn ∨ Serving cfg s'.conn := by
  refine Does.bind (finishConnecting_spec hb h hact) fun b s₁ h₁ => ?_
  rcases h₁ with ⟨hdown, hb⟩ | ⟨hserving, hcontent⟩
  · cases b with
    | false => exact .pure (Or.inl hdown)
    | true =>
      obtain ⟨hread, hwrite⟩ := hb rfl
      simp only [handleReadableEvent, hread, hwrite, if_true, Bool.false_eq_true, if_false]
      exact .pure (Or.inl hdown)
  · cases b with
    | false => exact .pure (Or.inr hserving)
    | true =>
      refine Does.bind (handleReadableEvent_spec hserving) fun b' s₂ h₂ => ?_
      rw [hcontent] at h₂
      rcases h₂ with ⟨hdown₂, rfl⟩ | ⟨hserving₂, hrest⟩
      · exact .pure (Or.inl hdown₂)
      split_ifs with hb' hwrite
      · refine sendLoop_spec k.send hserving₂ (fun _ => id) fun hk => hF _ ?_
        by_cases hread : ev.readable = true
        · rw [if_pos hread] at hrest
          exact .readWritable ev hid hwrite hread hk hrest
        · rw [if_neg hread] at hrest
          rw [hrest]
          exact .writable ev hid hwrite (by simpa using hread) hk
      · exact .pure (Or.inr hserving₂)
      · exact .pure (Or.inr hserving₂)

lemma handlePollEvent_spec {t : Task} {ev : PollEvent} {s : Local} (hb : Begun t s.conn)
    (h : Down s.conn ∨ Serving cfg s.conn)
    (hF : ∀ y, AbruptInput cfg k s.conn (.pollEvent ev) y → F.abrupt cfg y) :
    Does cfg k F (handlePollEvent cfg k ev) s fun _ s' => Down s'.conn ∨ Serving cfg s'.conn := by
  refine .getConn_bind ?_
  split_ifs with hid hop hstate herr
  · exact .pure h
  · exact .pure h
  · exact .pure h
  all_goals
    replace hid : ev.id = s.conn.id := not_not.mp hid
    have hact : s.conn.Active := by
      rcases h with hd | hs
      · exact Or.inl (hd.state.resolve_left fun hi => hstate (Or.inl hi))
      · exact hs.active
  · refine (handleErrorEvent_spec hb h hact (hF _ (.errorEvent ev hid herr))).mono ?_
    exact fun _ _ => Or.inl
  · exact handleReadyEvent_spec hb h hact hid hF

lemma handleTimerEvent_spec {t : Task} {ev : TimerEvent} {s : Local} (hb : Begun t s.conn)
    (h : Down s.conn ∨ Serving cfg s.conn) :
    Does cfg k F (handleTimerEvent cfg ev) s fun _ s' => Down s'.conn ∨ Serving cfg s'.conn := by
  refine .getConn_bind ?_
  split_ifs with hid hexpired
  · exact .pure h
  · exact (hb.startClose h fun _ => .timeout hexpired.1).mono fun _ _ => Or.inl
  · exact .pure h

lemma sendTask_spec {msg : List Byte} {s : Local} (h : Down s.conn ∨ Serving cfg s.conn)
    (hF : k.modifySend.isSome = true → F.abrupt cfg s.conn.recvBuffer.content) :
    Does cfg k F (sendTask cfg k msg) s fun _ s' => Down s'.conn ∨ Serving cfg s'.conn := by
  dsimp only [sendTask, Platform.sendTask]
  refine .getConn_bind ?_
  split_ifs with hconn
  · have hs : Serving cfg s.conn := h.resolve_left fun hd => hd.not_connected hconn
    refine .modifyConn_bind (changes_bookkeeping hs.acting (.of_core rfl))
      (updateWriteInterest_spec (s := ⟨_, _⟩) ?_ hF)
    exact hs.bookkeeping hs.deferred (.of_core rfl)
  · exact .pure h

lemma continueParse_spec {s : Local} (h : Down s.conn ∨ (Live s.conn ∧ s.conn.parsed = 0)) :
    Does cfg k F (continueParse cfg) s fun _ s' => Down s'.conn ∨ Serving cfg s'.conn := by
  refine .getConn_bind ?_
  split_ifs with hconn
  · obtain ⟨hl, hp⟩ := h.resolve_left fun hd => hd.not_connected hconn
    refine Does.bind (parseInput_spec hl hp) fun r s' ⟨hdone, _⟩ => .pure ?_
    cases r with
    | closed => exact Or.inl hdone
    | done => exact Or.inr ⟨hdone.1, hdone.2.1, Or.inl hdone.2.2.2⟩
    | yielded => exact Or.inr ⟨hdone.1, hdone.2.1, Or.inr hdone.2.2.2⟩
  · exact .pure (Or.inl (h.resolve_right fun ⟨hl, _⟩ => hconn hl.connected))

/-- A connection on which a task can start; a parse continuation that was taken off the queue may
have been the one that the input waited for. -/
def Startable (cfg : Config) (t : Task) (c : Conn) : Prop :=
  Down c ∨ (Live c ∧ c.parsed = 0 ∧ (t = .parseContinuation ∨ Ready cfg c))

/-- A task makes only the listed changes and leaves the connection stable. -/
theorem taskBody_spec {t : Task} {s : Local} (hb : Begun t s.conn) (h : Startable cfg t s.conn)
    (hF : Covers cfg k F t s) :
    Does cfg k F (taskBody cfg k t) s fun _ s' => Stable cfg s'.conn := by
  have hstable : ∀ s' : Local, Down s'.conn ∨ Serving cfg s'.conn → Stable cfg s'.conn :=
    fun s' h' => h'.elim Or.inl Serving.stable
  have h' : t ≠ .parseContinuation → Down s.conn ∨ Serving cfg s.conn := fun ht =>
    h.imp_right fun ⟨hl, hp, hrd⟩ => ⟨hl, hp, hrd.resolve_left ht⟩
  cases t with
  | connectResolved call =>
    refine (connectResolved_spec hb (h' (by simp)) (fun fd => hF.opening call fd rfl) ?_).mono
      fun _ => hstable
    exact fun hs hfail => hF.stray hs hfail
  | resolveFailed desc call =>
    refine (hb.connectFailed desc (h' (by simp)) fun hs => ?_).mono fun _ _ => Or.inl
    exact hF.stray hs rfl
  | disconnect call =>
    exact (hb.startClose (h' (by simp)) fun _ => .user call hb.last).mono fun _ _ => Or.inl
  | send msg =>
    exact (sendTask_spec (h' (by simp)) fun hk => hF.abrupt _ (.send msg hk)).mono fun _ => hstable
  | pollEvent ev => exact (handlePollEvent_spec hb (h' (by simp)) hF.abrupt).mono fun _ => hstable
  | timerEvent ev => exact (handleTimerEvent_spec hb (h' (by simp))).mono fun _ => hstable
  | parseContinuation =>
    refine (continueParse_spec ?_).mono fun _ => hstable
    exact h.imp_right fun ⟨hl, hp, _⟩ => ⟨hl, hp⟩

end Connx
