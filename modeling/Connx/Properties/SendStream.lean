import Connx.Codec.Splitting
import Connx.Net.Refinement
import Connx.Net.Connection.Sending

/-!
# What is sent

`Settled` holds of every connection in every run. It follows that the kernel is given the payloads
of the `SendBuffer` tasks in order, with the counters in step, and that a connection with something
left to send is registered for writing.

The second result is about connections that no `ConnectResolved` disturbs while they are
established: such a task gives them another socket.
-/

namespace Connx

open Relation Resum

/-! ### Steps of one connection -/

section one

variable {cfg : Config} {i : Nat} {s s' : Local}

lemma Conn.SameWriting.post (c : Conn) {t : Task} (ht : t.HasValidId) :
    c.SameWriting (c.post t) := by
  unfold Conn.post
  split_ifs
  · refine .of_writing rfl rfl fun t' ht' => (List.mem_append.mp ht').imp_right fun h => ?_
    rwa [List.mem_singleton.mp h]
  · exact .of_eq rfl rfl rfl

/-- A connection sees nothing of what another one does. -/
lemma Settled.other {j : Nat} {c : Conn} (h : Settled j ⟨c, s.rt⟩) (hj : j ≠ i)
    (ha : Apart i s s') (hs' : Settled i s') : Settled j ⟨c, s'.rt⟩ where
  toBalanced := h.toBalanced
  nodup := hs'.nodup
  own hfd := (ha j c.fd hj (h.own hfd)).1
  handle := h.handle
  queue := h.queue
  polled hc hu := by
    obtain ⟨hid, hpoller⟩ := h.polled hc hu
    have hfd : isValidSocketHandle c.fd = true := h.handle.symm.trans hid
    exact ⟨hid, (ha j c.fd hj (h.own hfd)).2.trans hpoller⟩
  writable := h.writable

lemma Settled.connecting (h : Settled i s) (hidle : s.conn.state = .idle) (call : Nat) :
    Settled i { s with conn := { s.conn.note (.connectMoved call) with
      state := .connecting, connected := false } } :=
  .of_not_connected ⟨h.toBalanced.connecting hidle call, h.toHolding.of_eq rfl rfl rfl, h.queue⟩
    (by simp)

lemma Settled.release (h : Settled cfg.self s) :
    Settled cfg.self (closeRelease cfg s) ∧ Apart cfg.self s (closeRelease cfg s) := by
  unfold closeRelease
  split_ifs
  · exact ⟨h, .of_rt rfl⟩
  · exact (spares_settled cfg).close _ _ ⟨[], h.toInside⟩

variable (cfg) in
lemma Settled.drainClosing (h : Settled cfg.self s) :
    Settled cfg.self (drainClosing cfg s) ∧ Apart cfg.self s (drainClosing cfg s) := by
  rw [drainClosing_eq]
  exact (h.same (show s.conn.SameWriting s.conn.drainTaskQueue from
    .of_writing rfl rfl (by simp [Conn.drainTaskQueue]))).release

variable (cfg) in
lemma Settled.closeFromCallback (h : Settled cfg.self s) :
    Settled cfg.self (closeFromCallback cfg s) ∧ Apart cfg.self s (closeFromCallback cfg s) := by
  obtain ⟨hsettled, hapart⟩ :=
    (h.same (show s.conn.SameWriting s.conn.stopTasks from .of_eq rfl rfl rfl)).drainClosing cfg
  exact ⟨hsettled.same (.note _ (by simp) (by simp)), hapart⟩

/-- What is left of a task leaves the connection settled. -/
def Leaves (i : Nat) (rest : Suspended) : Prop :=
  ∀ s, Settled i s → Sat (fun _ => Settled i) (Apart i) (fun _ _ => Settled i)
    (fun _ => Settled i) s (rest s)

lemma settled_untilCallback {m : Resum Local Request Unit}
    (h : Sat (fun _ => Settled i) (Apart i) (fun _ _ => Settled i) (fun _ => Settled i) s m) :
    Settled i (untilCallback m).1 ∧ Apart i s (untilCallback m).1 ∧
      ∀ rest ∈ (untilCallback m).2, Leaves i rest := by
  induction m generalizing s with
  | ret a s' => exact ⟨h.2, h.1, by simp [untilCallback]⟩
  | call e s₁ rest ih =>
    obtain ⟨hapart, hsettled, hrest⟩ := h
    cases e with
    | callback cb =>
      refine ⟨hsettled, hapart, fun rest' hrest' => ?_⟩
      obtain rfl : rest = rest' := by simpa [untilCallback] using hrest'
      exact hrest
    | postContinuation =>
      let s₂ : Local := { s₁ with conn := s₁.conn.post .parseContinuation }
      have h₂ : Settled i s₂ := hsettled.same (.post _ trivial)
      obtain ⟨hsettled', hapart', hleaves⟩ := ih s₂ (hrest s₂ h₂)
      exact ⟨hsettled', trans_of (Apart i) hapart hapart', hleaves⟩

end one

/-! ### Runs -/

/-- Every connection is settled, and so is every suspended task; the poll thread posts events of
registrations only. -/
structure Sends (S : System) : Prop where
  settled : ∀ i, Settled i (S.loc i)
  leaves : ∀ i, ∀ rest ∈ (S.clients i).running, Leaves i rest
  acquired : ∀ p ∈ S.poll.acquired, p.2.HasValidId

namespace Sends

variable {cfgs : Nat → Config} {S S' : System} {i : Nat}

/-- A step of one client. -/
lemma client (h : Sends S) {s' : Local} (hs : Settled i s' ∧ Apart i (S.loc i) s')
    (hloc : S'.loc i = s') (hothers : ∀ j, j ≠ i → S'.clients j = S.clients j)
    (hleaves : ∀ rest ∈ (S'.clients i).running, Leaves i rest)
    (hacquired : ∀ p ∈ S'.poll.acquired, p.2.HasValidId) : Sends S' := by
  have hrt : S'.rt = s'.rt := congrArg Local.rt hloc
  refine ⟨fun j => ?_, fun j => ?_, hacquired⟩
  · by_cases hj : j = i
    · subst hj
      rw [hloc]
      exact hs.1
    · have hj' := (h.settled j).other hj hs.2 hs.1
      rwa [System.loc, hothers j hj, hrt]
  · by_cases hj : j = i
    · subst hj
      exact hleaves
    · rw [hothers j hj]
      exact h.leaves j

/-- A step that leaves the task of the client alone. -/
lemma setClient (h : Sends S) {c : Client} {n : Nat} (hc : Settled i ⟨c.conn, S.rt⟩)
    (hrun : c.running = (S.clients i).running) :
    Sends { S.setClient i c with calls := n } := by
  refine h.client (i := i) ⟨hc, .of_rt rfl⟩ ?_ ?_ ?_ h.acquired
  · simp [System.loc, System.setClient]
  · intro j hj
    simp [System.setClient, hj]
  · simp only [System.setClient, Function.update_self, hrun]
    exact h.leaves i

lemma setConn (h : Sends S) {c' : Conn} (hc : (S.clients i).conn.SameWriting c') :
    Sends (S.setConn i c') :=
  h.setClient (n := S.calls) ((h.settled i).same hc) rfl

lemma land (h : Sends S) {r : Local × Option Suspended}
    (hr : Settled i r.1 ∧ Apart i (S.loc i) r.1) (hleaves : ∀ rest ∈ r.2, Leaves i rest) :
    Sends (S.land i r) := by
  refine h.client (i := i) hr ?_ ?_ ?_ h.acquired
  · simp [System.loc, System.land, System.setClient]
  · intro j hj
    simp [System.land, System.setClient, hj]
  · simpa [System.land, System.setClient] using hleaves

/-- A task starts. -/
lemma drain (h : Sends S) {k : Kernel} {t : Task} {rest : List Task}
    (hq : (S.clients i).conn.queue = t :: rest) (hfits : k.fits S.rt = true) :
    Sends (S.land i (untilCallback
      (taskBody (cfgOf cfgs i) k t ⟨(S.clients i).conn.start t rest, S.rt⟩))) := by
  have hi := h.settled i
  let c := (S.clients i).conn
  have hran : ranInPeriod (c.start t rest).trace = ranInPeriod c.trace ++ [t] :=
    ranInPeriod_ran _ _
  have hundisturbed : Undisturbed (c.start t rest) → Undisturbed c := by
    intro hu call hmem
    exact hu call (by rw [hran]; exact List.mem_append_left _ hmem)
  have hbalanced : Balanced t.payload (c.start t rest) := by
    refine ⟨hi.connected, fun hs => ?_, hi.idle, hi.pending, hi.counted, hi.inBounds⟩
    have hstream : acceptedBytes c.output ++ c.sendBuffer.content = payloads c.trace := by
      have hstream := hi.stream hs
      rwa [List.append_nil] at hstream
    rw [payloads, hran, List.flatMap_append, ← payloads, ← hstream]
    simp [Conn.start, Conn.note]
  have hinside : Inside t.payload i ⟨c.start t rest, S.rt⟩ := by
    refine ⟨hbalanced, hi.toHolding.of_eq rfl rfl rfl, fun t' ht' => hi.queue t' ?_⟩
    change t' ∈ (S.clients i).conn.queue
    rw [hq]
    exact List.mem_cons_of_mem _ ht'
  have htask := taskBody_settles (cfgOf cfgs i) (k := k)
    (s := ⟨c.start t rest, S.rt⟩) hinside (fun hs hu => hi.polled hs (hundisturbed hu))
    (fun hs hu => hi.writable hs (hundisturbed hu)) (hi.queue t ?_) ?_ ?_
  · obtain ⟨hsettled, hapart, hleaves⟩ := settled_untilCallback htask
    exact h.land ⟨hsettled, hapart⟩ hleaves
  · change t ∈ (S.clients i).conn.queue
    rw [hq]
    exact List.mem_cons_self
  · rintro call rfl hu
    exact hu call (by rw [hran]; simp)
  · intro fd hopen
    simpa [Kernel.fits, hopen] using hfits

lemma pollStep (h : Sends S) {l : Label} (hstep : S.pollStep l = some S') : Sends S' := by
  -- the poll thread reads the table and the timers, and posts
  have hpoll : ∀ (p : PollThread) (timers : TimerQueue),
      (∀ q ∈ p.acquired, q.2.HasValidId) →
      Sends { S with poll := p, rt := { S.rt with timers := timers } } := by
    intro p timers hp
    refine ⟨fun j => ?_, h.leaves, hp⟩
    have hj := h.settled j
    exact ⟨⟨hj.toBalanced, ⟨hj.nodup, hj.own, hj.handle⟩, hj.queue⟩, hj.polled, hj.writable⟩
  cases l with
  | pollWait events =>
    simp only [System.pollStep] at hstep
    split_ifs at hstep with hidle
    obtain rfl := Option.some_inj.mp hstep
    exact hpoll _ S.rt.timers h.acquired
  | acquireEvent =>
    simp only [System.pollStep] at hstep
    split at hstep
    · next ev rest hacq hevents =>
      obtain rfl := Option.some_inj.mp hstep
      refine hpoll _ S.rt.timers fun q hq => ?_
      obtain ⟨j, hj, rfl⟩ := Option.mem_map.mp hq
      exact ConnectionTable.valid_of_acquire hj
    · simp at hstep
  | popExpired nowMs =>
    simp only [System.pollStep] at hstep
    split_ifs at hstep with hidle
    obtain rfl := Option.some_inj.mp hstep
    exact hpoll _ _ h.acquired
  | acquireTimer =>
    simp only [System.pollStep] at hstep
    split at hstep
    · next ev rest hacq htimers =>
      obtain rfl := Option.some_inj.mp hstep
      refine hpoll _ S.rt.timers fun q hq => ?_
      obtain ⟨j, hj, rfl⟩ := Option.mem_map.mp hq
      trivial
    · simp at hstep
  | postAcquired =>
    simp only [System.pollStep] at hstep
    split at hstep
    · next j t hacq =>
      obtain rfl := Option.some_inj.mp hstep
      have hpost := h.setConn (i := j) (.post _ (h.acquired (j, t) hacq))
      exact ⟨hpost.settled, hpost.leaves, by simp⟩
    · simp at hstep
  | _ => simp [System.pollStep] at hstep

theorem step (h : Sends S) {l : Label} (hstep : S.step cfgs l = some S') : Sends S' := by
  have hpost : ∀ {i : Nat} {t : Task} {c : Client} {n : Nat}, t.HasValidId →
      c.conn = (S.clients i).conn.post t → c.running = (S.clients i).running →
      Sends { S.setClient i c with calls := n } := by
    intro i t c n ht hconn hrun
    refine h.setClient ?_ hrun
    rw [hconn]
    exact (h.settled i).same (.post _ ht)
  cases l with
  | connectBegin i =>
    obtain rfl := Option.some_inj.mp hstep
    exact h.setClient ((h.settled i).same (.note _ (by simp) (by simp))) rfl
  | connectMove i call =>
    simp only [System.step, System.connectMove] at hstep
    split_ifs at hstep with hcall hidle
    · obtain rfl := Option.some_inj.mp hstep
      exact h.setClient (n := S.calls) ((h.settled i).connecting hidle call) rfl
    · obtain rfl := Option.some_inj.mp hstep
      exact h.setClient (n := S.calls) (h.settled i) rfl
  | connectPost i call error =>
    simp only [System.step, System.connectPost] at hstep
    split_ifs at hstep
    obtain rfl := Option.some_inj.mp hstep
    refine hpost (n := S.calls) (t := System.resolvedTask call error) ?_ rfl rfl
    cases error <;> trivial
  | disconnectPost i =>
    obtain rfl := Option.some_inj.mp hstep
    exact hpost (t := .disconnect S.calls) trivial rfl rfl
  | disconnectReturn i call =>
    simp only [System.step] at hstep
    split_ifs at hstep
    obtain rfl := Option.some_inj.mp hstep
    exact h.setClient (n := S.calls) ((h.settled i).same (.note _ (by simp) (by simp))) rfl
  | sendCheck i msg =>
    simp only [System.step] at hstep
    split_ifs at hstep
    obtain rfl := Option.some_inj.mp hstep
    exact h.setClient (n := S.calls) (h.settled i) rfl
  | sendPost i msg =>
    simp only [System.step] at hstep
    split_ifs at hstep
    obtain rfl := Option.some_inj.mp hstep
    exact hpost (n := S.calls) (t := .send msg) trivial rfl rfl
  | ownerClosing i =>
    simp only [System.step] at hstep
    split_ifs at hstep
    obtain rfl := Option.some_inj.mp hstep
    exact h.setConn (.of_eq rfl rfl rfl)
  | stopAccepting i =>
    simp only [System.step] at hstep
    split_ifs at hstep
    obtain rfl := Option.some_inj.mp hstep
    exact h.setConn (.of_eq rfl rfl rfl)
  | ownerReturn i =>
    simp only [System.step] at hstep
    split_ifs at hstep
    obtain rfl := Option.some_inj.mp hstep
    exact h.setConn (.note _ (by simp) (by simp))
  | releaseInCallback i =>
    simp only [System.step] at hstep
    split_ifs at hstep
    obtain rfl := Option.some_inj.mp hstep
    exact h.land (Settled.closeFromCallback (cfgOf cfgs i) (h.settled i)) (h.leaves i)
  | drain i k =>
    obtain ⟨-, ⟨-, rfl⟩ | ⟨t, rest, hq, -, hfits, rfl⟩⟩ := drainStep_cases hstep
    · exact h.land (Settled.drainClosing (cfgOf cfgs i) (h.settled i)) (by simp)
    · exact h.drain hq hfits
  | resume i =>
    simp only [System.step] at hstep
    split at hstep
    · next rest hrun =>
      obtain rfl := Option.some_inj.mp hstep
      obtain ⟨hsettled, hapart, hleaves⟩ :=
        settled_untilCallback (h.leaves i rest hrun (S.loc i) (h.settled i))
      exact h.land ⟨hsettled, hapart⟩ hleaves
    · simp at hstep
  | pollWait events => exact h.pollStep (l := .pollWait events) hstep
  | acquireEvent => exact h.pollStep (l := .acquireEvent) hstep
  | popExpired nowMs => exact h.pollStep (l := .popExpired nowMs) hstep
  | acquireTimer => exact h.pollStep (l := .acquireTimer) hstep
  | postAcquired => exact h.pollStep (l := .postAcquired) hstep

lemma init : Sends {} where
  settled i := by
    refine .of_not_connected ⟨⟨by simp [System.loc], by simp [System.loc], fun _ => ⟨rfl, rfl⟩, rfl,
      rfl, by simp [System.loc]⟩, ⟨List.nodup_nil, ?_, rfl⟩, by simp [System.loc]⟩
      (by simp [System.loc])
    intro hfd
    simp [System.loc, isValidSocketHandle] at hfd
  leaves i := by simp
  acquired := by simp

end Sends

lemma sends_of_exec {cfgs : Nat → Config} {ls : List Label} {S : System}
    (hexec : Run.exec (System.step cfgs) {} ls = some S) : Sends S :=
  Run.exec_invariant (fun _ _ => True) (fun _ _ _ h _ hstep => h.step hstep) hexec
    (Run.meets_of_forall (fun _ _ => trivial) _ _) Sends.init

/-! ### The stream -/

/-- The stream of a connected period and the counters. -/
structure SendStream (c : Conn) : Prop where
  stream : c.connected = true →
    acceptedBytes c.output ++ c.sendBuffer.content = payloads c.trace
  pending : c.pendingBytes = c.sendBuffer.getBufferLength ∧
    c.sendBuffer.getBufferLength = c.sendBuffer.content.length
  counted : c.bytesSent = (allAccepted c.output).length
  inBounds : ∀ bytes pending length, .accepted bytes pending length ∈ c.output →
    bytes.length ≤ pending ∧ bytes.length ≤ length
  closed : c.connected = false → c.sendBuffer.isEmpty = true ∧ c.pendingBytes = 0

/-- In every run, whatever the kernel answers to a send: it was given the payloads of the tasks in
order, the rest of them is in the buffer, and the counters say so. -/
theorem sendStream_of_exec (cfgs : Nat → Config) (ls : List Label) {S : System}
    (hexec : Run.exec (System.step cfgs) {} ls = some S) (i : Nat) :
    SendStream (S.clients i).conn := by
  have hi := (sends_of_exec hexec).settled i
  have hlength : (S.clients i).conn.sendBuffer.getBufferLength =
      (S.clients i).conn.sendBuffer.content.length := ByteBuffer.getBufferLength_eq _
  refine ⟨fun hc => ?_, ⟨hi.pending.trans hlength.symm, hlength⟩, hi.counted, ?_, fun hc => ?_⟩
  · have hstream := hi.stream (hi.connected.mp hc)
    rwa [List.append_nil] at hstream
  · exact fun bytes pending length hmem => hi.inBounds _ hmem
  · have hdown : (S.clients i).conn.state ≠ .connected := fun hs => by
      have hup : (S.clients i).conn.connected = true := hi.connected.mpr hs
      simp [hc] at hup
    have hempty : (S.clients i).conn.sendBuffer.content = [] := (hi.idle hdown).2
    refine ⟨(ByteBuffer.isEmpty_iff _).mpr hempty, hi.pending.trans ?_⟩
    exact List.length_eq_zero_iff.mpr hempty

/-- Two messages, of which the kernel takes two pieces. -/
def partialSends : List Label :=
  [.connectBegin 0, .connectMove 0 0, .connectPost 0 0 none,
    .drain 0 { openSocket := .opened 3, connect := .done }, .resume 0,
    .sendCheck 0 [1, 2, 3], .sendPost 0 [1, 2, 3], .drain 0 {},
    .sendCheck 0 [4, 5], .sendPost 0 [4, 5], .drain 0 {},
    .pollWait [{ id := ⟨0, 1⟩, writable := true, reg := 0 }], .acquireEvent, .postAcquired,
    .drain 0 { send := [.sent 2, .eintr, .sent 9, .eagain] }]

theorem sendStream_partialSends :
    ∃ S, Run.exec (System.step (FixedLengthCodec.new 1).clients) {} partialSends = some S ∧
      acceptedBytes (S.clients 0).conn.output = [1, 2, 3] ∧
      (S.clients 0).conn.sendBuffer.content = [4, 5] ∧ SendStream (S.clients 0).conn := by
  have hrun : (Run.exec (System.step (FixedLengthCodec.new 1).clients) {} partialSends).map
      (fun S => (acceptedBytes (S.clients 0).conn.output, (S.clients 0).conn.sendBuffer.content)) =
        some ([1, 2, 3], [4, 5]) := by
    decide +kernel
  obtain ⟨S, hS, heq⟩ := Option.map_eq_some_iff.mp hrun
  obtain ⟨haccepted, hcontent⟩ := Prod.ext_iff.mp heq
  exact ⟨S, hS, haccepted, hcontent, sendStream_of_exec _ partialSends hS 0⟩

/-! ### The interest in writing -/

lemma state_startClose {cfg : Config} {s : Local} (h : s.conn.Active) (reason : CloseReason)
    (desc : ErrorText) : (untilCallback (startClose cfg reason desc s)).1.conn.state = .idle := by
  rw [startClose_active h]
  unfold noteClose
  split_ifs <;> simp [untilCallback, closeConn_conn, Conn.note]

/-- Where a call of the poller fails, the connection is closed. -/
structure ClosesOnFailure (cfg : Config) : Prop where
  add : ∀ (k : Kernel) (s : Local) (fd e : Int), s.conn.state = .connecting →
    k.openSocket = .opened fd → (∀ code, k.connect ≠ .failed code) → k.pollerAdd = some e →
    (untilCallback (connectResolved cfg k s)).1.conn.state = .idle
  modifyConnected : ∀ (k : Kernel) (s : Local) (e : Int), s.conn.state = .connecting →
    k.modifyConnected = some e →
    (untilCallback (handleConnected cfg k s)).1.conn.state = .idle
  modifySend : ∀ (k : Kernel) (s : Local) (e : Int), s.conn.state = .connected →
    s.conn.id.valid = true → isValidSocketHandle s.conn.fd = true →
    s.conn.pollInterest ≠ { readable := true, writable := !s.conn.sendBuffer.isEmpty } →
    k.modifySend = some e →
    (untilCallback (updateWriteInterest cfg k s)).1.conn.state = .idle

lemma closesOnFailure (cfg : Config) : ClosesOnFailure cfg where
  add k s fd e hs hopen hconnect hadd := by
    let s₁ := startConnectTimer cfg k (adoptSocket cfg fd s)
    have hstate : s₁.conn.state = .connecting := (adopt_runtime cfg k fd s).2.2.2.2.trans hs
    have heq : ∃ c : Conn, c.state = .connecting ∧
        connectResolved cfg k s = startClose cfg .connectFailed (.errno e) ⟨c, s₁.rt⟩ := by
      cases hk : k.connect with
      | done =>
        refine ⟨{ s₁.conn with pollInterest := { readable := true } }, hstate, ?_⟩
        simp [connectResolved, platformConnect, registerInterest, modifyConn, hopen, hk, hadd, s₁]
      | inProgress =>
        refine ⟨{ s₁.conn with pollInterest := { readable := true, writable := true } }, hstate, ?_⟩
        simp [connectResolved, platformConnect, registerInterest, modifyConn, hopen, hk, hadd, s₁]
      | failed code => exact absurd hk (hconnect code)
    obtain ⟨c, hc, heq⟩ := heq
    rw [heq]
    exact state_startClose (Or.inl hc) _ _
  modifyConnected k s e hs hmodify := by
    have heq : handleConnected cfg k s = startClose cfg .connectFailed (.errno e)
        { s with conn := { s.conn with
          connectDeadlineMs := 0, pollInterest := { readable := true } } } := by
      simp [handleConnected, Platform.handleConnected, platformAfterConnected, getConn, modifyConn,
        startClose, hs, hmodify]
    rw [heq]
    exact state_startClose (by exact Or.inl hs) _ _
  modifySend k s e hs hid hfd hne hmodify := by
    have heq : updateWriteInterest cfg k s = startClose cfg .error (.errno e) s := by
      simp [updateWriteInterest, Platform.updateWriteInterest, platformStartSend, getConn, hid, hfd,
        hne.symm, hmodify, startClose]
    rw [heq]
    exact state_startClose (Or.inr hs) _ _

/-- In every run: as long as no `ConnectResolved` disturbs an established connection, the poller has
its cached interest under its id, and this includes writing if anything is left to send. A failing
call of the poller closes the connection. -/
theorem registered_of_exec (cfgs : Nat → Config) (ls : List Label) {S : System}
    (hexec : Run.exec (System.step cfgs) {} ls = some S) (i : Nat) :
    ClosesOnFailure (cfgOf cfgs i) ∧
      ((S.clients i).conn.state = .connected → Undisturbed (S.clients i).conn →
        ∃ interest, S.rt.poller (S.clients i).conn.fd = some ((S.clients i).conn.id, interest) ∧
          (S.clients i).conn.pollInterest = interest ∧
          ((S.clients i).conn.sendBuffer.isEmpty = false → interest.writable = true)) := by
  have hi := (sends_of_exec hexec).settled i
  refine ⟨closesOnFailure _, fun hc hu => ⟨_, (hi.polled hc hu).2, rfl, fun hne => ?_⟩⟩
  refine hi.writable hc hu fun hempty => Bool.false_ne_true ?_
  exact hne.symm.trans ((ByteBuffer.isEmpty_iff _).mpr hempty)

theorem registered_partialSends :
    ∃ S, Run.exec (System.step (FixedLengthCodec.new 1).clients) {} partialSends = some S ∧
      (S.clients 0).conn.sendBuffer.isEmpty = false ∧
      ∃ interest, S.rt.poller (S.clients 0).conn.fd = some ((S.clients 0).conn.id, interest) ∧
        (S.clients 0).conn.pollInterest = interest ∧ interest.writable = true := by
  have hrun : (Run.exec (System.step (FixedLengthCodec.new 1).clients) {} partialSends).map
      (fun S => ((S.clients 0).conn.state, ranInPeriod (S.clients 0).conn.trace,
        (S.clients 0).conn.sendBuffer.isEmpty)) =
        some (.connected, [.send [1, 2, 3], .send [4, 5],
          .pollEvent { id := ⟨0, 1⟩, writable := true, reg := 0 }], false) := by
    decide +kernel
  obtain ⟨S, hS, heq⟩ := Option.map_eq_some_iff.mp hrun
  simp only [Prod.mk.injEq] at heq
  obtain ⟨hstate, hran, hempty⟩ := heq
  have hundisturbed : Undisturbed (S.clients 0).conn := by
    intro call
    simp [hran]
  obtain ⟨interest, hpoller, hcached, hwritable⟩ :=
    (registered_of_exec _ partialSends hS 0).2 hstate hundisturbed
  exact ⟨S, hS, hempty, interest, hpoller, hcached, hwritable hempty⟩

end Connx
