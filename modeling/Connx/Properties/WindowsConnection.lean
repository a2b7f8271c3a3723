import Connx.Net.Windows.Progress

/-!
# Connections on Windows

Over every run of a connection with the poll thread, the system, the application's threads and other
connections: one receive and one send at a time, nothing lost or doubled in either direction, no
connection that is left without an operation to wake it, and nothing that stays unsent for ever.
-/

namespace Connx.Windows

/-- The number of operations of a kind that are under way for the connection. -/
def World.underWay (w : World) (kind : PollOperation) : Nat :=
  inFlight w.service.started w.landed kind w.conn.id

/-! ### Operations -/

/-- In every run a connection has at most one receive and one send under way, from the call that
starts it to the task that handles its completion. As long as tasks are accepted, `recv_pending_`
and `send_pending_` say whether there is one. No connection is closed for an invalid completion. -/
theorem operations_of_exec (cfg : Config) (ls : List Label) {S : System}
    (hexec : Run.exec (System.step cfg) {} ls = some S)
    (hok : Run.Meets (System.step cfg) Ok {} ls) :
    S.world.underWay .recv ≤ 1 ∧ S.world.underWay .send ≤ 1 ∧
    (S.world.conn.acceptingTasks = true →
      (S.world.conn.recvPending = true ↔ S.world.underWay .recv = 1) ∧
      (S.world.conn.sendPending = true ↔ S.world.underWay .send = 1)) ∧
    ∀ p ∈ S.world.conn.closes, p.2 ≠ .invalidRecvCompletion ∧ p.2 ≠ .invalidSendCompletion := by
  have hinv := (systemInv_of_exec hexec hok).inv
  refine ⟨hinv.recv.le_one, hinv.send.le_one, fun haccept => ?_, hinv.closes⟩
  exact ⟨hinv.recv.pending_iff haccept, hinv.send.pending_iff haccept⟩

/-- Clients whose messages are single bytes, with a receive buffer of four. -/
def fourByteCache : Config where
  self := 0
  codec := fun _ x => if x = [] then (.needMoreData, 0) else (.success, 1)
  recvCacheSize := 4

/-- A connection is made, three bytes are to be sent and the system takes two of them, one byte is
received; another connection receives at the same time. -/
def exchange : List Label :=
  [.connectMove, .post .connectResolved, .drain { openSocket := .ok 5, id := ⟨1, 1⟩ },
    .complete ⟨⟨1, 1⟩, .connect, []⟩ { bytes := 0 }, .wait, .acquire, .postAcquired, .drain {},
    .resume, .post (.send [1, 2, 3]), .drain {}, .foreign ⟨⟨2, 1⟩, .recv, [0]⟩,
    .complete ⟨⟨1, 1⟩, .send, [1, 2, 3]⟩ { bytes := 2 },
    .complete ⟨⟨2, 1⟩, .recv, [0]⟩ { bytes := 1, received := [9] },
    .complete ⟨⟨1, 1⟩, .recv, [0, 0, 0, 0]⟩ { bytes := 1, received := [7] }, .wake, .wait,
    .acquire, .postAcquired, .drain {}, .acquire, .acquire, .postAcquired, .drain {}, .resume]

theorem operations_exchange :
    ∃ S, Run.exec (System.step fourByteCache) {} exchange = some S ∧
      S.world.conn.recvPending = true ∧ S.world.conn.sendPending = true ∧
      S.world.underWay .recv = 1 ∧ S.world.underWay .send = 1 := by
  have hrun : (Run.exec (System.step fourByteCache) {} exchange).map (fun S =>
      (S.world.conn.acceptingTasks, S.world.conn.recvPending, S.world.conn.sendPending)) =
      some (true, true, true) := by decide +kernel
  obtain ⟨S, hS, hfields⟩ := Option.map_eq_some_iff.mp hrun
  simp only [Prod.mk.injEq] at hfields
  obtain ⟨haccept, hrecv, hsend⟩ := hfields
  have hcheck : Run.check (System.step fourByteCache) (fun S l => decide (Ok S l)) {} exchange =
      true := by decide +kernel
  obtain ⟨-, -, hpending, -⟩ := operations_of_exec fourByteCache exchange hS
    ((Run.meets_of_check _ hcheck).mono fun _ _ h => of_decide_eq_true h)
  obtain ⟨hrecv', hsend'⟩ := hpending haccept
  exact ⟨S, hS, hrecv, hsend, hrecv'.mp hrecv, hsend'.mp hsend⟩

/-! ### Streams -/

/-- The input of a connection that has seen all that the system has received. -/
lemma Inv.received_eq {w : World} (h : Inv w) (hconn : w.conn.connected = true)
    (haccept : w.conn.acceptingTasks = true)
    (hlanded : ∀ ev ∈ w.landed, ev.operation = .recv → ev.id ≠ w.conn.id) :
    w.received w.conn.id = w.delivered w.conn.id ++ w.conn.input := by
  have hreceiving := h.input (h.up hconn).valid
  cases hpending : w.conn.recvPending with
  | false => exact hreceiving.rest hpending
  | true =>
    obtain ⟨op, hop, hkind, hid⟩ := h.recv.started_of_not_landed haccept hpending hlanded
    exact hreceiving.started op hop hkind hid

/-- In every run, under every id the connection had, what the system has taken to send is a prefix
of what was given to the connection to send, however the sends were cut and whatever was closed in
between. `pending_bytes_` is what is left in the buffer; and while no completion of a send is on its
way, what was given is what was taken and what is left. -/
theorem sent_of_exec (cfg : Config) (ls : List Label) {S : System}
    (hexec : Run.exec (System.step cfg) {} ls = some S)
    (hok : Run.Meets (System.step cfg) Ok {} ls) :
    (∀ id ∈ S.world.ids, S.world.sent id <+: S.world.given id) ∧
    S.world.conn.pendingBytes = S.world.conn.sendBuffer.content.length ∧
    (S.world.conn.connected = true → S.world.conn.acceptingTasks = true →
      (∀ ev ∈ S.world.landed, ev.operation = .send → ev.id ≠ S.world.conn.id) →
        S.world.given S.world.conn.id =
          S.world.sent S.world.conn.id ++ S.world.conn.sendBuffer.content) := by
  have hinv := (systemInv_of_exec hexec hok).inv
  exact ⟨hinv.wire.sent, hinv.output.pendingBytes, hinv.given_eq⟩

theorem sent_exchange :
    ∃ S, Run.exec (System.step fourByteCache) {} exchange = some S ∧
      S.world.sent ⟨1, 1⟩ = [1, 2] ∧ S.world.sent ⟨1, 1⟩ <+: S.world.given ⟨1, 1⟩ ∧
      S.world.conn.pendingBytes = S.world.conn.sendBuffer.content.length := by
  have hrun : (Run.exec (System.step fourByteCache) {} exchange).map (fun S =>
      (S.world.ids, S.world.sent ⟨1, 1⟩)) = some ([⟨1, 1⟩], [1, 2]) := by decide +kernel
  obtain ⟨S, hS, hfields⟩ := Option.map_eq_some_iff.mp hrun
  simp only [Prod.mk.injEq] at hfields
  obtain ⟨hids, hsent⟩ := hfields
  have hcheck : Run.check (System.step fourByteCache) (fun S l => decide (Ok S l)) {} exchange =
      true := by decide +kernel
  obtain ⟨hfront, hpending, -⟩ := sent_of_exec fourByteCache exchange hS
    ((Run.meets_of_check _ hcheck).mono fun _ _ h => of_decide_eq_true h)
  exact ⟨S, hS, hsent, hfront _ (by simp [hids]), hpending⟩

/-- In every run, under every id the connection had, the bytes of the messages the handler was given
are a prefix of what the system has received, however the receives were cut and whatever was closed
in between; and while no completion of a receive is on its way, what was received is what the
handler was given and what waits in the buffer. -/
theorem delivered_of_exec (cfg : Config) (ls : List Label) {S : System}
    (hexec : Run.exec (System.step cfg) {} ls = some S)
    (hok : Run.Meets (System.step cfg) Ok {} ls) :
    (∀ id ∈ S.world.ids, S.world.delivered id <+: S.world.received id) ∧
    (S.world.conn.connected = true → S.world.conn.acceptingTasks = true →
      (∀ ev ∈ S.world.landed, ev.operation = .recv → ev.id ≠ S.world.conn.id) →
        S.world.received S.world.conn.id =
          S.world.delivered S.world.conn.id ++ S.world.conn.input) := by
  have hinv := (systemInv_of_exec hexec hok).inv
  exact ⟨hinv.wire.delivered, hinv.received_eq⟩

theorem delivered_exchange :
    ∃ S, Run.exec (System.step fourByteCache) {} exchange = some S ∧
      S.world.delivered ⟨1, 1⟩ = [7] ∧ S.world.delivered ⟨1, 1⟩ <+: S.world.received ⟨1, 1⟩ := by
  have hrun : (Run.exec (System.step fourByteCache) {} exchange).map (fun S =>
      (S.world.ids, S.world.delivered ⟨1, 1⟩)) = some ([⟨1, 1⟩], [7]) := by decide +kernel
  obtain ⟨S, hS, hfields⟩ := Option.map_eq_some_iff.mp hrun
  simp only [Prod.mk.injEq] at hfields
  obtain ⟨hids, hdelivered⟩ := hfields
  have hcheck : Run.check (System.step fourByteCache) (fun S l => decide (Ok S l)) {} exchange =
      true := by decide +kernel
  obtain ⟨hfront, -⟩ := delivered_of_exec fourByteCache exchange hS
    ((Run.meets_of_check _ hcheck).mono fun _ _ h => of_decide_eq_true h)
  exact ⟨S, hS, hdelivered, hfront _ (by simp [hids])⟩

/-! ### No connection is left alone -/

/-- In every run, between two tasks, an established connection that accepts tasks has a receive
under way, or it has come to the end of the stream and the task that will parse the rest is in the
queue; and as long as there is something to send, a send is under way. -/
theorem attended_of_exec (cfg : Config) (ls : List Label) {S : System}
    (hexec : Run.exec (System.step cfg) {} ls = some S)
    (hok : Run.Meets (System.step cfg) Ok {} ls) (hresting : S.running = none)
    (hconn : S.world.conn.connected = true) (haccept : S.world.conn.acceptingTasks = true) :
    (S.world.underWay .recv = 1 ∨
      S.world.conn.deferredClosePending = true ∧ .parseContinuation ∈ S.world.conn.queue) ∧
    (S.world.conn.sendBuffer.content ≠ [] → S.world.underWay .send = 1) := by
  have hsys := systemInv_of_exec hexec hok
  refine ⟨?_, fun hne => (hsys.inv.send.pending_iff haccept).mp (hsys.inv.pushed hne)⟩
  rcases (hsys.resting hresting).listening hconn with hrecv | ⟨hdeferred, hcontinue⟩
  · exact Or.inl ((hsys.inv.recv.pending_iff haccept).mp hrecv)
  · exact Or.inr ⟨hdeferred, hsys.inv.continuation hcontinue haccept⟩

theorem attended_exchange :
    ∃ S, Run.exec (System.step fourByteCache) {} exchange = some S ∧
      S.world.conn.sendBuffer.content = [3] ∧ S.world.underWay .send = 1 := by
  have hrun : (Run.exec (System.step fourByteCache) {} exchange).map (fun S =>
      (S.running.isNone, S.world.conn.connected, S.world.conn.acceptingTasks,
        S.world.conn.sendBuffer.content)) = some (true, true, true, [3]) := by decide +kernel
  obtain ⟨S, hS, hfields⟩ := Option.map_eq_some_iff.mp hrun
  simp only [Prod.mk.injEq] at hfields
  obtain ⟨hnone, hconn, haccept, hcontent⟩ := hfields
  have hcheck : Run.check (System.step fourByteCache) (fun S l => decide (Ok S l)) {} exchange =
      true := by decide +kernel
  obtain ⟨-, hsend⟩ := attended_of_exec fourByteCache exchange hS
    ((Run.meets_of_check _ hcheck).mono fun _ _ h => of_decide_eq_true h)
    (Option.isNone_iff_eq_none.mp hnone) hconn haccept
  exact ⟨S, hS, hcontent, hsend (by simp [hcontent])⟩

/-! ### Everything is sent -/

/-- In every infinite run in which the poll thread takes its turns, the worker drains the connection
as long as there is a task, and the system completes every send with at least one byte or an error:
what was given to a connection to send is taken by the system in the end, however the sends are cut
and whatever else happens, unless the connection is closed or released before. -/
theorem sends_of_fair (cfg : Config) (r : Run.Forever (System.step cfg) {})
    (hworks : ∀ n, Working (r.state n) (r.label n))
    (hpoll : r.Fair (fun _ => True) (·.ofPollThread = true))
    (hworker : r.Fair (fun S => S.world.conn.queue ≠ [] ∨ S.running.isSome = true)
      (·.ofWorker = true))
    (hsystem : ∀ op : Poll.Operation, op.kind = .send →
      r.Fair (op ∈ ·.world.service.started) (·.completes op = true))
    (id : ConnectionId) (n : Nat) :
    ∃ m, n ≤ m ∧ (Alive id (r.state m).world →
      (r.state n).world.given id <+: (r.state m).world.sent id) := by
  have hok : ∀ n, Ok (r.state n) (r.label n) := fun n => (hworks n).ok
  suffices hrounds : ∀ left k, n ≤ k →
      ((r.state n).world.given id).length - ((r.state k).world.sent id).length ≤ left →
        ∃ m, n ≤ m ∧ (Alive id (r.state m).world →
          (r.state n).world.given id <+: (r.state m).world.sent id) from
    hrounds _ n le_rfl le_rfl
  intro left
  induction left with
  | zero =>
    intro k hk hleft
    refine ⟨k, hk, fun halive => ?_⟩
    have hinv := (systemInv_forever hok k).inv
    have hown : id ∈ (r.state k).world.ids := by
      rw [← halive.current]
      exact hinv.known.own (hinv.up halive.connected).valid
    -- both are prefixes of what has been given by now
    exact List.prefix_of_prefix_length_le (given_forever hok hk) (hinv.wire.sent id hown)
      (by omega)
  | succ left ih =>
    intro k hk hleft
    by_cases halive : Alive id (r.state k).world
    swap
    · exact ⟨k, hk, fun htrue => absurd htrue halive⟩
    rcases Nat.lt_or_ge ((r.state k).world.sent id).length
      ((r.state n).world.given id).length with hless | hall
    · have hgiven : ((r.state n).world.given id).length ≤ ((r.state k).world.given id).length :=
        (given_forever hok hk).length_le
      obtain ⟨m, hm, hmore⟩ := sends_more hworks hpoll hworker hsystem halive
        (hless.trans_le hgiven)
      by_cases halive' : Alive id (r.state m).world
      · exact ih m (hk.trans hm) (by have := hmore halive'; omega)
      · exact ⟨m, hk.trans hm, fun htrue => absurd htrue halive'⟩
    · exact ih k hk (by omega)

/-- The exchange goes on until everything is sent. -/
def wholeExchange : List Label :=
  exchange ++ [.complete ⟨⟨1, 1⟩, .send, [3]⟩ { bytes := 1 }, .wait, .acquire, .postAcquired,
    .drain {}]

theorem sends_wholeExchange :
    ∃ r : Run.Forever (System.step fourByteCache) {},
      Alive ⟨1, 1⟩ (r.state 25).world ∧ (r.state 25).world.sent ⟨1, 1⟩ = [1, 2] ∧
      ∃ m, 25 ≤ m ∧ (Alive ⟨1, 1⟩ (r.state m).world →
        [1, 2, 3] <+: (r.state m).world.sent ⟨1, 1⟩) := by
  have hend : (Run.exec (System.step fourByteCache) {} wholeExchange).map (fun S =>
      (S.world.events.isEmpty, S.world.acquired.isNone, S.world.service.done.isEmpty,
        S.world.conn.queue.isEmpty, S.running.isNone,
        S.world.service.started.countP (·.kind = .send))) =
      some (true, true, true, true, true, 0) := by decide +kernel
  obtain ⟨S, hS, hfields⟩ := Option.map_eq_some_iff.mp hend
  simp only [Prod.mk.injEq, List.isEmpty_iff, Option.isNone_iff_eq_none] at hfields
  obtain ⟨hevents, hacquired, hdone, hqueue, hrunning, hstarted⟩ := hfields
  have hcheck : Run.check (System.step fourByteCache) (fun S l => decide (Working S l)) {}
      wholeExchange = true := by decide +kernel
  obtain ⟨r, hworks, hstays, hagree⟩ := Run.Forever.exists_stay hS
    (step_wait_idle hevents hacquired hdone)
    ((Run.meets_of_check _ hcheck).mono fun _ _ h => of_decide_eq_true h) ⟨trivial, trivial⟩
  have hmid : (Run.exec (System.step fourByteCache) {} (wholeExchange.take 25)).map (fun S =>
      (S.world.conn.connected, S.world.conn.acceptingTasks, S.world.conn.id,
        S.world.sent ⟨1, 1⟩, S.world.given ⟨1, 1⟩)) =
      some (true, true, ⟨1, 1⟩, [1, 2], [1, 2, 3]) := by decide +kernel
  rw [hagree 25 (by decide), Option.map_some] at hmid
  simp only [Option.some.injEq, Prod.mk.injEq] at hmid
  obtain ⟨hconn, haccept, hid, hsent, hgiven⟩ := hmid
  refine ⟨r, ⟨hconn, haccept, hid⟩, hsent, ?_⟩
  rw [← hgiven]
  refine sends_of_fair fourByteCache r hworks (fun n _ => ?_) (fun n hready => ?_)
    (fun op hkind n hready => ?_) _ 25
  · refine ⟨max n wholeExchange.length, le_max_left _ _, ?_⟩
    rw [(hstays _ (le_max_right _ _)).2]
    rfl
  · have hbusy := hready (max n wholeExchange.length) (le_max_left _ _)
    rw [(hstays _ (le_max_right _ _)).1] at hbusy
    simp [hqueue, hrunning] at hbusy
  · have hop := hready (max n wholeExchange.length) (le_max_left _ _)
    rw [(hstays _ (le_max_right _ _)).1] at hop
    exact absurd hkind (Multiset.countP_eq_zero.mp hstarted op hop)

end Connx.Windows
