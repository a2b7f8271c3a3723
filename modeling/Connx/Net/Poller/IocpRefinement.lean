import Connx.Net.Poller.IocpInvariant

/-!
# The poller over a completion port is the service

The operations under way are those the system has, and what is to be reported is what the poll
thread has so far, then what it has in its hands, then the queue of the port. Nothing that is done
to the heap changes what a completion will be reported as: an allocation and a deletion leave the
other requests alone, and the system writes only to requests that it has.
-/

namespace Connx.Poll.Iocp

/-- The operations under way. -/
def operations (heap : List WinIoRequest) (pending : List (Nat × Bool)) : List Operation :=
  (pending.filter fun p => p.2).map fun p => (request heap p.1).op

/-- What a packet will be reported as. -/
def Packet.report (heap : List WinIoRequest) : Packet → Option Completion
  | .wake => none
  | .completion k o => some ((request heap k).op.report o)

/-- What is to be reported. -/
def reports (heap : List WinIoRequest) (wait : WaitPc) (queue : List Packet) :
    List (Option Completion) :=
  (wait.collected.map (PollEvent.report heap)).map some ++
    (packets wait queue).map (Packet.report heap)

section reports

variable (heap : List WinIoRequest) (queue : List Packet) (events : List PollEvent)

@[simp] lemma reports_polling : reports heap (.polling events) queue =
    (events.map (PollEvent.report heap)).map some ++ queue.map (Packet.report heap) := rfl

@[simp] lemma reports_dequeued (k : Nat) (o : Outcome) : reports heap (.dequeued k o events) queue =
    (events.map (PollEvent.report heap)).map some ++
      some ((request heap k).op.report o) :: queue.map (Packet.report heap) := rfl

end reports

/-- The service describes the state. -/
structure Implements (S : State) (s : Service) : Prop where
  inv : Inv S
  opened : s.opened = S.opened
  started : s.started = (operations S.heap S.pending : Multiset Operation)
  done : s.done = reports S.heap S.wait S.queue
  few : S.wait.collected.length < maxCompletions

lemma implements_init : Implements {} {} :=
  ⟨inv_init, rfl, rfl, rfl, by decide⟩

variable {S S' : State} {s : Service} {i k : Nat} {heap heap' : List WinIoRequest}

/-! ### What does not change -/

lemma operations_congr {pending : List (Nat × Bool)}
    (h : ∀ k, (k, true) ∈ pending → (request heap' k).op = (request heap k).op) :
    operations heap' pending = operations heap pending := by
  refine List.map_congr_left fun p hp => ?_
  obtain ⟨hmem, hreported⟩ := List.mem_filter.mp hp
  obtain ⟨k, reported⟩ := p
  obtain rfl : reported = true := hreported
  exact h k hmem

lemma reports_congr {wait : WaitPc} {queue : List Packet}
    (hevents : ∀ ev ∈ wait.collected,
      (request heap' ev.data).buffer = (request heap ev.data).buffer)
    (hpackets : ∀ k o, .completion k o ∈ packets wait queue →
      (request heap' k).id = (request heap k).id ∧
        (request heap' k).operation = (request heap k).operation) :
    reports heap' wait queue = reports heap wait queue := by
  unfold reports
  congr 1
  · refine congrArg _ (List.map_congr_left fun ev hev => ?_)
    rw [PollEvent.report, PollEvent.report, hevents ev hev]
  · refine List.map_congr_left fun packet hpacket => ?_
    cases packet with
    | wake => rfl
    | completion k o =>
      obtain ⟨hid, hoperation⟩ := hpackets k o hpacket
      simp [Packet.report, WinIoRequest.op, Operation.report, hid, hoperation]

namespace Implements

variable (h : Implements S s)
include h

/-- A step that nobody sees, and that keeps what is reported. -/
lemma silent (hinv : Inv S') (hopened : S'.opened = S.opened)
    (hstarted : (operations S'.heap S'.pending).Perm (operations S.heap S.pending))
    (hdone : reports S'.heap S'.wait S'.queue = reports S.heap S.wait S.queue)
    (hfew : S'.wait.collected.length < maxCompletions) :
    ∃ s', Service.Step s .silent s' ∧ Implements S' s' := by
  refine ⟨s, .silent, hinv, h.opened.trans hopened.symm, ?_, ?_, hfew⟩
  · rw [h.started]
    exact Multiset.coe_eq_coe.mpr hstarted.symm
  · rw [h.done, hdone]

/-- The requests of the events so far live. -/
lemma lt_of_collected {ev : PollEvent} (hev : ev ∈ S.wait.collected) :
    0 < S.refs ev.data ∧ ev.data < S.heap.length := by
  have hpos : 0 < S.wait.collected.countP fun ev' => ev'.data == ev.data :=
    List.countP_pos_iff.mpr ⟨ev, hev, by simp⟩
  have hrefs : 0 < S.refs ev.data := hpos.trans_le (h.inv.held _)
  exact ⟨hrefs, (h.inv.of_shared hrefs).1⟩

/-- A request is added to the heap. -/
lemma of_append (hinv : Inv S') (r : WinIoRequest) (hheap : S'.heap = S.heap ++ [r])
    (hopened : S'.opened = S.opened) (hpending : S'.pending = S.pending) (hwait : S'.wait = S.wait)
    (hqueue : S'.queue = S.queue) : ∃ s', Service.Step s .silent s' ∧ Implements S' s' := by
  refine h.silent hinv hopened ?_ ?_ (hwait ▸ h.few)
  · rw [hheap, hpending]
    refine .of_eq (operations_congr fun k hk => ?_)
    rw [request_append_of_lt (h.inv.lt_of_tracked (h.inv.tracked_of_pending hk))]
  · rw [hheap, hwait, hqueue]
    refine reports_congr (fun ev hev => ?_) fun k o hk => ?_
    · rw [request_append_of_lt (h.lt_of_collected hev).2]
    · rw [request_append_of_lt (h.inv.lt_of_tracked (h.inv.tracked_of_packet hk))]
      exact ⟨rfl, rfl⟩

/-- A request is deleted. -/
lemma of_delete (hinv : Inv S') (hk : k < S.heap.length) (hheap : S'.heap = (S.delete k).heap)
    (hopened : S'.opened = S.opened) (hpending : S'.pending = S.pending) (hwait : S'.wait = S.wait)
    (hqueue : S'.queue = S.queue) : ∃ s', Service.Step s .silent s' ∧ Implements S' s' := by
  refine h.silent hinv hopened ?_ ?_ (hwait ▸ h.few)
  · rw [hheap, hpending]
    refine .of_eq (operations_congr fun j _ => ?_)
    rw [Inv.request_delete hk]
    rfl
  · rw [hheap, hwait, hqueue]
    refine reports_congr (fun ev _ => ?_) fun j o _ => ?_
    · rw [Inv.request_delete hk]
    · rw [Inv.request_delete hk]
      exact ⟨rfl, rfl⟩

/-- Neither the heap nor what is on its way changes. -/
lemma of_eq (hinv : Inv S') (hheap : S'.heap = S.heap) (hopened : S'.opened = S.opened)
    (hpending : S'.pending = S.pending) (hwait : S'.wait = S.wait) (hqueue : S'.queue = S.queue) :
    ∃ s', Service.Step s .silent s' ∧ Implements S' s' := by
  refine h.silent hinv hopened ?_ ?_ (hwait ▸ h.few)
  · rw [hheap, hpending]
  · rw [hheap, hwait, hqueue]

/-! ### `Init`, `Shutdown` and `Wake` -/

/-- While the poller is closed nothing is on its way. -/
lemma of_closed (hclosed : S.opened = false) :
    operations S.heap S.pending = [] ∧ reports S.heap S.wait S.queue = [] := by
  obtain ⟨hrequests, hwait, hqueue⟩ := h.inv.closed hclosed
  constructor
  · refine List.map_eq_nil_iff.mpr (List.filter_eq_nil_iff.mpr ?_)
    rintro ⟨k, reported⟩ hmem rfl
    have htracked := h.inv.tracked_of_pending hmem
    rw [hrequests] at htracked
    cases htracked
  · rw [hwait, hqueue]
    rfl

lemma init (created : Bool) :
    ∃ s', Service.Step s (.init (!S.opened && !created)) s' ∧ Implements (S.init created) s' := by
  have hinv := h.inv.init created
  cases hopened : S.opened with
  | true =>
    have heq : S.init created = S := by simp [State.init, hopened]
    rw [heq]
    exact ⟨s, .initAgain (h.opened.trans hopened), h⟩
  | false =>
    have hclosed := h.opened.trans hopened
    obtain ⟨-, hwait, hqueue⟩ := h.inv.closed hopened
    cases created with
    | true =>
      refine ⟨_, .init hclosed, hinv, ?_, ?_, ?_, ?_⟩
      · simp [State.init, hopened]
      · simp [State.init, hopened, h.started]
      · simp [State.init, hopened, h.done, hwait, hqueue]
      · simpa [State.init, hopened] using h.few
    | false =>
      have heq : S.init false = S := by simp [State.init]
      rw [heq]
      exact ⟨s, .initFailed hclosed, h⟩

lemma shutdown (hall : S.calls.all Call.isReturned = true) (hidle : S.wait = .idle) :
    ∃ s', Service.Step s .shutdown s' ∧ Implements S.shutdown s' := by
  have hinv := h.inv.shutdown hall hidle
  cases hopened : S.opened with
  | true =>
    have hnone : operations S.shutdown.heap S.shutdown.pending = [] := by
      refine List.map_eq_nil_iff.mpr (List.filter_eq_nil_iff.mpr ?_)
      simp [State.shutdown, hopened]
    refine ⟨{}, .shutdown, hinv, ?_, ?_, ?_, ?_⟩
    · simp [State.shutdown, hopened]
    · rw [hnone]
      rfl
    · simp [State.shutdown, hopened, hidle, reports, packets, WaitPc.collected, WaitPc.taken]
    · simpa [State.shutdown, hopened] using h.few
  | false =>
    have heq : S.shutdown = S := by simp [State.shutdown, hopened]
    obtain ⟨hoperations, hreports⟩ := h.of_closed hopened
    rw [heq]
    refine ⟨{}, .shutdown, h.inv, hopened.symm, ?_, hreports.symm, h.few⟩
    rw [hoperations]
    rfl

lemma wake : ∃ s', Service.Step s .wake s' ∧ Implements S.wake s' := by
  have hinv := h.inv.wake
  cases hopened : S.opened with
  | true =>
    refine ⟨_, .wake (h.opened.trans hopened), hinv, ?_, ?_, ?_, ?_⟩
    · simp [State.wake, hopened, h.opened]
    · simp [State.wake, hopened, h.started]
    · simp [State.wake, hopened, h.done, reports, packets, Packet.report]
    · simpa [State.wake, hopened] using h.few
  | false =>
    have heq : S.wake = S := by simp [State.wake, hopened]
    rw [heq]
    exact ⟨s, .wakeClosed (h.opened.trans hopened), h⟩

/-! ### `StartConnect`, `StartRecv` and `StartSend` -/

lemma start (fd : Socket) (op : Operation) :
    ∃ s', Service.Step s .silent s' ∧ Implements (S.start fd op) s' := by
  have hinv := h.inv.start fd op
  unfold State.start at hinv ⊢
  split_ifs at hinv ⊢
  · exact h.of_eq hinv rfl rfl rfl rfl rfl
  · exact h.of_eq hinv rfl rfl rfl rfl rfl
  · exact h.of_eq hinv rfl rfl rfl rfl rfl

/-- The system takes the operation of the call on. -/
lemma accepted {fd : Socket} {op : Operation} (hc : S.calls[i]? = some (.tracked fd op k))
    (hfd : S.associated fd = true) :
    ∃ s', Service.Step s (.accepted op) s' ∧ Implements (S.issue i k fd op none) s' := by
  have hopened := h.inv.opened_of_call hc rfl
  have hop : (request S.heap k).op = op :=
    (h.inv.good _ (List.mem_of_getElem? hc)).2.1 k op rfl
  refine ⟨_, .accepted op (h.opened.trans hopened), h.inv.issue none hc hfd, h.opened, ?_, h.done,
    h.few⟩
  change op ::ₘ s.started =
    (operations S.heap (S.pending ++ [(k, S.associated fd)]) : List Operation)
  rw [h.started, hfd]
  simp [operations, hop, List.filter_append, ← Multiset.coe_add, add_comm, Multiset.cons_coe]

lemma callStep {c : Call} {address : Nat} {code : Option Int} (hc : S.calls[i]? = some c)
    (hfd : c.onPort S.associated = true)
    (hstep : S.callStep i address code c = some S') :
    ∃ s', Service.Step s (observeCall code c) s' ∧ Implements S' s' := by
  have hinv := h.inv.callStep hc hfd hstep
  cases c with
  | check fd op =>
    obtain rfl := Option.some.inj hstep
    exact h.of_eq hinv rfl rfl rfl rfl rfl
  | ioctl fd op =>
    cases code with
    | none =>
      obtain rfl := Option.some.inj hstep
      exact h.of_eq hinv rfl rfl rfl rfl rfl
    | some code =>
      obtain rfl := Option.some.inj hstep
      exact h.of_eq hinv rfl rfl rfl rfl rfl
  | store fd op =>
    obtain rfl := Option.some.inj hstep
    exact h.of_eq hinv rfl rfl rfl rfl rfl
  | allocate fd op =>
    obtain ⟨-, heq⟩ := Option.ite_none_right_eq_some.mp hstep
    obtain rfl := Option.some.inj heq
    exact h.of_append hinv _ rfl rfl rfl rfl rfl
  | fresh fd op k =>
    obtain rfl := Option.some.inj hstep
    exact h.of_eq hinv rfl rfl rfl rfl rfl
  | tracked fd op k =>
    obtain rfl := Option.some.inj hstep
    cases code with
    | none => exact h.accepted hc hfd
    | some code => exact h.of_eq hinv rfl rfl rfl rfl rfl
  | refused k code =>
    obtain rfl := Option.some.inj hstep
    have hk := h.inv.tracked_of_flies hc (k := k) (by simp [Call.flies])
    rw [Inv.removeRequest_eq hk] at hinv ⊢
    exact h.of_eq hinv rfl rfl rfl rfl rfl
  | removed req code =>
    cases req with
    | none =>
      obtain rfl := Option.some.inj hstep
      exact h.of_eq hinv rfl rfl rfl rfl rfl
    | some k =>
      obtain rfl := Option.some.inj hstep
      obtain ⟨hlt, -⟩ := h.inv.of_owns (k := k) hc (by simp [Call.owns])
      exact h.of_delete hinv hlt rfl rfl rfl rfl rfl
  | returned result => cases hstep

/-! ### The system completes an operation -/

/-- What the system writes is not yet seen by anybody. -/
lemma reports_fill {reported : Bool} (hmem : (k, reported) ∈ S.pending) (received : List Byte) :
    reports (S.fill k received).heap S.wait S.queue = reports S.heap S.wait S.queue := by
  obtain ⟨hlt, -, -, -, hrefs, hnoPacket⟩ := h.inv.of_pending hmem
  refine reports_congr (fun ev hev => ?_) fun j o hj => ?_
  · have hne : ev.data ≠ k := by
      rintro rfl
      have hpos := (h.lt_of_collected hev).1
      omega
    rw [Inv.request_fill hlt _ hne]
  · have hne : j ≠ k := by
      rintro rfl
      have hnot := List.countP_eq_zero.mp hnoPacket _ hj
      simp [Packet.isFor] at hnot
    rw [Inv.request_fill hlt _ hne]
    exact ⟨rfl, rfl⟩

/-- Only the operation itself is gone when it is taken off the list. -/
lemma operations_erase {reported : Bool} (hmem : (k, reported) ∈ S.pending) (received : List Byte) :
    (operations S.heap S.pending).Perm
      ((if reported then [(request S.heap k).op] else []) ++
        operations (S.fill k received).heap (S.pending.erase (k, reported))) := by
  obtain ⟨hlt, -⟩ := h.inv.of_pending hmem
  have hsame : operations (S.fill k received).heap (S.pending.erase (k, reported)) =
      operations S.heap (S.pending.erase (k, reported)) := by
    refine operations_congr fun j hj => ?_
    have hne : j ≠ k := by
      rintro rfl
      have hfly := h.inv.fly j
      have hstray := h.inv.stray j
      have hown := h.inv.own j
      have hborn : born j S.heap ≤ 1 := born_le_one
      have hpos := List.count_pos_iff.mpr hj
      have hpos' := List.count_pos_iff.mpr hmem
      cases reported with
      | true =>
        rw [List.count_erase_self] at hpos
        omega
      | false =>
        rw [List.count_erase_of_ne (by simp)] at hpos
        omega
    rw [Inv.request_fill hlt _ hne]
  rw [hsame]
  refine (((List.perm_cons_erase hmem).filter _).map _).trans (.of_eq ?_)
  cases reported with
  | true => simp [operations]
  | false => simp [operations]

lemma complete {reported : Bool} {o : Outcome} (hstep : S.complete k reported o = some S') :
    ∃ s', Service.Step s (if reported then .completed (S.req k).op o else .silent) s' ∧
      Implements S' s' := by
  have hinv := h.inv.complete hstep
  obtain ⟨⟨hmem, hfits⟩, heq⟩ := Option.ite_none_right_eq_some.mp hstep
  obtain rfl := Option.some.inj heq
  obtain ⟨hlt, -⟩ := h.inv.of_pending hmem
  have hoperations := h.operations_erase hmem o.received
  cases reported with
  | true =>
    have hstarted : s.started = (S.req k).op ::ₘ (operations (S.fill k o.received).heap
        (S.pending.erase (k, true)) : Multiset Operation) :=
      h.started.trans (Multiset.coe_eq_coe.mpr hoperations)
    refine ⟨_, .completed _ o _ hstarted hfits, hinv, h.opened, rfl, ?_, h.few⟩
    have hreport : (request (S.fill k o.received).heap k).op.report o = (S.req k).op.report o := by
      rw [Inv.request_fill_self hlt, State.req]
      split_ifs <;> rfl
    change s.done ++ [some ((S.req k).op.report o)] =
      reports (S.fill k o.received).heap S.wait (S.queue ++ [.completion k o])
    rw [h.done, ← h.reports_fill hmem o.received, ← hreport]
    simp [reports, packets, Packet.report]
  | false => exact h.silent hinv rfl hoperations.symm (h.reports_fill hmem o.received) h.few

/-! ### `Wait` -/

omit h in
lemma few_idle : WaitPc.idle.collected.length < maxCompletions := by decide

lemma beginWait (hstep : S.beginWait = some S') :
    ∃ s', Service.Step s (if S.opened then .silent else .wait []) s' ∧ Implements S' s' := by
  have hinv := h.inv.beginWait hstep
  unfold State.beginWait at hstep
  split at hstep
  · next hidle =>
    obtain rfl := Option.some.inj hstep
    cases hopened : S.opened with
    | true =>
      simp only [hopened, if_true] at hinv ⊢
      refine h.silent hinv hopened.symm (.refl _) ?_ few_idle
      rw [hidle]
      rfl
    | false =>
      simp only [Bool.false_eq_true, if_false]
      exact ⟨s, .waitClosed (h.opened.trans hopened), h⟩
  · cases hstep

lemma dequeue (hstep : S.dequeue = some S') :
    ∃ s', Service.Step s (observe S .dequeue) s' ∧ Implements S' s' := by
  have hinv := h.inv.dequeue hstep
  have hdone := h.done
  have hfew := h.few
  unfold State.dequeue at hstep
  split at hstep
  · next events hwait =>
    simp only [observe, hwait]
    rw [hwait] at hdone hfew
    have hlength : (events.map (PollEvent.report S.heap)).length ≤ maxCompletions := by
      rw [List.length_map]
      exact hfew.le
    split at hstep
    · next hqueue =>
      obtain rfl := Option.some.inj hstep
      rw [hqueue, reports_polling] at hdone
      simp only [hqueue] at hinv ⊢
      exact ⟨_, .wait _ false [] (by simpa using hdone) hlength (.inr (.inr rfl)), hinv, h.opened,
        h.started, rfl, few_idle⟩
    · next queue hqueue =>
      obtain rfl := Option.some.inj hstep
      rw [hqueue, reports_polling] at hdone
      simp only [hqueue]
      refine ⟨_, .wait _ true (queue.map (Packet.report S.heap)) ?_ hlength (.inl rfl), hinv,
        h.opened,
        h.started, rfl, few_idle⟩
      simpa [Packet.report] using hdone
    · next k o queue hqueue =>
      obtain rfl := Option.some.inj hstep
      simp only [hqueue]
      refine h.silent hinv rfl (.refl _) ?_ hfew
      rw [hwait, hqueue]
      rfl
  · cases hstep

/-- The event tells of its own request. -/
lemma report_event {o : Outcome} (hmem : .completion k o ∈ packets S.wait S.queue) :
    (S.event k o).report S.heap = (request S.heap k).op.report o := by
  have hfilled := h.inv.filled k o hmem
  unfold PollEvent.report State.event Operation.report State.req
  cases herror : o.error with
  | some code => simp [WinIoRequest.op]
  | none =>
    cases hop : (request S.heap k).operation <;>
      simp [WinIoRequest.op, hop]
    exact hfilled hop herror

lemma untrack (hstep : S.untrack = some S') :
    ∃ s', Service.Step s (observe S .untrack) s' ∧ Implements S' s' := by
  have hinv := h.inv.untrack hstep
  cases hwait : S.wait with
  | idle => simp [State.untrack, hwait] at hstep
  | polling events => simp [State.untrack, hwait] at hstep
  | dequeued k o events =>
    obtain ⟨hk, heq⟩ := h.inv.untrack_eq hwait
    rw [heq] at hstep
    obtain rfl := Option.some.inj hstep
    have hreport : (S.event k o).report S.heap = (request S.heap k).op.report o := by
      refine h.report_event ?_
      rw [hwait]
      exact List.mem_cons_self
    have hdone := h.done
    have hfew := h.few
    rw [hwait, reports_dequeued, ← hreport] at hdone
    rw [hwait] at hfew
    simp only [observe, hwait, Inv.removeRequest_eq hk]
    split_ifs at hinv ⊢ with hmore
    · refine h.silent hinv rfl (.refl _) ?_ (by simpa [WaitPc.collected] using hmore)
      rw [← h.done, hdone]
      simp
    · refine ⟨_, .wait _ false (S.queue.map (Packet.report S.heap)) ?_ ?_ (.inr (.inl ?_)), hinv,
        h.opened, h.started, rfl, few_idle⟩
      · simpa using hdone
      · simp only [WaitPc.collected] at hfew
        simp only [List.length_map, List.length_append, List.length_singleton]
        omega
      · simp only [WaitPc.collected] at hfew
        simp only [List.length_map, List.length_append, List.length_singleton]
        omega

end Implements

/-- Every step is one of the service. -/
lemma step_implements {l : Label} (h : Implements S s) (hok : Ok S l) (hstep : step S l = some S') :
    ∃ s', Service.Step s (observe S l) s' ∧ Implements S' s' := by
  have hinv := h.inv.step hok hstep
  cases l with
  | init created =>
    obtain rfl := Option.some.inj hstep
    exact h.init created
  | shutdown =>
    obtain rfl := Option.some.inj hstep
    exact h.shutdown hok.1 hok.2
  | add fd created =>
    obtain rfl := Option.some.inj hstep
    unfold State.add at hinv ⊢
    split_ifs at hinv ⊢
    · exact h.of_eq hinv rfl rfl rfl rfl rfl
    · exact h.of_eq hinv rfl rfl rfl rfl rfl
    · exact h.of_eq hinv rfl rfl rfl rfl rfl
  | closeSocket fd =>
    obtain rfl := Option.some.inj hstep
    exact h.of_eq hinv rfl rfl rfl rfl rfl
  | wake =>
    obtain rfl := Option.some.inj hstep
    exact h.wake
  | start fd op =>
    obtain rfl := Option.some.inj hstep
    exact h.start fd op
  | call i address code =>
    obtain ⟨c, hc, hcall⟩ := Option.bind_eq_some_iff.mp hstep
    have hobserve : observe S (.call i address code) = observeCall code c := by simp [observe, hc]
    rw [hobserve]
    simp only [Ok, hc, Option.all_some] at hok
    exact h.callStep hc hok hcall
  | complete k reported o => exact h.complete hstep
  | beginWait => exact h.beginWait hstep
  | dequeue => exact h.dequeue hstep
  | untrack => exact h.untrack hstep
  | copyRef k =>
    obtain ⟨-, heq⟩ := Option.ite_none_right_eq_some.mp hstep
    obtain rfl := Option.some.inj heq
    exact h.of_eq hinv rfl rfl rfl rfl rfl
  | dropRef k =>
    obtain ⟨hlt, heq⟩ := Option.ite_none_right_eq_some.mp hstep
    split_ifs at heq with hone
    · obtain rfl := Option.some.inj heq
      exact h.of_delete hinv (h.inv.of_shared (k := k) (by omega)).1 rfl rfl rfl rfl rfl
    · obtain rfl := Option.some.inj heq
      exact h.of_eq hinv rfl rfl rfl rfl rfl
  | readData k =>
    obtain ⟨-, heq⟩ := Option.ite_none_right_eq_some.mp hstep
    obtain rfl := Option.some.inj heq
    exact h.of_eq hinv rfl rfl rfl rfl rfl

end Connx.Poll.Iocp
