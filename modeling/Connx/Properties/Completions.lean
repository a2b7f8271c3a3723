import Connx.Net.Poller.IocpRefinement

/-!
# The Windows poller: every completion once, every request freed once

Over every run of `poller_win32.cc`, with any number of threads that start operations, completions
in any order and addresses that are used again: what `Wait` reports is what was completed, in that
order and each at most once, and no request is deleted twice or used after it was deleted.
-/

namespace Connx.Poll

/-! ### Refinement -/

/-- Every run of the poller over a completion port is followed by the service. -/
theorem iocp_follows (ls : List Iocp.Label) {S : Iocp.State}
    (hexec : Run.exec Iocp.step {} ls = some S) (hok : Run.Meets Iocp.step Iocp.Ok {} ls) :
    ∃ s, Run.Follows Service.Step {} (Run.observe Iocp.step Iocp.observe {} ls) s ∧
      Iocp.Implements S s :=
  Run.follows_of_exec Iocp.Ok (fun _ _ _ _ h hok hstep => Iocp.step_implements h hok hstep) hexec
    hok Iocp.implements_init

/-- A receive completes and its event is released; a send of another connection gets the address of
its request and is refused, and a second receive completes behind a wake-up. -/
def iocpRun : List Iocp.Label :=
  [.init true, .add 5 true, .start 5 ⟨⟨0, 1⟩, .recv, [0, 0, 0]⟩, .call 0 100 none, .call 0 0 none,
    .call 0 0 none, .beginWait, .complete 0 true { bytes := 2, received := [7, 8] }, .dequeue,
    .untrack, .dequeue, .readData 0, .dropRef 0, .add 6 true, .start 6 ⟨⟨1, 1⟩, .send, [9]⟩,
    .call 1 100 none, .call 1 0 none, .call 1 0 (some 10054), .call 1 0 none, .call 1 0 none,
    .start 5 ⟨⟨0, 1⟩, .recv, [0, 0, 0]⟩, .call 2 100 none, .call 2 0 none, .call 2 0 none, .wake,
    .complete 2 true { bytes := 0, error := some 995 }, .beginWait, .dequeue, .beginWait, .dequeue,
    .untrack, .dequeue, .dropRef 2]

theorem iocp_follows_iocpRun :
    ∃ S s, Run.exec Iocp.step {} iocpRun = some S ∧
      Run.Follows Service.Step {} (Run.observe Iocp.step Iocp.observe {} iocpRun) s ∧
      Iocp.Implements S s := by
  have hsome : (Run.exec Iocp.step {} iocpRun).isSome = true := by decide +kernel
  obtain ⟨S, hS⟩ := Option.isSome_iff_exists.mp hsome
  have hcheck : Run.check Iocp.step (fun S l => decide (Iocp.Ok S l)) {} iocpRun = true := by
    decide +kernel
  obtain ⟨s, hfollows, hs⟩ := iocp_follows iocpRun hS
    ((Run.meets_of_check _ hcheck).mono fun _ _ h => of_decide_eq_true h)
  exact ⟨S, s, hS, hfollows, hs⟩

/-! ### What `Wait` reports -/

/-- In every run of the poller over a completion port: each operation the system has taken on
completes at most once; each completion is reported at most once, under the id and with the data of
its own request, and in the order of the completions; and until `Shutdown` none is passed over. -/
theorem iocp_reports (ls : List Iocp.Label) {S : Iocp.State}
    (hexec : Run.exec Iocp.step {} ls = some S) (hok : Run.Meets Iocp.step Iocp.Ok {} ls) :
    let os := Run.observe Iocp.step Iocp.observe {} ls
    (os.filterMap ServiceOp.completedOp : Multiset Operation) ≤ os.filterMap ServiceOp.acceptedOp ∧
    (os.flatMap ServiceOp.reports).Sublist (os.filterMap ServiceOp.completion) ∧
    (.shutdown ∉ os → os.flatMap ServiceOp.reports <+: os.filterMap ServiceOp.completion) := by
  obtain ⟨s, hfollows, -⟩ := Run.follows_of_exec Iocp.Ok
    (fun _ _ _ _ h hok hstep => Iocp.step_implements h hok hstep) hexec hok Iocp.implements_init
  refine ⟨?_, ?_, fun hshutdown => ?_⟩
  · have honce := Service.once_of_follows hfollows
    rw [zero_add] at honce
    exact le_self_add.trans honce
  · exact (List.sublist_append_left _ _).trans (Service.order_sublist_of_follows hfollows)
  · exact ⟨_, Service.order_of_follows hfollows hshutdown⟩

theorem iocp_reports_iocpRun :
    ∃ os, Run.observe Iocp.step Iocp.observe {} iocpRun = os ∧
      os.flatMap ServiceOp.reports =
        [⟨⟨0, 1⟩, .recv, true, false, none, 2, [7, 8]⟩,
          ⟨⟨0, 1⟩, .recv, false, false, some 995, 0, []⟩] ∧
      os.flatMap ServiceOp.reports <+: os.filterMap ServiceOp.completion := by
  have hsome : (Run.exec Iocp.step {} iocpRun).isSome = true := by decide +kernel
  obtain ⟨S, hS⟩ := Option.isSome_iff_exists.mp hsome
  have hcheck : Run.check Iocp.step (fun S l => decide (Iocp.Ok S l)) {} iocpRun = true := by
    decide +kernel
  refine ⟨_, rfl, by decide +kernel, (iocp_reports iocpRun hS
    ((Run.meets_of_check _ hcheck).mono fun _ _ h => of_decide_eq_true h)).2.2 (by decide +kernel)⟩

/-! ### The requests -/

namespace Iocp

/-- Nothing is under way, and no event is left that points to a request. -/
def Quiet (S : State) : Prop :=
  S.calls.all Call.isReturned = true ∧ S.pending = [] ∧ S.queue = [] ∧ S.wait = .idle ∧
    ∀ k, S.refs k = 0

lemma Inv.frees_le_one {S : State} (h : Inv S) (k : Nat) : (request S.heap k).frees ≤ 1 := by
  have hown := h.own k
  have hborn : born k S.heap ≤ 1 := born_le_one
  omega

/-- Whoever could own a request is gone. -/
lemma Inv.frees_eq_one {S : State} (h : Inv S) (hquiet : Quiet S) {k : Nat}
    (hk : k < S.heap.length) (hlost : S.lost k = false) : (request S.heap k).frees = 1 := by
  obtain ⟨hcalls, hpending, hqueue, hwait, hrefs⟩ := hquiet
  obtain ⟨howns, hflies⟩ := total_of_returned (k := k) hcalls
  have hown := h.own k
  have hfly := h.fly k
  rw [hflies, hpending, hqueue, hwait] at hfly
  rw [howns, ← hfly, shared, hrefs, forgotten, hlost, born, if_pos hk] at hown
  simpa [packets, WaitPc.taken] using hown

end Iocp

/-- In every run of the poller over a completion port no request is used after it was deleted, by
the threads or by the system, and none is deleted twice; and once nothing is under way and all
events are gone, every request has been deleted that `Shutdown` has not left to the system. -/
theorem iocp_requests_freed (ls : List Iocp.Label) {S : Iocp.State}
    (hexec : Run.exec Iocp.step {} ls = some S) (hok : Run.Meets Iocp.step Iocp.Ok {} ls) :
    S.bad = false ∧ ∀ k, k < S.heap.length → (Iocp.request S.heap k).frees ≤ 1 ∧
      (Iocp.Quiet S → S.lost k = false → (Iocp.request S.heap k).frees = 1) := by
  have hinv := Iocp.inv_of_exec hexec hok
  exact ⟨hinv.safe, fun k hk => ⟨hinv.frees_le_one k, fun hquiet => hinv.frees_eq_one hquiet hk⟩⟩

theorem iocp_requests_freed_iocpRun :
    ∃ S, Run.exec Iocp.step {} iocpRun = some S ∧ S.heap.map Iocp.WinIoRequest.address =
      [100, 100, 100] ∧ S.bad = false ∧ ∀ k, k < S.heap.length →
        (Iocp.request S.heap k).frees ≤ 1 := by
  have hrun : (Run.exec Iocp.step {} iocpRun).map (fun S => S.heap.map Iocp.WinIoRequest.address) =
      some [100, 100, 100] := by decide +kernel
  obtain ⟨S, hS, haddresses⟩ := Option.map_eq_some_iff.mp hrun
  have hcheck : Run.check Iocp.step (fun S l => decide (Iocp.Ok S l)) {} iocpRun = true := by
    decide +kernel
  obtain ⟨hsafe, hfrees⟩ := iocp_requests_freed iocpRun hS
    ((Run.meets_of_check _ hcheck).mono fun _ _ h => of_decide_eq_true h)
  exact ⟨S, hS, haddresses, hsafe, fun k hk => (hfrees k hk).1⟩

end Connx.Poll
