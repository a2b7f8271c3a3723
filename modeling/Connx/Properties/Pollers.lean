import Connx.Net.Poller.Epoll
import Connx.Net.Poller.Kqueue
import Connx.Net.System

/-!
# The two POSIX pollers do what a poller is for

Every run of the epoll poller and of the kqueue poller, with any answers of the kernel, is one of
the specification. Two things follow for the rest of the library, whichever of them is used: the
events that reach `PollLoop` are those that `Connx.Net.System` takes for granted, and a wake-up is
not slept through.
-/

namespace Connx.Poll

/-! ### Refinement -/

/-- Every run of the epoll poller is followed by the specification, which then describes the
interest list and the wake descriptor. -/
theorem epoll_follows (ls : List Epoll.Label) {p : Epoll.Poller}
    (hexec : Run.exec Epoll.step {} ls = some p) (hok : Run.Meets Epoll.step Epoll.Ok {} ls) :
    ∃ s, Run.Follows Spec.Step {} (Run.observe Epoll.step Epoll.observe {} ls) s ∧
      Epoll.Implements p s :=
  Epoll.follows_of_exec hexec hok

/-- A socket is watched, becomes readable while the poller is woken up, and is removed. -/
def epollRun : List Epoll.Label :=
  [.init {}, .add 7 ⟨0, 1⟩ { readable := true, writable := true } true, .wake,
    .wait (.ready [(4, Epoll.epollIn), (7, Epoll.epollIn)]), .remove 7, .wait (.ready [])]

lemma ok_epollRun : Run.Meets Epoll.step Epoll.Ok {} epollRun := by
  have hcheck : Run.check Epoll.step (fun p l => decide (Epoll.Ok p l)) {} epollRun = true := by
    decide
  exact (Run.meets_of_check _ hcheck).mono fun _ _ h => of_decide_eq_true h

theorem epoll_follows_epollRun :
    ∃ p s, Run.exec Epoll.step {} epollRun = some p ∧
      Run.observe Epoll.step Epoll.observe {} epollRun =
        [.init false, .set 7 ⟨0, 1⟩ { readable := true, writable := true } true, .wake,
          .wait (.events [{ id := ⟨0, 1⟩, readable := true }] true), .remove 7, .wait .timeout] ∧
      Epoll.Implements p s := by
  have hsome : (Run.exec Epoll.step {} epollRun).isSome = true := by decide
  obtain ⟨p, hp⟩ := Option.isSome_iff_exists.mp hsome
  obtain ⟨s, -, hs⟩ := epoll_follows epollRun hp ok_epollRun
  exact ⟨p, s, hp, by decide, hs⟩

/-- Every run of the kqueue poller is followed by the specification, which then describes the
filters and the pipe. -/
theorem kqueue_follows (ls : List Kqueue.Label) {p : Kqueue.Poller}
    (hexec : Run.exec Kqueue.step {} ls = some p) (hok : Run.Meets Kqueue.step Kqueue.Ok {} ls) :
    ∃ s, Run.Follows Spec.Step {} (Run.observe Kqueue.step Kqueue.observe {} ls) s ∧
      Kqueue.Implements p s :=
  Kqueue.follows_of_exec hexec hok

/-- `Add` fails between its two filters, and the socket is removed. -/
def kqueueRun : List Kqueue.Label :=
  [.init {}, .add 7 ⟨0, 1⟩ { readable := true } (some 1),
    .wait (.ready [{ ident := 7, kind := .read }]), .remove 7, .wake false,
    .wait (.ready [{ ident := 4, kind := .read }])]

theorem kqueue_follows_kqueueRun :
    ∃ p s, Run.exec Kqueue.step {} kqueueRun = some p ∧
      Run.observe Kqueue.step Kqueue.observe {} kqueueRun =
        [.init false, .set 7 ⟨0, 1⟩ { readable := true } false,
          .wait (.events [{ id := ⟨0, 1⟩, readable := true }] false), .remove 7, .wake,
          .wait (.events [] true)] ∧
      Kqueue.Implements p s := by
  have hsome : (Run.exec Kqueue.step {} kqueueRun).isSome = true := by decide
  obtain ⟨p, hp⟩ := Option.isSome_iff_exists.mp hsome
  have hcheck : Run.check Kqueue.step (fun p l => decide (Kqueue.Ok p l)) {} kqueueRun = true := by
    decide
  have hok : Run.Meets Kqueue.step Kqueue.Ok {} kqueueRun :=
    (Run.meets_of_check _ hcheck).mono fun _ _ h => of_decide_eq_true h
  obtain ⟨s, -, hs⟩ := kqueue_follows kqueueRun hp hok
  exact ⟨p, s, hp, by decide, hs⟩

/-! ### What the library can rely on -/

/-- The calls of some run of one of the pollers, with their results. -/
inductive Produces : List Op → Prop
  | epoll (ls : List Epoll.Label) {p : Epoll.Poller} (hexec : Run.exec Epoll.step {} ls = some p)
      (hok : Run.Meets Epoll.step Epoll.Ok {} ls) :
      Produces (Run.observe Epoll.step Epoll.observe {} ls)
  | kqueue (ls : List Kqueue.Label) {p : Kqueue.Poller}
      (hexec : Run.exec Kqueue.step {} ls = some p)
      (hok : Run.Meets Kqueue.step Kqueue.Ok {} ls) :
      Produces (Run.observe Kqueue.step Kqueue.observe {} ls)

lemma Produces.follows {os : List Op} (h : Produces os) : ∃ s, Run.Follows Spec.Step {} os s := by
  cases h with
  | epoll ls hexec hok =>
    obtain ⟨s, hs, -⟩ := Epoll.follows_of_exec hexec hok
    exact ⟨s, hs⟩
  | kqueue ls hexec hok =>
    obtain ⟨s, hs, -⟩ := Kqueue.follows_of_exec hexec hok
    exact ⟨s, hs⟩

/-- The id belongs to a registration. -/
def Registered (rt : Runtime) (id : ConnectionId) : Prop :=
  ∃ reg i : Nat, rt.registrations[reg]? = some (i, id)

/-- If connections are registered before they are added to the poller, then every report is one that
the poll thread of `System` can be given. -/
theorem reports_of_produces {os : List Op} (h : Produces os) (rt : Runtime)
    (hos : ∀ o ∈ os, o.Uses (Registered rt)) (result : WaitResult) (hresult : .wait result ∈ os)
    (r : Report) (hr : r ∈ result.reports) : ∃ reg, (r.event reg).reports rt = true := by
  obtain ⟨s, hs⟩ := h.follows
  have hreports := Spec.reports_of_follows hs (Spec.ids_init false) hos _ hresult
  obtain ⟨reg, i, hreg⟩ := hreports r hr
  refine ⟨reg, ?_⟩
  simp [PollEvent.reports, Report.event, hreg]

lemma produces_epollRun : Produces
    [.init false, .set 7 ⟨0, 1⟩ { readable := true, writable := true } true, .wake,
      .wait (.events [{ id := ⟨0, 1⟩, readable := true }] true), .remove 7, .wait .timeout] := by
  have hsome : (Run.exec Epoll.step {} epollRun).isSome = true := by decide
  obtain ⟨p, hp⟩ := Option.isSome_iff_exists.mp hsome
  exact .epoll epollRun hp ok_epollRun

/-- The first registration of all is that of the socket in `epollRun`. -/
theorem reports_epollRun : ∃ rt : Runtime, rt.registrations = [(0, ⟨0, 1⟩)] ∧
    ∃ reg, (({ id := ⟨0, 1⟩, readable := true } : Report).event reg).reports rt = true := by
  let rt : Runtime := { log := [.registered 0 ⟨0, 1⟩] }
  refine ⟨rt, rfl, reports_of_produces produces_epollRun rt ?_
    (.events [{ id := ⟨0, 1⟩, readable := true }] true) (by decide) _ (List.mem_singleton_self _)⟩
  have hreg : Registered rt ⟨0, 1⟩ := ⟨0, 0, rfl⟩
  simpa [Op.Uses] using hreg

/-- Between a wake-up and a call of `Wait` that sleeps until its timeout there is one that took the
wake-up. -/
theorem wake_taken_of_timeout (pre mid post : List Op)
    (h : Produces (pre ++ .wake :: (mid ++ .wait .timeout :: post))) : ∃ o ∈ mid, o.EndsWake := by
  obtain ⟨s, hs⟩ := h.follows
  obtain ⟨s₁, -, hs₁⟩ := Run.follows_append.mp hs
  obtain ⟨s₂, hwake, hs₂⟩ := Run.follows_cons.mp hs₁
  obtain ⟨s₃, hmid, hs₃⟩ := Run.follows_append.mp hs₂
  obtain ⟨s₄, htimeout, -⟩ := Run.follows_cons.mp hs₃
  by_contra hnone
  have hI : s₃.opened = true → s₃.wake = true := by
    refine (hmid.invariant (Q := fun _ => True)
      (fun _ _ _ h ho hstep => ⟨hstep.keepsWake ho h, trivial⟩)
      ?_ fun o ho hends => hnone ⟨o, ho, hends⟩).1
    cases hwake with
    | wake => exact id
  cases htimeout with
  | timeout hopen hwake =>
    rw [hI hopen] at hwake
    cases hwake

theorem wake_taken_epollRun : ∃ o ∈ [Op.wait (.events [{ id := ⟨0, 1⟩, readable := true }] true),
    Op.remove 7], o.EndsWake :=
  wake_taken_of_timeout
    [.init false, .set 7 ⟨0, 1⟩ { readable := true, writable := true } true] _ []
    produces_epollRun

end Connx.Poll
