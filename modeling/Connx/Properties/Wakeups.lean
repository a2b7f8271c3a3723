import Connx.Net.Executor.Wakeups

/-!
# No lost wakeup

When the executor comes to rest, the queue is empty and nobody waits, provided that no
compare-exchange on `draining_` failed on a `Drain` that was leaving. The code does not exclude such
a failure: the store that releases `draining_` may become visible after the loads that follow it.
-/

namespace Connx.Executor

open Run

variable {τ : Type}

/-- The call is over or waits, and no store of it is in flight. An owner that has won the
compare-exchange counts as a scheduled `Drain`. -/
def Proc.idle : Proc τ → Bool
  | .post _ _ pc => pc == .done
  | .drain _ (.returned visible) => visible
  | .drain _ _ => false
  | .closer (.releasing (.stores issued visible)) => issued == visible
  | .closer .schedule => false
  | .closer _ => true

/-- No store is in flight, no `Post` is in progress and no `Drain` is running or scheduled. -/
def State.quiet (S : State τ) : Bool := S.shared.scheduled == 0 && S.procs.all Proc.idle

def NoLostWakeup (S : State τ) : Prop :=
  S.quiet = true → S.shared.queuedTasks = 0 ∧ S.shared.nodes = [] ∧ S.shared.waiters = []

/-- A process that is idle promises nothing. -/
lemma Proc.weights_of_idle {p : Proc τ} (h : p.idle = true) :
    p.cares = 0 ∧ p.accepted = 0 ∧ p.watches = 0 ∧ p.active = 0 ∧ p.announces = 0 := by
  cases p with
  | post thread task pc =>
    obtain rfl : pc = .done := by simpa [Proc.idle] using h
    exact ⟨rfl, rfl, rfl, rfl, rfl⟩
  | drain n pc =>
    cases pc with
    | returned => exact ⟨rfl, rfl, rfl, rfl, rfl⟩
    | _ => simp [Proc.idle] at h
  | closer pc =>
    cases pc with
    | schedule => simp [Proc.idle] at h
    | _ => exact ⟨rfl, rfl, rfl, rfl, rfl⟩

lemma Shared.waiters_eq_nil {g : Shared τ} (h : ∀ w, g.waitersIn w = 0) : g.waiters = [] := by
  refine List.eq_nil_iff_forall_not_mem.mpr fun x hx => ?_
  have hnone := List.countP_eq_zero.mp (h x.2) x hx
  simp at hnone

namespace State

variable {S : State τ}

lemma Wake.noLostWakeup (hS : S.Wake) : NoLostWakeup S := by
  intro hquiet
  simp only [quiet, Bool.and_eq_true, beq_iff_eq, List.all_eq_true] at hquiet
  obtain ⟨hscheduled, hidle⟩ := hquiet
  have hcares : Pool.total Proc.cares S.procs = 0 :=
    Pool.total_eq_zero.mpr fun p hp => (Proc.weights_of_idle (hidle p hp)).1
  have haccepted : Pool.total Proc.accepted S.procs = 0 :=
    Pool.total_eq_zero.mpr fun p hp => (Proc.weights_of_idle (hidle p hp)).2.1
  have hwatches : Pool.total Proc.watches S.procs = 0 :=
    Pool.total_eq_zero.mpr fun p hp => (Proc.weights_of_idle (hidle p hp)).2.2.1
  have hposts : Pool.total Proc.active S.procs = 0 :=
    Pool.total_eq_zero.mpr fun p hp => (Proc.weights_of_idle (hidle p hp)).2.2.2.1
  have hannounces : Pool.total Proc.announces S.procs = 0 :=
    Pool.total_eq_zero.mpr fun p hp => (Proc.weights_of_idle (hidle p hp)).2.2.2.2
  have hactive : S.shared.activePosts = 0 := by
    rw [hS.kept.guarded.active, hposts]
    rfl
  have hqueued : S.shared.queuedTasks = 0 := by
    have hnonneg := hS.kept.queuedTasks_nonneg
    have hattended := hS.attended.cares
    omega
  refine ⟨hqueued, ?_, Shared.waiters_eq_nil fun w => ?_⟩
  · have hlength := hS.kept.counted.length_le
    rw [hqueued] at hlength
    exact List.length_eq_zero_iff.mp (by omega)
  · have hnone : S.waiting w = 0 := by
      cases w with
      | first =>
        have hfirst := hS.awaited.first
        omega
      | second =>
        have hsecond := hS.awaited.second
        omega
    simp only [waiting] at hnone
    omega

end State

/-- In every run in which no compare-exchange of `Post` fails on a `Drain` that will not look at the
queue again, and none of `CloseFromOwner` on one that will not look at `owner_closing_` again, no
wakeup is lost. -/
theorem noLostWakeup_of_not_misses {ls : List (Label τ)} {S : State τ}
    (h : exec State.step {} ls = some S)
    (hok : Meets State.step (fun S l => S.misses l = false) {} ls) : NoLostWakeup S := by
  have hwake : S.Wake :=
    exec_invariant (fun S l => S.misses l = false) (fun _ _ _ hS hok hstep => hS.step hok hstep)
      h hok State.wake_init
  exact hwake.noLostWakeup

/-- Two posts, each with a `Drain` of its own: the first `Drain` is gone when the second task is
posted. -/
def twoDrains : List (Label Nat) :=
  .post 0 10 :: Label.steps 0 9 ++ .start :: Label.steps 1 3 ++ .step 1 (.finish false) ::
    Label.steps 1 7 ++ .flush 1 :: .post 0 11 :: Label.steps 2 9 ++ .start :: Label.steps 3 3 ++
    .step 3 (.finish false) :: Label.steps 3 7 ++ [.flush 3]

theorem noLostWakeup_twoDrains :
    ∃ S : State Nat, exec State.step {} twoDrains = some S ∧ S.quiet = true ∧
      S.shared.taken = [(0, .run), (2, .run)] ∧ NoLostWakeup S := by
  have hrun : (exec State.step {} twoDrains).map (fun S => (S.quiet, S.shared.taken)) =
      some (true, [(0, .run), (2, .run)]) := by decide +kernel
  obtain ⟨S, hS, hstate⟩ := Option.map_eq_some_iff.mp hrun
  obtain ⟨hquiet, htaken⟩ := by simpa only [Prod.mk.injEq] using hstate
  refine ⟨S, hS, hquiet, htaken, noLostWakeup_of_not_misses hS ?_⟩
  exact (meets_of_check (fun S l => !S.misses l) (by decide +kernel)).mono
    fun _ _ hmisses => by simpa using hmisses

/-- The first `Drain` has found the counters zero and returned, and its store to `draining_` becomes
visible only after the second `Post` has tried to set it. -/
def lateStore : List (Label Nat) :=
  .post 0 10 :: Label.steps 0 9 ++ .start :: Label.steps 1 3 ++ .step 1 (.finish false) ::
    Label.steps 1 7 ++ .post 0 11 :: Label.steps 2 8 ++ [.flush 1]

/-- The second task stays in the queue, and nothing is left that would run it. -/
theorem lost_wakeup_lateStore :
    ∃ S : State Nat, exec State.step {} lateStore = some S ∧ S.quiet = true ∧
      S.shared.queuedTasks = 1 ∧ ¬ NoLostWakeup S := by
  have hrun : (exec State.step {} lateStore).map (fun S => (S.quiet, S.shared.queuedTasks)) =
      some (true, 1) := by decide +kernel
  obtain ⟨S, hS, hstate⟩ := Option.map_eq_some_iff.mp hrun
  obtain ⟨hquiet, hqueued⟩ := by simpa only [Prod.mk.injEq] using hstate
  refine ⟨S, hS, hquiet, hqueued, fun hnone => ?_⟩
  have hzero := (hnone hquiet).1
  omega

end Connx.Executor
