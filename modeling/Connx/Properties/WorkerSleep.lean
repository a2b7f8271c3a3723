import Connx.Net.WorkerPool.Runs

/-!
# A worker never sleeps on accepted work

In every run of the pool, of any length, with any number of calls of `Post`, `Start` and `Stop`.
-/

namespace Connx.WorkerPool

open Run

variable {S : State} {W : Worker}

/-- The thread waits on its condition variable and will not be woken. -/
def Worker.Asleep (W : Worker) : Prop := W.run = .waiting ∧ W.wakePending = false

/-- Every call of `PostToWorker` on the worker has returned. -/
def Worker.Unposted (W : Worker) : Prop := ∀ c ∈ W.calls, ∃ accepted, c.pc = .done accepted

lemma Worker.Unposted.not_signals (h : W.Unposted) {c : Call} (hc : c ∈ W.calls) :
    ¬ W.Signals c := by
  obtain ⟨accepted, hpc⟩ := h c hc
  rintro (⟨hpush, -⟩ | hlock | hwake)
  · simp [hpc] at hpush
  · simp [hpc] at hlock
  · simp [hpc] at hwake

lemma Worker.Inv.empty_or_signals (hW : W.Inv) (h : W.Asleep) :
    W.queue.Empty ∨ ∃ c ∈ W.calls, W.Signals c := by
  obtain hempty | hwake | hsignals := hW.awake (by rw [h.1]; rfl)
  · exact .inl hempty
  · simp [h.2] at hwake
  · exact .inr hsignals

/-- The tasks of calls that were let in have a fate once the thread sleeps and no call is in
progress. -/
lemma Worker.Inv.fate_of_asleep (hW : W.Inv) (h : W.Asleep) (hcalls : W.Unposted) {c : Call}
    (hc : c ∈ W.calls) (hpc : c.pc = .done true) : ∃ fate, (c.task, fate) ∈ W.fates := by
  have hempty : W.queue.Empty := (hW.empty_or_signals h).resolve_right fun ⟨c, hc, hsignals⟩ =>
    hcalls.not_signals hc hsignals
  have hmem : c.task ∈ W.queue.exchanged :=
    hW.exchanged_of_letIn hc (by rw [hpc]; rfl) (by simp [hpc])
  rw [← hW.fates_of_empty hempty (by rw [h.1]; rfl)] at hmem
  obtain ⟨⟨n, fate⟩, hfate, rfl⟩ := List.mem_map.mp hmem
  exact ⟨fate, hfate⟩

/-- What sleeping means for a worker of the pool. -/
structure SleepsSafely (S : State) (W : Worker) : Prop where
  told : W.Asleep → W.queue.Empty ∨ ∃ c ∈ W.calls, W.Signals c
  allRun : S.stopping = false → W.generation = S.generation → W.Asleep → W.Unposted →
    ∀ c ∈ W.calls, c.pc = .done true → (c.task, .run) ∈ W.fates

/-- In every reachable state, a worker that waits with `wake_pending` false has an empty queue, or a
call of `PostToWorker` that found `stub_` has still to set `wake_pending`; and when the pool is not
stopping and no such call is in progress, every task that was accepted has been run. -/
theorem sleepsSafely_of_exec {ls : List Label} (h : exec State.step {} ls = some S)
    (hW : W ∈ S.workers) : SleepsSafely S W := by
  have hS := inv_of_exec h
  have hinv := hS.workers W hW
  refine ⟨hinv.empty_or_signals, fun hstopping hgeneration hasleep hcalls c hc hpc => ?_⟩
  obtain ⟨fate, hfate⟩ := hinv.fate_of_asleep hasleep hcalls hc hpc
  cases fate with
  | run => exact hfate
  | discarded =>
    obtain hlt | hstopping' := hS.discarded W hW c.task hfate
    · omega
    · simp [hstopping'] at hstopping

/-- `Start` with one thread, and a call of `Post` whose task is run; then the worker sleeps. -/
def sleepAfterTask : List Label :=
  Label.start 1 :: List.replicate 6 (Label.region .ok) ++
    Label.post 0 :: List.replicate 2 (Label.choose 0) ++ List.replicate 10 (Label.call 0 0) ++
    List.replicate 15 (Label.run 0) ++ Label.finish 0 :: List.replicate 8 (Label.run 0)

theorem sleepsSafely_sleepAfterTask : ∃ S W, exec State.step {} sleepAfterTask = some S ∧
    S.workers = [W] ∧ W.Asleep ∧ W.Unposted ∧ W.fates = [(0, .run)] ∧ SleepsSafely S W := by
  have hthread : (exec State.step {} sleepAfterTask).map (fun S => S.workers.map fun W =>
      (W.run, W.wakePending)) = some [(.waiting, false)] := by decide +kernel
  have hposts : (exec State.step {} sleepAfterTask).map (fun S => S.workers.map fun W =>
      (W.calls, W.fates)) = some [([⟨0, .done true⟩], [(0, .run)])] := by decide +kernel
  obtain ⟨S, hS, heq⟩ := Option.map_eq_some_iff.mp hthread
  obtain ⟨W, hworkers, hW⟩ := List.map_eq_singleton_iff.mp heq
  rw [hS, Option.map_some, hworkers] at hposts
  obtain ⟨hwaiting, hwake⟩ := by simpa using hW
  obtain ⟨hcalls, hfates⟩ := by simpa using hposts
  refine ⟨S, W, hS, hworkers, ⟨hwaiting, hwake⟩, ?_, hfates,
    sleepsSafely_of_exec hS (by simp [hworkers])⟩
  rw [Worker.Unposted, hcalls]
  simp

end Connx.WorkerPool
