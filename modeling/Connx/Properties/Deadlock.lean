import Connx.Net.Lifecycle.Runs

/-!
# Creating and releasing clients without deadlock

No thread waits for itself, along any chain of waits, as long as no callback waits for its own
worker or for one that waits, and none calls on after it has released its own client. Without that
condition two clients on one worker are enough.
-/

namespace Connx.Lifecycle

open Run WaitGraph

variable {S : State} {t u : Thread}

/-- In every run that `allows`, no state has a cycle of threads that wait for each other. -/
theorem acyclic_of_exec {ls : List Label} (h : exec State.step {} ls = some S)
    (hok : Meets State.step (fun S l => S.allows l = true) {} ls) : Acyclic S.Waits :=
  (inv_of_exec h hok).acyclic_waits

/-- Two clients on different workers; a callback of the first one releases the second, which another
worker drains, while an application thread creates a third one. -/
def crossRelease : List Label :=
  let create (k : Nat) (worker : Nat) : List Label :=
    [.create (.app 0), .step k {}, .step k {}, .step k {}, .step k { worker := worker }]
  [Label.create (.app 0), .step 0 {}, .step 0 {}, .step 0 { threads := 2 }, .step 0 {}, .step 0 {},
    .step 0 {}] ++ create 1 1 ++
  [Label.post 0, .drain 0 0, .release (.worker 0) 1, .create (.app 0), .step 3 {}, .drain 1 1]

/-- The run is allowed, and its callback waits for the other worker. -/
theorem acyclic_crossRelease : ∃ S, exec State.step {} crossRelease = some S ∧
    S.Waits (.worker 0) (.worker 1) ∧ Acyclic S.Waits := by
  have hok : Meets State.step (fun S l => S.allows l = true) {} crossRelease :=
    meets_of_check State.allows (by decide +kernel)
  have hfacts : (exec State.step {} crossRelease).map (fun S => (S.calls[2]?, S.clients[1]?,
      S.isIdle 1)) = some (some ⟨.worker 0, .idleWait 1⟩,
        some ⟨1, true, true, true, false⟩, false) := by
    decide +kernel
  obtain ⟨S, hS, hfacts⟩ := Option.map_eq_some_iff.mp hfacts
  simp only [Prod.mk.injEq] at hfacts
  obtain ⟨hcall, hclient, hidle⟩ := hfacts
  exact ⟨S, hS, ⟨_, List.mem_of_getElem? hcall, rfl, hidle, _, hclient, rfl⟩,
    acyclic_of_exec hS hok⟩

/-- Two clients on the only worker; a callback of the first one releases the second. -/
def sameWorker : List Label :=
  [.create (.app 0), .step 0 {}, .step 0 {}, .step 0 {}, .step 0 {}, .step 0 {}, .step 0 {},
    .create (.app 0), .step 1 {}, .step 1 {}, .step 1 {}, .step 1 {},
    .post 0, .drain 0 0, .release (.worker 0) 1]

/-- The worker waits for the drain that only it can run. -/
theorem not_acyclic_sameWorker :
    ∃ S, exec State.step {} sameWorker = some S ∧ S.Waits (.worker 0) (.worker 0) := by
  have hfacts : (exec State.step {} sameWorker).map (fun S => (S.calls[2]?, S.clients[1]?,
      S.isIdle 1)) = some (some ⟨.worker 0, .idleWait 1⟩,
        some ⟨0, true, true, true, false⟩, false) := by
    decide +kernel
  obtain ⟨S, hS, hfacts⟩ := Option.map_eq_some_iff.mp hfacts
  simp only [Prod.mk.injEq] at hfacts
  obtain ⟨hcall, hclient, hidle⟩ := hfacts
  exact ⟨S, hS, _, List.mem_of_getElem? hcall, rfl, hidle, _, hclient, rfl⟩

end Connx.Lifecycle
