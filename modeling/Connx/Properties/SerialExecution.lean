import Connx.Net.Executor.Order

/-!
# Tasks run one at a time, in order, at most once

For any number of calls of `Post`, `Drain` and `CloseFromOwner`, on any threads and from inside
tasks, with stores that become visible late.
-/

namespace Connx.Executor

open Run

variable {τ : Type}

/-- What the executor promises of the tasks. A `Drain` holds `draining_` from its first operation
until its store of `false` is visible; a node is taken off the queue either to be run or to be
discarded. -/
structure SerialExecution (S : State τ) : Prop where
  one_drain {i j n m : Nat} {pc pc' : DrainPc τ} (hi : S.procs[i]? = some (.drain n pc))
    (hj : S.procs[j]? = some (.drain m pc')) (howns : 0 < pc.owns) (howns' : 0 < pc'.owns) : i = j
  at_most_once : (S.shared.taken.map Prod.fst).Nodup
  in_order : S.shared.taken.map Prod.fst <+: S.shared.pushed
  program_order :
    (S.shared.taken.map Prod.fst).Pairwise fun a b => S.thread a = S.thread b → a < b
  queued : (S.shared.nodes.countP Node.linked : Int) ≤ S.shared.queuedTasks

/-- What carries `SerialExecution` from step to step. -/
structure State.Serial (S : State τ) : Prop where
  owned : S.Owned
  counted : S.Counted
  ordered : S.Ordered

namespace State

variable {S S' : State τ}

lemma serial_init : ({} : State τ).Serial where
  owned := rfl
  counted := rfl
  ordered := by constructor <;> simp [Shared.history]

lemma Serial.step {l : Label τ} (hS : S.Serial) (h : S.step l = some S') : S'.Serial where
  owned := hS.owned.step h
  counted := hS.counted.step h
  ordered := hS.ordered.step h

lemma Serial.exec {ls : List (Label τ)} (h : exec State.step {} ls = some S) : S.Serial :=
  exec_invariant (fun _ _ => True) (fun _ _ _ hS _ hstep => hS.step hstep) h
    (meets_of_forall (fun _ _ => trivial) _ _) serial_init

lemma Serial.in_order (hS : S.Serial) : S.shared.taken.map Prod.fst <+: S.shared.pushed := by
  rw [← hS.ordered.history]
  exact List.prefix_append _ _

lemma Serial.one_drain (hS : S.Serial) {i j : Nat} {p q : Proc τ} (hp : S.procs[i]? = some p)
    (hq : S.procs[j]? = some q) (hpowns : 0 < p.owns) (hqowns : 0 < q.owns) : i = j := by
  have hone := hS.owned.owns_le_one
  exact Pool.eq_of_total_le_one (f := Proc.owns) (by omega) hp hq hpowns hqowns

/-- A node is counted before it is pushed and until after it is taken. -/
lemma Serial.queued (hS : S.Serial) :
    (S.shared.nodes.countP Node.linked : Int) ≤ S.shared.queuedTasks := by
  have hle : S.shared.nodes.countP Node.linked ≤ S.shared.nodes.length := List.countP_le_length
  exact (Int.ofNat_le.mpr hle).trans hS.counted.length_le

end State

/-- In every run: at most one `Drain` holds `draining_`; a task is taken at most once, so it is
never run twice nor both run and discarded; tasks are taken in the order of the pushes, those of one
thread in the order of its calls; and `queued_tasks_` covers the linked nodes. -/
theorem serialExecution_of_exec {ls : List (Label τ)} {S : State τ}
    (h : exec State.step {} ls = some S) : SerialExecution S := by
  have hS := State.Serial.exec h
  constructor
  · intro i j n m pc pc' hi hj howns howns'
    exact hS.one_drain hi hj howns howns'
  · exact hS.ordered.nodup.sublist hS.in_order.sublist
  · exact hS.in_order
  · exact hS.ordered.program.sublist hS.in_order.sublist
  · exact hS.queued

/-- Two posts of one thread and a `Drain` that runs the first task, which closes the connection and
so discards the second. -/
def closeInsideTask : List (Label Unit) :=
  .post 0 () :: Label.steps 0 9 ++ .post 0 () :: Label.steps 1 8 ++ .start :: Label.steps 2 3 ++
    .step 2 .closeFromOwner :: Label.steps 2 2 ++ .flush 2 :: .flush 2 :: Label.steps 2 9

theorem serialExecution_closeInsideTask :
    ∃ S : State Unit, exec State.step {} closeInsideTask = some S ∧
      S.shared.taken = [(0, .run), (1, .discarded)] ∧ SerialExecution S := by
  have hrun : (exec State.step {} closeInsideTask).map (·.shared.taken) =
      some [(0, .run), (1, .discarded)] := by decide +kernel
  obtain ⟨S, hS, htaken⟩ := Option.map_eq_some_iff.mp hrun
  exact ⟨S, hS, htaken, serialExecution_of_exec hS⟩

end Connx.Executor
