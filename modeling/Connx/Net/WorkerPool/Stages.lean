import Connx.Net.WorkerPool.WorkerInv

/-!
# How a worker is shut down

`Stop` takes each worker through the same stages: it refuses further calls, its thread ends, the
last call that was let in leaves, and its queue is emptied. No step leads back.
-/

namespace Connx.WorkerPool

open Pool

variable {W W' : Worker} {n : Nat}

namespace Worker

def Refused (W : Worker) : Prop := W.accepting = false

def Ended (W : Worker) : Prop := W.run = .returned

/-- No call is on its way to the queue, and none will be. -/
def Sealed (W : Worker) : Prop := W.accepting = false ∧ ∀ c ∈ W.calls, c.pc.inside = false

/-- The queue is empty for good. -/
def Drained (W : Worker) : Prop := W.Sealed ∧ W.queue.Empty

/-- The thread will run nothing any more, and nothing is left. -/
def Finished (W : Worker) : Prop := W.Ended ∧ W.Drained

/-- What every step of a worker keeps. -/
structure Later (W W' : Worker) : Prop where
  generation : W'.generation = W.generation
  refused : W.Refused → W'.Refused
  ended : W.Ended → W'.Ended
  sealed : W.Sealed → W'.Sealed
  drained : W.Drained → W'.Drained

lemma Later.refl (W : Worker) : W.Later W := ⟨rfl, id, id, id, id⟩

lemma Later.finished (h : W.Later W') (hW : W.Finished) : W'.Finished :=
  ⟨h.ended hW.1, h.drained hW.2⟩

/-! ### Reaching the stages -/

lemma Inv.sealed_of_active (hW : W.Inv) (hrefused : W.Refused) (hactive : W.activePosts = 0) :
    W.Sealed := by
  refine ⟨hrefused, fun c hc => PostPc.inside_of_counted ?_⟩
  have htotal : total Call.counted W.calls = 0 := by
    have hsum := hW.active
    omega
  exact total_eq_zero.mp htotal c hc

/-- A drain that reports the end has emptied the queue. -/
lemma Inv.drained_of_end {q : Mpscq.State Nat} (hW : W.Inv) (hsealed : W.Sealed)
    (hq : W.queue.step .consume = some q) (hend : q.pop = .done none true) : q.Empty := by
  refine (hW.queue.empty_or_first hq hend).resolve_right ?_
  rintro ⟨n, hlink⟩
  rw [(Mpscq.consume_eq hq).1] at hlink
  obtain ⟨c, hc, rfl⟩ := List.mem_map.mp (hW.posted n (by simp [hlink]))
  have hmatch := hW.pushes c hc
  rw [hlink] at hmatch
  have hpush : c.pc = .push := by
    by_contra hne
    obtain ⟨first, hdone⟩ := hmatch.done hmatch.letIn hne
    simp at hdone
  have hinside := hsealed.2 c hc
  simp [hpush, PostPc.inside] at hinside

/-- A worker no call has chosen. -/
lemma Inv.drained_of_calls (hW : W.Inv) (hrefused : W.Refused) (hcalls : W.calls = []) :
    W.Drained := by
  refine ⟨⟨hrefused, by simp [hcalls]⟩, ?_⟩
  obtain ⟨chain, hrep⟩ := hW.queue
  have hnil : W.queue.exchanged = [] := by
    rw [List.eq_nil_iff_forall_not_mem]
    intro n hn
    obtain ⟨pc, hpc, -⟩ := (hrep.exchanged n).mp hn
    have hmem := hW.posted n (by simp [hpc])
    simp [hcalls] at hmem
  have horder := hrep.order
  rw [hnil, List.map_nil, eq_comm, List.append_eq_nil_iff] at horder
  show W.queue.exchanged.map .node = W.queue.returned
  rw [hnil, horder.1, List.map_nil]

/-! ### Keeping them -/

/-- A sealed worker under an operation of a call. -/
lemma Sealed.post {i : Nat} {c : Call} {pc' : PostPc} (h : W.Sealed) (hi : W.calls[i]? = some c)
    (hstep : CallStep W c.task c.pc W' pc') :
    { W' with calls := W'.calls.set i { c with pc := pc' } : Worker }.Sealed ∧
      W'.queue = W.queue := by
  have hinside := h.2 c (List.mem_of_getElem? hi)
  have hnext : pc'.inside = false ∧ W'.queue = W.queue := by
    generalize c.pc = pc at hstep hinside
    cases hstep with
    | accept haccepting => simp [h.1] at haccepting
    | push => simp [PostPc.inside] at hinside
    | lock => simp [PostPc.inside] at hinside
    | wake => simp [PostPc.inside] at hinside
    | unlock => simp [PostPc.inside] at hinside
    | _ => exact ⟨rfl, rfl⟩
  refine ⟨⟨hstep.frame.2.1.trans h.1, fun c' hc' => ?_⟩, hnext.2⟩
  simp only [hstep.calls] at hc'
  obtain hmem | rfl := List.mem_or_eq_of_mem_set hc'
  · exact h.2 c' hmem
  · exact hnext.1

lemma later_run {generation : Nat} {stopping : Bool} {pc' : RunPc} (hW : W.Inv)
    (h : RunStep W generation stopping W.run W' pc') :
    W.Later { W' with run := pc' } := by
  obtain ⟨hgeneration, haccepting, -, hcalls⟩ := h.frame
  have hsealed : W.Sealed → { W' with run := pc' : Worker }.Sealed := fun hs =>
    ⟨haccepting.trans hs.1, fun c hc => hs.2 c (hcalls ▸ hc)⟩
  refine ⟨hgeneration, fun hr => haccepting.trans hr, fun hended => ?_, hsealed, fun hd => ?_⟩
  · rw [show W.run = .returned from hended] at h
    nomatch h
  · refine ⟨hsealed hd.1, ?_⟩
    obtain hq | hq | ⟨-, hq, -⟩ := h.queue
    · exact (congrArg Mpscq.State.Empty hq).mpr hd.2
    · exact (hd.2.step hW.queue hq).resolve_right (by simp)
    · exact (hd.2.step hW.queue hq).resolve_right (by simp)

/-- The steps that touch only `accepting`, the mutex, `wake_pending`, the queue and the fates. -/
lemma later_of_eq (hgeneration : W'.generation = W.generation)
    (haccepting : W.accepting = false → W'.accepting = false) (hrun : W'.run = W.run)
    (hcalls : W'.calls = W.calls) (hempty : W.queue.Empty → W'.queue.Empty) : W.Later W' := by
  have hsealed : W.Sealed → W'.Sealed := fun hs => ⟨haccepting hs.1, hcalls ▸ hs.2⟩
  exact ⟨hgeneration, haccepting, fun h => hrun.trans h, hsealed,
    fun h => ⟨hsealed h.1, hempty h.2⟩⟩

theorem Inv.later {l : Worker.Label} (hW : W.Inv) (h : W.step l = some W') : W.Later W' := by
  cases worker_step h with
  | @call n hn =>
    have hsealed : W.Sealed → { W with calls := W.calls ++ [⟨n, .enter⟩] : Worker }.Sealed := by
      refine fun hs => ⟨hs.1, fun c hc => ?_⟩
      obtain hc | rfl := by simpa using hc
      · exact hs.2 c hc
      · rfl
    exact ⟨rfl, id, id, hsealed, fun hd => ⟨hsealed hd.1, hd.2⟩⟩
  | post hi hstep =>
    obtain ⟨hgeneration, haccepting, hrun, -⟩ := hstep.frame
    refine ⟨hgeneration, fun hr => haccepting.trans hr, fun he => hrun.trans he,
      fun hs => (hs.post hi hstep).1, fun hd => ?_⟩
    obtain ⟨hsealed, hqueue⟩ := hd.1.post hi hstep
    exact ⟨hsealed, (congrArg Mpscq.State.Empty hqueue).mpr hd.2⟩
  | run hrun => exact later_run hW hrun
  | finish hrun =>
    refine ⟨rfl, id, fun hended => ?_, id, id⟩
    simp [Ended, hrun] at hended
  | refuse => exact later_of_eq rfl (fun _ => rfl) rfl rfl id
  | lock => exact later_of_eq rfl id rfl rfl id
  | wake => exact later_of_eq rfl id rfl rfl id
  | unlock => exact later_of_eq rfl id rfl rfl id
  | beginPop hq =>
    exact later_of_eq rfl id rfl rfl fun he => (he.step hW.queue hq).resolve_right (by simp)
  | discard hq =>
    exact later_of_eq rfl id rfl rfl fun he => (he.step hW.queue hq).resolve_right (by simp)

/-! ### Tasks -/

/-- The nodes that were taken off the queue are those with a fate and the one the thread holds; they
come in the order of the exchanges. -/
lemma Inv.prefix_fates (hW : W.Inv) : W.fates.map Prod.fst ++ W.run.held <+: W.queue.exchanged := by
  obtain ⟨chain, hrep⟩ := hW.queue
  have hcells : (W.fates.map Prod.fst ++ W.run.held).map Mpscq.Cell.node <+:
      W.queue.exchanged.map .node := by
    rw [hrep.order, ← hW.fates]
    exact List.prefix_append _ _
  refine List.prefix_iff_eq_take.mpr ?_
  have heq := List.prefix_iff_eq_take.mp hcells
  rw [List.length_map, ← List.map_take] at heq
  exact List.map_injective_iff.mpr (fun _ _ => Mpscq.Cell.node.inj) heq

lemma Inv.nodup_fates (hW : W.Inv) : (W.fates.map Prod.fst ++ W.run.held).Nodup := by
  obtain ⟨chain, hrep⟩ := hW.queue
  exact hrep.distinct.sublist hW.prefix_fates.sublist

lemma Inv.exchanged_iff (hW : W.Inv) (n : Nat) :
    n ∈ W.queue.exchanged ↔ ∃ pc, W.queue.pushes n = some pc ∧ pc.exchanged = true := by
  obtain ⟨chain, hrep⟩ := hW.queue
  exact hrep.exchanged n

/-- A call whose task was taken off the queue had been let in. -/
lemma Inv.letIn_of_exchanged (hW : W.Inv) {c : Call} (hc : c ∈ W.calls)
    (h : c.task ∈ W.queue.exchanged) : c.pc.letIn = true := by
  obtain ⟨pc, hpc, -⟩ := (hW.exchanged_iff c.task).mp h
  rw [(hW.pushes c hc).letIn, hpc]
  rfl

lemma Inv.exchanged_of_letIn (hW : W.Inv) {c : Call} (hc : c ∈ W.calls)
    (hletIn : c.pc.letIn = true) (hpc : c.pc ≠ .push) : c.task ∈ W.queue.exchanged := by
  obtain ⟨first, hdone⟩ := (hW.pushes c hc).done hletIn hpc
  exact (hW.exchanged_iff c.task).mpr ⟨_, hdone, rfl⟩

/-- When the queue is empty and the thread holds no node, every task that was exchanged has its
fate. -/
lemma Inv.fates_of_empty (hW : W.Inv) (hempty : W.queue.Empty) (hheld : W.run.held = []) :
    W.fates.map Prod.fst = W.queue.exchanged := by
  have heq : W.queue.exchanged.map Mpscq.Cell.node = _ := hempty.trans hW.fates
  rw [hheld, List.append_nil] at heq
  exact (List.map_injective_iff.mpr (fun _ _ => Mpscq.Cell.node.inj) heq).symm

end Worker

end Connx.WorkerPool
