import Connx.Utils.Mpscq.Invariant

/-!
# When the queue holds no node

`PopAndCheckEnd` may report the end although nodes are in the list, behind a link that is still to
be written. The producer that is to write it then is one that found `stub_` in `newest_`.
-/

namespace Connx.Mpscq

variable {ν : Type} [DecidableEq ν] {S S' : State ν} {chain : List (Cell ν)} {n : ν}

/-- Every node that was exchanged onto `newest_` has been returned. -/
def State.Empty (S : State ν) : Prop := S.exchanged.map .node = S.returned

lemma Rep.empty_iff (h : Rep S chain) : S.Empty ↔ ∀ c ∈ chain, c = .stub := by
  unfold State.Empty
  rw [h.order, List.append_right_eq_self, List.filter_eq_nil_iff]
  simp

lemma State.Inv.newest_of_empty (hS : S.Inv) (h : S.Empty) : S.queue.newest = .stub := by
  obtain ⟨chain, hrep⟩ := hS
  exact hrep.empty_iff.mp h _ hrep.toShape.newest_mem

lemma State.Inv.stub_not_mem (hS : S.Inv) : .stub ∉ S.returned := by
  obtain ⟨chain, hrep⟩ := hS
  intro hmem
  have hmap : Cell.stub ∈ S.exchanged.map .node := by
    rw [hrep.order]
    exact List.mem_append_left _ hmem
  simp at hmap

/-! ### Steps -/

/-- The steps of the consumer leave the producers alone. -/
lemma consume_eq (h : S.step .consume = some S') :
    S'.pushes = S.pushes ∧ S'.exchanged = S.exchanged ∧
      S'.returned = S.returned ++ S'.pop.result ∧ PopStep S.queue S.pop S'.queue S'.pop := by
  obtain ⟨⟨q', pc'⟩, hpop, rfl⟩ := Option.map_eq_some_iff.mp h
  refine ⟨rfl, rfl, ?_, popAct_step hpop⟩
  unfold PopPc.result
  dsimp only
  split <;> simp

lemma pop_eq (h : S.step .pop = some S') : S.pop.isDone = true ∧ S' = { S with pop := .load } := by
  simp only [State.step] at h
  split_ifs at h with hdone
  exact ⟨hdone, by simpa [eq_comm] using h⟩

lemma push_eq (h : S.step (.push n) = some S') :
    S.pushes n = none ∧ S' = { S with pushes := Function.update S.pushes n (some .clear) } := by
  simp only [State.step] at h
  split_ifs at h with hnone
  exact ⟨hnone, by simpa [eq_comm] using h⟩

/-- The steps of a producer leave the other calls alone. -/
lemma step_eq (h : S.step (.step n) = some S') :
    ∃ pc pc', S.pushes n = some pc ∧ S'.pushes n = some pc' ∧
      PushStep S.queue (.node n) pc S'.queue pc' ∧ (∀ m, m ≠ n → S'.pushes m = S.pushes m) ∧
      S'.pop = S.pop ∧ S'.returned = S.returned ∧
      S'.exchanged = if pc = .exchange then S.exchanged ++ [n] else S.exchanged := by
  obtain ⟨pc, hpc, hact⟩ := Option.bind_eq_some_iff.mp h
  obtain ⟨⟨q', pc'⟩, hpush, rfl⟩ := Option.map_eq_some_iff.mp hact
  exact ⟨pc, pc', hpc, by simp, pushAct_step hpush, fun m hm => Function.update_of_ne hm _ _,
    rfl, rfl, rfl⟩

/-- A queue without nodes gets one by an exchange that finds `stub_`. -/
lemma State.Empty.step {l : Label ν} (h : S.Empty) (hS : S.Inv) (hstep : S.step l = some S') :
    S'.Empty ∨ ∃ n, l = .step n ∧ S'.pushes n = some (.link .stub) := by
  cases l with
  | push n =>
    obtain ⟨-, rfl⟩ := push_eq hstep
    exact .inl h
  | step n =>
    obtain ⟨pc, pc', hpc, hpc', hpush, -, -, hret, hex⟩ := step_eq hstep
    generalize S'.queue = q' at hpush
    cases hpush with
    | exchange => exact .inr ⟨n, rfl, by rw [hpc', hS.newest_of_empty h]⟩
    | _ =>
      left
      unfold State.Empty
      rw [hret, hex, if_neg (by simp)]
      exact h
  | pop =>
    obtain ⟨-, rfl⟩ := pop_eq hstep
    exact .inl h
  | consume =>
    left
    obtain ⟨chain, hrep⟩ := hS.step hstep
    obtain ⟨-, hex, hret, -⟩ := consume_eq hstep
    unfold State.Empty
    have horder := hrep.order
    rw [hex, h, hret, List.append_assoc, List.self_eq_append_right] at horder
    rw [hex, h, hret, (List.append_eq_nil_iff.mp horder).1, List.append_nil]

/-- When the end is reported there is no node, or the producer of the first one found `stub_` and
has still to link its node. -/
lemma State.Inv.empty_or_first (hS : S.Inv) (hstep : S.step .consume = some S')
    (hpop : S'.pop = .done none true) : S'.Empty ∨ ∃ n, S'.pushes n = some (.link .stub) := by
  obtain ⟨chain, hrep⟩ := hS.step hstep
  obtain ⟨-, -, -, hpopStep⟩ := consume_eq hstep
  rw [hpop] at hpopStep
  generalize S.pop = pc at hpopStep
  generalize hq : S'.queue = q' at hpopStep
  cases hpopStep with
  | empty hold hnext =>
    rw [← hq] at hold hnext
    obtain ⟨rest, hchain⟩ := List.head?_eq_some_iff.mp hrep.head
    cases rest with
    | nil =>
      left
      rw [hrep.empty_iff, hchain]
      simpa using hold
    | cons b rest =>
      right
      have hafter : Succession.After chain .stub b := ⟨[], rest, by rw [hchain, hold]; rfl⟩
      obtain hlink | ⟨-, ⟨n, rfl, hn⟩ | ⟨rfl, -⟩⟩ := hrep.links _ _ hafter
      · simp [hnext] at hlink
      · exact ⟨n, hn⟩
      · have hnodup := hrep.nodup
        simp [hchain, hold] at hnodup

end Connx.Mpscq
