import Connx.Utils.Mpscq.Invariant

/-!
# The queue loses, duplicates and reorders nothing

For any number of calls of `push`, each with a node of its own, and one consumer.
-/

namespace Connx.Mpscq

open Run

variable {ν : Type} [DecidableEq ν] {S S' : State ν} {chain : List (Cell ν)}

/-- A push that is under way, of a producer or of the consumer, has still to write the `next` field
of the cell. -/
def State.Writes (S : State ν) (c : Cell ν) : Prop :=
  (∃ n, S.pushes n = some (.link c) ∨ c = .node n ∧ S.pushes n = some .clear) ∨
    ∃ tail, S.pop = .reinsert tail (.link c) ∨ c = .stub ∧ S.pop = .reinsert tail .clear

/-- The first cell points to the second, or the push that put the second behind it is about to write
that. -/
def State.Linked (S : State ν) (a b : Cell ν) : Prop := S.queue.next a = some b ∨ S.Pending a b

/-- No call is in progress. -/
def State.Quiet (S : State ν) : Prop :=
  (∀ n pc, S.pushes n = some pc → ∃ first, pc = .done first) ∧ S.pop.isDone = true

/-- A whole call of `PopAndCheckEnd`, with what it returns and `*empty`. -/
def Call (S S' : State ν) (result : Option (Cell ν)) (empty : Bool) : Prop :=
  ∃ m, exec State.step S (.pop :: List.replicate m .consume) = some S' ∧ S'.pop = .done result empty

/-- Calls that return the nodes one after the other. -/
inductive Calls : State ν → List ν → State ν → Prop
  | nil (S : State ν) : Calls S [] S
  | cons {S T S' : State ν} {n : ν} {ns : List ν} (h : Call S T (some (.node n)) false)
      (hrest : Calls T ns S') : Calls S (n :: ns) S'

/-- What the queue promises. -/
structure Lossless (S : State ν) : Prop where
  in_order : ∃ ns, S.returned = ns.map .node ∧ ns <+: S.exchanged
  at_most_once : S.returned.Nodup
  released : ∀ c ∈ S.returned, ¬ S.Writes c ∧ c ≠ S.queue.newest
  list : ∃ chain : List (Cell ν), chain.head? = some S.queue.oldest ∧
    chain.getLast? = some S.queue.newest ∧ chain.IsChain S.Linked ∧
    S.exchanged.map .node = S.returned ++ chain.filter (· ≠ .stub)
  stub_once : ∀ path : List (Cell ν), path.head? = some S.queue.oldest → path.IsChain S.Linked →
    path.count .stub ≤ 1
  drains : S.Quiet → ∃ ns T S', S.exchanged.map .node = S.returned ++ ns.map .node ∧
    Calls S ns T ∧ Call T S' none true

/-! ### The list -/

namespace Rep

lemma nodup_returned (h : Rep S chain) : (S.returned ++ chain.filter (· ≠ .stub)).Nodup := by
  rw [← h.order]
  exact h.distinct.map fun _ _ => Cell.node.inj

lemma not_mem_of_returned (h : Rep S chain) {c : Cell ν} (hc : c ∈ S.returned) :
    c ∉ chain ∧ c ≠ .stub := by
  have hne : c ≠ .stub := by
    rintro rfl
    have hmem : Cell.stub ∈ S.exchanged.map .node := by
      rw [h.order]
      exact List.mem_append_left _ hc
    simp at hmem
  refine ⟨fun hmem => ?_, hne⟩
  have hdisjoint := (List.nodup_append.mp h.nodup_returned).2.2
  exact hdisjoint c hc c (List.mem_filter.mpr ⟨hmem, by simpa using hne⟩) rfl

lemma after_of_linked (h : Rep S chain) {a b : Cell ν} (ha : a ∈ chain) (hab : S.Linked a b) :
    Succession.After chain a b :=
  hab.elim (h.toShape.after_of_next ha) fun hp => (h.pending a b hp).2

lemma in_order (h : Rep S chain) : ∃ ns, S.returned = ns.map .node ∧ ns <+: S.exchanged := by
  refine ⟨S.exchanged.take S.returned.length, ?_, List.take_prefix _ _⟩
  rw [List.map_take, h.order, List.take_left]

lemma released (h : Rep S chain) {c : Cell ν} (hc : c ∈ S.returned) :
    ¬ S.Writes c ∧ c ≠ S.queue.newest := by
  obtain ⟨hchain, hne⟩ := h.not_mem_of_returned hc
  refine ⟨?_, fun hnewest => hchain (hnewest ▸ h.toShape.newest_mem)⟩
  rintro (⟨n, hlink | ⟨rfl, hclear⟩⟩ | ⟨tail, hlink | ⟨rfl, -⟩⟩)
  · exact hchain (h.pending c _ (.inl ⟨n, rfl, hlink⟩)).2.mem_left
  · have hmem : n ∈ S.exchanged := by
      have hmap : Cell.node n ∈ S.exchanged.map .node := by
        rw [h.order]
        exact List.mem_append_left _ hc
      simpa using hmap
    exact (h.not_mem hclear rfl).2 hmem
  · exact hchain (h.pending c _ (.inr ⟨rfl, tail, hlink⟩)).2.mem_left
  · exact hne rfl

lemma isChain (h : Rep S chain) : chain.IsChain S.Linked := by
  refine List.isChain_iff_forall_rel_of_append_cons_cons.mpr fun {a b xs ys} heq => ?_
  exact (h.links a b ⟨xs, ys, heq⟩).imp_right And.right

lemma stub_once (h : Rep S chain) {path : List (Cell ν)}
    (hhead : path.head? = some S.queue.oldest) (hpath : path.IsChain S.Linked) :
    path.count .stub ≤ 1 := by
  have hinitial : path <+: chain := Succession.prefix_of_isChain h.nodup
    (fun a b ha hab => h.after_of_linked ha hab) (hhead.trans h.head.symm) hpath
  exact (hinitial.sublist.count_le _).trans (List.nodup_iff_count_le_one.mp h.nodup _)

end Rep

/-! ### Calls while no push is in progress -/

/-- What a call that returns `c` does. -/
structure Returns (S S' : State ν) (c : Cell ν) : Prop where
  pop : S'.pop = .done (some c) false
  returned : S'.returned = S.returned ++ [c]
  pushes : S'.pushes = S.pushes
  exchanged : S'.exchanged = S.exchanged

/-- The consumer has found `tail` to be the last cell: it pushes `stub_` behind it and returns
`tail`. -/
lemma reinsert_returns {tail : Cell ν} (hpop : S.pop = .loadNewest tail)
    (hnewest : S.queue.newest = tail) :
    ∃ S', exec State.step S (List.replicate 5 .consume) = some S' ∧ Returns S S' tail := by
  refine ⟨{ S with
    queue := { next := Function.update (Function.update S.queue.next .stub none) tail (some .stub) }
    pop := .done (some tail) false
    returned := S.returned ++ [tail] }, ?_, rfl, rfl, rfl, rfl⟩
  simp [List.replicate, exec, State.step, popAct, pushAct, finish, hpop, hnewest, Queue.setNext]

/-- The consumer is about to look behind `tail`. -/
lemma tail_returns {tail : Cell ν} (hpop : S.pop = .load ∨ S.pop = .loadNext tail)
    (hold : S.queue.oldest = tail) (htail : tail ≠ .stub)
    (hlast : S.queue.next tail = none → S.queue.newest = tail) :
    ∃ m S', exec State.step S (List.replicate m .consume) = some S' ∧ Returns S S' tail := by
  cases hnext : S.queue.next tail with
  | some obj =>
    refine ⟨1, { S with
      queue := { S.queue with oldest := obj }
      pop := .done (some tail) false
      returned := S.returned ++ [tail] }, ?_, rfl, rfl, rfl, rfl⟩
    obtain hpop | hpop := hpop
    · simp [exec, State.step, popAct, finish, hpop, hold, htail, hnext]
    · simp [exec, State.step, popAct, finish, hpop, hnext]
  | none =>
    have hstep : S.step .consume = some { S with pop := .loadNewest tail } := by
      obtain hpop | hpop := hpop
      · simp [State.step, popAct, finish, hpop, hold, htail, hnext]
      · simp [State.step, popAct, finish, hpop, hnext]
    obtain ⟨S', hexec, hreturns⟩ := reinsert_returns (S := { S with pop := .loadNewest tail }) rfl
      (hlast hnext)
    refine ⟨6, S', exec_cons_iff.mpr ⟨_, hstep, hexec⟩, ?_⟩
    exact ⟨hreturns.pop, hreturns.returned, hreturns.pushes, hreturns.exchanged⟩

namespace Rep

omit [DecidableEq ν] in
lemma not_pending (hS : S.Quiet) (a b : Cell ν) : ¬ S.Pending a b := by
  rintro (⟨n, -, hlink⟩ | ⟨-, tail, hpop⟩)
  · obtain ⟨first, heq⟩ := hS.1 n _ hlink
    simp at heq
  · have hdone := hS.2
    simp [hpop, PopPc.isDone] at hdone

lemma next_of_after (h : Rep S chain) (hS : S.Quiet) {a b : Cell ν}
    (hab : Succession.After chain a b) : S.queue.next a = some b :=
  (h.links a b hab).resolve_right fun hp => not_pending hS a b hp.2

lemma newest_of_next (h : Rep S chain) (hS : S.Quiet) {a : Cell ν} (ha : a ∈ chain)
    (hnext : S.queue.next a = none) : S.queue.newest = a := by
  by_contra hne
  obtain ⟨b, hab⟩ := Succession.exists_after ha fun hlast =>
    hne (Option.some.inj (h.last.symm.trans hlast))
  simp [h.next_of_after hS hab] at hnext

/-- A call returns the first node of the list. -/
lemma call_node (h : Rep S chain) (hS : S.Quiet) {n : ν} {rest : List (Cell ν)}
    (hchain : chain.filter (· ≠ .stub) = .node n :: rest) :
    ∃ T, Call S T (some (.node n)) false ∧ Returns S T (.node n) := by
  have hpop : S.step .pop = some { S with pop := .load } := by simp [State.step, hS.2]
  obtain ⟨tl, htl⟩ := List.head?_eq_some_iff.mp h.head
  by_cases hold : S.queue.oldest = .stub
  · rw [htl, hold] at hchain
    -- the second cell is the node; the consumer first moves past the stub
    have hfilter : tl.filter (· ≠ .stub) = .node n :: rest := by simpa using hchain
    have hnodup : (S.queue.oldest :: tl).Nodup := htl ▸ h.nodup
    cases tl with
    | nil => simp at hfilter
    | cons b tl =>
      have hb : b ≠ .stub := by
        rintro rfl
        simp [hold] at hnodup
      obtain rfl : b = .node n := by
        rw [List.filter_cons_of_pos (by simpa using hb)] at hfilter
        exact (List.cons.inj hfilter).1
      have hafter : Succession.After chain .stub (.node n) := ⟨[], tl, by rw [htl, hold]; rfl⟩
      have hmove : State.step { S with pop := .load } .consume = some { S with
          queue := { S.queue with oldest := .node n }, pop := .loadNext (.node n) } := by
        simp [State.step, popAct, hold, h.next_of_after hS hafter]
      obtain ⟨m, T, hexec, hT⟩ := tail_returns (S := { S with
          queue := { S.queue with oldest := .node n }, pop := .loadNext (.node n) })
        (.inr rfl) rfl (by simp) fun hnext => h.newest_of_next hS hafter.mem_right hnext
      refine ⟨T, ⟨m + 1, ?_, hT.pop⟩, hT.pop, hT.returned, hT.pushes, hT.exchanged⟩
      exact exec_cons_iff.mpr ⟨_, hpop, exec_cons_iff.mpr ⟨_, hmove, hexec⟩⟩
  · obtain hnode : S.queue.oldest = .node n := by
      rw [htl, List.filter_cons_of_pos (by simpa using hold)] at hchain
      exact (List.cons.inj hchain).1
    obtain ⟨m, T, hexec, hT⟩ := tail_returns (S := { S with pop := .load }) (.inl rfl) hnode
      (by simp) fun hnext => h.newest_of_next hS (hnode ▸ h.toShape.oldest_mem) hnext
    refine ⟨T, ⟨m, exec_cons_iff.mpr ⟨_, hpop, hexec⟩, hT.pop⟩, ?_⟩
    exact ⟨hT.pop, hT.returned, hT.pushes, hT.exchanged⟩

/-- A call on a list without nodes reports that. -/
lemma call_empty (h : Rep S chain) (hS : S.Quiet) (hchain : chain.filter (· ≠ .stub) = []) :
    ∃ T, Call S T none true := by
  have hstub : ∀ c ∈ chain, c = .stub := by simpa [List.filter_eq_nil_iff] using hchain
  have hold : S.queue.oldest = .stub := hstub _ h.toShape.oldest_mem
  have hnext : S.queue.next .stub = none := by
    have hnewest := h.newest
    rwa [hstub _ h.toShape.newest_mem] at hnewest
  refine ⟨{ S with pop := .done none true }, 1, ?_, rfl⟩
  simp [exec, State.step, popAct, hS.2, hold, hnext]

end Rep

/-- Calls return all that is left, in order, and then report that the queue is empty. -/
lemma State.Inv.drains {ns : List ν} (hS : S.Inv) (hquiet : S.Quiet)
    (hns : S.exchanged.map .node = S.returned ++ ns.map .node) :
    ∃ T S', Calls S ns T ∧ Call T S' none true := by
  induction ns generalizing S with
  | nil =>
    obtain ⟨chain, hrep⟩ := hS
    obtain ⟨S', hcall⟩ := hrep.call_empty hquiet (by simpa [hrep.order] using hns)
    exact ⟨S, S', .nil S, hcall⟩
  | cons n ns ih =>
    obtain ⟨chain, hrep⟩ := hS
    have hchain : chain.filter (· ≠ .stub) = .node n :: ns.map .node := by
      rw [hrep.order] at hns
      exact List.append_cancel_left hns
    obtain ⟨T, hcall, hT⟩ := hrep.call_node hquiet hchain
    have hinv : T.Inv := by
      obtain ⟨m, hexec, -⟩ := hcall
      exact exec_invariant (fun _ _ => True) (fun _ _ _ hS _ h => hS.step h) hexec
        (meets_of_forall (fun _ _ => trivial) _ _) ⟨chain, hrep⟩
    have hquiet' : T.Quiet := ⟨hT.pushes ▸ hquiet.1, by simp [hT.pop, PopPc.isDone]⟩
    obtain ⟨T', S', hcalls, hend⟩ := ih hinv hquiet' (by
      rw [hT.exchanged, hT.returned, hns, List.append_assoc]
      rfl)
    exact ⟨T', S', .cons hcall hcalls, hend⟩

/-- In every run: what was returned are nodes in the order of their exchanges, each once; nobody has
still to write to a returned node; the list from `oldest_` on holds exactly the nodes that are left,
and `stub_` at most once; and when no call is in progress, further calls return what is left and
then report the end. -/
theorem lossless_of_exec {ls : List (Label ν)} (h : exec State.step {} ls = some S) :
    Lossless S := by
  have hS : S.Inv := exec_invariant (fun _ _ => True) (fun _ _ _ hS _ hstep => hS.step hstep) h
    (meets_of_forall (fun _ _ => trivial) _ _) inv_init
  obtain ⟨chain, hrep⟩ := id hS
  constructor
  · exact hrep.in_order
  · exact (List.nodup_append.mp hrep.nodup_returned).1
  · exact fun c hc => hrep.released hc
  · exact ⟨chain, hrep.head, hrep.last, hrep.isChain, hrep.order⟩
  · exact fun path hhead hpath => hrep.stub_once hhead hpath
  · intro hquiet
    have hns : S.exchanged.map .node =
        S.returned ++ (S.exchanged.drop S.returned.length).map .node := by
      rw [List.map_drop, hrep.order, List.drop_left]
    obtain ⟨T, S', hcalls, hend⟩ := hS.drains hquiet hns
    exact ⟨_, T, S', hns, hcalls, hend⟩

/-- Two producers whose pushes overlap, the second done before the first has linked its node; the
consumer finds the list broken, then takes the first node. -/
def brokenList : List (Label Nat) :=
  [.push 0, .push 1, .step 0, .step 1, .step 0, .step 1, .step 1, .pop, .consume, .step 0, .pop,
    .consume, .consume]

theorem lossless_brokenList : ∃ S, exec State.step {} brokenList = some S ∧
    S.exchanged = [0, 1] ∧ S.returned = [.node 0] ∧ Lossless S := by
  have hrun : (exec State.step {} brokenList).map (fun S => (S.exchanged, S.returned)) =
      some ([0, 1], [.node 0]) := by decide +kernel
  obtain ⟨S, hS, heq⟩ := Option.map_eq_some_iff.mp hrun
  obtain ⟨hex, hret⟩ := by simpa using heq
  exact ⟨S, hS, hex, hret, lossless_of_exec hS⟩

end Connx.Mpscq
