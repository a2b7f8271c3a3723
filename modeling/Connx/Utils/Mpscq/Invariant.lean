import Connx.Utils.Mpscq.Shape

/-!
# The invariant of the queue

The links that are still to be written are those of the producers that have done their exchange, and
the one of the consumer while it pushes `stub_`.
-/

namespace Connx.Mpscq

open Succession

variable {ν : Type} [DecidableEq ν] {q q' : Queue ν} {c tail : Cell ν}

/-! ### What the operations do -/

inductive PushStep (q : Queue ν) (c : Cell ν) : PushPc ν → Queue ν → PushPc ν → Prop
  | clear : PushStep q c .clear (q.setNext c none) .exchange
  | exchange : PushStep q c .exchange { q with newest := c } (.link q.newest)
  | link (prev : Cell ν) :
      PushStep q c (.link prev) (q.setNext prev (some c)) (.done (prev = .stub))

lemma pushAct_step {pc pc' : PushPc ν} (h : pushAct q c pc = some (q', pc')) :
    PushStep q c pc q' pc' := by
  cases pc with
  | clear =>
    obtain ⟨rfl, rfl⟩ := by simpa [pushAct] using h
    exact .clear
  | exchange =>
    obtain ⟨rfl, rfl⟩ := by simpa [pushAct] using h
    exact .exchange
  | link prev =>
    obtain ⟨rfl, rfl⟩ := by simpa [pushAct] using h
    exact .link prev
  | done first => simp [pushAct] at h

/-- `PopAndCheckEnd` is about to load the successor of the node it may return. -/
def PopPc.LoadsNext (q : Queue ν) (tail : Cell ν) : PopPc ν → Prop
  | .load => q.oldest = tail ∧ tail ≠ .stub
  | .loadNext tail' => tail' = tail
  | .reload tail' => tail' = tail
  | _ => False

inductive PopStep (q : Queue ν) : PopPc ν → Queue ν → PopPc ν → Prop
  | empty (hold : q.oldest = .stub) (hnext : q.next .stub = none) :
      PopStep q .load q (.done none true)
  | advance {obj : Cell ν} (hold : q.oldest = .stub) (hnext : q.next .stub = some obj) :
      PopStep q .load { q with oldest := obj } (.loadNext obj)
  | take {pc : PopPc ν} {tail obj : Cell ν} (h : pc.LoadsNext q tail)
      (hnext : q.next tail = some obj) :
      PopStep q pc { q with oldest := obj } (.done (some tail) false)
  | atEnd {pc : PopPc ν} {tail : Cell ν} (h : pc.LoadsNext q tail) :
      PopStep q pc q (.loadNewest tail)
  | notLast {tail : Cell ν} : PopStep q (.loadNewest tail) q (.done none false)
  | notLinked {tail : Cell ν} : PopStep q (.reload tail) q (.done none false)
  | last {tail : Cell ν} (h : tail = q.newest) :
      PopStep q (.loadNewest tail) q (.reinsert tail .clear)
  | clear {tail : Cell ν} :
      PopStep q (.reinsert tail .clear) (q.setNext .stub none) (.reinsert tail .exchange)
  | exchange {tail : Cell ν} : PopStep q (.reinsert tail .exchange) { q with newest := .stub }
      (.reinsert tail (.link q.newest))
  | link {tail prev : Cell ν} : PopStep q (.reinsert tail (.link prev))
      (q.setNext prev (some .stub)) (.reload tail)

lemma finish_step {pc otherwise pc' : PopPc ν} (h : pc.LoadsNext q tail)
    (hfinish : finish q tail otherwise = (q', pc')) (hother : PopStep q pc q otherwise) :
    PopStep q pc q' pc' := by
  unfold finish at hfinish
  split at hfinish
  · next obj hnext =>
    obtain ⟨rfl, rfl⟩ := by simpa using hfinish
    exact .take h hnext
  · obtain ⟨rfl, rfl⟩ := by simpa using hfinish
    exact hother

lemma popAct_step {pc pc' : PopPc ν} (h : popAct q pc = some (q', pc')) : PopStep q pc q' pc' := by
  cases pc with
  | load =>
    simp only [popAct] at h
    split_ifs at h with hold
    · split at h
      · next hnext =>
        obtain ⟨rfl, rfl⟩ := by simpa using h
        exact .empty hold hnext
      · next obj hnext =>
        obtain ⟨rfl, rfl⟩ := by simpa using h
        exact .advance hold hnext
    · have hload : PopPc.load.LoadsNext q q.oldest := ⟨rfl, hold⟩
      exact finish_step hload (Option.some.inj h) (.atEnd hload)
  | loadNext tail =>
    have hload : (PopPc.loadNext tail).LoadsNext q tail := rfl
    exact finish_step hload (Option.some.inj h) (.atEnd hload)
  | loadNewest tail =>
    simp only [popAct] at h
    split_ifs at h with hlast
    · obtain ⟨rfl, rfl⟩ := by simpa using h
      exact .last hlast
    · obtain ⟨rfl, rfl⟩ := by simpa using h
      exact .notLast
  | reinsert tail pc =>
    obtain ⟨⟨q₁, pc₁⟩, hpush, heq⟩ := Option.map_eq_some_iff.mp h
    cases pushAct_step hpush with
    | clear =>
      obtain ⟨rfl, rfl⟩ := by simpa using heq
      exact .clear
    | exchange =>
      obtain ⟨rfl, rfl⟩ := by simpa using heq
      exact .exchange
    | link prev =>
      obtain ⟨rfl, rfl⟩ := by simpa using heq
      exact .link
  | reload tail =>
    have hload : (PopPc.reload tail).LoadsNext q tail := rfl
    exact finish_step hload (Option.some.inj h) .notLinked
  | done result empty => simp [popAct] at h

/-! ### The invariant -/

def PushPc.exchanged : PushPc ν → Bool
  | .link _ => true
  | .done _ => true
  | _ => false

/-- The links that are still to be written. -/
def State.Pending (S : State ν) (a b : Cell ν) : Prop :=
  (∃ n, b = .node n ∧ S.pushes n = some (.link a)) ∨
    b = .stub ∧ ∃ tail, S.pop = .reinsert tail (.link a)

/-- What the consumer knows: it holds on to the oldest node, and `stub_` is out of the list while it
is about to be pushed. -/
def PopPc.Sound (q : Queue ν) (chain : List (Cell ν)) : PopPc ν → Prop
  | .load => True
  | .loadNext tail => tail = q.oldest ∧ tail ≠ .stub
  | .loadNewest tail => tail = q.oldest ∧ tail ≠ .stub
  | .reinsert tail .clear => (tail = q.oldest ∧ tail ≠ .stub) ∧ .stub ∉ chain
  | .reinsert tail .exchange =>
    (tail = q.oldest ∧ tail ≠ .stub) ∧ .stub ∉ chain ∧ q.next .stub = none
  | .reinsert tail (.link _) => tail = q.oldest ∧ tail ≠ .stub
  | .reinsert _ (.done _) => False
  | .reload tail => tail = q.oldest ∧ tail ≠ .stub
  | .done _ _ => True

omit [DecidableEq ν] in
lemma PopPc.Sound.mono {pc : PopPc ν} {chain chain' : List (Cell ν)} (h : pc.Sound q chain)
    (hold : q'.oldest = q.oldest)
    (hstub : .stub ∉ chain → .stub ∉ chain' ∧ q'.next .stub = q.next .stub) :
    pc.Sound q' chain' := by
  cases pc with
  | load => trivial
  | done result empty => trivial
  | reinsert tail pc =>
    cases pc with
    | clear => exact ⟨hold ▸ h.1, (hstub h.2).1⟩
    | exchange => exact ⟨hold ▸ h.1, (hstub h.2.1).1, (hstub h.2.1).2.trans h.2.2⟩
    | link prev => exact ⟨h.1.trans hold.symm, h.2⟩
    | done first => exact h
  | _ => exact ⟨h.1.trans hold.symm, h.2⟩

structure Rep (S : State ν) (chain : List (Cell ν)) : Prop
    extends Shape S.queue S.Pending chain where
  order : S.exchanged.map .node = S.returned ++ chain.filter (· ≠ .stub)
  distinct : S.exchanged.Nodup
  exchanged : ∀ n, n ∈ S.exchanged ↔ ∃ pc, S.pushes n = some pc ∧ pc.exchanged = true
  cleared : ∀ n, S.pushes n = some .exchange → S.queue.next (.node n) = none
  sound : S.pop.Sound S.queue chain

def State.Inv (S : State ν) : Prop := ∃ chain, Rep S chain

variable {S S' : State ν} {chain : List (Cell ν)} {n : ν}

lemma inv_init : ({} : State ν).Inv := by
  refine ⟨[.stub], ⟨⟨rfl, rfl, by simp, ?_, ?_, rfl⟩, by simp, by simp, by simp, by simp, trivial⟩⟩
  · simp [after_cons]
  · simp [State.Pending]

namespace Rep

lemma mem_exchanged (h : Rep S chain) (hn : .node n ∈ chain) : n ∈ S.exchanged := by
  have hmem : Cell.node n ∈ S.exchanged.map .node := by
    rw [h.order]
    exact List.mem_append_right _ (List.mem_filter.mpr ⟨hn, by simp⟩)
  obtain ⟨m, hm, heq⟩ := List.mem_map.mp hmem
  obtain rfl : m = n := by simpa using heq
  exact hm

/-- A node is not in the list before its exchange. -/
lemma not_mem (h : Rep S chain) {pc : PushPc ν} (hpc : S.pushes n = some pc)
    (hex : pc.exchanged = false) : .node n ∉ chain ∧ n ∉ S.exchanged := by
  have hn : n ∉ S.exchanged := by
    intro hmem
    obtain ⟨pc', hpc', hex'⟩ := (h.exchanged n).mp hmem
    obtain rfl : pc = pc' := Option.some.inj (hpc.symm.trans hpc')
    simp [hex] at hex'
  exact ⟨fun hmem => hn (h.mem_exchanged hmem), hn⟩

end Rep

/-! ### Producers -/

/-- The producer of `n` has gone to `pc'`; the other calls are where they were. -/
structure Pushes (S S' : State ν) (n : ν) (pc' : PushPc ν) : Prop where
  self : S'.pushes n = some pc'
  others : ∀ m, m ≠ n → S'.pushes m = S.pushes m
  pop : S'.pop = S.pop
  returned : S'.returned = S.returned

namespace Pushes

variable {pc pc' : PushPc ν}

lemma pending_iff (h : Pushes S S' n pc') (a b : Cell ν) :
    S'.Pending a b ↔ S.Pending a b ∧ b ≠ .node n ∨ b = .node n ∧ pc' = .link a := by
  unfold State.Pending
  rw [h.pop]
  cases b with
  | stub => simp
  | node m =>
    by_cases hm : m = n
    · subst hm
      simp [h.self]
    · simp [h.others m hm, hm]

omit [DecidableEq ν] in
lemma not_pending (hpc : ∀ a, S.pushes n ≠ some (.link a)) (a : Cell ν) :
    ¬ S.Pending a (.node n) := by
  rintro (⟨m, heq, hm⟩ | ⟨heq, -⟩)
  · obtain rfl : n = m := by simpa using heq
    exact hpc a hm
  · simp at heq

/-- A producer that has not done its exchange goes on to one. -/
lemma rep_before (h : Pushes S S' n pc') (hrep : Rep S chain)
    (hshape : Shape S'.queue S.Pending chain) (hold : S'.queue.oldest = S.queue.oldest)
    (hbefore : ∀ pc, S.pushes n = some pc → pc.exchanged = false) (hafter : pc'.exchanged = false)
    (hex : S'.exchanged = S.exchanged)
    (hnext : ∀ c, c ≠ .node n → S'.queue.next c = S.queue.next c)
    (hcleared : pc' = .exchange → S'.queue.next (.node n) = none) : Rep S' chain where
  toShape := by
    refine hshape.congr fun a b => ?_
    rw [h.pending_iff]
    constructor
    · rintro (hpending | ⟨-, rfl⟩)
      · exact hpending.1
      · simp [PushPc.exchanged] at hafter
    · intro hpending
      refine .inl ⟨hpending, ?_⟩
      rintro rfl
      refine not_pending (fun a ha => ?_) a hpending
      simpa [PushPc.exchanged] using hbefore _ ha
  order := by rw [hex, h.returned]; exact hrep.order
  distinct := hex ▸ hrep.distinct
  exchanged m := by
    rw [hex, hrep.exchanged m]
    by_cases hm : m = n
    · subst hm
      constructor
      · rintro ⟨pc, hpc, hpast⟩
        simp [hbefore pc hpc] at hpast
      · rintro ⟨pc, hpc, hpast⟩
        obtain rfl : pc' = pc := Option.some.inj (h.self.symm.trans hpc)
        simp [hafter] at hpast
    · rw [h.others m hm]
  cleared m hm := by
    by_cases hmn : m = n
    · subst hmn
      exact hcleared (Option.some.inj (h.self.symm.trans hm))
    · rw [h.others m hmn] at hm
      rw [hnext _ (by simpa using hmn)]
      exact hrep.cleared m hm
  sound := by
    rw [h.pop]
    exact hrep.sound.mono hold fun hstub => ⟨hstub, hnext _ (by simp)⟩

/-- The exchange of a producer. -/
lemma rep_exchange (h : Pushes S S' n (.link S.queue.newest)) (hrep : Rep S chain)
    (hpc : S.pushes n = some .exchange) (hq : S'.queue = { S.queue with newest := .node n })
    (hex : S'.exchanged = S.exchanged ++ [n]) : Rep S' (chain ++ [.node n]) := by
  obtain ⟨hchain, hn⟩ := hrep.not_mem hpc rfl
  have hpending (a b : Cell ν) :
      S'.Pending a b ↔ S.Pending a b ∨ a = S.queue.newest ∧ b = .node n := by
    rw [h.pending_iff]
    constructor
    · rintro (hpending | ⟨rfl, hlink⟩)
      · exact .inl hpending.1
      · exact .inr ⟨by simpa [eq_comm] using hlink, rfl⟩
    · rintro (hpending | ⟨rfl, rfl⟩)
      · refine .inl ⟨hpending, ?_⟩
        rintro rfl
        exact not_pending (by simp [hpc]) a hpending
      · exact .inr ⟨rfl, rfl⟩
  constructor
  · rw [hq]
    exact hrep.toShape.exchange hchain (hrep.cleared n hpc) hpending
  · rw [hex, h.returned, List.map_append, hrep.order, List.filter_append, List.append_assoc]
    simp
  · rw [hex]
    refine List.nodup_append.mpr ⟨hrep.distinct, List.nodup_singleton n, ?_⟩
    rintro m hm _ hb rfl
    exact hn (List.mem_singleton.mp hb ▸ hm)
  · intro m
    rw [hex, List.mem_append, hrep.exchanged m]
    by_cases hm : m = n
    · subst hm
      simp [h.self, PushPc.exchanged]
    · simp [h.others m hm, hm]
  · intro m hm
    have hmn : m ≠ n := by
      rintro rfl
      simp [h.self] at hm
    rw [hq]
    exact hrep.cleared m (h.others m hmn ▸ hm)
  · rw [h.pop, hq]
    exact hrep.sound.mono rfl fun hstub => ⟨by simpa using hstub, rfl⟩

/-- The link of a producer. -/
lemma rep_link {prev : Cell ν} {first : Bool} (h : Pushes S S' n (.done first)) (hrep : Rep S chain)
    (hpc : S.pushes n = some (.link prev)) (hq : S'.queue = S.queue.setNext prev (some (.node n)))
    (hex : S'.exchanged = S.exchanged) : Rep S' chain := by
  have hown : S.Pending prev (.node n) := .inl ⟨n, rfl, hpc⟩
  have hprev : prev ∈ chain := (hrep.pending _ _ hown).2.mem_left
  have hpending (a b : Cell ν) :
      S.Pending a b ↔ S'.Pending a b ∨ a = prev ∧ b = .node n := by
    rw [h.pending_iff]
    constructor
    · intro hab
      by_cases hb : b = .node n
      · subst hb
        refine .inr ⟨?_, rfl⟩
        obtain ⟨m, heq, hm⟩ | ⟨heq, -⟩ := hab
        · obtain rfl : n = m := by simpa using heq
          simpa [hpc, eq_comm] using hm
        · simp at heq
      · exact .inl (.inl ⟨hab, hb⟩)
    · rintro ((hab | ⟨-, hlink⟩) | ⟨rfl, rfl⟩)
      · exact hab.1
      · simp at hlink
      · exact hown
  constructor
  · rw [hq]
    refine hrep.toShape.link hpending ?_
    rw [h.pending_iff]
    simp
  · rw [hex, h.returned]
    exact hrep.order
  · rw [hex]
    exact hrep.distinct
  · intro m
    rw [hex, hrep.exchanged m]
    by_cases hm : m = n
    · subst hm
      simp [h.self, hpc, PushPc.exchanged]
    · rw [h.others m hm]
  · intro m hm
    have hmn : m ≠ n := by
      rintro rfl
      simp [h.self] at hm
    rw [h.others m hmn] at hm
    have hmem := (hrep.not_mem hm rfl).1
    rw [hq, S.queue.setNext_of_not_mem _ hmem hprev]
    exact hrep.cleared m hm
  · rw [h.pop, hq]
    exact hrep.sound.mono rfl fun hstub => ⟨hstub, S.queue.setNext_of_not_mem _ hstub hprev⟩

end Pushes

/-! ### The consumer -/

/-- The consumer has gone to `pc'`; the producers are where they were. -/
structure Pops (S S' : State ν) (pc' : PopPc ν) : Prop where
  pop : S'.pop = pc'
  pushes : S'.pushes = S.pushes
  exchanged : S'.exchanged = S.exchanged

namespace Pops

variable {pc' : PopPc ν}

omit [DecidableEq ν] in
lemma pending_iff (h : Pops S S' pc') (a b : Cell ν) :
    S'.Pending a b ↔
      S.Pending a b ∧ b ≠ .stub ∨ b = .stub ∧ ∃ tail, pc' = .reinsert tail (.link a) := by
  unfold State.Pending
  rw [h.pop, h.pushes]
  cases b with
  | stub => simp
  | node m => simp

omit [DecidableEq ν] in
lemma not_pending (hpc : ∀ tail a, S.pop ≠ .reinsert tail (.link a)) (a : Cell ν) :
    ¬ S.Pending a .stub := by
  rintro (⟨m, heq, -⟩ | ⟨-, tail, htail⟩)
  · simp at heq
  · exact hpc tail a htail

omit [DecidableEq ν] in
/-- The consumer writes no link before or after the step. -/
lemma pending_of_not (h : Pops S S' pc') (hpc : ∀ tail a, S.pop ≠ .reinsert tail (.link a))
    (hpc' : ∀ tail a, pc' ≠ .reinsert tail (.link a)) (a b : Cell ν) :
    S'.Pending a b ↔ S.Pending a b := by
  rw [h.pending_iff]
  constructor
  · rintro (hpending | ⟨-, tail, htail⟩)
    · exact hpending.1
    · exact absurd htail (hpc' tail a)
  · intro hpending
    refine .inl ⟨hpending, ?_⟩
    rintro rfl
    exact not_pending hpc a hpending

/-- The consumer learns something and changes nothing. -/
lemma rep_same (h : Pops S S' pc') (hrep : Rep S chain)
    (hpc : ∀ tail a, S.pop ≠ .reinsert tail (.link a))
    (hpc' : ∀ tail a, pc' ≠ .reinsert tail (.link a)) (hq : S'.queue = S.queue)
    (hret : S'.returned = S.returned) (hsound : pc'.Sound S.queue chain) : Rep S' chain where
  toShape := by
    rw [hq]
    exact hrep.toShape.congr (h.pending_of_not hpc hpc')
  order := by rw [h.exchanged, hret]; exact hrep.order
  distinct := h.exchanged ▸ hrep.distinct
  exchanged n := by rw [h.exchanged, h.pushes]; exact hrep.exchanged n
  cleared n hn := by rw [hq]; exact hrep.cleared n (h.pushes ▸ hn)
  sound := by rw [h.pop, hq]; exact hsound

/-- The consumer goes on to the second cell; it returns the first unless that is `stub_`. -/
lemma rep_advance {obj : Cell ν} (h : Pops S S' pc') (hrep : Rep S chain)
    (hpc : ∀ tail a, S.pop ≠ .reinsert tail (.link a))
    (hpc' : ∀ tail a, pc' ≠ .reinsert tail (.link a))
    (hnext : S.queue.next S.queue.oldest = some obj)
    (hq : S'.queue = { S.queue with oldest := obj })
    (hret : S'.returned = S.returned ++ [S.queue.oldest].filter (· ≠ .stub))
    (hsound : ∀ rest, chain = S.queue.oldest :: obj :: rest →
      pc'.Sound { S.queue with oldest := obj } (obj :: rest)) :
    ∃ rest, chain = S.queue.oldest :: obj :: rest ∧ Rep S' (obj :: rest) := by
  obtain ⟨rest, hchain⟩ := hrep.toShape.eq_cons_of_next hnext
  refine ⟨rest, hchain, ?_⟩
  have hshape := hrep.toShape
  have horder := hrep.order
  rw [hchain] at hshape horder
  constructor
  · rw [hq]
    exact (hshape.advance hnext).congr (h.pending_of_not hpc hpc')
  · rw [h.exchanged, hret, horder, List.append_assoc, ← List.filter_append]
    rfl
  · exact h.exchanged ▸ hrep.distinct
  · intro n
    rw [h.exchanged, h.pushes]
    exact hrep.exchanged n
  · intro n hn
    rw [hq]
    exact hrep.cleared n (h.pushes ▸ hn)
  · rw [h.pop, hq]
    exact hsound rest hchain

/-- The consumer clears `stub_`, which is not in the list. -/
lemma rep_clear (h : Pops S S' (.reinsert tail .exchange)) (hrep : Rep S chain)
    (hpc : S.pop = .reinsert tail .clear) (hq : S'.queue = S.queue.setNext .stub none)
    (hret : S'.returned = S.returned) : Rep S' chain := by
  have hsound := hrep.sound
  simp only [hpc, PopPc.Sound] at hsound
  constructor
  · rw [hq]
    exact (hrep.toShape.clear hsound.2).congr (h.pending_of_not (by simp [hpc]) (by simp))
  · rw [h.exchanged, hret]
    exact hrep.order
  · exact h.exchanged ▸ hrep.distinct
  · intro n
    rw [h.exchanged, h.pushes]
    exact hrep.exchanged n
  · intro n hn
    rw [hq, S.queue.setNext_of_ne _ (by simp)]
    exact hrep.cleared n (h.pushes ▸ hn)
  · rw [h.pop, hq]
    exact ⟨hsound.1, hsound.2, by simp⟩

/-- The exchange of the consumer. -/
lemma rep_exchange (h : Pops S S' (.reinsert tail (.link S.queue.newest))) (hrep : Rep S chain)
    (hpc : S.pop = .reinsert tail .exchange) (hq : S'.queue = { S.queue with newest := .stub })
    (hret : S'.returned = S.returned) : Rep S' (chain ++ [.stub]) := by
  have hsound := hrep.sound
  simp only [hpc, PopPc.Sound] at hsound
  obtain ⟨htail, hstub, hnext⟩ := hsound
  have hpending (a b : Cell ν) :
      S'.Pending a b ↔ S.Pending a b ∨ a = S.queue.newest ∧ b = .stub := by
    rw [h.pending_iff]
    constructor
    · rintro (hpending | ⟨rfl, _, hlink⟩)
      · exact .inl hpending.1
      · exact .inr ⟨by simpa [eq_comm] using (PopPc.reinsert.inj hlink).2, rfl⟩
    · rintro (hpending | ⟨rfl, rfl⟩)
      · refine .inl ⟨hpending, ?_⟩
        rintro rfl
        exact not_pending (by simp [hpc]) a hpending
      · exact .inr ⟨rfl, tail, rfl⟩
  constructor
  · rw [hq]
    exact hrep.toShape.exchange hstub hnext hpending
  · rw [h.exchanged, hret, hrep.order, List.filter_append]
    simp
  · exact h.exchanged ▸ hrep.distinct
  · intro n
    rw [h.exchanged, h.pushes]
    exact hrep.exchanged n
  · intro n hn
    rw [hq]
    exact hrep.cleared n (h.pushes ▸ hn)
  · rw [h.pop, hq]
    exact htail

/-- The link of the consumer. -/
lemma rep_link {prev : Cell ν} (h : Pops S S' (.reload tail)) (hrep : Rep S chain)
    (hpc : S.pop = .reinsert tail (.link prev))
    (hq : S'.queue = S.queue.setNext prev (some .stub)) (hret : S'.returned = S.returned) :
    Rep S' chain := by
  have hown : S.Pending prev .stub := .inr ⟨rfl, tail, hpc⟩
  have hprev : prev ∈ chain := (hrep.pending _ _ hown).2.mem_left
  have hsound := hrep.sound
  simp only [hpc, PopPc.Sound] at hsound
  have hpending (a b : Cell ν) : S.Pending a b ↔ S'.Pending a b ∨ a = prev ∧ b = .stub := by
    rw [h.pending_iff]
    constructor
    · intro hab
      by_cases hb : b = .stub
      · subst hb
        refine .inr ⟨?_, rfl⟩
        obtain ⟨m, heq, -⟩ | ⟨-, _, hlink⟩ := hab
        · simp at heq
        · obtain ⟨-, rfl⟩ : tail = _ ∧ prev = a := by simpa [hpc] using hlink
          rfl
      · exact .inl (.inl ⟨hab, hb⟩)
    · rintro ((hab | ⟨-, _, hlink⟩) | ⟨rfl, rfl⟩)
      · exact hab.1
      · simp at hlink
      · exact hown
  constructor
  · rw [hq]
    refine hrep.toShape.link hpending ?_
    rw [h.pending_iff]
    simp
  · rw [h.exchanged, hret]
    exact hrep.order
  · exact h.exchanged ▸ hrep.distinct
  · intro n
    rw [h.exchanged, h.pushes]
    exact hrep.exchanged n
  · intro n hn
    rw [h.pushes] at hn
    rw [hq, S.queue.setNext_of_not_mem _ (hrep.not_mem hn rfl).1 hprev]
    exact hrep.cleared n hn
  · rw [h.pop, hq]
    exact hsound

end Pops

/-! ### Steps -/

lemma Rep.pushStep {pc pc' : PushPc ν} (hrep : Rep S chain) (hpc : S.pushes n = some pc)
    (h : PushStep S.queue (.node n) pc q' pc') :
    State.Inv { S with
      queue := q'
      pushes := Function.update S.pushes n (some pc')
      exchanged := if pc = .exchange then S.exchanged ++ [n] else S.exchanged } := by
  have hpushes (ex : List ν) : Pushes S { S with
      queue := q', pushes := Function.update S.pushes n (some pc'), exchanged := ex } n pc' :=
    ⟨by simp, fun m hm => Function.update_of_ne hm _ _, rfl, rfl⟩
  cases h with
  | clear =>
    refine ⟨chain, (hpushes _).rep_before hrep ?_ rfl ?_ rfl rfl ?_ ?_⟩
    · exact hrep.toShape.clear (hrep.not_mem hpc rfl).1
    · intro pc hpc'
      obtain rfl : .clear = pc := Option.some.inj (hpc.symm.trans hpc')
      rfl
    · exact fun c hc => S.queue.setNext_of_ne _ hc
    · simp
  | exchange => exact ⟨_, (hpushes _).rep_exchange hrep hpc rfl rfl⟩
  | link prev => exact ⟨chain, (hpushes _).rep_link hrep hpc rfl rfl⟩

/-- What `PopAndCheckEnd` returns. -/
def PopPc.result : PopPc ν → List (Cell ν)
  | .done (some c) _ => [c]
  | _ => []

lemma Rep.tail_eq {pc : PopPc ν} (hrep : Rep S chain) (hpc : S.pop = pc)
    (h : pc.LoadsNext S.queue tail) : tail = S.queue.oldest ∧ tail ≠ .stub := by
  have hsound := hrep.sound
  rw [hpc] at hsound
  cases pc with
  | load => exact ⟨h.1.symm, h.2⟩
  | loadNext tail' =>
    obtain rfl : tail' = tail := h
    exact hsound
  | reload tail' =>
    obtain rfl : tail' = tail := h
    exact hsound
  | _ => exact absurd h id

omit [DecidableEq ν] in
lemma LoadsNext.not_link {pc : PopPc ν} (h : pc.LoadsNext q tail) (tail' a : Cell ν) :
    pc ≠ .reinsert tail' (.link a) := by
  rintro rfl
  exact h

lemma Rep.popStep {pc' : PopPc ν} (hrep : Rep S chain) (h : PopStep S.queue S.pop q' pc') :
    State.Inv { S with queue := q', pop := pc', returned := S.returned ++ pc'.result } := by
  have hpops : Pops S { S with
      queue := q', pop := pc', returned := S.returned ++ pc'.result } pc' := ⟨rfl, rfl, rfl⟩
  generalize hpc : S.pop = pc at h
  cases h with
  | empty hold hnext =>
    exact ⟨chain, hpops.rep_same hrep (by simp [hpc]) (by simp) rfl (by simp [PopPc.result])
      trivial⟩
  | advance hold hnext =>
    obtain ⟨rest, -, hrep'⟩ := hpops.rep_advance hrep (by simp [hpc]) (by simp) (hold ▸ hnext) rfl
      (by simp [hold, PopPc.result]) fun rest hchain => by
        refine ⟨rfl, ?_⟩
        rintro rfl
        have hnodup := hrep.nodup
        simp [hchain, hold] at hnodup
    exact ⟨_, hrep'⟩
  | take hload hnext =>
    obtain ⟨rfl, hne⟩ := hrep.tail_eq hpc hload
    obtain ⟨rest, -, hrep'⟩ := hpops.rep_advance hrep (hpc ▸ LoadsNext.not_link hload) (by simp)
      hnext rfl (by simp [hne, PopPc.result]) fun _ _ => trivial
    exact ⟨_, hrep'⟩
  | atEnd hload =>
    exact ⟨chain, hpops.rep_same hrep (hpc ▸ LoadsNext.not_link hload) (by simp) rfl
      (by simp [PopPc.result]) (hrep.tail_eq hpc hload)⟩
  | notLast =>
    exact ⟨chain, hpops.rep_same hrep (by simp [hpc]) (by simp) rfl (by simp [PopPc.result])
      trivial⟩
  | notLinked =>
    exact ⟨chain, hpops.rep_same hrep (by simp [hpc]) (by simp) rfl (by simp [PopPc.result])
      trivial⟩
  | last hlast =>
    have hsound := hrep.sound
    simp only [hpc, PopPc.Sound] at hsound
    refine ⟨chain, hpops.rep_same hrep (by simp [hpc]) (by simp) rfl (by simp [PopPc.result]) ?_⟩
    refine ⟨hsound, ?_⟩
    rw [hrep.toShape.eq_singleton (hsound.1.symm.trans hlast)]
    simpa [← hsound.1, eq_comm] using hsound.2
  | clear => exact ⟨chain, hpops.rep_clear hrep hpc rfl (by simp [PopPc.result])⟩
  | exchange => exact ⟨_, hpops.rep_exchange hrep hpc rfl (by simp [PopPc.result])⟩
  | link => exact ⟨chain, hpops.rep_link hrep hpc rfl (by simp [PopPc.result])⟩

theorem State.Inv.step {l : Label ν} (hS : S.Inv) (h : S.step l = some S') : S'.Inv := by
  obtain ⟨chain, hrep⟩ := hS
  cases l with
  | push n =>
    simp only [State.step] at h
    split_ifs at h with hnone
    obtain rfl := by simpa using h
    have hpushes :
        Pushes S { S with pushes := Function.update S.pushes n (some .clear) } n .clear :=
      ⟨by simp, fun m hm => Function.update_of_ne hm _ _, rfl, rfl⟩
    exact ⟨chain, hpushes.rep_before hrep hrep.toShape rfl (by simp [hnone]) rfl rfl
      (fun _ _ => rfl) (by simp)⟩
  | step n =>
    obtain ⟨pc, hpc, hact⟩ := Option.bind_eq_some_iff.mp h
    obtain ⟨⟨q', pc'⟩, hpush, rfl⟩ := Option.map_eq_some_iff.mp hact
    exact hrep.pushStep hpc (pushAct_step hpush)
  | pop =>
    simp only [State.step] at h
    split_ifs at h with hdone
    obtain rfl := by simpa using h
    have hpops : Pops S { S with pop := .load } .load := ⟨rfl, rfl, rfl⟩
    refine ⟨chain, hpops.rep_same hrep (fun tail a heq => ?_) (by simp) rfl rfl trivial⟩
    simp [heq, PopPc.isDone] at hdone
  | consume =>
    obtain ⟨⟨q', pc'⟩, hpop, rfl⟩ := Option.map_eq_some_iff.mp h
    convert hrep.popStep (popAct_step hpop) using 2
    unfold PopPc.result
    split <;> simp

end Connx.Mpscq
