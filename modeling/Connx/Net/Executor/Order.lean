import Connx.Net.Executor.Ownership

/-!
# The order of the tasks

What was pushed is what was taken, in that order, followed by what is in the queue. A thread has
one `Post` under way at a time, so that its nodes are pushed in the order of its calls.
-/

namespace Connx.Executor

variable {τ : Type} {i : Nat} {g g' : Shared τ} {p p' : Proc τ}

/-- The nodes that were taken and those in the queue. -/
def Shared.history (g : Shared τ) : List Nat := g.taken.map Prod.fst ++ g.nodes.map Node.id

/-- The `Post` is past the exchange of its push, or will not push. -/
def PostPc.pastPush : PostPc → Bool
  | .enter => false
  | .check => false
  | .count => false
  | .exchange => false
  | _ => true

def Proc.pastPush : Proc τ → Bool
  | .post _ _ pc => pc.pastPush
  | _ => false

/-- The thread of a `Post`. -/
def Proc.thread : Proc τ → Option Nat
  | .post thread _ _ => some thread
  | _ => none

/-! ### One operation -/

/-- An operation other than the exchange of a push: the history stays as it is. -/
structure Shared.SameHistory (g g' : Shared τ) : Prop where
  pushed : g'.pushed = g.pushed
  history : g'.history = g.history

lemma Shared.SameHistory.of_frame {locked : Bool} {waiters : List (Nat × Wait)}
    (h : g' = { g with locked := locked, waiters := waiters }) : g.SameHistory g' := by
  subst h
  exact ⟨rfl, rfl⟩

lemma Shared.SameHistory.take {node : Node τ} {fate : Fate} (h : g.front = some node) :
    g.SameHistory (g.take node fate) := by
  refine ⟨rfl, ?_⟩
  have hnodes := congrArg (List.map Node.id) (Shared.front_eq_some h).1
  simp only [Shared.history, Shared.take, List.map_append, List.map_cons, List.map_nil] at hnodes ⊢
  rw [hnodes, List.append_assoc, List.singleton_append]

lemma DiscardStep.sameHistory {pc : DiscardPc} {r : Option DiscardPc}
    (h : DiscardStep g pc g' r) : g.SameHistory g' := by
  cases h with
  | take h => exact .take h
  | _ => exact ⟨rfl, rfl⟩

lemma DrainStep.sameHistory {n n' : Nat} {pc pc' : DrainPc τ}
    (h : DrainStep i g n pc g' n' pc') : g.SameHistory g' := by
  cases h with
  | releasing h => exact .of_frame h.frame
  | released h => exact .of_frame h.frame
  | discarding h => exact h.sameHistory
  | discarded h => exact h.sameHistory
  | closing h => exact h.sameHistory
  | closed h => exact h.sameHistory
  | notifying _ h => exact .of_frame h.frame
  | notified h => exact .of_frame h.frame
  | ended h => exact .of_frame h.frame
  | take h => exact .take h
  | _ => exact ⟨rfl, rfl⟩

lemma CloserStep.sameHistory {pc pc' : CloserPc} (h : CloserStep i g pc g' pc') :
    g.SameHistory g' := by
  cases h with
  | releasing h => exact .of_frame h.frame
  | released h => exact .of_frame h.frame
  | waiting h => exact .of_frame h.frame
  | waited h => exact .of_frame h.frame
  | _ => exact ⟨rfl, rfl⟩

/-- The exchange of a push: the node becomes the newest one. -/
structure Pushes (i : Nat) (g g' : Shared τ) (p p' : Proc τ) : Prop where
  isPost : p.thread.isSome
  before : p.pastPush = false
  after : p'.pastPush = true
  pushed : g'.pushed = g.pushed ++ [i]
  history : g'.history = g.history ++ [i]

/-- A `Post` pushes its own node, once. -/
lemma PostStep.history {thread : Nat} {task : τ} {pc pc' : PostPc}
    (h : PostStep i g task pc g' pc') :
    Pushes i g g' (.post thread task pc) (.post thread task pc') ∨
      (pc.pastPush = true → pc'.pastPush = true) ∧ g.SameHistory g' := by
  cases h with
  | exchange => exact .inl ⟨rfl, rfl, rfl, rfl, by simp [Shared.history]⟩
  | link =>
    refine .inr ⟨fun _ => rfl, rfl, ?_⟩
    simp only [Shared.history, List.map_map]
    congr 2
    funext node
    simp only [Function.comp_apply]
    split_ifs <;> rfl
  | notify h => exact .inr ⟨id, .of_frame h.frame⟩
  | notified h => exact .inr ⟨id, .of_frame h.frame⟩
  | notifiedWon h => exact .inr ⟨id, .of_frame h.frame⟩
  | _ => exact .inr ⟨by simp [PostPc.pastPush], rfl, rfl⟩

lemma Op.history (h : Op i g p g' p') :
    Pushes i g g' p p' ∨ (p.pastPush = true → p'.pastPush = true) ∧ g.SameHistory g' := by
  cases h with
  | post h => exact h.history
  | drain h => exact .inr ⟨id, h.sameHistory⟩
  | closer h => exact .inr ⟨id, h.sameHistory⟩
  | flushNested h => cases h <;> exact .inr ⟨id, rfl, rfl⟩
  | flushCloser h => cases h <;> exact .inr ⟨id, rfl, rfl⟩
  | flushDrain h => exact .inr ⟨id, rfl, rfl⟩

lemma Op.thread (h : Op i g p g' p') : p'.thread = p.thread := by
  cases h <;> rfl

/-- A `Post` that does something is not over. -/
lemma Op.busy (h : Op i g p g' p') {thread : Nat} (ht : p.thread = some thread) :
    p.busy thread = true := by
  cases h with
  | post h =>
    obtain rfl := Option.some_inj.mp ht
    cases h <;> simp [Proc.busy]
  | _ => simp [Proc.thread] at ht

/-! ### Runs -/

namespace State

variable {S S' : State τ}

/-- The thread that made the call `a` of `Post`. -/
def thread (S : State τ) (a : Nat) : Option Nat := S.procs[a]?.bind Proc.thread

/-- What the queue remembers of the calls of `Post`. -/
structure Ordered (S : State τ) : Prop where
  history : S.shared.history = S.shared.pushed
  nodup : S.shared.pushed.Nodup
  pushed : ∀ a ∈ S.shared.pushed, ∃ p, S.procs[a]? = some p ∧ p.pastPush = true
  sequential : ∀ (a b : Nat) (p q : Proc τ) (thread : Nat), a < b → S.procs[a]? = some p →
    S.procs[b]? = some q → p.thread = some thread → q.thread = some thread → p.busy thread = false
  program : S.shared.pushed.Pairwise fun a b => S.thread a = S.thread b → a < b

lemma lt_length_of_pushed (hS : S.Ordered) {a : Nat} (ha : a ∈ S.shared.pushed) :
    a < S.procs.length := by
  obtain ⟨p, hp, -⟩ := hS.pushed a ha
  exact (List.getElem?_eq_some_iff.mp hp).1

lemma thread_put (hp : S.procs[i]? = some p) (h : p'.thread = p.thread) :
    (S.put i (g, p')).thread = S.thread := by
  funext a
  simp only [State.thread, getElem?_put hp]
  split_ifs with ha
  · rw [← ha, hp, Option.bind_some, Option.bind_some, h]
  · rfl

lemma Ordered.sequential_op (hS : S.Ordered) (hp : S.procs[i]? = some p)
    (h : Op i S.shared p g' p') {a b thread : Nat} {q r : Proc τ} (hab : a < b)
    (hq : (S.put i (g', p')).procs[a]? = some q) (hr : (S.put i (g', p')).procs[b]? = some r)
    (hqt : q.thread = some thread) (hrt : r.thread = some thread) : q.busy thread = false := by
  rw [getElem?_put hp] at hq hr
  have hold : ∃ r', S.procs[b]? = some r' ∧ r'.thread = some thread := by
    split_ifs at hr with hb
    · refine ⟨p, hb ▸ hp, ?_⟩
      rw [← h.thread, Option.some_inj.mp hr, hrt]
    · exact ⟨r, hr, hrt⟩
  obtain ⟨r', hr', hrt'⟩ := hold
  split_ifs at hq with ha
  · -- the process that did something has a later call of its thread after it, so it was over
    have hpt : p.thread = some thread := by rw [← h.thread, Option.some_inj.mp hq, hqt]
    have hover := hS.sequential i b p r' thread (ha ▸ hab) hp hr' hpt hrt'
    rw [h.busy hpt] at hover
    exact absurd hover (by simp)
  · exact hS.sequential a b q r' thread hab hq hr' hqt hrt'

lemma Ordered.keep (hS : S.Ordered) (hp : S.procs[i]? = some p) (h : Op i S.shared p g' p')
    (hpast : p.pastPush = true → p'.pastPush = true) (hsame : S.shared.SameHistory g') :
    (S.put i (g', p')).Ordered where
  history := (hsame.history.trans hS.history).trans hsame.pushed.symm
  nodup := by
    change g'.pushed.Nodup
    rw [hsame.pushed]
    exact hS.nodup
  pushed := by
    intro a ha
    change a ∈ g'.pushed at ha
    rw [hsame.pushed] at ha
    obtain ⟨q, hq, hqpast⟩ := hS.pushed a ha
    rw [getElem?_put hp]
    split_ifs with hia
    · obtain rfl : p = q := by
        rw [← hia, hp] at hq
        exact Option.some_inj.mp hq
      exact ⟨p', rfl, hpast hqpast⟩
    · exact ⟨q, hq, hqpast⟩
  sequential _ _ _ _ _ hab hq hr := hS.sequential_op hp h hab hq hr
  program := by
    rw [thread_put hp h.thread]
    change g'.pushed.Pairwise _
    rw [hsame.pushed]
    exact hS.program

lemma Ordered.not_pushed (hS : S.Ordered) (hp : S.procs[i]? = some p)
    (hbefore : p.pastPush = false) {a : Nat} (ha : a ∈ S.shared.pushed) : a ≠ i := by
  rintro rfl
  obtain ⟨q, hq, hqpast⟩ := hS.pushed a ha
  obtain rfl : p = q := Option.some_inj.mp (hp.symm.trans hq)
  rw [hbefore] at hqpast
  exact absurd hqpast (by simp)

/-- A node of the thread of a `Post` that is about to push belongs to an earlier call. -/
lemma Ordered.lt_of_thread_eq (hS : S.Ordered) (hp : S.procs[i]? = some p)
    (h : Op i S.shared p g' p') (hpush : Pushes i S.shared g' p p') {a : Nat}
    (ha : a ∈ S.shared.pushed) (heq : S.thread a = S.thread i) : a < i := by
  obtain ⟨thread, hpt⟩ := Option.isSome_iff_exists.mp hpush.isPost
  obtain ⟨q, hq, -⟩ := hS.pushed a ha
  have hqt : q.thread = some thread := by
    simpa only [State.thread, hq, hp, Option.bind_some, hpt] using heq
  refine lt_of_le_of_ne (le_of_not_gt fun hlt => ?_) (hS.not_pushed hp hpush.before ha)
  have hover := hS.sequential i a p q thread hlt hp hq hpt hqt
  rw [h.busy hpt] at hover
  exact absurd hover (by simp)

lemma Ordered.push (hS : S.Ordered) (hp : S.procs[i]? = some p) (h : Op i S.shared p g' p')
    (hpush : Pushes i S.shared g' p p') : (S.put i (g', p')).Ordered where
  history := by
    change g'.history = g'.pushed
    rw [hpush.pushed, hpush.history, hS.history]
  nodup := by
    change g'.pushed.Nodup
    rw [hpush.pushed, List.nodup_append]
    refine ⟨hS.nodup, List.nodup_singleton _, fun a ha b hb => ?_⟩
    rw [List.mem_singleton.mp hb]
    exact hS.not_pushed hp hpush.before ha
  pushed := by
    intro a ha
    change a ∈ g'.pushed at ha
    rw [hpush.pushed, List.mem_append, List.mem_singleton] at ha
    rw [getElem?_put hp]
    obtain ha | rfl := ha
    · rw [if_neg (hS.not_pushed hp hpush.before ha).symm]
      exact hS.pushed a ha
    · exact ⟨p', by rw [if_pos rfl], hpush.after⟩
  sequential _ _ _ _ _ hab hq hr := hS.sequential_op hp h hab hq hr
  program := by
    rw [thread_put hp h.thread]
    change g'.pushed.Pairwise _
    rw [hpush.pushed, List.pairwise_append]
    refine ⟨hS.program, List.pairwise_singleton _ _, fun a ha b hb heq => ?_⟩
    obtain rfl := List.mem_singleton.mp hb
    exact hS.lt_of_thread_eq hp h hpush ha heq

lemma Ordered.spawn (hS : S.Ordered) (hsame : S.shared.SameHistory g')
    (hnew : ∀ thread, p.thread = some thread → ∀ q ∈ S.procs, q.busy thread = false) :
    (S.spawn g' p).Ordered where
  history := (hsame.history.trans hS.history).trans hsame.pushed.symm
  nodup := by
    change g'.pushed.Nodup
    rw [hsame.pushed]
    exact hS.nodup
  pushed := by
    intro a ha
    change a ∈ g'.pushed at ha
    rw [hsame.pushed] at ha
    rw [getElem?_spawn (lt_length_of_pushed hS ha)]
    exact hS.pushed a ha
  sequential := by
    intro a b q r thread hab hq hr hqt hrt
    have hb : b < S.procs.length + 1 := by
      simpa [State.spawn] using (List.getElem?_eq_some_iff.mp hr).1
    rw [getElem?_spawn (by omega)] at hq
    obtain hlt | rfl : b < S.procs.length ∨ b = S.procs.length := by omega
    · rw [getElem?_spawn hlt] at hr
      exact hS.sequential a b q r thread hab hq hr hqt hrt
    · obtain rfl : p = r := by simpa [State.spawn] using hr
      exact hnew thread hrt q (List.mem_of_getElem? hq)
  program := by
    change g'.pushed.Pairwise _
    rw [hsame.pushed]
    refine hS.program.imp_of_mem fun ha hb hlt heq => hlt ?_
    simpa only [State.thread, getElem?_spawn (lt_length_of_pushed hS ha),
      getElem?_spawn (lt_length_of_pushed hS hb)] using heq

lemma Ordered.step {l : Label τ} (hS : S.Ordered) (h : S.step l = some S') : S'.Ordered := by
  cases steps_of_step h with
  | post hbusy =>
    refine hS.spawn ⟨rfl, rfl⟩ fun thread hthread q hq => ?_
    obtain rfl := Option.some_inj.mp hthread
    exact hbusy q hq
  | close => exact hS.spawn ⟨rfl, rfl⟩ (by simp [Proc.thread])
  | start => exact hS.spawn ⟨rfl, rfl⟩ (by simp [Proc.thread])
  | op _ hp hop =>
    obtain hpush | ⟨hpast, hsame⟩ := hop.history
    · exact hS.push hp hop hpush
    · exact hS.keep hp hop hpast hsame

end State

end Connx.Executor
