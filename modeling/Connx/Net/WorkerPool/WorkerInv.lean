import Connx.Net.WorkerPool.Worker
import Connx.Utils.Mpscq.Empty

/-!
# The invariant of a worker

The calls of `PostToWorker` agree with the pushes of the queue, `active_posts` counts them, every
node taken off the queue has one fate, and a worker about to sleep leaves no node behind unless a
call has still to wake it.
-/

namespace Connx.WorkerPool

open Pool

variable {W W' : Worker} {n : Nat}

/-! ### What the operations do -/

/-- One operation of a call with the task `n`. -/
inductive CallStep (W : Worker) (n : Nat) : PostPc → Worker → PostPc → Prop
  | enter : CallStep W n .enter { W with activePosts := W.activePosts + 1 } .loadAccepting
  | accept {q : Mpscq.State Nat} (h : W.accepting = true) (hq : W.queue.step (.push n) = some q) :
      CallStep W n .loadAccepting { W with queue := q } .push
  | refuse (h : W.accepting = false) : CallStep W n .loadAccepting W (.leave false)
  | push {q : Mpscq.State Nat} (hq : W.queue.step (.step n) = some q) :
      CallStep W n .push { W with queue := q } (.afterPush (q.pushes n))
  | lock : CallStep W n .lock { W with locked := true } .wake
  | wake : CallStep W n .wake { W with wakePending := true } .unlock
  | unlock : CallStep W n .unlock { W with locked := false } (.leave true)
  | last : CallStep W n (.leave true) { W with activePosts := W.activePosts - 1 } .checkAccepting
  | lastRefused : CallStep W n (.leave false) { W with activePosts := W.activePosts - 1 }
      (.notifyLock false)
  | leave {accepted : Bool} : CallStep W n (.leave accepted)
      { W with activePosts := W.activePosts - 1 } (.done accepted)
  | stays : CallStep W n .checkAccepting W (.done true)
  | closed : CallStep W n .checkAccepting W (.notifyLock true)
  | notifyLock {accepted : Bool} : CallStep W n (.notifyLock accepted) { W with locked := true }
      (.notifyUnlock accepted)
  | notifyUnlock {accepted : Bool} : CallStep W n (.notifyUnlock accepted)
      { W with locked := false } (.done accepted)

lemma postAct_step {pc pc' : PostPc} (h : postAct W n pc = some (W', pc')) :
    CallStep W n pc W' pc' := by
  cases pc with
  | enter =>
    obtain ⟨rfl, rfl⟩ := by simpa [postAct] using h
    exact .enter
  | loadAccepting =>
    simp only [postAct] at h
    split_ifs at h with haccepting
    · obtain ⟨q, hq, heq⟩ := Option.map_eq_some_iff.mp h
      obtain ⟨rfl, rfl⟩ := by simpa using heq
      exact .accept haccepting hq
    · obtain ⟨rfl, rfl⟩ := by simpa using h
      exact .refuse (by simpa using haccepting)
  | push =>
    obtain ⟨q, hq, heq⟩ := Option.map_eq_some_iff.mp h
    obtain ⟨rfl, rfl⟩ := by simpa using heq
    exact .push hq
  | lock =>
    simp only [postAct] at h
    split_ifs at h
    obtain ⟨rfl, rfl⟩ := by simpa using h
    exact .lock
  | wake =>
    obtain ⟨rfl, rfl⟩ := by simpa [postAct] using h
    exact .wake
  | unlock =>
    obtain ⟨rfl, rfl⟩ := by simpa [postAct] using h
    exact .unlock
  | leave accepted =>
    simp only [postAct, Option.some.injEq, Prod.mk.injEq] at h
    obtain ⟨rfl, rfl⟩ := h
    split_ifs with hlast haccepted
    · obtain rfl := haccepted
      exact .last
    · obtain rfl : accepted = false := by simpa using haccepted
      exact .lastRefused
    · exact .leave
  | checkAccepting =>
    simp only [postAct, Option.some.injEq, Prod.mk.injEq] at h
    obtain ⟨rfl, rfl⟩ := h
    split_ifs
    · exact .stays
    · exact .closed
  | notifyLock accepted =>
    simp only [postAct] at h
    split_ifs at h
    obtain ⟨rfl, rfl⟩ := by simpa using h
    exact .notifyLock
  | notifyUnlock accepted =>
    obtain ⟨rfl, rfl⟩ := by simpa [postAct] using h
    exact .notifyUnlock
  | done accepted => simp [postAct] at h

/-- `ShouldStop` is about to be true. -/
def Worker.Ends (W : Worker) (generation : Nat) (stopping : Bool) : Prop :=
  W.generation ≠ generation ∨ stopping = true

/-- One operation of the worker's thread. -/
inductive RunStep (W : Worker) (generation : Nat) (stopping : Bool) :
    RunPc → Worker → RunPc → Prop
  | lock : RunStep W generation stopping .lock { W with locked := true } .check
  | wake : RunStep W generation stopping .check { W with wakePending := false } .unlock
  | sleep (h : W.wakePending = false) :
      RunStep W generation stopping .check { W with locked := false } .waiting
  | woken : RunStep W generation stopping .waiting W .lock
  | unlock : RunStep W generation stopping .unlock { W with locked := false } (.loop .generation)
  | loop (h : W.generation = generation) :
      RunStep W generation stopping (.loop .generation) W (.loop .stopping)
  | loopEnd {c : Check} (h : W.Ends generation stopping) :
      RunStep W generation stopping (.loop c) W .returned
  | enter (h : stopping = false) : RunStep W generation stopping (.loop .stopping) W .pop
  | pop {q : Mpscq.State Nat} (hq : W.queue.step .pop = some q) :
      RunStep W generation stopping .pop { W with queue := q } .popping
  | popping {q : Mpscq.State Nat} (hq : W.queue.step .consume = some q) :
      RunStep W generation stopping .popping { W with queue := q } (.afterPop q.pop)
  | popped {n : Nat} : RunStep W generation stopping (.popped n .generation) W (.popped n .stopping)
  | delete {n : Nat} {c : Check} (h : W.Ends generation stopping) :
      RunStep W generation stopping (.popped n c)
        { W with fates := W.fates ++ [(n, .discarded)] } .returned
  | task {n : Nat} (h : stopping = false) : RunStep W generation stopping (.popped n .stopping)
      { W with fates := W.fates ++ [(n, .run)] } (.running n)
  | breaking : RunStep W generation stopping (.breaking .generation) W (.breaking .stopping)
  | breakEnd {c : Check} (h : W.Ends generation stopping) :
      RunStep W generation stopping (.breaking c) W .returned
  | again (h : stopping = false) : RunStep W generation stopping (.breaking .stopping) W .lock

lemma runAct_step {generation : Nat} {stopping : Bool} {pc pc' : RunPc}
    (h : runAct W generation stopping pc = some (W', pc')) :
    RunStep W generation stopping pc W' pc' := by
  cases pc with
  | lock =>
    simp only [runAct] at h
    split_ifs at h
    obtain ⟨rfl, rfl⟩ := by simpa using h
    exact .lock
  | check =>
    simp only [runAct, Option.some.injEq] at h
    split_ifs at h with hwake
    · obtain ⟨rfl, rfl⟩ := by simpa using h
      exact .wake
    · obtain ⟨rfl, rfl⟩ := by simpa using h
      exact .sleep (by simpa using hwake)
  | waiting =>
    obtain ⟨rfl, rfl⟩ := by simpa [runAct] using h
    exact .woken
  | unlock =>
    obtain ⟨rfl, rfl⟩ := by simpa [runAct] using h
    exact .unlock
  | loop c =>
    cases c with
    | generation =>
      simp only [runAct, Option.some.injEq, Prod.mk.injEq] at h
      obtain ⟨rfl, rfl⟩ := h
      split_ifs with hold
      · exact .loopEnd (.inl hold)
      · exact .loop (not_not.mp hold)
    | stopping =>
      simp only [runAct, Option.some.injEq, Prod.mk.injEq] at h
      obtain ⟨rfl, rfl⟩ := h
      split_ifs with hstopping
      · exact .loopEnd (.inr hstopping)
      · exact .enter (by simpa using hstopping)
  | pop =>
    obtain ⟨q, hq, heq⟩ := Option.map_eq_some_iff.mp h
    obtain ⟨rfl, rfl⟩ := by simpa using heq
    exact .pop hq
  | popping =>
    obtain ⟨q, hq, heq⟩ := Option.map_eq_some_iff.mp h
    obtain ⟨rfl, rfl⟩ := by simpa using heq
    exact .popping hq
  | popped n c =>
    cases c with
    | generation =>
      simp only [runAct, Option.some.injEq] at h
      split_ifs at h with hold
      · obtain ⟨rfl, rfl⟩ := by simpa using h
        exact .delete (.inl hold)
      · obtain ⟨rfl, rfl⟩ := by simpa using h
        exact .popped
    | stopping =>
      simp only [runAct, Option.some.injEq] at h
      split_ifs at h with hstopping
      · obtain ⟨rfl, rfl⟩ := by simpa using h
        exact .delete (.inr hstopping)
      · obtain ⟨rfl, rfl⟩ := by simpa using h
        exact .task (by simpa using hstopping)
  | running n => simp [runAct] at h
  | breaking c =>
    cases c with
    | generation =>
      simp only [runAct, Option.some.injEq, Prod.mk.injEq] at h
      obtain ⟨rfl, rfl⟩ := h
      split_ifs with hold
      · exact .breakEnd (.inl hold)
      · exact .breaking
    | stopping =>
      simp only [runAct, Option.some.injEq, Prod.mk.injEq] at h
      obtain ⟨rfl, rfl⟩ := h
      split_ifs with hstopping
      · exact .breakEnd (.inr hstopping)
      · exact .again (by simpa using hstopping)
  | returned => simp [runAct] at h

inductive WorkerStep (W : Worker) : Worker.Label → Worker → Prop
  | call {n : Nat} (hn : n ∉ W.calls.map Call.task) :
      WorkerStep W (.call n) { W with calls := W.calls ++ [⟨n, .enter⟩] }
  | post {i : Nat} {c : Call} {W₁ : Worker} {pc' : PostPc} (hi : W.calls[i]? = some c)
      (h : CallStep W c.task c.pc W₁ pc') :
      WorkerStep W (.post i) { W₁ with calls := W₁.calls.set i { c with pc := pc' } }
  | run {generation : Nat} {stopping : Bool} {W₁ : Worker} {pc' : RunPc}
      (h : RunStep W generation stopping W.run W₁ pc') :
      WorkerStep W (.run generation stopping) { W₁ with run := pc' }
  | finish {n : Nat} (h : W.run = .running n) :
      WorkerStep W .finish { W with run := .loop .generation }
  | refuse : WorkerStep W .refuse { W with accepting := false }
  | lock : WorkerStep W .lock { W with locked := true }
  | wake : WorkerStep W .wake { W with wakePending := true }
  | unlock : WorkerStep W .unlock { W with locked := false }
  | beginPop {q : Mpscq.State Nat} (hq : W.queue.step .pop = some q) :
      WorkerStep W .beginPop { W with queue := q }
  | discard {q : Mpscq.State Nat} (hq : W.queue.step .consume = some q) :
      WorkerStep W .discard { W with queue := q, fates := W.fates ++ discards q.pop }

lemma worker_step {l : Worker.Label} (h : W.step l = some W') : WorkerStep W l W' := by
  cases l with
  | call n =>
    simp only [Worker.step] at h
    split_ifs at h with hany
    obtain rfl := by simpa using h
    refine .call fun hmem => hany ?_
    obtain ⟨c, hc, rfl⟩ := List.mem_map.mp hmem
    exact List.any_eq_true.mpr ⟨c, hc, by simp⟩
  | post i =>
    obtain ⟨c, hi, hact⟩ := Option.bind_eq_some_iff.mp h
    obtain ⟨⟨W₁, pc'⟩, hpost, rfl⟩ := Option.map_eq_some_iff.mp hact
    exact .post hi (postAct_step hpost)
  | run generation stopping =>
    obtain ⟨⟨W₁, pc'⟩, hrun, rfl⟩ := Option.map_eq_some_iff.mp h
    exact .run (runAct_step hrun)
  | finish =>
    simp only [Worker.step] at h
    split at h
    · next n hrun =>
      obtain rfl := by simpa using h
      exact .finish hrun
    · simp at h
  | refuse =>
    obtain rfl := by simpa [Worker.step] using h
    exact .refuse
  | lock =>
    simp only [Worker.step] at h
    split_ifs at h
    obtain rfl := by simpa using h
    exact .lock
  | wake =>
    obtain rfl := by simpa [Worker.step] using h
    exact .wake
  | unlock =>
    obtain rfl := by simpa [Worker.step] using h
    exact .unlock
  | beginPop =>
    obtain ⟨q, hq, rfl⟩ := Option.map_eq_some_iff.mp h
    exact .beginPop hq
  | discard =>
    obtain ⟨q, hq, rfl⟩ := Option.map_eq_some_iff.mp h
    exact .discard hq

/-! ### Calls -/

def PostPc.counted : PostPc → Nat
  | .loadAccepting => 1
  | .push => 1
  | .lock => 1
  | .wake => 1
  | .unlock => 1
  | .leave _ => 1
  | _ => 0

/-- The call is counted in `active_posts`. -/
def Call.counted (c : Call) : Nat := c.pc.counted

/-- The call has passed the check of `accepting`, and has not left `active_posts`. -/
def PostPc.inside : PostPc → Bool
  | .push => true
  | .lock => true
  | .wake => true
  | .unlock => true
  | .leave accepted => accepted
  | _ => false

lemma PostPc.inside_of_counted {pc : PostPc} (h : pc.counted = 0) : pc.inside = false := by
  cases pc <;> first | rfl | simp [PostPc.counted] at h

/-- How far the push of a call is that is at `pc`. -/
def PostPc.Matches : PostPc → Option (Mpscq.PushPc Nat) → Prop
  | .push, p => ∃ pc, p = some pc ∧ ∀ first, pc ≠ .done first
  | .lock, p => p = some (.done true)
  | .wake, p => p = some (.done true)
  | .unlock, p => p = some (.done true)
  | .leave true, p => ∃ first, p = some (.done first)
  | .checkAccepting, p => ∃ first, p = some (.done first)
  | .notifyLock true, p => ∃ first, p = some (.done first)
  | .notifyUnlock true, p => ∃ first, p = some (.done first)
  | .done true, p => ∃ first, p = some (.done first)
  | _, p => p = none

/-- The call has been let in: it has pushed its node, or it is about to. -/
def PostPc.letIn : PostPc → Bool
  | .push => true
  | .lock => true
  | .wake => true
  | .unlock => true
  | .leave accepted => accepted
  | .checkAccepting => true
  | .notifyLock accepted => accepted
  | .notifyUnlock accepted => accepted
  | .done accepted => accepted
  | _ => false

lemma PostPc.Matches.letIn {pc : PostPc} {p : Option (Mpscq.PushPc Nat)} (h : pc.Matches p) :
    pc.letIn = p.isSome := by
  cases pc with
  | push =>
    obtain ⟨pc, rfl, -⟩ := h
    rfl
  | lock => exact congrArg Option.isSome h.symm
  | wake => exact congrArg Option.isSome h.symm
  | unlock => exact congrArg Option.isSome h.symm
  | checkAccepting =>
    obtain ⟨first, rfl⟩ := h
    rfl
  | enter => exact congrArg Option.isSome h.symm
  | loadAccepting => exact congrArg Option.isSome h.symm
  | leave accepted | notifyLock accepted | notifyUnlock accepted | done accepted =>
    cases accepted with
    | false => exact congrArg Option.isSome h.symm
    | true =>
      obtain ⟨first, rfl⟩ := h
      rfl

/-- The push of a call that is past it is done. -/
lemma PostPc.Matches.done {pc : PostPc} {p : Option (Mpscq.PushPc Nat)} (h : pc.Matches p)
    (hletIn : pc.letIn = true) (hpc : pc ≠ .push) : ∃ first, p = some (.done first) := by
  cases pc with
  | push => exact absurd rfl hpc
  | lock => exact ⟨true, h⟩
  | wake => exact ⟨true, h⟩
  | unlock => exact ⟨true, h⟩
  | checkAccepting => exact h
  | enter => simp [PostPc.letIn] at hletIn
  | loadAccepting => simp [PostPc.letIn] at hletIn
  | leave accepted | notifyLock accepted | notifyUnlock accepted | done accepted =>
    obtain rfl : accepted = true := hletIn
    exact h

/-- The calls of `PostToWorker` agree with the queue and with `active_posts`. -/
structure Worker.Posts (W : Worker) : Prop where
  active : W.activePosts = total Call.counted W.calls
  distinct : (W.calls.map Call.task).Nodup
  pushes : ∀ c ∈ W.calls, c.pc.Matches (W.queue.pushes c.task)
  posted : ∀ n, W.queue.pushes n ≠ none → n ∈ W.calls.map Call.task

namespace CallStep

variable {pc pc' : PostPc}

lemma calls (h : CallStep W n pc W' pc') : W'.calls = W.calls := by
  cases h <;> rfl

lemma pushes_of_ne (h : CallStep W n pc W' pc') {m : Nat} (hm : m ≠ n) :
    W'.queue.pushes m = W.queue.pushes m := by
  cases h with
  | accept _ hq =>
    obtain ⟨-, rfl⟩ := Mpscq.push_eq hq
    exact Function.update_of_ne hm _ _
  | push hq =>
    obtain ⟨_, _, _, _, _, hother, _⟩ := Mpscq.step_eq hq
    exact hother m hm
  | _ => rfl

lemma active (h : CallStep W n pc W' pc') :
    W'.activePosts + pc.counted = W.activePosts + pc'.counted := by
  cases h with
  | push hq =>
    have hcounted : ∀ p, (PostPc.afterPush p).counted = 1 := by
      intro p
      unfold PostPc.afterPush
      split <;> rfl
    rw [hcounted]
    rfl
  | _ => simp [PostPc.counted]

lemma pushes (h : CallStep W n pc W' pc') (hpc : pc.Matches (W.queue.pushes n)) :
    pc'.Matches (W'.queue.pushes n) := by
  cases h with
  | accept _ hq =>
    obtain ⟨-, rfl⟩ := Mpscq.push_eq hq
    exact ⟨.clear, Function.update_self _ _ _, by simp⟩
  | @push q hq =>
    obtain ⟨p, p', hp, hp', hstep, -⟩ := Mpscq.step_eq hq
    rw [hp']
    generalize q.queue = q' at hstep
    cases hstep with
    | clear => exact ⟨.exchange, rfl, by simp⟩
    | exchange => exact ⟨_, rfl, by simp⟩
    | link prev =>
      by_cases hprev : prev = .stub
      · subst hprev
        exact rfl
      · simp only [hprev, decide_false, PostPc.afterPush]
        exact ⟨false, rfl⟩
  | unlock => exact ⟨true, hpc⟩
  | @leave accepted | @notifyLock accepted | @notifyUnlock accepted =>
    cases accepted <;> exact hpc
  | _ => exact hpc

end CallStep

lemma Worker.Posts.post {i : Nat} {c : Call} {pc' : PostPc} (h : W.Posts)
    (hi : W.calls[i]? = some c) (hstep : CallStep W c.task c.pc W' pc') :
    { W' with calls := W'.calls.set i { c with pc := pc' } : Worker }.Posts := by
  have hcalls : W'.calls = W.calls := hstep.calls
  have htasks : (W.calls.set i { c with pc := pc' }).map Call.task = W.calls.map Call.task :=
    map_set_of_eq hi rfl
  constructor
  · have htotal := total_set (f := Call.counted) (q := { c with pc := pc' }) hi
    have hactive := hstep.active
    have hold := h.active
    simp only [Call.counted] at htotal
    show W'.activePosts = total Call.counted (W'.calls.set i _)
    rw [hcalls]
    omega
  · simpa only [hcalls, htasks] using h.distinct
  · intro c' hc'
    simp only [hcalls] at hc'
    obtain rfl | ⟨hmem, hne⟩ := mem_set_of_nodup h.distinct hi hc'
    · exact hstep.pushes (h.pushes c (List.mem_of_getElem? hi))
    · have hother := h.pushes c' hmem
      rwa [← hstep.pushes_of_ne hne] at hother
  · intro n hn
    simp only [hcalls, htasks]
    by_cases htask : n = c.task
    · subst htask
      exact List.mem_map_of_mem (List.mem_of_getElem? hi)
    · exact h.posted n (by rwa [← hstep.pushes_of_ne htask])

lemma Worker.Posts.call (h : W.Posts) (hn : n ∉ W.calls.map Call.task) :
    { W with calls := W.calls ++ [⟨n, .enter⟩] : Worker }.Posts := by
  constructor
  · simpa [Call.counted, PostPc.counted] using h.active
  · show ((W.calls ++ [_]).map Call.task).Nodup
    rw [List.map_append]
    exact h.distinct.append (List.nodup_singleton n) (List.disjoint_singleton.mpr hn)
  · intro c hc
    obtain hc | rfl := by simpa using hc
    · exact h.pushes c hc
    · exact not_not.mp fun hne => hn (h.posted n hne)
  · intro m hm
    simp only [List.map_append, List.mem_append]
    exact .inl (h.posted m hm)

lemma Worker.Posts.congr (h : W.Posts) (hcalls : W'.calls = W.calls)
    (hactive : W'.activePosts = W.activePosts) (hpushes : W'.queue.pushes = W.queue.pushes) :
    W'.Posts := by
  constructor
  · rw [hcalls, hactive]
    exact h.active
  · rw [hcalls]
    exact h.distinct
  · rw [hcalls, hpushes]
    exact h.pushes
  · rw [hcalls, hpushes]
    exact h.posted

/-! ### The invariant -/

/-- The node the thread has taken off the queue and not decided about. -/
def RunPc.held : RunPc → List Nat
  | .popped n _ => [n]
  | _ => []

/-- The thread has found the end of the queue, or not looked yet, and looks again when it has seen
`wake_pending`. -/
def RunPc.sleepy : RunPc → Bool
  | .breaking _ => true
  | .lock => true
  | .check => true
  | .waiting => true
  | _ => false

/-- The call found `stub_` in `newest_` and has still to set `wake_pending`. -/
def Worker.Signals (W : Worker) (c : Call) : Prop :=
  c.pc = .push ∧ W.queue.pushes c.task = some (.link .stub) ∨ c.pc = .lock ∨ c.pc = .wake

/-- Nothing is left in the queue, or the thread will be told. -/
def Worker.Awake (W : Worker) : Prop :=
  W.queue.Empty ∨ W.wakePending = true ∨ ∃ c ∈ W.calls, W.Signals c

structure Worker.Inv (W : Worker) : Prop extends W.Posts where
  queue : W.queue.Inv
  fates : W.queue.returned = (W.fates.map Prod.fst ++ W.run.held).map .node
  awake : W.run.sleepy = true → W.Awake

lemma inv_worker (generation : Nat) (run : RunPc) (hrun : run.held = []) :
    Worker.Inv { generation := generation, run := run } where
  active := rfl
  distinct := List.nodup_nil
  pushes := by simp
  posted := by simp
  queue := Mpscq.inv_init
  fates := by simp [hrun]
  awake := fun _ => .inl rfl

namespace Worker

lemma Awake.mono (h : W.Awake) (hempty : W.queue.Empty → W'.queue.Empty)
    (hwake : W.wakePending = true → W'.wakePending = true) (hcalls : W'.calls = W.calls)
    (hpushes : W'.queue.pushes = W.queue.pushes) : W'.Awake := by
  obtain h | h | ⟨c, hc, hsignals⟩ := h
  · exact .inl (hempty h)
  · exact .inr (.inl (hwake h))
  · refine .inr (.inr ⟨c, hcalls ▸ hc, ?_⟩)
    unfold Signals
    rw [hpushes]
    exact hsignals

lemma Inv.nodup (h : W.Inv) {i j : Nat} {c c' : Call} (hi : W.calls[i]? = some c)
    (hj : W.calls[j]? = some c') (htask : c'.task = c.task) : i = j := by
  have hlt : i < W.calls.length := (List.getElem?_eq_some_iff.mp hi).1
  exact (List.getElem?_inj (by simpa using hlt) h.distinct).mp (by simp [hi, hj, htask])

end Worker

/-- The queue under an operation of a call. -/
lemma CallStep.queue {pc pc' : PostPc} (h : CallStep W n pc W' pc') :
    W'.queue = W.queue ∨ W.queue.step (.push n) = some W'.queue ∨
      pc = .push ∧ W.queue.step (.step n) = some W'.queue ∧
        pc' = .afterPush (W'.queue.pushes n) := by
  cases h with
  | accept _ hq => exact .inr (.inl hq)
  | push hq => exact .inr (.inr ⟨rfl, hq, rfl⟩)
  | _ => exact .inl rfl

lemma CallStep.frame {pc pc' : PostPc} (h : CallStep W n pc W' pc') :
    W'.generation = W.generation ∧ W'.accepting = W.accepting ∧ W'.run = W.run ∧
      W'.fates = W.fates ∧ (W.wakePending = true → W'.wakePending = true) := by
  cases h with
  | wake => exact ⟨rfl, rfl, rfl, rfl, fun _ => rfl⟩
  | _ => exact ⟨rfl, rfl, rfl, rfl, id⟩

lemma CallStep.signals {c : Call} {pc' : PostPc} (h : CallStep W c.task c.pc W' pc')
    (hsignals : W.Signals c) : W'.Signals { c with pc := pc' } ∨ W'.wakePending = true := by
  obtain ⟨n, pc⟩ := c
  obtain ⟨rfl, hlink⟩ | rfl | rfl := hsignals
  · cases h with
    | @push q hq =>
      obtain ⟨p, p', hp, hp', hstep, -⟩ := Mpscq.step_eq hq
      obtain rfl : p = .link .stub := Option.some.inj (hp.symm.trans hlink)
      generalize q.queue = q' at hstep
      cases hstep with
      | link => exact .inl (.inr (.inl (by simp [hp', PostPc.afterPush])))
  · cases h with
    | lock => exact .inl (.inr (.inr rfl))
  · cases h with
    | wake => exact .inr rfl

lemma CallStep.awake {i : Nat} {c : Call} {pc' : PostPc} (h : CallStep W c.task c.pc W' pc')
    (hW : W.Inv) (hi : W.calls[i]? = some c) (hawake : W.Awake) :
    { W' with calls := W'.calls.set i { c with pc := pc' } : Worker }.Awake := by
  have hlt : i < W.calls.length := (List.getElem?_eq_some_iff.mp hi).1
  have hself : { c with pc := pc' } ∈ W'.calls.set i { c with pc := pc' } := by
    rw [h.calls]
    exact List.mem_set hlt _
  obtain hempty | hwake | ⟨c', hc', hsignals⟩ := hawake
  · obtain hq | hq | ⟨hpc, hq, hpc'⟩ := h.queue
    · exact .inl (show W'.queue.Empty from hq ▸ hempty)
    · obtain h' | ⟨_, hl, -⟩ := hempty.step hW.queue hq
      · exact .inl h'
      · simp at hl
    · obtain h' | ⟨m, hl, hlink⟩ := hempty.step hW.queue hq
      · exact .inl h'
      · obtain rfl : c.task = m := by simpa using hl
        refine .inr (.inr ⟨_, hself, .inl ⟨?_, hlink⟩⟩)
        simp [hpc', hlink, PostPc.afterPush]
  · exact .inr (.inl (h.frame.2.2.2.2 hwake))
  · obtain ⟨j, hj⟩ := List.mem_iff_getElem?.mp hc'
    by_cases hij : i = j
    · subst hij
      obtain rfl : c = c' := Option.some.inj (hi.symm.trans hj)
      obtain hsignals' | hwake := h.signals hsignals
      · exact .inr (.inr ⟨_, hself, hsignals'⟩)
      · exact .inr (.inl hwake)
    · refine .inr (.inr ⟨c', ?_, ?_⟩)
      · refine List.mem_of_getElem? (i := j) ?_
        rw [List.getElem?_set_ne hij, h.calls, hj]
      · have hne : c'.task ≠ c.task := fun heq => hij (hW.nodup hi hj heq)
        unfold Worker.Signals
        rw [show W'.queue.pushes c'.task = W.queue.pushes c'.task from h.pushes_of_ne hne]
        exact hsignals

/-- The queue under an operation of the thread. -/
lemma RunStep.queue {generation : Nat} {stopping : Bool} {pc pc' : RunPc}
    (h : RunStep W generation stopping pc W' pc') :
    W'.queue = W.queue ∨ W.queue.step .pop = some W'.queue ∨
      pc = .popping ∧ W.queue.step .consume = some W'.queue ∧ pc' = .afterPop W'.queue.pop := by
  cases h with
  | pop hq => exact .inr (.inl hq)
  | popping hq => exact .inr (.inr ⟨rfl, hq, rfl⟩)
  | _ => exact .inl rfl

lemma RunStep.frame {generation : Nat} {stopping : Bool} {pc pc' : RunPc}
    (h : RunStep W generation stopping pc W' pc') :
    W'.generation = W.generation ∧ W'.accepting = W.accepting ∧ W'.activePosts = W.activePosts ∧
      W'.calls = W.calls := by
  cases h <;> exact ⟨rfl, rfl, rfl, rfl⟩

lemma RunStep.pushes {generation : Nat} {stopping : Bool} {pc pc' : RunPc}
    (h : RunStep W generation stopping pc W' pc') : W'.queue.pushes = W.queue.pushes := by
  obtain hq | hq | ⟨-, hq, -⟩ := h.queue
  · rw [hq]
  · rw [(Mpscq.pop_eq hq).2]
  · exact (Mpscq.consume_eq hq).1

lemma Worker.Inv.fates_step {generation : Nat} {stopping : Bool} {pc' : RunPc} (hW : W.Inv)
    (h : RunStep W generation stopping W.run W' pc') :
    W'.queue.returned = (W'.fates.map Prod.fst ++ pc'.held).map .node := by
  have hfates := hW.fates
  generalize hpc : W.run = pc at h hfates
  cases h with
  | pop hq =>
    rw [(Mpscq.pop_eq hq).2]
    exact hfates
  | @popping q hq =>
    have hret := (Mpscq.consume_eq hq).2.2.1
    have hstub := (hW.queue.step hq).stub_not_mem
    rw [hret] at hstub ⊢
    rw [hfates]
    -- the end of the call decides what the thread holds
    generalize q.pop = p at hstub
    cases p with
    | done result empty =>
      cases result with
      | none => cases empty <;> simp [RunPc.afterPop, RunPc.held, Mpscq.PopPc.result]
      | some cell =>
        cases cell with
        | stub => simp [Mpscq.PopPc.result] at hstub
        | node m => simp [RunPc.afterPop, RunPc.held, Mpscq.PopPc.result]
    | _ => simp [RunPc.afterPop, RunPc.held, Mpscq.PopPc.result]
  | delete => simpa [RunPc.held] using hfates
  | task => simpa [RunPc.held] using hfates
  | _ => exact hfates

lemma Worker.Inv.awake_step {generation : Nat} {stopping : Bool} {pc' : RunPc} (hW : W.Inv)
    (h : RunStep W generation stopping W.run W' pc') (hsleepy : pc'.sleepy = true) : W'.Awake := by
  have hawake := hW.awake
  generalize hpc : W.run = pc at h hawake
  cases h with
  | @popping q hq =>
    -- the thread goes to sleep after a call that reports the end
    have hend : q.pop = .done none true := by
      generalize q.pop = p at hsleepy
      unfold RunPc.afterPop at hsleepy
      split at hsleepy <;> simp_all [RunPc.sleepy]
    obtain hempty | ⟨n, hlink⟩ := hW.queue.empty_or_first hq hend
    · exact .inl hempty
    · have hpushes := (Mpscq.consume_eq hq).1
      rw [hpushes] at hlink
      obtain ⟨c, hc, rfl⟩ := List.mem_map.mp (hW.posted n (by simp [hlink]))
      refine .inr (.inr ⟨c, hc, .inl ⟨?_, by rw [← hlink]; exact congrFun hpushes _⟩⟩)
      have hmatch := hW.pushes c hc
      rw [hlink] at hmatch
      by_contra hne
      have hletIn : c.pc.letIn = true := hmatch.letIn
      obtain ⟨first, hdone⟩ := hmatch.done hletIn hne
      simp at hdone
  | lock => exact (hawake rfl).mono id id rfl rfl
  | sleep h => exact (hawake rfl).mono id id rfl rfl
  | woken => exact hawake rfl
  | breaking => exact hawake rfl
  | again => exact hawake rfl
  | _ => simp [RunPc.sleepy] at hsleepy

lemma Worker.Inv.run {generation : Nat} {stopping : Bool} {pc' : RunPc} (hW : W.Inv)
    (h : RunStep W generation stopping W.run W' pc') : { W' with run := pc' : Worker }.Inv := by
  obtain ⟨-, -, hactive, hcalls⟩ := h.frame
  have hfates := hW.fates_step h
  refine ⟨hW.toPosts.congr hcalls hactive h.pushes, ?_, hfates,
    fun hsleepy => (hW.awake_step h hsleepy).mono id id rfl rfl⟩
  obtain hq | hq | ⟨-, hq, -⟩ := h.queue
  · exact hq ▸ hW.queue
  · exact hW.queue.step hq
  · exact hW.queue.step hq

lemma Worker.Inv.post {i : Nat} {c : Call} {pc' : PostPc} (hW : W.Inv)
    (hi : W.calls[i]? = some c) (h : CallStep W c.task c.pc W' pc') :
    { W' with calls := W'.calls.set i { c with pc := pc' } : Worker }.Inv := by
  obtain ⟨-, -, hrun, hfates, -⟩ := h.frame
  refine ⟨hW.toPosts.post hi h, ?_, ?_, fun hsleepy => h.awake hW hi (hW.awake (hrun ▸ hsleepy))⟩
  · obtain hq | hq | ⟨-, hq, -⟩ := h.queue
    · exact hq ▸ hW.queue
    · exact hW.queue.step hq
    · exact hW.queue.step hq
  · show W'.queue.returned = (W'.fates.map Prod.fst ++ W'.run.held).map .node
    rw [hrun, hfates, ← hW.fates]
    obtain hq | hq | ⟨-, hq, -⟩ := h.queue
    · rw [hq]
    · rw [(Mpscq.push_eq hq).2]
    · obtain ⟨_, _, _, _, _, _, _, hret, _⟩ := Mpscq.step_eq hq
      exact hret

/-- The steps that touch only `accepting`, the mutex and `wake_pending`. -/
lemma Worker.Inv.flags (hW : W.Inv) (hcalls : W'.calls = W.calls)
    (hactive : W'.activePosts = W.activePosts) (hqueue : W'.queue = W.queue)
    (hrun : W'.run = W.run) (hfates : W'.fates = W.fates)
    (hwake : W.wakePending = true → W'.wakePending = true) : W'.Inv := by
  refine ⟨hW.toPosts.congr hcalls hactive (by rw [hqueue]), hqueue ▸ hW.queue, ?_,
    fun hsleepy => ?_⟩
  · rw [hqueue, hfates, hrun]
    exact hW.fates
  · exact (hW.awake (hrun ▸ hsleepy)).mono (fun h => hqueue ▸ h) hwake hcalls (by rw [hqueue])

/-- The drain of a queue whose node the thread does not hold. -/
lemma Worker.Inv.discard {q : Mpscq.State Nat} (hW : W.Inv) (hheld : W.run.held = [])
    (hq : W.queue.step .consume = some q) :
    { W with queue := q, fates := W.fates ++ discards q.pop : Worker }.Inv := by
  obtain ⟨hpushes, -, hret, -⟩ := Mpscq.consume_eq hq
  have hqueue := hW.queue.step hq
  refine ⟨hW.toPosts.congr rfl rfl hpushes, hqueue, ?_, fun hsleepy => ?_⟩
  · show q.returned = ((W.fates ++ discards q.pop).map Prod.fst ++ W.run.held).map .node
    have hstub := hqueue.stub_not_mem
    rw [hret] at hstub ⊢
    rw [hW.fates, hheld]
    generalize q.pop = p at hstub
    cases p with
    | done result empty =>
      cases result with
      | none => simp [discards, Mpscq.PopPc.result]
      | some cell =>
        cases cell with
        | stub => simp [Mpscq.PopPc.result] at hstub
        | node m => simp [discards, Mpscq.PopPc.result]
    | _ => simp [discards, Mpscq.PopPc.result]
  · refine (hW.awake hsleepy).mono (fun hempty => ?_) id rfl hpushes
    obtain h' | ⟨_, hl, -⟩ := hempty.step hW.queue hq
    · exact h'
    · simp at hl

/-- Every step of a worker, with a drain only while the thread holds no node. -/
theorem Worker.Inv.step {l : Worker.Label} (hW : W.Inv)
    (hheld : l = .discard → W.run.held = []) (h : W.step l = some W') : W'.Inv := by
  cases worker_step h with
  | call hn =>
    refine ⟨hW.toPosts.call hn, hW.queue, hW.fates, fun hsleepy => ?_⟩
    obtain hempty | hwake | ⟨c, hc, hsignals⟩ := hW.awake hsleepy
    · exact .inl hempty
    · exact .inr (.inl hwake)
    · exact .inr (.inr ⟨c, List.mem_append_left _ hc, hsignals⟩)
  | post hi hcall => exact hW.post hi hcall
  | run hrun => exact hW.run hrun
  | finish hrun =>
    refine ⟨hW.toPosts.congr rfl rfl rfl, hW.queue, ?_, by simp [RunPc.sleepy]⟩
    simpa [hrun, RunPc.held] using hW.fates
  | refuse => exact hW.flags rfl rfl rfl rfl rfl id
  | lock => exact hW.flags rfl rfl rfl rfl rfl id
  | wake => exact hW.flags rfl rfl rfl rfl rfl fun _ => rfl
  | unlock => exact hW.flags rfl rfl rfl rfl rfl id
  | beginPop hq =>
    have hqueue := hW.queue.step hq
    obtain ⟨-, rfl⟩ := Mpscq.pop_eq hq
    exact ⟨hW.toPosts.congr rfl rfl rfl, hqueue, hW.fates,
      fun hsleepy => (hW.awake hsleepy).mono id id rfl rfl⟩
  | discard hq => exact hW.discard (hheld rfl) hq

end Connx.WorkerPool
