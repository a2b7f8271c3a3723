import Connx.Net.WorkerPool.Control

/-!
# What the pool does to its workers

Every step of the pool is a step of one worker, a step of the control, or a new worker. From this
alone follow the facts about tasks, threads and queues that the pool keeps.
-/

namespace Connx.WorkerPool

open Pool

variable {S S' S₁ : State} {W W' : Worker} {w k : Nat} {s s' : Stop} {l : Worker.Label}

/-! ### Steps of a worker -/

namespace Worker

/-- The thread is inside a task. -/
def InTask (W : Worker) : Prop := ∃ n, W.run = .running n

/-- The thread is not in `PopTask`, and holds no node. -/
def Away (W : Worker) : Prop := W.Ended ∨ W.InTask

lemma Away.held (h : W.Away) : W.run.held = [] := by
  obtain h | ⟨n, h⟩ := h
  · rw [show W.run = .returned from h]
    rfl
  · rw [h]
    rfl

lemma InTask.step (hW : W.InTask) (h : W.step l = some W') (hl : l ≠ .finish) : W'.InTask := by
  obtain ⟨n, hn⟩ := hW
  cases worker_step h with
  | post hi hcall => exact ⟨n, hcall.frame.2.2.1.trans hn⟩
  | run hrun =>
    rw [hn] at hrun
    nomatch hrun
  | finish => exact absurd rfl hl
  | _ => exact ⟨n, hn⟩

def Label.tasks : Worker.Label → List Nat
  | .call n => [n]
  | _ => []

lemma tasks_of_step (h : W.step l = some W') :
    W'.calls.map Call.task = W.calls.map Call.task ++ l.tasks := by
  cases worker_step h with
  | call => exact List.map_append
  | @post i c W₁ pc' hi hcall =>
    show (W₁.calls.set i _).map Call.task = _
    rw [hcall.calls, map_set_of_eq (q := { c with pc := pc' }) hi rfl]
    exact (List.append_nil _).symm
  | @run _ _ W₁ _ hrun =>
    show W₁.calls.map Call.task = _
    rw [hrun.frame.2.2.2]
    exact (List.append_nil _).symm
  | _ => exact (List.append_nil _).symm

/-- A node is deleted unrun by the thread when it is to stop, or by a drain. -/
lemma discarded_of_step {n : Nat} (h : W.step l = some W') (hn : (n, .discarded) ∈ W'.fates) :
    (n, .discarded) ∈ W.fates ∨ l = .discard ∨
      ∃ generation stopping, l = .run generation stopping ∧ W.Ends generation stopping := by
  cases worker_step h with
  | post hi hcall => exact .inl (hcall.frame.2.2.2.1 ▸ hn)
  | run hrun =>
    generalize W.run = pc at hrun
    cases hrun with
    | delete hends => exact .inr (.inr ⟨_, _, rfl, hends⟩)
    | task => exact .inl (by simpa using hn)
    | _ => exact .inl hn
  | discard => exact .inr (.inl rfl)
  | _ => exact .inl hn

/-- The thread ends when it is to stop. -/
lemma ended_of_step (h : W.step l = some W') (hended : W'.Ended) :
    W.Ended ∨ ∃ generation stopping, l = .run generation stopping ∧ W.Ends generation stopping := by
  cases worker_step h with
  | post hi hcall => exact .inl (hcall.frame.2.2.1.symm.trans hended)
  | @run _ _ _ pc' hrun =>
    refine .inr ⟨_, _, rfl, ?_⟩
    have hpc' : pc' = .returned := hended
    generalize W.run = pc at hrun
    cases hrun with
    | loopEnd hends => exact hends
    | delete hends => exact hends
    | breakEnd hends => exact hends
    | @popping q =>
      generalize q.pop = p at hpc'
      unfold RunPc.afterPop at hpc'
      split at hpc' <;> simp at hpc'
    | _ => simp at hpc'
  | finish => simp [Ended] at hended
  | _ => exact .inl hended

/-- `PopAndCheckEnd` is in progress in the thread, or for a reason that does not depend on the
worker. -/
lemma popping_of_step {D : Prop} (h : W.step l = some W') (hpop : l ≠ .beginPop)
    (hdiscard : l ≠ .discard) (hD : W.queue.pop.isDone = false → W.run = .popping ∨ D)
    (hdone : W'.queue.pop.isDone = false) : W'.run = .popping ∨ D := by
  cases worker_step h with
  | @post i c W₁ pc' hi hcall =>
    have hqueue : W₁.queue.pop = W.queue.pop := by
      obtain hq | hq | ⟨-, hq, -⟩ := hcall.queue
      · rw [hq]
      · rw [(Mpscq.push_eq hq).2]
      · obtain ⟨_, _, _, _, _, _, hpop, _⟩ := Mpscq.step_eq hq
        exact hpop
    exact (hD (hqueue ▸ hdone)).imp_left fun hpopping => hcall.frame.2.2.1.trans hpopping
  | run hrun =>
    generalize W.run = pc at hrun hD
    cases hrun with
    | pop hq => exact .inl rfl
    | @popping q hq =>
      left
      show RunPc.afterPop q.pop = .popping
      have hdone' : q.pop.isDone = false := hdone
      generalize q.pop = p at hdone'
      cases p with
      | done result empty => simp [Mpscq.PopPc.isDone] at hdone'
      | _ => rfl
    | _ => exact .inr ((hD hdone).resolve_left (by simp))
  | finish hrun => exact .inr ((hD hdone).resolve_left (by simp [hrun]))
  | beginPop => exact absurd rfl hpop
  | discard => exact absurd rfl hdiscard
  | _ => exact hD hdone

end Worker

/-! ### The invariant -/

/-- A call of `Stop` or `Start` is inside `PopAndCheckEnd` for the worker. -/
def State.Drains (S : State) (w : Nat) : Prop :=
  (∃ s ∈ S.stops, ∃ rest, s.pc = .draining (w :: rest)) ∨
    ∃ made rest, S.mutex = some (.start (.failDraining made (w :: rest)))

/-- The calls of `Post` and the workers they chose. -/
structure State.Choices (S : State) : Prop where
  began : ∀ p ∈ S.posts, p.began ≤ S.generation
  choosing : ∀ p ∈ S.posts, p.pc = .loadWorkers → ∀ w ∈ S.current, S.Has w (p.began ≤ ·.generation)
  chosen : ∀ (n : Nat) (p : Post) (w : Nat), S.posts[n]? = some p → p.pc = .inside w →
    S.Has w fun W => p.began ≤ W.generation ∧ n ∈ W.calls.map Call.task
  calls : ∀ (w : Nat) (W : Worker), S.workers[w]? = some W → ∀ n ∈ W.calls.map Call.task,
    ∃ p, S.posts[n]? = some p ∧ p.pc = .inside w

structure State.Inv (S : State) : Prop extends S.Control where
  workers : ∀ W ∈ S.workers, W.Inv
  callers : ∀ s ∈ S.stops, s.returned = false → ∀ w, s.caller = some w → S.Has w Worker.InTask
  consumer : ∀ (w : Nat) (W : Worker), S.workers[w]? = some W → W.queue.pop.isDone = false →
    W.run = .popping ∨ S.Drains w
  discarded : ∀ W ∈ S.workers, ∀ n, (n, .discarded) ∈ W.fates →
    W.generation < S.generation ∨ S.stopping = true
  ended : ∀ W ∈ S.workers, W.Ended → W.generation < S.generation ∨ S.stopping = true ∨
    ∃ made, S.mutex = some (.start (.failStopping made))
  choices : S.Choices

lemma inv_init : State.Inv {} where
  bounded := by simp [State.gens]
  region := .inr ⟨rfl, rfl, by simp [State.Older, State.gens]⟩
  stops := by simp
  listed := by simp
  workers := by simp
  callers := by simp
  consumer := by simp
  discarded := by simp
  ended := by simp
  choices := ⟨by simp, by simp, by simp, by simp⟩

/-! ### Who may touch a queue -/

/-- `Stop` drains a worker whose thread has ended, or is inside the task that called it. -/
lemma State.Inv.away_of_stop (hS : S.Inv) (hs : s ∈ S.stops) {rest : List Nat}
    (hpc : s.pc = .drain (w :: rest) ∨ s.pc = .draining (w :: rest)) :
    S.Has w Worker.Away ∧ S.Has w (·.generation < S.generation) := by
  obtain ⟨hlists, hstages⟩ := hS.stops s hs
  have hstages' : ((∀ w ∈ s.list, S.Has w Worker.Sealed) ∧ ∀ w ∈ s.list, S.Joined s w) ∧
      Covers s.list (w :: rest) (S.Has · Worker.Drained) := by
    obtain hpc | hpc := hpc <;> rw [hpc] at hstages <;> exact hstages
  have hw : w ∈ s.list := hstages'.2.head
  have hlists' : S.Lists s := by
    obtain hpc | hpc := hpc <;> simpa [hpc] using hlists
  constructor
  · obtain hended | hcaller := hstages'.1.2 w hw
    · exact hended.mono fun _ => .inl
    · refine (hS.callers s hs ?_ w hcaller).mono fun _ => .inr
      obtain hpc | hpc := hpc <;> simp [Stop.returned, hpc]
  · refine (State.has_of_members hlists'.2 hw).mono fun W hW => ?_
    rw [hW]
    exact hlists'.1

/-- A failed `Start` drains workers whose threads have ended. -/
lemma State.Inv.away_of_start (hS : S.Inv) {pc : StartRegion} {made rest : List Nat}
    (hmutex : S.mutex = some (.start pc))
    (hpc : pc = .failDrain made (w :: rest) ∨ pc = .failDraining made (w :: rest)) :
    S.Has w Worker.Away ∧ S.Has w (·.generation < S.generation) := by
  have hinv : S.Failed made ∧ (∀ w ∈ made, S.Has w Worker.Refused) ∧
      (∀ w ∈ made, S.Has w Worker.Ended) ∧ w :: rest ⊆ made := by
    have hinv := hS.region.start hmutex
    obtain rfl | rfl := hpc <;> exact hinv
  obtain ⟨hfailed, -, hended, hsub⟩ := hinv
  have hw : w ∈ made := hsub List.mem_cons_self
  refine ⟨(hended w hw).mono fun _ => .inl, ?_⟩
  obtain ⟨W, hW, -⟩ := hended w hw
  exact ⟨W, hW, hfailed.1.2.2 w _ (State.mem_gens hW)⟩

lemma State.Inv.away_of_drains (hS : S.Inv) (h : S.Drains w) : S.Has w Worker.Away := by
  obtain ⟨s, hs, rest, hpc⟩ | ⟨made, rest, hmutex⟩ := h
  · exact (hS.away_of_stop hs (.inr hpc)).1
  · exact (hS.away_of_start hmutex (.inr rfl)).1

/-! ### Steps -/

/-- When the pool makes a worker take a step. -/
def State.Grants (S S' : State) (w : Nat) : Worker.Label → Prop
  | .call n => ∃ p, S'.posts[n]? = some p ∧ p.pc = .inside w
  | .run generation stopping => generation = S.generation ∧ stopping = S.stopping
  | .finish => S.isStopping w = false
  | .discard => S.Has w Worker.Away ∧ S.Has w (·.generation < S.generation)
  | _ => True

/-- What a step does to the workers. -/
inductive State.Moves (S S' : State) : Prop
  | same (h : S'.workers = S.workers)
  | one {w : Nat} {l : Worker.Label} {W W' : Worker} (hW : S.workers[w]? = some W)
      (hstep : W.step l = some W') (hl : S.Grants S' w l) (h : S'.workers = S.workers.set w W')
  | spawn {run : RunPc} (hpos : 0 < S.generation)
      (h : S'.workers = S.workers ++ [{ generation := S.generation, run := run }])
      (hrun : run = .lock ∨
        run = .returned ∧ ∃ made, S'.mutex = some (.start (.failStopping made)))

lemma moves_of_onWorker (h : S.onWorker w l = some S₁) (hworkers : S'.workers = S₁.workers)
    (hl : S.Grants S' w l) : S.Moves S' := by
  obtain ⟨W, W', hW, hstep, rfl⟩ := onWorker_eq h
  exact .one hW hstep hl hworkers

/-- The flags of the pool in a step. -/
structure State.Onward (S S' : State) : Prop where
  moves : S.Moves S'
  generation : S.generation ≤ S'.generation
  stopping : S.stopping = true → S'.stopping = true ∨ S.Older
  failing : (∃ made, S.mutex = some (.start (.failStopping made))) →
    S'.stopping = true ∨ ∃ made, S'.mutex = some (.start (.failStopping made))

lemma mem_of_set {V : Worker} (hV : V ∈ S.workers.set w W') : V ∈ S.workers ∨ V = W' :=
  List.mem_or_eq_of_mem_set hV

lemma State.Has.get {F : Worker → Prop} (h : S.Has w F) (hW : S.workers[w]? = some W) : F W := by
  obtain ⟨V, hV, hF⟩ := h
  obtain rfl : W = V := Option.some.inj (hW.symm.trans hV)
  exact hF

lemma State.Inv.generation_lt_of_ends (hS : S.Inv) (hW : W ∈ S.workers)
    (h : W.Ends S.generation S.stopping) : W.generation < S.generation ∨ S.stopping = true := by
  obtain ⟨v, hv⟩ := List.mem_iff_getElem?.mp hW
  exact h.imp_left fun hne => lt_of_le_of_ne (hS.bounded v _ (State.mem_gens hv)) hne

namespace State.Onward

variable (h : S.Onward S') (hS : S.Inv)
include h hS

lemma workers : ∀ W ∈ S'.workers, W.Inv := by
  intro V hV
  cases h.moves with
  | same hw => exact hS.workers V (hw ▸ hV)
  | @one w l W W' hW hstep hl hw =>
    rw [hw] at hV
    obtain hmem | rfl := mem_of_set hV
    · exact hS.workers V hmem
    · refine (hS.workers W (List.mem_of_getElem? hW)).step (fun hdiscard => ?_) hstep
      subst hdiscard
      exact (hl.1.get hW).held
  | spawn hpos hw hrun =>
    rw [hw, List.mem_append, List.mem_singleton] at hV
    obtain hmem | rfl := hV
    · exact hS.workers V hmem
    · refine inv_worker _ _ ?_
      obtain rfl | ⟨rfl, -⟩ := hrun <;> rfl

omit hS in
/-- What holds of a generation that is stopped, or about to be, goes on to hold. -/
lemma older {g : Nat} (hg : ∃ w : Nat, S.gens[w]? = some g)
    (hold : g < S.generation ∨ S.stopping = true) : g < S'.generation ∨ S'.stopping = true := by
  obtain hlt | hstopping := hold
  · exact .inl (hlt.trans_le h.generation)
  · obtain hstopping' | holder := h.stopping hstopping
    · exact .inr hstopping'
    · obtain ⟨w, hw⟩ := hg
      exact .inl ((holder w g hw).trans_le h.generation)

lemma discarded : ∀ W ∈ S'.workers, ∀ n, (n, .discarded) ∈ W.fates →
    W.generation < S'.generation ∨ S'.stopping = true := by
  intro V hV n hn
  have hold : ∀ W ∈ S.workers, (n, .discarded) ∈ W.fates →
      W.generation < S'.generation ∨ S'.stopping = true := by
    intro W hW hn
    obtain ⟨v, hv⟩ := List.mem_iff_getElem?.mp hW
    exact h.older ⟨v, State.mem_gens hv⟩ (hS.discarded W hW n hn)
  cases h.moves with
  | same hw => exact hold V (hw ▸ hV) hn
  | @one w l W W' hW hstep hl hw =>
    rw [hw] at hV
    obtain hmem | rfl := mem_of_set hV
    · exact hold V hmem hn
    · have hmem := List.mem_of_getElem? hW
      have hgeneration := ((hS.workers W hmem).later hstep).generation
      rw [hgeneration]
      obtain hn | rfl | ⟨_, _, rfl, hends⟩ := Worker.discarded_of_step hstep hn
      · exact hold W hmem hn
      · exact h.older ⟨w, State.mem_gens hW⟩ (.inl (hl.2.get hW))
      · obtain ⟨rfl, rfl⟩ := hl
        exact h.older ⟨w, State.mem_gens hW⟩ (hS.generation_lt_of_ends hmem hends)
  | spawn hpos hw hrun =>
    rw [hw, List.mem_append, List.mem_singleton] at hV
    obtain hmem | rfl := hV
    · exact hold V hmem hn
    · simp at hn

lemma ended : ∀ W ∈ S'.workers, W.Ended → W.generation < S'.generation ∨ S'.stopping = true ∨
    ∃ made, S'.mutex = some (.start (.failStopping made)) := by
  intro V hV hended
  have hold : ∀ W ∈ S.workers, W.Ended → W.generation < S'.generation ∨ S'.stopping = true ∨
      ∃ made, S'.mutex = some (.start (.failStopping made)) := by
    intro W hW hended
    obtain ⟨v, hv⟩ := List.mem_iff_getElem?.mp hW
    have hgens : ∃ w : Nat, S.gens[w]? = some W.generation := ⟨v, State.mem_gens hv⟩
    obtain hlt | hstopping | hfailing := hS.ended W hW hended
    · exact (h.older hgens (.inl hlt)).imp_right .inl
    · exact (h.older hgens (.inr hstopping)).imp_right .inl
    · exact .inr (h.failing hfailing)
  cases h.moves with
  | same hw => exact hold V (hw ▸ hV) hended
  | @one w l W W' hW hstep hl hw =>
    rw [hw] at hV
    obtain hmem | rfl := mem_of_set hV
    · exact hold V hmem hended
    · have hmem := List.mem_of_getElem? hW
      have hgeneration := ((hS.workers W hmem).later hstep).generation
      rw [hgeneration]
      obtain hended | ⟨_, _, rfl, hends⟩ := Worker.ended_of_step hstep hended
      · exact hold W hmem hended
      · obtain ⟨rfl, rfl⟩ := hl
        exact (h.older ⟨w, State.mem_gens hW⟩ (hS.generation_lt_of_ends hmem hends)).imp_right .inl
  | spawn hpos hw hrun =>
    rw [hw, List.mem_append, List.mem_singleton] at hV
    obtain hmem | rfl := hV
    · exact hold V hmem hended
    · obtain rfl | ⟨-, hfailing⟩ := hrun
      · simp [Worker.Ended] at hended
      · exact .inr (.inr hfailing)

/-- A task that is inside a call of `Stop` goes on. -/
lemma inTask (hs : s ∈ S.stops) (hreturned : s.returned = false) (hcaller : s.caller = some w) :
    S'.Has w Worker.InTask := by
  obtain ⟨V, hV, htask⟩ := hS.callers s hs hreturned w hcaller
  cases h.moves with
  | same hw => exact ⟨V, hw ▸ hV, htask⟩
  | @one v l W W' hW hstep hl hw =>
    by_cases hvw : v = w
    · subst hvw
      obtain rfl : W = V := Option.some.inj (hW.symm.trans hV)
      have hlt := (List.getElem?_eq_some_iff.mp hW).1
      refine ⟨W', by rw [hw, List.getElem?_set_self hlt], htask.step hstep ?_⟩
      rintro rfl
      have hnot : S.isStopping v = false := hl
      simp only [State.isStopping, List.any_eq_false] at hnot
      exact hnot s hs (by simp [hcaller, hreturned])
    · exact ⟨V, by rw [hw, List.getElem?_set_ne hvw, hV], htask⟩
  | spawn hpos hw hrun =>
    have hlt := (List.getElem?_eq_some_iff.mp hV).1
    exact ⟨V, by rw [hw, List.getElem?_append_left hlt, hV], htask⟩

/-- Where the workers come from. -/
lemma worker {V : Worker} (hV : S'.workers[w]? = some V) :
    (∃ V₀, S.workers[w]? = some V₀ ∧ V₀.Later V) ∨
      V.generation = S.generation ∧ 0 < S.generation := by
  cases h.moves with
  | same hw => exact .inl ⟨V, hw ▸ hV, .refl V⟩
  | @one v l W W' hW hstep hl hw =>
    rw [hw] at hV
    by_cases hvw : v = w
    · subst hvw
      rw [List.getElem?_set_self (List.getElem?_eq_some_iff.mp hW).1] at hV
      obtain rfl := Option.some.inj hV
      exact .inl ⟨W, hW, (hS.workers W (List.mem_of_getElem? hW)).later hstep⟩
    · rw [List.getElem?_set_ne hvw] at hV
      exact .inl ⟨V, hV, .refl V⟩
  | spawn hpos hw hrun =>
    rw [hw, List.getElem?_append] at hV
    split_ifs at hV with hlt
    · exact .inl ⟨V, hV, .refl V⟩
    · have hmem := List.mem_of_getElem? hV
      rw [List.mem_singleton] at hmem
      exact .inr ⟨by rw [hmem], hpos⟩

/-- A worker keeps its generation and the calls on it. -/
lemma grow {V : Worker} (hV : S.workers[w]? = some V) : ∃ V', S'.workers[w]? = some V' ∧
    V'.generation = V.generation ∧ V.calls.map Call.task ⊆ V'.calls.map Call.task := by
  cases h.moves with
  | same hw => exact ⟨V, hw ▸ hV, rfl, List.Subset.refl _⟩
  | @one v l W W' hW hstep hl hw =>
    by_cases hvw : v = w
    · subst hvw
      obtain rfl : W = V := Option.some.inj (hW.symm.trans hV)
      have hlt := (List.getElem?_eq_some_iff.mp hW).1
      refine ⟨W', by rw [hw, List.getElem?_set_self hlt],
        ((hS.workers W (List.mem_of_getElem? hW)).later hstep).generation, ?_⟩
      rw [Worker.tasks_of_step hstep]
      exact List.subset_append_left _ _
    · exact ⟨V, by rw [hw, List.getElem?_set_ne hvw, hV], rfl, List.Subset.refl _⟩
  | spawn hpos hw hrun =>
    have hlt := (List.getElem?_eq_some_iff.mp hV).1
    exact ⟨V, by rw [hw, List.getElem?_append_left hlt, hV], rfl, List.Subset.refl _⟩

omit hS in
lemma origin {V' : Worker} {n : Nat} (hV' : S'.workers[w]? = some V')
    (hn : n ∈ V'.calls.map Call.task) :
    (∃ V, S.workers[w]? = some V ∧ n ∈ V.calls.map Call.task) ∨
      ∃ p, S'.posts[n]? = some p ∧ p.pc = .inside w := by
  cases h.moves with
  | same hw => exact .inl ⟨V', hw ▸ hV', hn⟩
  | @one v l W W' hW hstep hl hw =>
    rw [hw] at hV'
    by_cases hvw : v = w
    · subst hvw
      have hlt := (List.getElem?_eq_some_iff.mp hW).1
      rw [List.getElem?_set_self hlt] at hV'
      obtain rfl := Option.some.inj hV'
      rw [Worker.tasks_of_step hstep, List.mem_append] at hn
      obtain hn | hn := hn
      · exact .inl ⟨W, hW, hn⟩
      · cases l with
        | call m =>
          obtain rfl : n = m := by simpa [Worker.Label.tasks] using hn
          exact .inr hl
        | _ => simp [Worker.Label.tasks] at hn
    · rw [List.getElem?_set_ne hvw] at hV'
      exact .inl ⟨V', hV', hn⟩
  | spawn hpos hw hrun =>
    rw [hw, List.getElem?_append] at hV'
    split_ifs at hV' with hlt
    · exact .inl ⟨V', hV', hn⟩
    · have hmem := List.mem_of_getElem? hV'
      rw [List.mem_singleton] at hmem
      subst hmem
      simp at hn

lemma choices_of (hbegan : ∀ p ∈ S'.posts, p.began ≤ S'.generation)
    (hchoosing : ∀ p ∈ S'.posts, p.pc = .loadWorkers →
      ∀ w ∈ S'.current, S'.Has w (p.began ≤ ·.generation))
    (hchosen : ∀ (n : Nat) (p : Post) (w : Nat), S'.posts[n]? = some p → p.pc = .inside w →
      S.posts[n]? = some p ∨ S'.Has w fun W => p.began ≤ W.generation ∧ n ∈ W.calls.map Call.task)
    (hkept : ∀ (n : Nat) (p : Post) (w : Nat), S.posts[n]? = some p → p.pc = .inside w →
      S'.posts[n]? = some p) : S'.Choices := by
  refine ⟨hbegan, hchoosing, fun n p w hp hpc => ?_, fun w V' hV' n hn => ?_⟩
  · obtain hold | hnew := hchosen n p w hp hpc
    · obtain ⟨V, hV, hle, hn⟩ := hS.choices.chosen n p w hold hpc
      obtain ⟨V', hV', hgeneration, htasks⟩ := h.grow hS hV
      exact ⟨V', hV', hgeneration ▸ hle, htasks hn⟩
    · exact hnew
  · obtain ⟨V, hV, hn⟩ | hp := h.origin hV' hn
    · obtain ⟨p, hp, hpc⟩ := hS.choices.calls w V hV n hn
      exact ⟨p, hkept n p w hp hpc, hpc⟩
    · exact hp

/-- A step that is not one of `Post`. -/
lemma choices (hposts : S'.posts = S.posts)
    (hcurrent : ∀ w ∈ S'.current, w ∈ S.current ∨ S'.gens[w]? = some S.generation) :
    S'.Choices := by
  refine h.choices_of hS (fun p hp => ?_) (fun p hp hpc w hw => ?_) (fun n p w hp _ => .inl ?_)
    fun n p w hp _ => ?_
  · exact (hS.choices.began p (hposts ▸ hp)).trans h.generation
  · rw [hposts] at hp
    obtain hold | hnew := hcurrent w hw
    · obtain ⟨V, hV, hle⟩ := hS.choices.choosing p hp hpc w hold
      obtain ⟨V', hV', hgeneration, -⟩ := h.grow hS hV
      exact ⟨V', hV', Nat.le_trans hle hgeneration.ge⟩
    · rw [State.gens, List.getElem?_map, Option.map_eq_some_iff] at hnew
      obtain ⟨V, hV, hgeneration⟩ := hnew
      exact ⟨V, hV, Nat.le_trans (hS.choices.began p hp) hgeneration.ge⟩
  · exact hposts ▸ hp
  · exact hposts ▸ hp

end State.Onward

/-! ### Drains -/

/-- The drains of the other workers go on when the worker `w` takes a step. -/
lemma State.Inv.consumer_one (hS : S.Inv) (hW : S.workers[w]? = some W)
    (hworkers : S'.workers = S.workers.set w W')
    (hself : W'.queue.pop.isDone = false → W'.run = .popping ∨ S'.Drains w)
    (hother : ∀ v, v ≠ w → S.Drains v → S'.Drains v) (v : Nat) (V : Worker)
    (hV : S'.workers[v]? = some V) (hdone : V.queue.pop.isDone = false) :
    V.run = .popping ∨ S'.Drains v := by
  rw [hworkers] at hV
  by_cases hvw : w = v
  · subst hvw
    rw [List.getElem?_set_self (List.getElem?_eq_some_iff.mp hW).1] at hV
    obtain rfl := Option.some.inj hV
    exact hself hdone
  · rw [List.getElem?_set_ne hvw] at hV
    exact (hS.consumer v V hV hdone).imp_right (hother v (Ne.symm hvw))

/-- A step of a worker other than a drain of its queue. -/
lemma State.Inv.consumer_onWorker (hS : S.Inv) (h : S.onWorker w l = some S₁)
    (hworkers : S'.workers = S₁.workers) (hpop : l ≠ .beginPop) (hdiscard : l ≠ .discard)
    (hdrains : ∀ v, S.Drains v → S'.Drains v) (v : Nat) (V : Worker)
    (hV : S'.workers[v]? = some V) (hdone : V.queue.pop.isDone = false) :
    V.run = .popping ∨ S'.Drains v := by
  obtain ⟨W, W', hW, hstep, rfl⟩ := onWorker_eq h
  refine hS.consumer_one hW hworkers ?_ (fun v _ => hdrains v) v V hV hdone
  exact Worker.popping_of_step hstep hpop hdiscard
    fun hdone => (hS.consumer w W hW hdone).imp_right (hdrains w)

lemma State.Drains.set {v : Nat} (h : S.Drains v) (hk : S.stops[k]? = some s)
    (hmutex : S'.mutex = S.mutex) (hstops : S'.stops = S.stops.set k s')
    (hpc : ∀ rest, s.pc ≠ .draining (v :: rest)) : S'.Drains v := by
  obtain ⟨t, ht, rest, hdraining⟩ | ⟨made, rest, hstart⟩ := h
  · obtain ⟨j, hj⟩ := List.mem_iff_getElem?.mp ht
    have hjk : k ≠ j := by
      rintro rfl
      obtain rfl : s = t := Option.some.inj (hk.symm.trans hj)
      exact hpc rest hdraining
    refine .inl ⟨t, ?_, rest, hdraining⟩
    rw [hstops]
    exact List.mem_of_getElem? (i := j) (by rw [List.getElem?_set_ne hjk, hj])
  · exact .inr ⟨made, rest, hmutex.trans hstart⟩

end Connx.WorkerPool
