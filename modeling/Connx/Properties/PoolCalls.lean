import Connx.Lib.Simulation
import Connx.Properties.LibraryLifetime
import Connx.Properties.WorkerPool

/-!
# The pool as the library sees it

`Connx.Core.Library` sees the pool between calls of `Start` and `Stop`: whether it is stopping, its
generation, and the numbers of its workers and threads. The library makes these calls one after the
other, under `g_init_mtx`. In every run of the pool in which they are, whatever the threads and the
calls of `Post` do meanwhile, each call does to the pool what it does there, and between calls every
thread that is not counted has ended or was detached. The library changes its pool by such calls
only.
-/

namespace Connx

namespace WorkerPool

open Run Pool

variable {S S' : State} {p : Library.WorkerPool} {k : Nat} {s s' : Stop}

/-! ### Calls -/

/-- A call of `Start` with what it returns, or one of `Stop` with whether it is made on one of the
workers it stops. -/
inductive PoolCall where
  | start (threads : Nat) (result : Bool)
  | stop (onWorker : Bool)
  deriving DecidableEq, Repr

/-- What the library takes the call for, when there is memory for the lists of workers. -/
inductive Performs (p : Library.WorkerPool) : Option PoolCall → Library.WorkerPool → Prop
  | none : Performs p none p
  | start {threads : Nat} {result : Bool} {p' : Library.WorkerPool} (a : Library.Answers)
      (hlists : a.memory .workerList = true ∧ a.memory .emptyList = true)
      (h : p.start a threads = (.returned result, p')) :
      Performs p (some (.start threads result)) p'
  | stop {onWorker : Bool} {p' : Library.WorkerPool}
      (h : p.stop onWorker true = (.returned (), p')) : Performs p (some (.stop onWorker)) p'

/-- The call was made by the task of a worker of its list. -/
def Stop.onWorker (s : Stop) : Bool := s.list.any fun w => s.caller = some w

/-- The call has detached the thread it was made on. -/
def Stop.detaches (s : Stop) : Bool := s.pc = .done && s.onWorker

/-- The call whose result is certain with this step. -/
def State.called (S : State) : Label → Option PoolCall
  | .region outcome =>
    match S.mutex with
    | some (.start (.loadStopping threads)) =>
      if S.stopping then none else some (.start threads true)
    | some (.start (.spawn _ 0 made)) => some (.start made.length true)
    | some (.start (.spawn _ (left + 1) made)) =>
      if outcome = .ok then none else some (.start (made.length + (left + 1)) false)
    | some (.stop _ .loadStopping) => if S.stopping then some (.stop false) else none
    | _ => none
  | .control k =>
    S.stops[k]?.bind fun s => if s.pc = .drain [] then some (.stop s.onWorker) else none
  | _ => none

/-- A call of `Start` or `Stop` is made when the others have returned. -/
def State.Serial (S : State) : Label → Prop
  | .start _ | .stop _ => ∀ s ∈ S.stops, s.returned = true
  | _ => True

/-! ### The call in progress -/

structure Shows (p : Library.WorkerPool) (b : Bool) (g n : Nat) : Prop where
  stopping : p.stopping = b
  generation : p.generation = g
  workers : p.workers = n
  threads : p.threads = n

/-- The pool of the library while `Start` is at work: it changes when the loop has come to its
end. -/
def StartRegion.Shown (S : State) (p : Library.WorkerPool) : StartRegion → Prop
  | .loadStopping threads | .storeStopping threads =>
    threads ≠ 0 ∧ Shows p S.stopping S.generation S.current.length
  | .advance threads => threads ≠ 0 ∧ Shows p true S.generation 0
  | .spawn _ left made => 0 < made.length + left ∧ Shows p true (S.generation - 1) 0
  | .publish made => Shows p false S.generation made.length
  | .failStopping _ | .failAdvance _ => Shows p true (S.generation + 1) 0
  | _ => Shows p true S.generation 0

/-- The pool of the library while `Stop` is at work: it changes when `Stop` is done. -/
def StopRegion.Shown (S : State) (p : Library.WorkerPool) (s : Stop) : StopRegion → Prop
  | .loadStopping | .storeStopping => Shows p S.stopping S.generation S.current.length
  | .advance => Shows p false S.generation S.current.length
  | .loadWorkers => Shows p false (S.generation - 1) S.current.length
  | .storeWorkers | .refuse _ => Shows p false (S.generation - 1) s.list.length

/-- The other calls of `Stop` have returned. -/
def State.OnlyStop (S : State) (k : Nat) : Prop :=
  ∀ (j : Nat) (t : Stop), j ≠ k → S.stops[j]? = some t → t.returned = true

inductive Phase (S : State) (p : Library.WorkerPool) : Prop
  | rest (hmutex : S.mutex = none) (hstops : ∀ s ∈ S.stops, s.returned = true)
      (h : Shows p S.stopping S.generation S.current.length)
  | start {pc : StartRegion} (hmutex : S.mutex = some (.start pc))
      (hstops : ∀ s ∈ S.stops, s.returned = true) (h : pc.Shown S p)
  | stopRegion {k : Nat} {s : Stop} {pc : StopRegion} (hmutex : S.mutex = some (.stop k pc))
      (hk : S.stops[k]? = some s) (honly : S.OnlyStop k) (h : pc.Shown S p s)
  | stop {k : Nat} {s : Stop} (hmutex : S.mutex = none) (hk : S.stops[k]? = some s)
      (honly : S.OnlyStop k) (hbusy : s.returned = false) (hstopping : S.stopping = true)
      (h : Shows p false (S.generation - 1) s.list.length)

structure Represents (S : State) (p : Library.WorkerPool) : Prop where
  detached : p.detached = S.stops.countP Stop.detaches
  phase : Phase S p

lemma Phase.shows (h : Phase S p) (hmutex : S.mutex = none)
    (hstops : ∀ s ∈ S.stops, s.returned = true) :
    Shows p S.stopping S.generation S.current.length := by
  cases h with
  | rest _ _ h => exact h
  | start hheld | stopRegion hheld => simp [hmutex] at hheld
  | stop _ hk _ hbusy => simp [hstops _ (List.mem_of_getElem? hk)] at hbusy

lemma represents_init : Represents {} {} := ⟨rfl, .rest rfl (by simp) ⟨rfl, rfl, rfl, rfl⟩⟩

section stops

lemma State.OnlyStop.set (h : S.OnlyStop k) (hstops : S'.stops = S.stops.set k s') :
    S'.OnlyStop k := by
  intro j t hj ht
  rw [hstops, List.getElem?_set_ne hj.symm] at ht
  exact h j t hj ht

lemma State.OnlyStop.returned (h : S.OnlyStop k) (hs' : s'.returned = true) :
    ∀ t ∈ S.stops.set k s', t.returned = true := by
  intro t ht
  obtain ⟨j, hj⟩ := List.mem_iff_getElem?.mp ht
  by_cases hjk : j = k
  · subst hjk
    obtain ⟨hlt, heq⟩ := List.getElem?_eq_some_iff.mp hj
    rw [List.getElem_set_self] at heq
    exact heq ▸ hs'
  · rw [List.getElem?_set_ne (Ne.symm hjk)] at hj
    exact h j t hjk hj

lemma countP_detaches_set (hk : S.stops[k]? = some s) (hs : s.detaches = false) (s' : Stop) :
    (S.stops.set k s').countP Stop.detaches =
      S.stops.countP Stop.detaches + if s'.detaches then 1 else 0 := by
  have hset := countP_set Stop.detaches hk s'
  rwa [hs, if_neg Bool.false_ne_true, Nat.add_zero] at hset

lemma detaches_of_locked (hs : s.pc = .locked) : s.detaches = false := by
  simp [Stop.detaches, hs]

end stops

/-! ### Steps of the workers -/

lemma StartRegion.Shown.same {pc : StartRegion} (h : pc.Shown S p) (hsame : S.Same S') :
    pc.Shown S' p := by
  cases pc <;>
    simpa only [StartRegion.Shown, hsame.stopping, hsame.generation, hsame.current] using h

lemma StopRegion.Shown.same {pc : StopRegion} (h : pc.Shown S p s) (hsame : S.Same S') :
    pc.Shown S' p s := by
  cases pc <;>
    simpa only [StopRegion.Shown, hsame.stopping, hsame.generation, hsame.current] using h

lemma Represents.same (h : Represents S p) (hsame : S.Same S') : Represents S' p := by
  obtain ⟨hdetached, hphase⟩ := h
  refine ⟨hsame.stops ▸ hdetached, ?_⟩
  have honly : ∀ {k}, S.OnlyStop k → S'.OnlyStop k := by
    intro k h
    rwa [State.OnlyStop, hsame.stops]
  cases hphase with
  | rest hmutex hstops h =>
    refine .rest (hsame.mutex.trans hmutex) (hsame.stops ▸ hstops) ?_
    rwa [hsame.stopping, hsame.generation, hsame.current]
  | start hmutex hstops h =>
    exact .start (hsame.mutex.trans hmutex) (hsame.stops ▸ hstops) (h.same hsame)
  | stopRegion hmutex hk hothers h =>
    exact .stopRegion (hsame.mutex.trans hmutex) (hsame.stops ▸ hk) (honly hothers) (h.same hsame)
  | stop hmutex hk hothers hbusy hstopping h =>
    refine .stop (hsame.mutex.trans hmutex) (hsame.stops ▸ hk) (honly hothers) hbusy
      (hsame.stopping.trans hstopping) ?_
    rwa [hsame.generation]

/-! ### `Start` -/

lemma performs_start_again (threads : Nat) (h : p.stopping = false) :
    Performs p (some (.start threads true)) p := by
  refine .start {} ⟨rfl, rfl⟩ ?_
  simp [Library.WorkerPool.start, h]

/-- The loop comes to its end. -/
lemma performs_start {generation threads : Nat} (h : Shows p true generation 0)
    (hthreads : 0 < threads) : ∃ p', Performs p (some (.start threads true)) p' ∧
      Shows p' false (generation + 1) threads ∧ p'.detached = p.detached := by
  have hstart : p.start {} threads = (.returned true, { p with
      stopping := false
      generation := p.generation + 1
      workers := 0 + threads
      threads := p.threads + (0 + threads)
      requested := threads }) := by
    simp only [Library.WorkerPool.start, h.stopping, hthreads.ne', not_true_eq_false, if_false,
      Library.startThreads_of_forall fun _ => rfl]
  refine ⟨_, .start {} ⟨rfl, rfl⟩ hstart, ⟨rfl, ?_, Nat.zero_add _, ?_⟩, rfl⟩
  · rw [h.generation]
  · rw [h.threads, Nat.zero_add, Nat.zero_add]

/-- A worker or its thread cannot be made. -/
lemma performs_start_fails {generation threads : Nat} (h : Shows p true generation 0)
    (hthreads : 0 < threads) : ∃ p', Performs p (some (.start threads false)) p' ∧
      Shows p' true (generation + 2) 0 ∧ p'.detached = p.detached := by
  obtain ⟨left, rfl⟩ := Nat.exists_eq_add_of_lt hthreads
  have hstart : p.start { workerThread := fun _ => false } (0 + left + 1) =
      (.returned false, { p with
        stopping := true
        generation := p.generation + 1 + 1
        workers := 0
        threads := p.threads + 0 - 0 }) := by
    simp only [Library.WorkerPool.start, h.stopping, hthreads.ne', not_true_eq_false, if_false,
      Library.startThreads, Bool.false_eq_true, if_true]
  refine ⟨_, .start _ ⟨rfl, rfl⟩ hstart, ⟨rfl, ?_, rfl, h.threads⟩, rfl⟩
  rw [h.generation]

/-- One operation of `Start`. -/
lemma Represents.startRegion {pc : StartRegion} {outcome : Outcome} (hS : S.Inv)
    (hdetached : p.detached = S.stops.countP Stop.detaches) (hmutex : S.mutex = some (.start pc))
    (hstops : ∀ s ∈ S.stops, s.returned = true) (hshown : pc.Shown S p)
    (h : startAct S outcome pc = some S') :
    ∃ p', Performs p (S.called (.region outcome)) p' ∧ Represents S' p' := by
  have hinv := hS.region.start hmutex
  have hnone : ∀ {o : Option PoolCall}, o = none → Performs p o p := by
    rintro _ rfl
    exact .none
  cases startAct_step h with
  | @started threads hstopping =>
    obtain ⟨-, hshows⟩ := hshown
    have hcalled : S.called (.region outcome) = some (.start threads true) := by
      simp [State.called, hmutex, hstopping]
    rw [hcalled]
    exact ⟨p, performs_start_again threads (hshows.stopping.trans hstopping), hdetached,
      .rest rfl hstops hshows⟩
  | loadStopping hstopping =>
    exact ⟨p, hnone (by simp [State.called, hmutex, hstopping]), hdetached,
      .start rfl hstops hshown⟩
  | storeStopping =>
    obtain ⟨hthreads, hshows⟩ := hshown
    obtain ⟨hstopping, hcurrent, -⟩ := hinv
    rw [hstopping, hcurrent] at hshows
    exact ⟨p, hnone (by simp [State.called, hmutex]), hdetached,
      .start rfl hstops ⟨hthreads, hshows⟩⟩
  | advance =>
    obtain ⟨hthreads, hshows⟩ := hshown
    exact ⟨p, hnone (by simp [State.called, hmutex]), hdetached,
      .start rfl hstops ⟨by simpa using Nat.pos_of_ne_zero hthreads, hshows⟩⟩
  | @spawned generation made =>
    obtain ⟨hpos, hshows⟩ := hshown
    obtain ⟨⟨rfl, hgeneration⟩, -⟩ := hinv
    obtain ⟨p', hperforms, hshows', hkept⟩ := performs_start hshows (by simpa using hpos)
    rw [Nat.sub_add_cancel hgeneration] at hshows'
    refine ⟨p', ?_, hkept.trans hdetached, .start rfl hstops hshows'⟩
    simpa [State.called, hmutex] using hperforms
  | @spawn generation left made =>
    have houtcome : outcome = .ok := by
      cases outcome with
      | ok => rfl
      | _ => simp [startAct, State.holding, State.spawn] at h
    refine ⟨p, hnone (by simp [State.called, hmutex, houtcome]), hdetached, .start rfl hstops ?_⟩
    exact ⟨by simp, hshown.2⟩
  | @noMemory generation left made | @noThread generation left made =>
    have houtcome : outcome ≠ .ok := by
      rintro rfl
      simp [startAct, State.holding, State.spawn] at h
    obtain ⟨hpos, hshows⟩ := hshown
    obtain ⟨⟨rfl, hgeneration⟩, -⟩ := hinv
    obtain ⟨p', hperforms, hshows', hkept⟩ := performs_start_fails hshows hpos
    have hgen : S.generation - 1 + 2 = S.generation + 1 := by omega
    rw [hgen] at hshows'
    refine ⟨p', ?_, hkept.trans hdetached, .start rfl hstops hshows'⟩
    simpa [State.called, hmutex, houtcome] using hperforms
  | publish =>
    refine ⟨p, hnone (by simp [State.called, hmutex]), hdetached, .rest rfl hstops ?_⟩
    have hstopping : S.stopping = false := hinv.1
    show Shows p S.stopping _ _
    rw [hstopping]
    exact hshown
  | failPublish =>
    refine ⟨p, hnone (by simp [State.called, hmutex]), hdetached, .rest rfl hstops ?_⟩
    have hstopping : S.stopping = true := hinv.1.1.1
    show Shows p S.stopping _ _
    rw [hstopping]
    exact hshown
  | failStopping | failAdvance | failWoken | failJoined | failJoin | failDrained =>
    exact ⟨p, hnone (by simp [State.called, hmutex]), hdetached, .start rfl hstops hshown⟩
  | failRefuse hon | failLock hon | failWake hon | failUnlock hon | failDrain hon
  | failDraining hon | failNext hon =>
    obtain ⟨W, W', -, -, rfl⟩ := onWorker_eq hon
    exact ⟨p, hnone (by simp [State.called, hmutex]), hdetached, .start rfl hstops hshown⟩

/-! ### `Stop` -/

lemma performs_stop_again (onWorker : Bool) (h : p.stopping = true) :
    Performs p (some (.stop onWorker)) p := by
  refine .stop ?_
  simp [Library.WorkerPool.stop, h]

lemma performs_stop {generation workers : Nat} (onWorker : Bool)
    (h : Shows p false generation workers) : ∃ p', Performs p (some (.stop onWorker)) p' ∧
      Shows p' true (generation + 1) 0 ∧
      p'.detached = p.detached + if onWorker then 1 else 0 := by
  have hstop : p.stop onWorker true = (.returned (), { p with
      stopping := true
      generation := p.generation + 1
      workers := 0
      threads := p.threads - p.workers
      detached := if onWorker then p.detached + 1 else p.detached }) := by
    simp only [Library.WorkerPool.stop, h.stopping, Bool.false_eq_true, if_false,
      not_true_eq_false]
  refine ⟨_, .stop hstop, ⟨rfl, ?_, rfl, ?_⟩, ?_⟩
  · rw [h.generation]
  · rw [h.threads, h.workers, Nat.sub_self]
  · cases onWorker <;> rfl

/-- One operation of the critical section of `Stop`. -/
lemma Represents.stopRegion {pc : StopRegion} {outcome : Outcome} (hS : S.Inv)
    (hdetached : p.detached = S.stops.countP Stop.detaches)
    (hmutex : S.mutex = some (.stop k pc)) (hk : S.stops[k]? = some s) (honly : S.OnlyStop k)
    (hshown : pc.Shown S p s) (h : stopRegionAct S k s pc = some S') :
    ∃ p', Performs p (S.called (.region outcome)) p' ∧ Represents S' p' := by
  obtain ⟨hlocked, hinv⟩ := hS.region.stop hmutex hk
  have hlt := (List.getElem?_eq_some_iff.mp hk).1
  have hcount : ∀ s' : Stop, s'.detaches = false →
      p.detached = (S.stops.set k s').countP Stop.detaches := by
    intro s' hs'
    rw [countP_detaches_set hk (detaches_of_locked hlocked), hs', hdetached]
    rfl
  have hnone : ∀ {o : Option PoolCall}, o = none → Performs p o p := by
    rintro _ rfl
    exact .none
  cases stopRegionAct_step h with
  | early hstopping =>
    have hcalled : S.called (.region outcome) = some (.stop false) := by
      simp [State.called, hmutex, hstopping]
    rw [hcalled]
    exact ⟨p, performs_stop_again false (hshown.stopping.trans hstopping), hcount _ rfl,
      .rest rfl (honly.returned rfl) hshown⟩
  | loadStopping hstopping =>
    exact ⟨p, hnone (by simp [State.called, hmutex, hstopping]),
      hcount _ (detaches_of_locked hlocked),
      .stopRegion rfl (List.getElem?_set_self hlt) (honly.set rfl) hshown⟩
  | storeStopping =>
    have hstopping : S.stopping = false := hinv.2.1
    refine ⟨p, hnone (by simp [State.called, hmutex]), hdetached, .stopRegion rfl hk honly ?_⟩
    rwa [StopRegion.Shown, hstopping] at hshown
  | advance =>
    exact ⟨p, hnone (by simp [State.called, hmutex]), hdetached,
      .stopRegion rfl hk honly hshown⟩
  | loadWorkers =>
    exact ⟨p, hnone (by simp [State.called, hmutex]), hcount _ (detaches_of_locked hlocked),
      .stopRegion rfl (List.getElem?_set_self hlt) (honly.set rfl) hshown⟩
  | storeWorkers =>
    exact ⟨p, hnone (by simp [State.called, hmutex]), hdetached,
      .stopRegion rfl hk honly hshown⟩
  | refused =>
    exact ⟨p, hnone (by simp [State.called, hmutex]), hcount _ rfl,
      .stop rfl (List.getElem?_set_self hlt) (honly.set rfl) rfl hinv.2.1 hshown⟩
  | refuse hon =>
    obtain ⟨W, W', -, -, rfl⟩ := onWorker_eq hon
    exact ⟨p, hnone (by simp [State.called, hmutex]), hdetached,
      .stopRegion rfl hk honly hshown⟩

lemma not_returned_of_stopStep {pc pc' : StopPc} (h : StopStep S s pc S' pc') (hpc : s.pc = pc) :
    s.returned = false := by
  cases h <;> simp [Stop.returned, hpc]

/-- One operation of `Stop` behind its critical section. -/
lemma Represents.control {pc' : StopPc} (hS : S.Inv)
    (hdetached : p.detached = S.stops.countP Stop.detaches) (hmutex : S.mutex = none)
    (hk : S.stops[k]? = some s) (honly : S.OnlyStop k) (hstopping : S.stopping = true)
    (hshows : Shows p false (S.generation - 1) s.list.length) (h : StopStep S s s.pc S' pc') :
    ∃ p', Performs p (S.called (.control k)) p' ∧
      Represents { S' with stops := S'.stops.set k { s with pc := pc' } } p' := by
  have hlt := (List.getElem?_eq_some_iff.mp hk).1
  have hcurrent : S.current = [] := by
    obtain ⟨hnot, -⟩ | ⟨-, hnil, -⟩ := hS.free hmutex
    · simp [hnot] at hstopping
    · exact hnil
  have hpos : 0 < S.generation := by
    obtain hlocked | hearly | hlists := (hS.stops s (List.mem_of_getElem? hk)).1
    · exact absurd hlocked h.pc.1
    · exact absurd hearly h.pc.2.1
    · exact Nat.zero_lt_of_lt hlists.1
  have hnot : s.detaches = false := by
    have hreturned := not_returned_of_stopStep h rfl
    have hdone : s.pc ≠ .done := by
      intro hdone
      simp [Stop.returned, hdone] at hreturned
    simp [Stop.detaches, hdone]
  by_cases hdrain : s.pc = .drain []
  · rw [hdrain] at h
    cases h with
    | drained =>
      obtain ⟨p', hperforms, hshows', hkept⟩ := performs_stop s.onWorker hshows
      rw [Nat.sub_add_cancel hpos] at hshows'
      refine ⟨p', ?_, ?_, .rest hmutex (honly.returned rfl) ?_⟩
      · simpa [State.called, hk, hdrain] using hperforms
      · rw [countP_detaches_set hk hnot, hkept, hdetached]
        rfl
      · show Shows p' S.stopping S.generation S.current.length
        rw [hstopping, hcurrent]
        exact hshows'
  · have hpc' : pc' ≠ .done := by
      intro hdone
      generalize s.pc = pc at h hdrain
      cases h with
      | drained => exact hdrain rfl
      | _ => cases hdone
    have hbusy : { s with pc := pc' : Stop }.returned = false := by
      simp [Stop.returned, hpc', h.pc.2.2.2]
    have hnone : Performs p (S.called (.control k)) p := by
      have hcalled : S.called (.control k) = none := by simp [State.called, hk, hdrain]
      rw [hcalled]
      exact .none
    refine ⟨p, hnone, ?_⟩
    have hmoved : Represents { S with stops := S.stops.set k { s with pc := pc' } } p := by
      refine ⟨?_, .stop hmutex (List.getElem?_set_self hlt) (honly.set rfl) hbusy hstopping hshows⟩
      rw [countP_detaches_set hk hnot, hdetached]
      simp [Stop.detaches, hpc']
    obtain rfl | ⟨w, l, hon, -⟩ := h.eq_or_onWorker
    · exact hmoved
    · have hsame := (same_onWorker hS.workers hon).1
      exact hmoved.same ⟨hsame.stopping, hsame.generation, hsame.current, hsame.mutex,
        by rw [hsame.stops], hsame.gens⟩

/-! ### Runs -/

lemma Represents.step {l : Label} (h : Represents S p) (hS : S.Inv) (hserial : S.Serial l)
    (hstep : S.step l = some S') : ∃ p', Performs p (S.called l) p' ∧ Represents S' p' := by
  have honWorker : ∀ {w l}, S.onWorker w l = some S' → Represents S' p := fun hon =>
    h.same (same_onWorker hS.workers hon).1
  cases l with
  | post index =>
    obtain rfl := by simpa [State.step] using hstep
    exact ⟨p, .none, h.same ⟨rfl, rfl, rfl, rfl, rfl, rfl⟩⟩
  | choose n =>
    refine ⟨p, .none, ?_⟩
    obtain ⟨q, -, hpost⟩ := Option.bind_eq_some_iff.mp hstep
    unfold WorkerPool.postStep at hpost
    split at hpost
    · obtain rfl := by simpa using hpost
      exact h.same ⟨rfl, rfl, rfl, rfl, rfl, rfl⟩
    · split at hpost
      · obtain rfl := by simpa using hpost
        exact h.same ⟨rfl, rfl, rfl, rfl, rfl, rfl⟩
      · obtain ⟨S₁, hon, rfl⟩ := Option.map_eq_some_iff.mp hpost
        exact (h.same (same_onWorker hS.workers hon).1).same ⟨rfl, rfl, rfl, rfl, rfl, rfl⟩
    · simp at hpost
  | call w i => exact ⟨p, .none, honWorker hstep⟩
  | run w => exact ⟨p, .none, honWorker hstep⟩
  | finish w =>
    simp only [State.step] at hstep
    split_ifs at hstep
    exact ⟨p, .none, honWorker hstep⟩
  | stop caller =>
    simp only [State.step] at hstep
    split_ifs at hstep with henabled
    obtain rfl := by simpa using hstep
    obtain ⟨hdetached, hphase⟩ := h
    refine ⟨p, .none, by simp [hdetached, Stop.detaches], ?_⟩
    refine .stopRegion rfl List.getElem?_concat_length ?_ (hphase.shows henabled.1 hserial)
    intro j t hj ht
    obtain hold | ⟨heq, -⟩ := getElem?_snoc ht
    · exact hserial t (List.mem_of_getElem? hold)
    · exact absurd heq hj
  | start threads =>
    obtain ⟨hmutex, heq⟩ := Option.ite_none_right_eq_some.mp hstep
    obtain rfl := Option.some.inj heq
    obtain ⟨hdetached, hphase⟩ := h
    refine ⟨p, .none, hdetached, .start rfl hserial ⟨?_, hphase.shows hmutex hserial⟩⟩
    split_ifs
    · exact Nat.one_ne_zero
    · assumption
  | region outcome =>
    obtain ⟨hdetached, hphase⟩ := h
    cases hphase with
    | rest hmutex => simp [State.step, hmutex] at hstep
    | stop hmutex => simp [State.step, hmutex] at hstep
    | start hmutex hstops hshown =>
      simp only [State.step, hmutex] at hstep
      exact Represents.startRegion hS hdetached hmutex hstops hshown hstep
    | stopRegion hmutex hk honly hshown =>
      simp only [State.step, hmutex, hk, Option.bind_some] at hstep
      exact Represents.stopRegion hS hdetached hmutex hk honly hshown hstep
  | control k =>
    obtain ⟨hdetached, hphase⟩ := h
    obtain ⟨s, hk, hmap⟩ := Option.bind_eq_some_iff.mp hstep
    obtain ⟨⟨S₁, pc'⟩, hact, rfl⟩ := Option.map_eq_some_iff.mp hmap
    have hstop := stopAct_step hact
    have hbusy : s.returned ≠ true := by simp [not_returned_of_stopStep hstop rfl]
    have hmem := List.mem_of_getElem? hk
    cases hphase with
    | rest hmutex hstops => exact absurd (hstops s hmem) hbusy
    | start hmutex hstops => exact absurd (hstops s hmem) hbusy
    | @stopRegion k' s' _ hmutex hk' honly =>
      obtain rfl : k = k' := by_contra fun hne => hbusy (honly k s hne hk)
      exact absurd (hS.region.stop hmutex hk).1 hstop.pc.1
    | @stop k' s' hmutex hk' honly _ hstopping hshows =>
      obtain rfl : k = k' := by_contra fun hne => hbusy (honly k s hne hk)
      obtain rfl : s' = s := Option.some.inj (hk'.symm.trans hk)
      exact Represents.control hS hdetached hmutex hk honly hstopping hshows hstop

lemma Represents.step_inv {l : Label} (h : Represents S p) (hS : S.Inv) (hserial : S.Serial l)
    (hstep : S.step l = some S') :
    ∃ p', Performs p (S.called l) p' ∧ S'.Inv ∧ Represents S' p' := by
  obtain ⟨p', hperforms, hp'⟩ := h.step hS hserial hstep
  exact ⟨p', hperforms, hS.step hstep, hp'⟩

/-- The pool between calls, and the pool of the library. -/
structure Rests (S : State) (p : Library.WorkerPool) : Prop where
  shows : Shows p S.stopping S.generation S.current.length
  detached : p.detached = S.stops.countP Stop.detaches
  /-- Threads that are not counted have ended or were detached. -/
  joined : ∀ w, w < S.workers.length → w ∉ S.current →
    S.Has w Worker.Ended ∨ ∃ s ∈ S.stops, s.detaches = true ∧ s.caller = some w

lemma Represents.rests (h : Represents S p) (hS : S.Inv) (hmutex : S.mutex = none)
    (hstops : ∀ s ∈ S.stops, s.returned = true) : Rests S p := by
  refine ⟨h.phase.shows hmutex hstops, h.detached, fun w hw hcurrent => ?_⟩
  obtain hfinished | ⟨s, hs, hlist, -, hended | hcaller⟩ :=
    hS.drained_of_older hw hcurrent (by simp [State.made, hmutex]) fun s hs _ => hstops s hs
  · exact .inl (hfinished.mono fun _ hW => hW.1)
  · exact .inl hended
  · refine .inr ⟨s, hs, ?_, hcaller⟩
    have hpc : s.pc = .early ∨ s.pc = .done := by simpa [Stop.returned] using hstops s hs
    obtain hearly | hdone := hpc
    · simp [hS.list_of_early hs hearly] at hlist
    · simpa [Stop.detaches, Stop.onWorker, hdone, hcaller] using hlist

/-- Every run of the pool in which the calls of `Start` and `Stop` are made one after the other is
one of the pool of the library, and the two agree between calls. -/
theorem performs_of_exec {ls : List Label} (h : exec State.step {} ls = some S)
    (hserial : Meets State.step State.Serial {} ls) :
    ∃ p, Follows Performs {} (observe State.step State.called {} ls) p ∧
      (S.mutex = none → (∀ s ∈ S.stops, s.returned = true) → Rests S p) := by
  obtain ⟨p, hfollows, hS, hp⟩ := follows_of_exec (R := fun S p => S.Inv ∧ Represents S p)
    State.Serial (fun S p l S' hR hserial hstep => hR.2.step_inv hR.1 hserial hstep) h hserial
    ⟨inv_init, represents_init⟩
  exact ⟨p, hfollows, hp.rests hS⟩

end WorkerPool

/-! ### The library -/

namespace Library

open Run

variable {p p' p'' : WorkerPool} {a : Answers} {S S' : State}

/-- Calls of `Start` and `Stop` lead from one state of the pool to the other. -/
def WorkerPool.Calls (p p' : WorkerPool) : Prop :=
  ∃ calls, Follows Connx.WorkerPool.Performs p calls p'

namespace WorkerPool.Calls

lemma refl (p : WorkerPool) : p.Calls p := ⟨[], .nil p⟩

lemma trans (h : p.Calls p') (h' : p'.Calls p'') : p.Calls p'' := by
  obtain ⟨calls, h⟩ := h
  obtain ⟨calls', h'⟩ := h'
  exact ⟨calls ++ calls', follows_append.mpr ⟨p', h, h'⟩⟩

lemma start {threads : Nat} {result : Bool}
    (hlists : a.memory .workerList = true ∧ a.memory .emptyList = true)
    (h : p.start a threads = (.returned result, p')) : p.Calls p' :=
  ⟨_, .cons (.start a hlists h) (.nil _)⟩

lemma stop {onWorker : Bool} (h : p.stop onWorker true = (.returned (), p')) : p.Calls p' :=
  ⟨_, .cons (.stop h) (.nil _)⟩

end WorkerPool.Calls

section lists

variable (hlists : a.memory .workerList = true ∧ a.memory .emptyList = true)
include hlists

lemma WorkerPool.start_ne_thrown {threads : Nat} : p.start a threads ≠ (.thrown, p') := by
  unfold WorkerPool.start
  simp only [hlists.1, hlists.2, not_true_eq_false, if_false, if_true]
  generalize startThreads a.workerThread (if threads = 0 then 1 else threads) 0 0 = result
  obtain ⟨_ | _, pushed, started⟩ := result
  · split <;> simp
  · split <;> simp

omit hlists in
lemma WorkerPool.stop_ne_thrown {onWorker : Bool} : p.stop onWorker true ≠ (.thrown, p') := by
  unfold WorkerPool.stop
  simp only [not_true_eq_false, if_false]
  split <;> simp

lemma GlobalRuntime.calls_startThreads (rt : GlobalRuntime) :
    rt.workers.Calls (rt.startThreads a).2.workers := by
  unfold GlobalRuntime.startThreads
  split
  · next hstart => exact absurd hstart (WorkerPool.start_ne_thrown hlists)
  · next hstart => exact .start hlists hstart
  · next workers hstart =>
    split
    · exact .start hlists hstart
    · rw [hlists.2]
      split
      · next hstop => exact absurd hstop WorkerPool.stop_ne_thrown
      · next hstop => exact (WorkerPool.Calls.start hlists hstart).trans (.stop hstop)

lemma GlobalRuntime.calls_start (rt : GlobalRuntime) :
    rt.workers.Calls (rt.start a).2.workers := by
  unfold GlobalRuntime.start
  split
  · exact .refl _
  · split
    · exact .refl _
    · exact .refl _
    · next poller _ => exact calls_startThreads hlists { rt with poller }

omit hlists in
lemma GlobalRuntime.calls_stop (rt : GlobalRuntime) (onWorker : Bool) :
    rt.workers.Calls (rt.stop onWorker true).2.workers := by
  unfold GlobalRuntime.stop
  split
  · exact .refl _
  · dsimp only
    split
    · next hstop => exact absurd hstop WorkerPool.stop_ne_thrown
    · next hstop => exact .stop hstop

lemma calls_libraryInit (S : State) :
    S.runtime.workers.Calls (libraryInit S a).2.runtime.workers := by
  have hstart := GlobalRuntime.calls_start hlists S.runtime
  unfold libraryInit
  dsimp only
  split
  · split
    · exact .refl _
    · split
      · next h => rwa [h] at hstart
      · next h => rwa [h] at hstart
      · next h => rwa [h] at hstart
  · exact .refl _

omit hlists in
lemma calls_libraryShutdown (S : State) (onWorker : Bool) :
    S.runtime.workers.Calls (libraryShutdown S onWorker true).2.runtime.workers := by
  have hstop := GlobalRuntime.calls_stop S.runtime onWorker
  unfold libraryShutdown
  dsimp only
  split
  · exact .refl _
  · split
    · split
      · next h => rwa [h] at hstop
      · next h => rwa [h] at hstop
    · exact .refl _

omit hlists in
lemma calls_destroyClient {client : ClientAdaptor} {onWorker : Bool}
    (h : destroyClient S client onWorker true = some S') :
    S.runtime.workers.Calls S'.runtime.workers := by
  have hshutdown := calls_libraryShutdown S onWorker
  unfold destroyClient at h
  split at h
  · split at h
    · cases h
    · next heq =>
      obtain rfl := Option.some.inj h
      rwa [heq] at hshutdown
  · obtain rfl := Option.some.inj h
    exact .refl _

lemma calls_createClient {given : Bool} {outcome : Outcome Bool}
    (h : createClient S given a = some (outcome, S')) :
    S.runtime.workers.Calls S'.runtime.workers := by
  have hinit := calls_libraryInit hlists S
  have hdestroyed : ∀ {S₁ : State} {client : ClientAdaptor} {result : Outcome Bool},
      S.runtime.workers.Calls S₁.runtime.workers →
      (destroyClient S₁ client false (a.memory .emptyList)).map (result, ·) = some (outcome, S') →
      S.runtime.workers.Calls S'.runtime.workers := by
    intro S₁ client result hS₁ hmap
    rw [hlists.2] at hmap
    obtain ⟨S₂, hdestroy, hS₂⟩ := Option.map_eq_some_iff.mp hmap
    cases hS₂
    exact hS₁.trans (calls_destroyClient hdestroy)
  unfold createClient at h
  split at h
  · cases h
    exact .refl _
  split at h
  · cases h
    exact .refl _
  split at h
  · next heq =>
    cases h
    rwa [heq] at hinit
  · next heq =>
    rw [heq] at hinit
    exact hdestroyed hinit h
  · next heq =>
    rw [heq] at hinit
    split at h
    · exact hdestroyed hinit h
    · split at h
      · cases h
        exact hinit
      · cases h
        exact hinit

end lists

lemma calls_step {l : Label} (hok : Benign S l) (h : Library.step S l = some S') :
    S.runtime.workers.Calls S'.runtime.workers := by
  cases l with
  | libraryInit a =>
    have hinit := calls_libraryInit ⟨hok.1.workerList, hok.1.emptyList⟩ S
    rw [step_libraryInit] at h
    obtain rfl := Option.some.inj h
    split_ifs
    · exact hinit
    · exact hinit
  | libraryShutdown onWorker memory =>
    obtain rfl : memory = true := hok
    obtain rfl := Option.some.inj h
    exact calls_libraryShutdown S onWorker
  | createClient given a =>
    obtain ⟨⟨outcome, S₁⟩, hcreate, rfl⟩ := Option.map_eq_some_iff.mp h
    exact calls_createClient ⟨hok.1.1.workerList, hok.1.1.emptyList⟩ hcreate
  | releaseClient client onWorker memory =>
    obtain rfl : memory = true := hok
    cases client with
    | none =>
      obtain rfl := Option.some.inj h
      exact .refl _
    | some i =>
      obtain ⟨client, -, hdestroy⟩ := Option.bind_eq_some_iff.mp h
      have hcalls := calls_destroyClient hdestroy
      exact hcalls
  | setWorkerThreads n =>
    obtain rfl := Option.some.inj h
    unfold GlobalRuntime.setWorkerThreads
    split_ifs <;> exact .refl _
  | setWorkerThreadsAuto =>
    obtain rfl := Option.some.inj h
    unfold GlobalRuntime.setWorkerThreadsAuto
    split_ifs <;> exact .refl _
  | activity timers connections =>
    obtain rfl := Option.some.inj h
    exact .refl _

/-- In every run of the library the pool gets to its state by calls of `Start` and `Stop`. -/
theorem calls_of_exec {ls : List Label} (h : exec Library.step {} ls = some S)
    (hok : Meets Library.step Benign {} ls) : WorkerPool.Calls {} S.runtime.workers :=
  exec_invariant (I := fun S => WorkerPool.Calls {} S.runtime.workers) Benign
    (fun _ _ _ hS hok hstep => hS.trans (calls_step hok hstep)) h hok (.refl _)

end Library

end Connx
