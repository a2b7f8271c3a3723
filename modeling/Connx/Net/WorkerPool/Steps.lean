import Connx.Net.WorkerPool.Basic
import Connx.Net.WorkerPool.Stages

/-!
# What the steps of the pool do
-/

namespace Connx.WorkerPool

variable {S S' : State} {s : Stop}

/-! ### `Stop` and `Start` -/

inductive StopStep (S : State) (s : Stop) : StopPc → State → StopPc → Prop
  | woken : StopStep S s (.lock []) S (.join s.list)
  | lock {w : Nat} {rest : List Nat} {S₁ : State} (h : S.onWorker w .lock = some S₁) :
      StopStep S s (.lock (w :: rest)) S₁ (.wake (w :: rest))
  | wake {w : Nat} {rest : List Nat} {S₁ : State} (h : S.onWorker w .wake = some S₁) :
      StopStep S s (.wake (w :: rest)) S₁ (.unlock (w :: rest))
  | unlock {w : Nat} {rest : List Nat} {S₁ : State} (h : S.onWorker w .unlock = some S₁) :
      StopStep S s (.unlock (w :: rest)) S₁ (.lock rest)
  | joined : StopStep S s (.join []) S (.waitLock s.list)
  | join {w : Nat} {rest : List Nat} (h : s.caller = some w ∨ S.hasReturned w) :
      StopStep S s (.join (w :: rest)) S (.join rest)
  | waited : StopStep S s (.waitLock []) S (.drain s.list)
  | waitLock {w : Nat} {rest : List Nat} {S₁ : State} (h : S.onWorker w .lock = some S₁) :
      StopStep S s (.waitLock (w :: rest)) S₁ (.waitCheck (w :: rest))
  | idle {w : Nat} {rest : List Nat} (h : S.isIdle w) :
      StopStep S s (.waitCheck (w :: rest)) S (.waitUnlock (w :: rest))
  | sleep {w : Nat} {rest : List Nat} {S₁ : State} (h : S.onWorker w .unlock = some S₁) :
      StopStep S s (.waitCheck (w :: rest)) S₁ (.waiting (w :: rest))
  | waitUnlock {w : Nat} {rest : List Nat} {S₁ : State} (h : S.onWorker w .unlock = some S₁) :
      StopStep S s (.waitUnlock (w :: rest)) S₁ (.waitLock rest)
  | notified {rest : List Nat} : StopStep S s (.waiting rest) S (.waitLock rest)
  | drained : StopStep S s (.drain []) S .done
  | drain {w : Nat} {rest : List Nat} {S₁ : State} (h : S.onWorker w .beginPop = some S₁) :
      StopStep S s (.drain (w :: rest)) S₁ (.draining (w :: rest))
  | draining {w : Nat} {rest : List Nat} {S₁ : State} {W : Worker}
      (h : S.onWorker w .discard = some S₁) (hW : S₁.workers[w]? = some W)
      (hpop : W.queue.pop.isDone = false) :
      StopStep S s (.draining (w :: rest)) S₁ (.draining (w :: rest))
  | next {w : Nat} {rest : List Nat} {S₁ : State} {W : Worker}
      (h : S.onWorker w .discard = some S₁) (hW : S₁.workers[w]? = some W)
      (hpop : W.queue.pop.isDone = true) :
      StopStep S s (.draining (w :: rest)) S₁ (.drain (w :: rest))
  | emptied {w : Nat} {rest : List Nat} {S₁ : State} {W : Worker}
      (h : S.onWorker w .discard = some S₁) (hW : S₁.workers[w]? = some W)
      (hpop : W.queue.pop = .done none true) :
      StopStep S s (.draining (w :: rest)) S₁ (.drain rest)

/-- An operation of `DrainQueue`: `PopAndCheckEnd` goes on, it is called again, or it has reported
the end. -/
lemma discard_cases {S₁ : State} {w : Nat} {rest : List Nat} {p : Bool × List Nat}
    (h : S.discard w rest = some (S₁, p)) :
    S.onWorker w .discard = some S₁ ∧ ∃ W, S₁.workers[w]? = some W ∧
      (W.queue.pop.isDone = false ∧ p = (true, w :: rest) ∨
        W.queue.pop.isDone = true ∧ p = (false, w :: rest) ∨
        W.queue.pop = .done none true ∧ p = (false, rest)) := by
  obtain ⟨S₂, hon, hmap⟩ := Option.bind_eq_some_iff.mp h
  obtain ⟨W, hW, heq⟩ := Option.map_eq_some_iff.mp hmap
  obtain ⟨rfl, rfl⟩ := by simpa using heq
  refine ⟨hon, W, hW, ?_⟩
  generalize W.queue.pop = pop
  unfold afterDrain
  split
  · exact .inr (.inr ⟨rfl, rfl⟩)
  · exact .inr (.inl ⟨rfl, rfl⟩)
  · next hnot =>
    refine .inl ⟨?_, rfl⟩
    cases pop with
    | done result empty => exact absurd rfl (hnot result empty)
    | _ => rfl

lemma stopAct_step {pc pc' : StopPc} (h : stopAct S s pc = some (S', pc')) :
    StopStep S s pc S' pc' := by
  cases pc with
  | locked => simp [stopAct] at h
  | early => simp [stopAct] at h
  | done => simp [stopAct] at h
  | lock rest =>
    cases rest with
    | nil =>
      obtain ⟨rfl, rfl⟩ := by simpa [stopAct] using h
      exact .woken
    | cons w rest =>
      obtain ⟨S₁, hon, heq⟩ := Option.map_eq_some_iff.mp h
      obtain ⟨rfl, rfl⟩ := by simpa using heq
      exact .lock hon
  | wake rest =>
    cases rest with
    | nil => simp [stopAct] at h
    | cons w rest =>
      obtain ⟨S₁, hon, heq⟩ := Option.map_eq_some_iff.mp h
      obtain ⟨rfl, rfl⟩ := by simpa using heq
      exact .wake hon
  | unlock rest =>
    cases rest with
    | nil => simp [stopAct] at h
    | cons w rest =>
      obtain ⟨S₁, hon, heq⟩ := Option.map_eq_some_iff.mp h
      obtain ⟨rfl, rfl⟩ := by simpa using heq
      exact .unlock hon
  | join rest =>
    cases rest with
    | nil =>
      obtain ⟨rfl, rfl⟩ := by simpa [stopAct] using h
      exact .joined
    | cons w rest =>
      simp only [stopAct] at h
      split_ifs at h with hjoin
      obtain ⟨rfl, rfl⟩ := by simpa using h
      exact .join hjoin
  | waitLock rest =>
    cases rest with
    | nil =>
      obtain ⟨rfl, rfl⟩ := by simpa [stopAct] using h
      exact .waited
    | cons w rest =>
      obtain ⟨S₁, hon, heq⟩ := Option.map_eq_some_iff.mp h
      obtain ⟨rfl, rfl⟩ := by simpa using heq
      exact .waitLock hon
  | waitCheck rest =>
    cases rest with
    | nil => simp [stopAct] at h
    | cons w rest =>
      simp only [stopAct] at h
      split_ifs at h with hidle
      · obtain ⟨rfl, rfl⟩ := by simpa using h
        exact .idle hidle
      · obtain ⟨S₁, hon, heq⟩ := Option.map_eq_some_iff.mp h
        obtain ⟨rfl, rfl⟩ := by simpa using heq
        exact .sleep hon
  | waitUnlock rest =>
    cases rest with
    | nil => simp [stopAct] at h
    | cons w rest =>
      obtain ⟨S₁, hon, heq⟩ := Option.map_eq_some_iff.mp h
      obtain ⟨rfl, rfl⟩ := by simpa using heq
      exact .waitUnlock hon
  | waiting rest =>
    obtain ⟨rfl, rfl⟩ := by simpa [stopAct] using h
    exact .notified
  | drain rest =>
    cases rest with
    | nil =>
      obtain ⟨rfl, rfl⟩ := by simpa [stopAct] using h
      exact .drained
    | cons w rest =>
      obtain ⟨S₁, hon, heq⟩ := Option.map_eq_some_iff.mp h
      obtain ⟨rfl, rfl⟩ := by simpa using heq
      exact .drain hon
  | draining rest =>
    cases rest with
    | nil => simp [stopAct] at h
    | cons w rest =>
      obtain ⟨⟨S₁, p⟩, hdiscard, heq⟩ := Option.map_eq_some_iff.mp h
      obtain ⟨hon, W, hW, ⟨hpop, rfl⟩ | ⟨hpop, rfl⟩ | ⟨hpop, rfl⟩⟩ := discard_cases hdiscard
      · obtain ⟨rfl, rfl⟩ := by simpa using heq
        exact .draining hon hW hpop
      · obtain ⟨rfl, rfl⟩ := by simpa using heq
        exact .next hon hW hpop
      · obtain ⟨rfl, rfl⟩ := by simpa using heq
        exact .emptied hon hW hpop

inductive StopRegionStep (S : State) (k : Nat) (s : Stop) : StopRegion → State → Prop
  | early (h : S.stopping = true) : StopRegionStep S k s .loadStopping { S with
      mutex := none
      stops := S.stops.set k { s with stopped := S.generation - 1, pc := .early } }
  | loadStopping (h : S.stopping = false) : StopRegionStep S k s .loadStopping { S with
      mutex := some (.stop k .storeStopping)
      stops := S.stops.set k { s with stopped := S.generation } }
  | storeStopping : StopRegionStep S k s .storeStopping
      { S with stopping := true, mutex := some (.stop k .advance) }
  | advance : StopRegionStep S k s .advance
      { S with generation := S.generation + 1, mutex := some (.stop k .loadWorkers) }
  | loadWorkers : StopRegionStep S k s .loadWorkers { S with
      mutex := some (.stop k .storeWorkers), stops := S.stops.set k { s with list := S.current } }
  | storeWorkers : StopRegionStep S k s .storeWorkers
      { S with current := [], mutex := some (.stop k (.refuse s.list)) }
  | refused : StopRegionStep S k s (.refuse []) { S with
      mutex := none, stops := S.stops.set k { s with pc := .lock s.list } }
  | refuse {w : Nat} {rest : List Nat} {S₁ : State}
      (h : S.onWorker w .refuse = some S₁) : StopRegionStep S k s (.refuse (w :: rest))
      { S₁ with mutex := some (.stop k (.refuse rest)) }

lemma stopRegionAct_step {k : Nat} {pc : StopRegion} (h : stopRegionAct S k s pc = some S') :
    StopRegionStep S k s pc S' := by
  cases pc with
  | loadStopping =>
    simp only [stopRegionAct, Option.some.injEq] at h
    split_ifs at h with hstopping
    · subst h
      exact .early hstopping
    · subst h
      exact .loadStopping (by simpa using hstopping)
  | storeStopping =>
    obtain rfl := by simpa [stopRegionAct] using h
    exact .storeStopping
  | advance =>
    obtain rfl := by simpa [stopRegionAct] using h
    exact .advance
  | loadWorkers =>
    obtain rfl := by simpa [stopRegionAct] using h
    exact .loadWorkers
  | storeWorkers =>
    obtain rfl := by simpa [stopRegionAct] using h
    exact .storeWorkers
  | refuse rest =>
    cases rest with
    | nil =>
      obtain rfl := by simpa [stopRegionAct] using h
      exact .refused
    | cons w rest =>
      obtain ⟨S₁, hon, rfl⟩ := Option.map_eq_some_iff.mp h
      exact .refuse hon

inductive StartStep (S : State) : StartRegion → State → Prop
  | started {threads : Nat} (h : S.stopping = false) :
      StartStep S (.loadStopping threads) { S with mutex := none }
  | loadStopping {threads : Nat} (h : S.stopping = true) :
      StartStep S (.loadStopping threads) (S.holding (.storeStopping threads))
  | storeStopping {threads : Nat} : StartStep S (.storeStopping threads)
      { S with stopping := false, mutex := some (.start (.advance threads)) }
  | advance {threads : Nat} : StartStep S (.advance threads) { S with
      generation := S.generation + 1
      mutex := some (.start (.spawn (S.generation + 1) threads [])) }
  | spawned {generation : Nat} {made : List Nat} :
      StartStep S (.spawn generation 0 made) (S.holding (.publish made))
  | spawn {generation left : Nat} {made : List Nat} :
      StartStep S (.spawn generation (left + 1) made)
        ((S.spawn generation .lock).holding (.spawn generation left (made ++ [S.workers.length])))
  | noMemory {generation left : Nat} {made : List Nat} :
      StartStep S (.spawn generation (left + 1) made) (S.holding (.failStopping made))
  | noThread {generation left : Nat} {made : List Nat} :
      StartStep S (.spawn generation (left + 1) made)
        ((S.spawn generation .returned).holding (.failStopping (made ++ [S.workers.length])))
  | publish {made : List Nat} :
      StartStep S (.publish made) { S with current := made, mutex := none }
  | failStopping {made : List Nat} : StartStep S (.failStopping made)
      { S with stopping := true, mutex := some (.start (.failAdvance made)) }
  | failAdvance {made : List Nat} : StartStep S (.failAdvance made) { S with
      generation := S.generation + 1, mutex := some (.start (.failRefuse made made)) }
  | failWoken {made : List Nat} :
      StartStep S (.failRefuse made []) (S.holding (.failJoin made made))
  | failRefuse {w : Nat} {rest : List Nat} {S₁ : State} {made : List Nat}
      (h : S.onWorker w .refuse = some S₁) :
      StartStep S (.failRefuse made (w :: rest)) (S₁.holding (.failLock made (w :: rest)))
  | failLock {w : Nat} {rest : List Nat} {S₁ : State} {made : List Nat}
      (h : S.onWorker w .lock = some S₁) :
      StartStep S (.failLock made (w :: rest)) (S₁.holding (.failWake made (w :: rest)))
  | failWake {w : Nat} {rest : List Nat} {S₁ : State} {made : List Nat}
      (h : S.onWorker w .wake = some S₁) :
      StartStep S (.failWake made (w :: rest)) (S₁.holding (.failUnlock made (w :: rest)))
  | failUnlock {w : Nat} {rest : List Nat} {S₁ : State} {made : List Nat}
      (h : S.onWorker w .unlock = some S₁) :
      StartStep S (.failUnlock made (w :: rest)) (S₁.holding (.failRefuse made rest))
  | failJoined {made : List Nat} :
      StartStep S (.failJoin made []) (S.holding (.failDrain made made))
  | failJoin {w : Nat} {rest : List Nat} {made : List Nat} (h : S.hasReturned w) :
      StartStep S (.failJoin made (w :: rest)) (S.holding (.failJoin made rest))
  | failDrained {made : List Nat} :
      StartStep S (.failDrain made []) (S.holding (.failPublish made))
  | failDrain {w : Nat} {rest : List Nat} {S₁ : State} {made : List Nat}
      (h : S.onWorker w .beginPop = some S₁) :
      StartStep S (.failDrain made (w :: rest)) (S₁.holding (.failDraining made (w :: rest)))
  | failDraining {w : Nat} {rest : List Nat} {S₁ : State} {made : List Nat} {W : Worker}
      (h : S.onWorker w .discard = some S₁)
      (hW : S₁.workers[w]? = some W) (hpop : W.queue.pop.isDone = false) :
      StartStep S (.failDraining made (w :: rest)) (S₁.holding (.failDraining made (w :: rest)))
  | failNext {w : Nat} {rest : List Nat} {S₁ : State} {made rest' : List Nat} {W : Worker}
      (h : S.onWorker w .discard = some S₁)
      (hW : S₁.workers[w]? = some W) (hpop : W.queue.pop.isDone = true)
      (hrest : rest' = w :: rest ∨ rest' = rest) :
      StartStep S (.failDraining made (w :: rest)) (S₁.holding (.failDrain made rest'))
  | failPublish {made : List Nat} :
      StartStep S (.failPublish made) { S with current := [], mutex := none }

lemma startAct_step {outcome : Outcome} {pc : StartRegion} (h : startAct S outcome pc = some S') :
    StartStep S pc S' := by
  cases pc with
  | loadStopping threads =>
    simp only [startAct, Option.some.injEq] at h
    split_ifs at h with hstopping
    · subst h
      exact .loadStopping hstopping
    · subst h
      exact .started (by simpa using hstopping)
  | storeStopping threads =>
    obtain rfl := by simpa [startAct] using h
    exact .storeStopping
  | advance threads =>
    obtain rfl := by simpa [startAct] using h
    exact .advance
  | spawn generation left made =>
    cases left with
    | zero =>
      obtain rfl := by simpa [startAct] using h
      exact .spawned
    | succ left =>
      cases outcome with
      | ok =>
        obtain rfl := by simpa [startAct] using h
        exact .spawn
      | noMemory =>
        obtain rfl := by simpa [startAct] using h
        exact .noMemory
      | noThread =>
        obtain rfl := by simpa [startAct] using h
        exact .noThread
  | publish made =>
    obtain rfl := by simpa [startAct] using h
    exact .publish
  | failStopping made =>
    obtain rfl := by simpa [startAct] using h
    exact .failStopping
  | failAdvance made =>
    obtain rfl := by simpa [startAct] using h
    exact .failAdvance
  | failRefuse made rest =>
    cases rest with
    | nil =>
      obtain rfl := by simpa [startAct] using h
      exact .failWoken
    | cons w rest =>
      obtain ⟨S₁, hon, rfl⟩ := Option.map_eq_some_iff.mp h
      exact .failRefuse hon
  | failLock made rest =>
    cases rest with
    | nil => simp [startAct] at h
    | cons w rest =>
      obtain ⟨S₁, hon, rfl⟩ := Option.map_eq_some_iff.mp h
      exact .failLock hon
  | failWake made rest =>
    cases rest with
    | nil => simp [startAct] at h
    | cons w rest =>
      obtain ⟨S₁, hon, rfl⟩ := Option.map_eq_some_iff.mp h
      exact .failWake hon
  | failUnlock made rest =>
    cases rest with
    | nil => simp [startAct] at h
    | cons w rest =>
      obtain ⟨S₁, hon, rfl⟩ := Option.map_eq_some_iff.mp h
      exact .failUnlock hon
  | failJoin made rest =>
    cases rest with
    | nil =>
      obtain rfl := by simpa [startAct] using h
      exact .failJoined
    | cons w rest =>
      simp only [startAct] at h
      split_ifs at h with hjoin
      obtain rfl := by simpa using h
      exact .failJoin hjoin
  | failDrain made rest =>
    cases rest with
    | nil =>
      obtain rfl := by simpa [startAct] using h
      exact .failDrained
    | cons w rest =>
      obtain ⟨S₁, hon, rfl⟩ := Option.map_eq_some_iff.mp h
      exact .failDrain hon
  | failDraining made rest =>
    cases rest with
    | nil => simp [startAct] at h
    | cons w rest =>
      obtain ⟨⟨S₁, p⟩, hdiscard, rfl⟩ := Option.map_eq_some_iff.mp h
      obtain ⟨hon, W, hW, ⟨hpop, rfl⟩ | ⟨hpop, rfl⟩ | ⟨hpop, rfl⟩⟩ := discard_cases hdiscard
      · exact .failDraining hon hW hpop
      · exact .failNext hon hW hpop (.inl rfl)
      · exact .failNext hon hW (by rw [hpop]; rfl) (.inr rfl)
  | failPublish made =>
    obtain rfl := by simpa [startAct] using h
    exact .failPublish

end Connx.WorkerPool
