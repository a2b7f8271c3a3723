import Connx.Net.WorkerPool.Invariant

/-!
# Lists of workers change hands

The steps of `Start` and `Stop`, which pass the lists of workers on.
-/

namespace Connx.WorkerPool

open Pool

variable {S S' S₁ : State} {w k : Nat} {s s' : Stop}

/-! ### One worker -/

lemma onWorker_eq {l : Worker.Label} (h : S.onWorker w l = some S') :
    ∃ W W', S.workers[w]? = some W ∧ W.step l = some W' ∧
      S' = { S with workers := S.workers.set w W' } := by
  obtain ⟨W, hW, hmap⟩ := Option.bind_eq_some_iff.mp h
  obtain ⟨W', hstep, rfl⟩ := Option.map_eq_some_iff.mp hmap
  exact ⟨W, W', hW, hstep, rfl⟩

lemma getElem?_onWorker {W W' : Worker} (hW : S.workers[w]? = some W) :
    { S with workers := S.workers.set w W' : State }.workers[w]? = some W' :=
  List.getElem?_set_self (List.getElem?_eq_some_iff.mp hW).1

lemma same_onWorker {l : Worker.Label} (hworkers : ∀ W ∈ S.workers, W.Inv)
    (h : S.onWorker w l = some S') : S.Same S' ∧ S.Later S' := by
  obtain ⟨W, W', hW, hstep, rfl⟩ := onWorker_eq h
  have hlater := (hworkers W (List.mem_of_getElem? hW)).later hstep
  refine ⟨⟨rfl, rfl, rfl, rfl, rfl, map_set_of_eq hW hlater.generation⟩, fun v V hV => ?_⟩
  by_cases hvw : w = v
  · subst hvw
    obtain rfl : W = V := Option.some.inj (hW.symm.trans hV)
    exact ⟨W', getElem?_onWorker hW, hlater⟩
  · exact ⟨V, by simp [List.getElem?_set_ne hvw, hV], .refl V⟩

lemma Worker.Fresh.step {W W' : Worker} {l : Worker.Label} (hfresh : W.Fresh)
    (h : W.step l = some W') (hl : ∀ n, l ≠ .call n) : W'.Fresh := by
  cases worker_step h with
  | @call n => exact absurd rfl (hl n)
  | post hi =>
    rw [show W.calls = [] from hfresh] at hi
    simp at hi
  | run hrun => exact hrun.frame.2.2.2.trans hfresh
  | _ => exact hfresh

lemma State.Control.onWorker {l : Worker.Label} (hS : S.Control)
    (hworkers : ∀ W ∈ S.workers, W.Inv) (h : S.onWorker w l = some S')
    (hl : ∀ n, l = .call n → S.current ≠ []) : S'.Control := by
  obtain ⟨hsame, hlater⟩ := same_onWorker hworkers h
  refine hsame.control hlater (fun hcurrent v hv => ?_) hS
  obtain ⟨W, W', hW, hstep, rfl⟩ := onWorker_eq h
  obtain ⟨V, hV, hfresh⟩ := hv
  by_cases hvw : w = v
  · subst hvw
    obtain rfl : W = V := Option.some.inj (hW.symm.trans hV)
    exact ⟨W', getElem?_onWorker hW, hfresh.step hstep fun n hn => hl n hn hcurrent⟩
  · exact ⟨V, by simp [List.getElem?_set_ne hvw, hV], hfresh⟩

/-! ### Calls of `Stop` after the critical section -/

lemma has_refused_of_refuse (h : S.onWorker w .refuse = some S') : S'.Has w Worker.Refused := by
  obtain ⟨W, W', hW, hstep, rfl⟩ := onWorker_eq h
  obtain rfl := by simpa [Worker.step] using hstep
  exact ⟨_, getElem?_onWorker hW, rfl⟩

lemma has_ended_of_returned (h : S.hasReturned w = true) : S.Has w Worker.Ended := by
  obtain ⟨W, hW, hrun⟩ := (Option.any_eq_true _ _).mp h
  have hended : W.run = .returned := by simpa using hrun
  exact ⟨W, hW, hended⟩

lemma has_sealed_of_idle (hworkers : ∀ W ∈ S.workers, W.Inv) (h : S.isIdle w = true)
    (hrefused : S.Has w Worker.Refused) : S.Has w Worker.Sealed := by
  obtain ⟨W, hW, hactive⟩ := (Option.any_eq_true _ _).mp h
  obtain ⟨W', hW', hrefused⟩ := hrefused
  obtain rfl : W = W' := Option.some.inj (hW.symm.trans hW')
  exact ⟨W, hW, (hworkers W (List.mem_of_getElem? hW)).sealed_of_active hrefused
    (by simpa using hactive)⟩

/-- The end reported to a drain of a worker that lets no call in. -/
lemma has_drained_of_end {W : Worker} (hworkers : ∀ W ∈ S.workers, W.Inv)
    (h : S.onWorker w .discard = some S') (hW : S'.workers[w]? = some W)
    (hend : W.queue.pop = .done none true) (hsealed : S.Has w Worker.Sealed) :
    S'.Has w Worker.Drained := by
  have hlater := (same_onWorker hworkers h).2
  obtain ⟨W', hW', hsealed'⟩ := hsealed.later hlater fun _ _ => Worker.Later.sealed
  obtain rfl : W = W' := Option.some.inj (hW.symm.trans hW')
  refine ⟨W, hW, hsealed', ?_⟩
  obtain ⟨V, V', hV, hstep, rfl⟩ := onWorker_eq h
  obtain rfl : V' = W := Option.some.inj ((getElem?_onWorker hV).symm.trans hW)
  obtain ⟨q, hq, rfl⟩ := Option.map_eq_some_iff.mp hstep
  obtain ⟨V₁, hV₁, hsealed₁⟩ := hsealed
  obtain rfl : V = V₁ := Option.some.inj (hV.symm.trans hV₁)
  exact (hworkers V (List.mem_of_getElem? hV)).drained_of_end hsealed₁ hq hend

lemma StopStep.stages {pc pc' : StopPc} (h : StopStep S s pc S₁ pc')
    (hworkers : ∀ W ∈ S.workers, W.Inv) (hs : S.Stages s pc) : S₁.Stages s pc' := by
  cases h with
  | woken => exact ⟨hs, .start _ _⟩
  | lock h => exact State.has_refused (same_onWorker hworkers h).2 hs
  | wake h => exact State.has_refused (same_onWorker hworkers h).2 hs
  | unlock h => exact State.has_refused (same_onWorker hworkers h).2 hs
  | joined => exact ⟨⟨hs.1, fun w hw => hs.2.done hw⟩, .start _ _⟩
  | join h =>
    refine ⟨hs.1, hs.2.next ?_⟩
    exact h.symm.imp_left has_ended_of_returned
  | waited => exact ⟨⟨fun w hw => hs.2.done hw, hs.1.2⟩, .start _ _⟩
  | waitLock h => exact hs.later (same_onWorker hworkers h).2
  | idle h => exact ⟨hs.1, hs.2.next (has_sealed_of_idle hworkers h (hs.1.1 _ hs.2.head))⟩
  | sleep h => exact hs.later (same_onWorker hworkers h).2
  | waitUnlock h => exact hs.later (same_onWorker hworkers h).2
  | notified => exact hs
  | drained => exact ⟨fun w hw => hs.2.done hw, hs.1.2⟩
  | drain h => exact hs.later (same_onWorker hworkers h).2
  | draining h => exact hs.later (same_onWorker hworkers h).2
  | next h => exact hs.later (same_onWorker hworkers h).2
  | emptied h hW hpop =>
    obtain ⟨hall, hcovers⟩ := hs.later (same_onWorker hworkers h).2
    exact ⟨hall, hcovers.next (has_drained_of_end hworkers h hW hpop (hs.1.1 _ hs.2.head))⟩

lemma StopStep.eq_or_onWorker {pc pc' : StopPc} (h : StopStep S s pc S₁ pc') :
    S₁ = S ∨ ∃ w l, S.onWorker w l = some S₁ ∧ ∀ n, l ≠ .call n := by
  cases h with
  | lock h | wake h | unlock h | waitLock h | sleep h | waitUnlock h | drain h | draining h
  | next h | emptied h => exact .inr ⟨_, _, h, by simp⟩
  | _ => exact .inl rfl

lemma StopStep.pc {pc pc' : StopPc} (h : StopStep S s pc S₁ pc') :
    pc ≠ .locked ∧ pc ≠ .early ∧ pc' ≠ .locked ∧ pc' ≠ .early := by
  cases h <;> simp

/-! ### Changes of the control -/

lemma listed_set {stops : List Stop} (hk : stops[k]? = some s) (hlist : s.list ⊆ s'.list)
    (h : ∃ t ∈ stops, w ∈ t.list) : ∃ t ∈ stops.set k s', w ∈ t.list := by
  obtain ⟨t, ht, hw⟩ := h
  obtain ⟨j, hj⟩ := List.mem_iff_getElem?.mp ht
  by_cases hjk : k = j
  · subst hjk
    obtain rfl : s = t := Option.some.inj (hk.symm.trans hj)
    exact ⟨s', List.mem_set (List.getElem?_eq_some_iff.mp hk).1 _, hlist hw⟩
  · exact ⟨t, List.mem_of_getElem? (i := j) (by rw [List.getElem?_set_ne hjk, hj]), hw⟩

lemma State.StopInv.change (h : S.StopInv s) (hworkers : S'.workers = S.workers)
    (hgeneration : S.generation ≤ S'.generation) : S'.StopInv s := by
  have hlater : S.Later S' := fun w W hW => ⟨W, hworkers ▸ hW, .refl W⟩
  have hgens : S'.gens = S.gens := congrArg (List.map Worker.generation) hworkers
  refine ⟨h.1.imp_right (Or.imp_right fun hlists => ?_), h.2.later hlater⟩
  exact ⟨hlists.1.trans_le hgeneration, hlists.2.of_gens hgens⟩

/-- A step that leaves the workers as they are. -/
lemma State.Control.change (hS : S.Control) (hworkers : S'.workers = S.workers)
    (hgeneration : S.generation ≤ S'.generation) (hregion : S'.RegionInv)
    (hstops : ∀ s ∈ S'.stops, s ∈ S.stops ∨ S'.StopInv s)
    (hlisted : ∀ w, S.Listed w → S'.Listed w ∨ S.Has w Worker.Finished) : S'.Control := by
  have hgens : S'.gens = S.gens := congrArg (List.map Worker.generation) hworkers
  refine ⟨fun w g hg => (hS.bounded w g (hgens ▸ hg)).trans hgeneration, hregion, ?_, ?_⟩
  · intro s hs
    obtain hmem | hinv := hstops s hs
    · exact (hS.stops s hmem).change hworkers hgeneration
    · exact hinv
  · intro w hw
    have hhas : S.Has w Worker.Finished → S'.Has w Worker.Finished :=
      fun ⟨W, hW, hfin⟩ => ⟨W, hworkers ▸ hW, hfin⟩
    obtain hlist | hfin := hS.listed w (by rwa [← hworkers])
    · exact (hlisted w hlist).imp_right hhas
    · exact .inr (hhas hfin)

/-- A call of `Stop` outside the critical section goes on. -/
lemma State.Control.setStop {pc' : StopPc} (hS : S.Control) (hk : S.stops[k]? = some s)
    (hpc : s.pc ≠ .locked) (hinv : S.StopInv { s with pc := pc' }) :
    { S with stops := S.stops.set k { s with pc := pc' } : State }.Control := by
  refine hS.change rfl le_rfl ?_ (fun t ht => ?_) fun w hw => .inl ?_
  · have hregion := hS.region
    unfold State.RegionInv at hregion ⊢
    dsimp only
    split at hregion
    · exact hregion
    · next j pc hmutex =>
      obtain ⟨t, ht, hlocked, ht'⟩ := hregion
      have hjk : k ≠ j := by
        rintro rfl
        obtain rfl : s = t := Option.some.inj (hk.symm.trans ht)
        exact hpc hlocked
      exact ⟨t, by rw [List.getElem?_set_ne hjk, ht], hlocked, ht'⟩
    · exact hregion
  · obtain hmem | rfl := List.mem_or_eq_of_mem_set ht
    · exact .inl hmem
    · exact .inr hinv
  · exact hw.imp_right (Or.imp_left fun h => listed_set hk (List.Subset.refl s.list) h)

lemma State.Control.control (hS : S.Control) (hworkers : ∀ W ∈ S.workers, W.Inv)
    {pc' : StopPc} (hk : S.stops[k]? = some s) (h : StopStep S s s.pc S₁ pc') :
    { S₁ with stops := S₁.stops.set k { s with pc := pc' } : State }.Control := by
  obtain ⟨hlocked, hearly, -, -⟩ := h.pc
  obtain ⟨hlists, hstages⟩ := hS.stops s (List.mem_of_getElem? hk)
  have hstages' : S₁.Stages { s with pc := pc' } pc' := by
    have hnew := h.stages hworkers hstages
    cases pc' <;> exact hnew
  have hlists' := (hlists.resolve_left hlocked).resolve_left hearly
  obtain rfl | ⟨w, l, hon, hl⟩ := h.eq_or_onWorker
  · exact hS.setStop hk hlocked ⟨.inr (.inr hlists'), hstages'⟩
  · have hsame := (same_onWorker hworkers hon).1
    refine (hS.onWorker hworkers hon fun n hn => absurd hn (hl n)).setStop ?_ hlocked
      ⟨.inr (.inr (hsame.lists hlists')), hstages'⟩
    rw [hsame.stops, hk]

/-! ### The critical section of `Stop` -/

lemma State.RegionInv.stop {pc : StopRegion} (h : S.RegionInv)
    (hmutex : S.mutex = some (.stop k pc)) (hk : S.stops[k]? = some s) :
    s.pc = .locked ∧ S.StopRegionInv s pc := by
  unfold State.RegionInv at h
  rw [hmutex] at h
  obtain ⟨t, ht, hlocked, hinv⟩ := h
  obtain rfl : s = t := Option.some.inj (hk.symm.trans ht)
  exact ⟨hlocked, hinv⟩

lemma State.RegionInv.start {pc : StartRegion} (h : S.RegionInv)
    (hmutex : S.mutex = some (.start pc)) : S.StartInv pc := by
  unfold State.RegionInv at h
  rwa [hmutex] at h

lemma State.made_of_stop {pc : StopRegion} (hmutex : S.mutex = some (.stop k pc)) :
    S.made = [] := by
  simp [State.made, hmutex]

/-- The holder is a call of `Stop`, so the lists of `Start` play no part. -/
lemma State.Listed.of_stop {pc : StopRegion} (h : S.Listed w)
    (hmutex : S.mutex = some (.stop k pc)) : w ∈ S.current ∨ ∃ t ∈ S.stops, w ∈ t.list := by
  obtain hcurrent | hstops | hmade := h
  · exact .inl hcurrent
  · exact .inr hstops
  · simp [State.made_of_stop hmutex] at hmade

lemma State.Control.stopRegion {pc : StopRegion} (hS : S.Control)
    (hworkers : ∀ W ∈ S.workers, W.Inv) (hmutex : S.mutex = some (.stop k pc))
    (hk : S.stops[k]? = some s) (h : StopRegionStep S k s pc S') : S'.Control := by
  obtain ⟨hlocked, hinv⟩ := hS.region.stop hmutex hk
  have hlt : k < S.stops.length := (List.getElem?_eq_some_iff.mp hk).1
  cases h with
  | early hstopping =>
    refine hS.change rfl le_rfl hinv.2 (fun t ht => ?_) fun w hw => .inl ?_
    · obtain hmem | rfl := List.mem_or_eq_of_mem_set ht
      · exact .inl hmem
      · exact .inr ⟨.inr (.inl rfl), hinv.1⟩
    · exact (hw.of_stop hmutex).imp_right fun h => .inl (listed_set hk (List.Subset.refl s.list) h)
  | loadStopping hstopping =>
    refine hS.change rfl le_rfl ?_ (fun t ht => ?_) fun w hw => .inl ?_
    · obtain ⟨-, hmembers⟩ := hinv.2.resolve_right fun h => by simp [h.1] at hstopping
      exact ⟨_, List.getElem?_set_self hlt, hlocked, hinv.1, hstopping, rfl, hmembers⟩
    · obtain hmem | rfl := List.mem_or_eq_of_mem_set ht
      · exact .inl hmem
      · refine .inr ⟨.inl hlocked, ?_⟩
        rw [hlocked]
        trivial
    · exact (hw.of_stop hmutex).imp_right fun h => .inl (listed_set hk (List.Subset.refl s.list) h)
  | storeStopping =>
    refine hS.change rfl le_rfl ?_ (fun t ht => .inl ht) fun w hw => .inl ?_
    · exact ⟨s, hk, hlocked, hinv.1, rfl, hinv.2.2⟩
    · exact (hw.of_stop hmutex).imp_right .inl
  | advance =>
    obtain ⟨hlist, hstopping, hstopped, hmembers⟩ := hinv
    refine hS.change rfl (Nat.le_succ _) ?_ (fun t ht => .inl ht) fun w hw => .inl ?_
    · refine ⟨s, hk, hlocked, hlist, hstopping, fun w g hg => ?_, congrArg (· + 1) hstopped,
        hmembers⟩
      exact Nat.lt_succ_of_le (hS.bounded w g hg)
    · exact (hw.of_stop hmutex).imp_right .inl
  | loadWorkers =>
    obtain ⟨hlist, hstopping, holder, hstopped, hmembers⟩ := hinv
    refine hS.change rfl le_rfl ?_ (fun t ht => ?_) fun w hw => .inl ?_
    · exact ⟨_, List.getElem?_set_self hlt, hlocked, rfl, hstopping, holder, hstopped, hmembers⟩
    · obtain hmem | rfl := List.mem_or_eq_of_mem_set ht
      · exact .inl hmem
      · refine .inr ⟨.inl hlocked, ?_⟩
        rw [hlocked]
        trivial
    · refine (hw.of_stop hmutex).imp_right fun h => .inl (listed_set hk ?_ h)
      rw [hlist]
      exact List.nil_subset _
  | storeWorkers =>
    obtain ⟨hlist, hstopping, holder, hstopped, hmembers⟩ := hinv
    refine hS.change rfl le_rfl ?_ (fun t ht => .inl ht) fun w hw => .inl ?_
    · exact ⟨s, hk, hlocked, rfl, hstopping, holder, hstopped, hmembers, .start _ _⟩
    · obtain hcurrent | hstops := hw.of_stop hmutex
      · exact .inr (.inl ⟨s, List.mem_of_getElem? hk, hlist ▸ hcurrent⟩)
      · exact .inr (.inl hstops)
  | refused =>
    obtain ⟨hcurrent, hstopping, holder, hstopped, hmembers, hcovers⟩ := hinv
    refine hS.change rfl le_rfl (.inr ⟨hstopping, hcurrent, holder⟩) (fun t ht => ?_)
      fun w hw => .inl ?_
    · obtain hmem | rfl := List.mem_or_eq_of_mem_set ht
      · exact .inl hmem
      · exact .inr ⟨.inr (.inr ⟨by rw [← hstopped]; exact Nat.lt_succ_self _, hmembers⟩),
          fun w hw => hcovers.done hw⟩
    · exact (hw.of_stop hmutex).imp_right fun h => .inl (listed_set hk (List.Subset.refl s.list) h)
  | @refuse w rest S₁ hon =>
    have hsame := (same_onWorker hworkers hon).1
    have hS₁ := hS.onWorker hworkers hon (by simp)
    have hmutex₁ : S₁.mutex = some (.stop k (.refuse (w :: rest))) := hsame.mutex.trans hmutex
    have hk₁ : S₁.stops[k]? = some s := by rw [hsame.stops, hk]
    obtain ⟨-, hcurrent, hstopping, holder, hstopped, hmembers, hcovers⟩ :=
      hS₁.region.stop hmutex₁ hk₁
    refine hS₁.change rfl le_rfl ?_ (fun t ht => .inl ht) fun w hw => .inl ?_
    · exact ⟨s, hk₁, hlocked, hcurrent, hstopping, holder, hstopped, hmembers,
        hcovers.next (has_refused_of_refuse hon)⟩
    · exact (hw.of_stop hmutex₁).imp_right .inl

/-! ### `Start` -/

lemma State.made_of_start {pc : StartRegion} (hmutex : S.mutex = some (.start pc)) :
    S.made = pc.made := by
  simp [State.made, hmutex]

lemma State.Control.holding {pc pc' : StartRegion} (hS : S.Control)
    (hmutex : S.mutex = some (.start pc)) (hmade : pc'.made = pc.made) (hinv : S.StartInv pc') :
    (S.holding pc').Control := by
  refine hS.change rfl le_rfl ?_ (fun t ht => .inl ht) fun w hw => .inl ?_
  · cases pc' <;> exact hinv
  · refine hw.imp_right (Or.imp_right fun hw => ?_)
    rw [State.made_of_start hmutex, ← hmade] at hw
    exact hw

/-- `Start` goes on with its lists while `stopping_` or `generation_` change. -/
lemma State.Control.changeStart {pc pc' : StartRegion} (hS : S.Control)
    (hmutex : S.mutex = some (.start pc)) (hmutex' : S'.mutex = some (.start pc'))
    (hmade : pc'.made = pc.made) (hworkers : S'.workers = S.workers)
    (hgeneration : S.generation ≤ S'.generation) (hcurrent : S'.current = S.current)
    (hstops : S'.stops = S.stops) (hinv : S'.StartInv pc') : S'.Control := by
  refine hS.change hworkers hgeneration ?_ (fun t ht => .inl (hstops ▸ ht)) fun w hw => .inl ?_
  · unfold State.RegionInv
    rw [hmutex']
    exact hinv
  · unfold State.Listed
    rw [hcurrent, hstops, State.made_of_start hmutex', hmade, ← State.made_of_start hmutex]
    exact hw

lemma gens_spawn {generation : Nat} {run : RunPc} :
    (S.spawn generation run).gens = S.gens ++ [generation] := by
  simp [State.spawn, State.gens]

lemma later_spawn {generation : Nat} {run : RunPc} : S.Later (S.spawn generation run) := by
  intro w W hW
  refine ⟨W, ?_, .refl W⟩
  have hlt : w < S.workers.length := (List.getElem?_eq_some_iff.mp hW).1
  simp only [State.spawn, List.getElem?_append_left hlt, hW]

/-- A worker of the new generation joins none of the old lists. -/
lemma State.Members.spawn {generation g : Nat} {run : RunPc} {list : List Nat}
    (h : S.Members g list) (hg : g ≠ generation) : (S.spawn generation run).Members g list := by
  intro w
  rw [gens_spawn, h w, List.getElem?_append]
  split_ifs with hlt
  · rfl
  · rw [List.getElem?_eq_none (not_lt.mp hlt)]
    simp only [reduceCtorEq, false_iff]
    intro hw
    exact hg (by simpa using (List.mem_of_getElem? hw : g ∈ [generation]))

lemma State.Making.spawn {made : List Nat} {run : RunPc} (h : S.Making made) :
    (S.spawn S.generation run).Making (made ++ [S.workers.length]) := by
  obtain ⟨hcurrent, hmembers, hfresh⟩ := h
  have hlength : S.gens.length = S.workers.length := by simp [State.gens]
  refine ⟨hcurrent, fun w => ?_, fun w hw => ?_⟩
  · rw [gens_spawn, List.mem_append, List.mem_singleton, hmembers w, List.getElem?_append]
    split_ifs with hlt
    · exact or_iff_left (by omega)
    · rw [List.getElem?_eq_none (not_lt.mp hlt)]
      simp only [reduceCtorEq, false_or]
      show w = S.workers.length ↔ [S.generation][w - S.gens.length]? = some S.generation
      rw [List.getElem?_singleton]
      split_ifs with hsub
      · simp only [iff_true]
        omega
      · simp only [iff_false]
        omega
  · obtain hw | hw := List.mem_append.mp hw
    · obtain ⟨W, hW, hcalls⟩ := hfresh w hw
      have hlt : w < S.workers.length := (List.getElem?_eq_some_iff.mp hW).1
      exact ⟨W, by simp only [State.spawn, List.getElem?_append_left hlt, hW], hcalls⟩
    · obtain rfl := List.mem_singleton.mp hw
      exact ⟨{ generation := S.generation, run := run }, by simp [State.spawn], rfl⟩

lemma State.Control.spawn {pc pc' : StartRegion} {run : RunPc} (hS : S.Control)
    (hmutex : S.mutex = some (.start pc)) (hmade : pc'.made = pc.made ++ [S.workers.length])
    (hinv : (S.spawn S.generation run).StartInv pc') :
    ((S.spawn S.generation run).holding pc').Control := by
  have hgens : ((S.spawn S.generation run).holding pc').gens = S.gens ++ [S.generation] :=
    gens_spawn
  constructor
  · intro w g hg
    rw [hgens] at hg
    obtain hmem | hmem := List.mem_append.mp (List.mem_of_getElem? hg)
    · obtain ⟨v, hv⟩ := List.mem_iff_getElem?.mp hmem
      exact hS.bounded v g hv
    · exact (List.mem_singleton.mp hmem).le
  · cases pc' <;> exact hinv
  · intro s hs
    obtain ⟨hlists, hstages⟩ := hS.stops s hs
    refine ⟨hlists.imp_right (Or.imp_right fun hl => ?_), hstages.later later_spawn⟩
    exact ⟨hl.1, hl.2.spawn hl.1.ne⟩
  · intro w hw
    have hmade' : ((S.spawn S.generation run).holding pc').made = S.made ++ [S.workers.length] := by
      rw [State.made_of_start hmutex, ← hmade]
      rfl
    obtain hlt | rfl := Nat.lt_succ_iff_lt_or_eq.mp (by simpa [State.spawn, State.holding] using hw)
    · refine (hS.listed w hlt).imp (fun hlist => ?_) fun hfin =>
        hfin.later later_spawn fun _ _ => Worker.Later.finished
      refine hlist.imp_right (Or.imp_right fun h => ?_)
      rw [hmade']
      exact List.mem_append_left _ h
    · refine .inl (.inr (.inr ?_))
      rw [hmade']
      exact List.mem_append_right _ List.mem_cons_self

/-- The workers of a failed `Start` are done with: no call ever chose them. -/
lemma has_finished_of_fresh (hworkers : ∀ W ∈ S.workers, W.Inv) (hfresh : S.Has w Worker.Fresh)
    (hrefused : S.Has w Worker.Refused) (hended : S.Has w Worker.Ended) :
    S.Has w Worker.Finished := by
  obtain ⟨W, hW, ⟨hfresh, hrefused⟩, hended⟩ := (hfresh.and hrefused).and hended
  have hinv := hworkers W (List.mem_of_getElem? hW)
  exact ⟨W, hW, hended, hinv.drained_of_calls hrefused hfresh⟩

lemma State.Control.start {pc : StartRegion} (hS : S.Control) (hworkers : ∀ W ∈ S.workers, W.Inv)
    (hmutex : S.mutex = some (.start pc)) (h : StartStep S pc S') : S'.Control := by
  have hinv := hS.region.start hmutex
  -- after a step of a worker the invariant of the critical section is the same
  have hstep : ∀ {w l S₁}, S.onWorker w l = some S₁ → (∀ n, l ≠ .call n) →
      S₁.Control ∧ S₁.mutex = some (.start pc) ∧ S₁.StartInv pc := by
    intro w l S₁ hon hl
    have hS₁ := hS.onWorker hworkers hon fun n hn => absurd hn (hl n)
    have hmutex₁ := (same_onWorker hworkers hon).1.mutex.trans hmutex
    exact ⟨hS₁, hmutex₁, hS₁.region.start hmutex₁⟩
  cases h with
  | started hstopping =>
    refine hS.change rfl le_rfl hinv (fun t ht => .inl ht) fun w hw => .inl ?_
    refine hw.imp_right (Or.imp_right fun hw => ?_)
    simp [State.made_of_start hmutex, StartRegion.made] at hw
  | loadStopping hstopping =>
    refine hS.holding hmutex rfl (hinv.resolve_left fun h => ?_)
    simp [h.1] at hstopping
  | storeStopping => exact hS.changeStart hmutex rfl rfl rfl le_rfl rfl rfl ⟨rfl, hinv.2⟩
  | advance =>
    obtain ⟨hstopping, hcurrent, holder⟩ := hinv
    refine hS.changeStart hmutex rfl rfl rfl (Nat.le_succ _) rfl rfl
      ⟨⟨rfl, Nat.succ_pos _⟩, hstopping, hcurrent, fun w => ?_, by simp⟩
    simp only [List.not_mem_nil, false_iff]
    intro hg
    exact absurd (holder w _ hg) (by omega)
  | spawned => exact hS.holding hmutex rfl hinv.2
  | spawn =>
    obtain ⟨⟨rfl, hpos⟩, hstopping, hmaking⟩ := hinv
    exact hS.spawn hmutex rfl ⟨⟨rfl, hpos⟩, hstopping, hmaking.spawn⟩
  | noMemory => exact hS.holding hmutex rfl hinv.2
  | noThread =>
    obtain ⟨⟨rfl, -⟩, hstopping, hmaking⟩ := hinv
    exact hS.spawn hmutex rfl ⟨hstopping, hmaking.spawn⟩
  | publish =>
    obtain ⟨hstopping, hcurrent, hmembers, -⟩ := hinv
    refine hS.change rfl le_rfl (.inl ⟨hstopping, hmembers⟩) (fun t ht => .inl ht)
      fun w hw => .inl ?_
    obtain hw | hw | hw := hw
    · simp [hcurrent] at hw
    · exact .inr (.inl hw)
    · rw [State.made_of_start hmutex] at hw
      exact .inl hw
  | failStopping => exact hS.changeStart hmutex rfl rfl rfl le_rfl rfl rfl ⟨rfl, hinv.2⟩
  | failAdvance =>
    obtain ⟨hstopping, hcurrent, -, hfresh⟩ := hinv
    refine hS.changeStart hmutex rfl rfl rfl (Nat.le_succ _) rfl rfl
      ⟨⟨⟨hstopping, hcurrent, fun w g hg => ?_⟩, hfresh⟩, .start _ _⟩
    exact Nat.lt_succ_of_le (hS.bounded w g hg)
  | failWoken => exact hS.holding hmutex rfl ⟨hinv.1, fun w hw => hinv.2.done hw, .start _ _⟩
  | failRefuse hon =>
    obtain ⟨hS₁, hmutex₁, hfailed, hcovers⟩ := hstep hon (by simp)
    exact hS₁.holding hmutex₁ rfl ⟨hfailed, hcovers.next (has_refused_of_refuse hon)⟩
  | failLock hon =>
    obtain ⟨hS₁, hmutex₁, hinv₁⟩ := hstep hon (by simp)
    exact hS₁.holding hmutex₁ rfl hinv₁
  | failWake hon =>
    obtain ⟨hS₁, hmutex₁, hinv₁⟩ := hstep hon (by simp)
    exact hS₁.holding hmutex₁ rfl hinv₁
  | failUnlock hon =>
    obtain ⟨hS₁, hmutex₁, hinv₁⟩ := hstep hon (by simp)
    exact hS₁.holding hmutex₁ rfl hinv₁
  | failJoined =>
    exact hS.holding hmutex rfl
      ⟨hinv.1, hinv.2.1, fun w hw => hinv.2.2.done hw, List.Subset.refl _⟩
  | failJoin hreturned =>
    exact hS.holding hmutex rfl
      ⟨hinv.1, hinv.2.1, hinv.2.2.next (has_ended_of_returned hreturned)⟩
  | failDrained => exact hS.holding hmutex rfl ⟨hinv.1, hinv.2.1, hinv.2.2.1⟩
  | failDrain hon =>
    obtain ⟨hS₁, hmutex₁, hinv₁⟩ := hstep hon (by simp)
    exact hS₁.holding hmutex₁ rfl hinv₁
  | failDraining hon =>
    obtain ⟨hS₁, hmutex₁, hinv₁⟩ := hstep hon (by simp)
    exact hS₁.holding hmutex₁ rfl hinv₁
  | failNext hon _ _ hrest =>
    obtain ⟨hS₁, hmutex₁, hfailed, hrefused, hended, hsub⟩ := hstep hon (by simp)
    refine hS₁.holding hmutex₁ rfl ⟨hfailed, hrefused, hended, ?_⟩
    obtain rfl | rfl := hrest
    · exact hsub
    · exact fun v hv => hsub (List.mem_cons_of_mem _ hv)
  | failPublish =>
    obtain ⟨⟨⟨hstopping, hcurrent, holder⟩, hfresh⟩, hrefused, hended⟩ := hinv
    refine hS.change rfl le_rfl (.inr ⟨hstopping, rfl, holder⟩) (fun t ht => .inl ht)
      fun w hw => ?_
    obtain hw | hw | hw := hw
    · simp [hcurrent] at hw
    · exact .inl (.inr (.inl hw))
    · rw [State.made_of_start hmutex] at hw
      exact .inr (has_finished_of_fresh hworkers (hfresh w hw) (hrefused w hw) (hended w hw))

end Connx.WorkerPool
