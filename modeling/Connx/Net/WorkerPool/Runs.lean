import Connx.Net.WorkerPool.Moves

/-!
# Runs of the pool
-/

namespace Connx.WorkerPool

variable {S S' S₁ : State} {W W' : Worker} {w k : Nat} {s s' : Stop} {l : Worker.Label}

lemma State.Inv.of_onward (hS : S.Inv) (h : S.Onward S') (hcontrol : S'.Control)
    (hcallers : ∀ s ∈ S'.stops, s.returned = false → ∀ w, s.caller = some w →
      (∃ t ∈ S.stops, t.returned = false ∧ t.caller = some w) ∨ S'.Has w Worker.InTask)
    (hconsumer : ∀ (w : Nat) (W : Worker), S'.workers[w]? = some W → W.queue.pop.isDone = false →
      W.run = .popping ∨ S'.Drains w)
    (hchoices : S'.Choices) : S'.Inv where
  toControl := hcontrol
  workers := h.workers hS
  callers := by
    intro s hs hreturned w hcaller
    obtain ⟨t, ht, htr, htc⟩ | htask := hcallers s hs hreturned w hcaller
    · exact h.inTask hS ht htr htc
    · exact htask
  consumer := hconsumer
  discarded := h.discarded hS
  ended := h.ended hS
  choices := hchoices

/-! ### Steps of the workers -/

lemma onward_onWorker (h : S.onWorker w l = some S') (hgrants : S.Grants S' w l) : S.Onward S' := by
  have hmoves := moves_of_onWorker h rfl hgrants
  obtain ⟨W, W', -, -, rfl⟩ := onWorker_eq h
  exact ⟨hmoves, le_rfl, .inl, .inr⟩

/-- A step of a worker that the control has no part in. -/
lemma State.Inv.onWorker (hS : S.Inv) (h : S.onWorker w l = some S') (hgrants : S.Grants S' w l)
    (hcall : ∀ n, l ≠ .call n) (hpop : l ≠ .beginPop) (hdiscard : l ≠ .discard) : S'.Inv := by
  obtain ⟨hsame, -⟩ := same_onWorker hS.workers h
  have hposts : S'.posts = S.posts := by
    obtain ⟨W, W', -, -, rfl⟩ := onWorker_eq h
    rfl
  have honward := onward_onWorker h hgrants
  refine hS.of_onward honward (hS.toControl.onWorker hS.workers h fun n hn => absurd hn (hcall n))
    (fun s hs hreturned w hcaller => .inl ?_) ?_ (honward.choices hS hposts fun w hw => .inl ?_)
  · exact ⟨s, hsame.stops ▸ hs, hreturned, hcaller⟩
  · refine hS.consumer_onWorker h rfl hpop hdiscard fun v hv => ?_
    unfold State.Drains
    rwa [hsame.stops, hsame.mutex]
  · exact hsame.current ▸ hw

/-! ### `Post` -/

/-- While `stopping_` is not set, `workers_` holds workers of the current generation only. -/
lemma State.RegionInv.current (h : S.RegionInv) (hstopping : S.stopping = false)
    (hw : w ∈ S.current) : S.gens[w]? = some S.generation := by
  have hsettled : S.Settled → S.gens[w]? = some S.generation := by
    rintro (⟨-, hmembers⟩ | ⟨hstopping', -⟩)
    · exact (hmembers w).mp hw
    · simp [hstopping'] at hstopping
  unfold State.RegionInv at h
  split at h
  · exact hsettled h
  · next pc _ =>
    obtain ⟨s, -, -, hinv⟩ := h
    cases pc with
    | loadStopping => exact hsettled hinv.2
    | storeStopping =>
      obtain ⟨-, -, hstopped, hmembers⟩ := hinv
      rw [← hstopped]
      exact (hmembers w).mp hw
    | _ => simp [hinv.2.1] at hstopping
  · next pc _ =>
    cases pc with
    | loadStopping threads => exact hsettled h
    | storeStopping threads => simp [h.2.1] at hw
    | advance threads => simp [h.2.1] at hw
    | spawn generation left made => simp [h.2.2.1] at hw
    | publish made | failStopping made | failAdvance made => simp [h.2.1] at hw
    | _ => simp [h.1.1.2.1] at hw

/-- A step of `Post` that chooses no worker. -/
lemma State.Inv.posts {posts : List Post} (hS : S.Inv)
    (hbegan : ∀ p ∈ posts, p ∈ S.posts ∨ p.began ≤ S.generation ∧
      (p.pc = .loadWorkers → ∀ w ∈ S.current, S.Has w (p.began ≤ ·.generation)))
    (hchosen : ∀ (n : Nat) (p : Post) (w : Nat), posts[n]? = some p → p.pc = .inside w →
      S.posts[n]? = some p)
    (hkept : ∀ (n : Nat) (p : Post) (w : Nat), S.posts[n]? = some p → p.pc = .inside w →
      posts[n]? = some p) : { S with posts := posts : State }.Inv := by
  have honward : S.Onward { S with posts := posts } := ⟨.same rfl, le_rfl, .inl, .inr⟩
  refine hS.of_onward honward ?_ (fun s hs hreturned w hcaller => .inl ⟨s, hs, hreturned, hcaller⟩)
    hS.consumer (honward.choices_of hS (fun p hp => ?_) (fun p hp hpc w hw => ?_)
      (fun n p w hp hpc => .inl (hchosen n p w hp hpc)) hkept)
  · exact hS.toControl.change rfl le_rfl hS.region (fun s hs => .inl hs) fun w hw => .inl hw
  · exact (hbegan p hp).elim (hS.choices.began p) And.left
  · obtain hold | hnew := hbegan p hp
    · exact hS.choices.choosing p hold hpc w hw
    · exact hnew.2 hpc w hw

lemma State.Inv.setPost {n : Nat} {p p' : Post} (hS : S.Inv) (hn : S.posts[n]? = some p)
    (hpc : ∀ w, p.pc ≠ .inside w) (hpc' : ∀ w, p'.pc ≠ .inside w)
    (hbegan : p'.began ≤ S.generation)
    (hchoosing : p'.pc = .loadWorkers → ∀ w ∈ S.current, S.Has w (p'.began ≤ ·.generation)) :
    { S with posts := S.posts.set n p' : State }.Inv := by
  refine hS.posts (fun q hq => ?_) (fun m q w hq hinside => ?_) fun m q w hq hinside => ?_
  · obtain hold | rfl := List.mem_or_eq_of_mem_set hq
    · exact .inl hold
    · exact .inr ⟨hbegan, hchoosing⟩
  · by_cases hnm : n = m
    · subst hnm
      rw [List.getElem?_set_self (List.getElem?_eq_some_iff.mp hn).1] at hq
      obtain rfl := Option.some.inj hq
      exact absurd hinside (hpc' w)
    · rwa [List.getElem?_set_ne hnm] at hq
  · have hnm : n ≠ m := by
      rintro rfl
      obtain rfl : p = q := Option.some.inj (hn.symm.trans hq)
      exact hpc w hinside
    rw [List.getElem?_set_ne hnm, hq]

lemma onward_choose {n : Nat} {p : Post} (hn : S.posts[n]? = some p)
    (h : S.onWorker w (.call n) = some S₁) :
    S.Onward { S₁ with posts := S₁.posts.set n { p with pc := .inside w } } := by
  have hmoves : ∀ S', S'.workers = S₁.workers → S.Grants S' w (.call n) → S.Moves S' :=
    fun S' => moves_of_onWorker h
  obtain ⟨W, W', -, -, rfl⟩ := onWorker_eq h
  refine ⟨hmoves _ rfl ⟨{ p with pc := .inside w }, ?_, rfl⟩, le_rfl, .inl, .inr⟩
  exact List.getElem?_set_self (List.getElem?_eq_some_iff.mp hn).1

/-- `Post` chooses a worker of the list it has loaded. -/
lemma State.Inv.choose {n : Nat} {p : Post} (hS : S.Inv) (hn : S.posts[n]? = some p)
    (hpc : p.pc = .loadWorkers) (hw : w ∈ S.current) (h : S.onWorker w (.call n) = some S₁) :
    { S₁ with posts := S₁.posts.set n { p with pc := .inside w } : State }.Inv := by
  have hcontrol := hS.toControl.onWorker hS.workers h fun _ _ hnil => by simp [hnil] at hw
  have honward := onward_choose hn h
  obtain ⟨W, W', hW, hstep, rfl⟩ := onWorker_eq h
  have hself : (S.posts.set n { p with pc := .inside w })[n]? = some { p with pc := .inside w } :=
    List.getElem?_set_self (List.getElem?_eq_some_iff.mp hn).1
  refine hS.of_onward honward ?_ (fun s hs hreturned w hcaller => .inl ⟨s, hs, hreturned, hcaller⟩)
    (hS.consumer_onWorker h rfl (by simp) (by simp) fun v hv => hv)
    (honward.choices_of hS (fun q hq => ?_) (fun q hq hqpc v hv => ?_) (fun m q v hq hinside => ?_)
      fun m q v hq hinside => ?_)
  · exact hcontrol.change rfl le_rfl hcontrol.region (fun s hs => .inl hs) fun v hv => .inl hv
  · obtain hold | rfl := List.mem_or_eq_of_mem_set hq
    · exact hS.choices.began q hold
    · exact hS.choices.began p (List.mem_of_getElem? hn)
  · obtain hold | rfl := List.mem_or_eq_of_mem_set hq
    · obtain ⟨V, hV, hle⟩ := hS.choices.choosing q hold hqpc v hv
      obtain ⟨V', hV', hgeneration, -⟩ := honward.grow hS hV
      exact ⟨V', hV', Nat.le_trans hle hgeneration.ge⟩
    · simp at hqpc
  · by_cases hnm : n = m
    · subst hnm
      rw [hself] at hq
      obtain rfl := Option.some.inj hq
      obtain rfl : w = v := by simpa using hinside
      right
      have hle := (hS.choices.choosing p (List.mem_of_getElem? hn) hpc w hw).get hW
      have hgeneration := ((hS.workers W (List.mem_of_getElem? hW)).later hstep).generation
      refine ⟨W', getElem?_onWorker hW, Nat.le_trans hle hgeneration.ge, ?_⟩
      rw [Worker.tasks_of_step hstep]
      exact List.mem_append_right _ List.mem_cons_self
    · left
      exact (List.getElem?_set_ne hnm).symm.trans hq
  · have hnm : n ≠ m := by
      rintro rfl
      obtain rfl : p = q := Option.some.inj (hn.symm.trans hq)
      simp [hpc] at hinside
    exact (List.getElem?_set_ne hnm).trans hq

lemma State.Inv.postStep {n : Nat} {p : Post} (hS : S.Inv) (hn : S.posts[n]? = some p)
    (h : postStep S n p = some S') : S'.Inv := by
  cases hpc : p.pc with
  | loadStopping =>
    simp only [WorkerPool.postStep, hpc, Option.some.injEq] at h
    subst h
    refine hS.setPost hn (by simp [hpc]) (fun w => ?_) le_rfl fun hload w hw => ?_
    · dsimp only
      split_ifs <;> simp
    · have hstopping : S.stopping = false := by
        cases hs : S.stopping <;> simp [hs] at hload ⊢
      have hgen := hS.region.current hstopping hw
      rw [State.gens, List.getElem?_map, Option.map_eq_some_iff] at hgen
      exact hgen.imp fun W hW => ⟨hW.1, hW.2.ge⟩
  | loadWorkers =>
    simp only [WorkerPool.postStep, hpc] at h
    split at h
    · obtain rfl := by simpa using h
      exact hS.setPost hn (by simp [hpc]) (by simp)
        (hS.choices.began p (List.mem_of_getElem? hn)) (by simp)
    · next w hw =>
      obtain ⟨S₁, hon, rfl⟩ := Option.map_eq_some_iff.mp h
      exact hS.choose hn hpc (List.mem_of_getElem? hw) hon
  | inside w => simp [WorkerPool.postStep, hpc] at h
  | refused => simp [WorkerPool.postStep, hpc] at h

/-! ### `Stop` -/

lemma StopStep.grants {pc pc' : StopPc} (h : StopStep S s pc S₁ pc') (hS : S.Inv)
    (hs : s ∈ S.stops) (hpc : s.pc = pc) :
    S₁ = S ∨ ∃ w l, S.onWorker w l = some S₁ ∧ ∀ S', S.Grants S' w l := by
  cases h with
  | draining h | next h | emptied h =>
    exact .inr ⟨_, _, h, fun _ => hS.away_of_stop hs (.inr hpc)⟩
  | lock h | wake h | unlock h | waitLock h | sleep h | waitUnlock h | drain h =>
    exact .inr ⟨_, _, h, fun _ => trivial⟩
  | _ => exact .inl rfl

/-- The queue a call of `Stop` drains is in use as long as it is at it. -/
lemma StopStep.consumer {pc pc' : StopPc} (h : StopStep S s pc S₁ pc') (hS : S.Inv)
    (hk : S.stops[k]? = some s) (hpc : s.pc = pc) (hworkers : S'.workers = S₁.workers)
    (hmutex : S'.mutex = S.mutex) (hstops : S'.stops = S.stops.set k { s with pc := pc' })
    (v : Nat) (V : Worker) (hV : S'.workers[v]? = some V) (hdone : V.queue.pop.isDone = false) :
    V.run = .popping ∨ S'.Drains v := by
  have hkept : ∀ u, (∀ rest, pc ≠ .draining (u :: rest)) → S.Drains u → S'.Drains u :=
    fun u hne hu => hu.set hk hmutex hstops (hpc ▸ hne)
  have hat : ∀ u rest, pc' = .draining (u :: rest) → S'.Drains u := by
    intro u rest hpc'
    refine .inl ⟨{ s with pc := pc' }, ?_, rest, hpc'⟩
    rw [hstops]
    exact List.mem_set (List.getElem?_eq_some_iff.mp hk).1 _
  cases h with
  | lock h | wake h | unlock h | waitLock h | sleep h | waitUnlock h =>
    exact hS.consumer_onWorker h hworkers (by simp) (by simp) (fun u => hkept u (by simp))
      v V hV hdone
  | @drain w rest S₁ h =>
    obtain ⟨W, W', hW, -, rfl⟩ := onWorker_eq h
    exact hS.consumer_one hW hworkers (fun _ => .inr (hat w rest rfl))
      (fun u _ => hkept u (by simp)) v V hV hdone
  | @draining w rest S₁ W₁ h hW₁ hpop =>
    obtain ⟨W, W', hW, -, rfl⟩ := onWorker_eq h
    exact hS.consumer_one hW hworkers (fun _ => .inr (hat w rest rfl))
      (fun u hu => hkept u (by simpa using Ne.symm hu)) v V hV hdone
  | @next w rest S₁ W₁ h hW₁ hpop =>
    obtain ⟨W, W', hW, -, rfl⟩ := onWorker_eq h
    obtain rfl : W' = W₁ := Option.some.inj ((getElem?_onWorker hW).symm.trans hW₁)
    exact hS.consumer_one hW hworkers (fun hnot => by simp [hnot] at hpop)
      (fun u hu => hkept u (by simpa using Ne.symm hu)) v V hV hdone
  | @emptied w rest S₁ W₁ h hW₁ hpop =>
    obtain ⟨W, W', hW, -, rfl⟩ := onWorker_eq h
    obtain rfl : W' = W₁ := Option.some.inj ((getElem?_onWorker hW).symm.trans hW₁)
    exact hS.consumer_one hW hworkers (fun hnot => by simp [hpop, Mpscq.PopPc.isDone] at hnot)
      (fun u hu => hkept u (by simpa using Ne.symm hu)) v V hV hdone
  | _ =>
    rw [hworkers] at hV
    exact (hS.consumer v V hV hdone).imp_right (hkept v (by simp))

lemma StopStep.onward {pc' : StopPc} (h : StopStep S s s.pc S₁ pc') (hS : S.Inv)
    (hs : s ∈ S.stops) : S.Onward { S₁ with stops := S₁.stops.set k { s with pc := pc' } } := by
  obtain rfl | ⟨w, l, hon, hgrants⟩ := h.grants hS hs rfl
  · exact ⟨.same rfl, le_rfl, .inl, .inr⟩
  · obtain ⟨W, W', hW, hstep, rfl⟩ := onWorker_eq hon
    exact ⟨.one hW hstep (hgrants _) rfl, le_rfl, .inl, .inr⟩

lemma State.Inv.control {pc' : StopPc} (hS : S.Inv) (hk : S.stops[k]? = some s)
    (h : StopStep S s s.pc S₁ pc') :
    { S₁ with stops := S₁.stops.set k { s with pc := pc' } : State }.Inv := by
  have hmem : s ∈ S.stops := List.mem_of_getElem? hk
  have hsame : S₁.current = S.current ∧ S₁.mutex = S.mutex ∧ S₁.stops = S.stops ∧
      S₁.posts = S.posts := by
    obtain rfl | ⟨w, l, hon, -⟩ := h.grants hS hmem rfl
    · exact ⟨rfl, rfl, rfl, rfl⟩
    · obtain ⟨W, W', -, -, rfl⟩ := onWorker_eq hon
      exact ⟨rfl, rfl, rfl, rfl⟩
  obtain ⟨hcurrent, hmutex, hstops, hposts⟩ := hsame
  have honward : S.Onward { S₁ with stops := S₁.stops.set k { s with pc := pc' } } :=
    h.onward hS hmem
  refine hS.of_onward honward (hS.toControl.control hS.workers hk h) ?_
    (h.consumer hS hk rfl rfl hmutex (by simp only [hstops]))
    (honward.choices hS hposts fun w hw => .inl (hcurrent ▸ hw))
  intro t ht hreturned w hcaller
  simp only [hstops] at ht
  obtain hold | rfl := List.mem_or_eq_of_mem_set ht
  · exact .inl ⟨t, hold, hreturned, hcaller⟩
  · refine .inl ⟨s, hmem, ?_, hcaller⟩
    have hpc : s.pc ≠ .early ∧ s.pc ≠ .done := by
      generalize s.pc = pc at h
      cases h <;> simp
    simp [Stop.returned, hpc]

lemma StopRegionStep.onward {pc : StopRegion} (h : StopRegionStep S k s pc S')
    (hmutex : S.mutex = some (.stop k pc)) : S.Onward S' := by
  have hfailing : ¬ ∃ made, S.mutex = some (.start (.failStopping made)) := by simp [hmutex]
  cases h with
  | advance => exact ⟨.same rfl, Nat.le_succ _, .inl, fun hf => absurd hf hfailing⟩
  | storeStopping =>
    exact ⟨.same rfl, le_rfl, fun _ => .inl rfl, fun hf => absurd hf hfailing⟩
  | refuse hon =>
    obtain ⟨W, W', -, -, rfl⟩ := onWorker_eq hon
    exact ⟨moves_of_onWorker hon rfl trivial, le_rfl, .inl,
      fun hf => absurd hf hfailing⟩
  | _ => exact ⟨.same rfl, le_rfl, .inl, fun hf => absurd hf hfailing⟩

lemma StopRegionStep.frame {pc : StopRegion} (h : StopRegionStep S k s pc S')
    (hk : S.stops[k]? = some s) : S'.posts = S.posts ∧ S'.current ⊆ S.current ∧
      ∃ s', S'.stops = S.stops.set k s' ∧ s'.caller = s.caller := by
  have hself : S.stops.set k s = S.stops := by
    obtain ⟨hlt, rfl⟩ := List.getElem?_eq_some_iff.mp hk
    exact List.set_getElem_self hlt
  cases h with
  | storeWorkers => exact ⟨rfl, List.nil_subset _, s, hself.symm, rfl⟩
  | refuse hon =>
    obtain ⟨W, W', -, -, rfl⟩ := onWorker_eq hon
    exact ⟨rfl, List.Subset.refl _, s, hself.symm, rfl⟩
  | storeStopping | advance => exact ⟨rfl, List.Subset.refl _, s, hself.symm, rfl⟩
  | _ => exact ⟨rfl, List.Subset.refl _, _, rfl, rfl⟩

lemma StopRegionStep.workers {pc : StopRegion} (h : StopRegionStep S k s pc S') :
    S'.workers = S.workers ∨ ∃ w S₁, S.onWorker w .refuse = some S₁ ∧ S'.workers = S₁.workers := by
  cases h with
  | refuse hon => exact .inr ⟨_, _, hon, rfl⟩
  | _ => exact .inl rfl

lemma State.Inv.stopRegion {pc : StopRegion} (hS : S.Inv) (hmutex : S.mutex = some (.stop k pc))
    (hk : S.stops[k]? = some s) (h : StopRegionStep S k s pc S') : S'.Inv := by
  have honward := h.onward hmutex
  obtain ⟨hposts, hcurrent, s', hstops, hcaller'⟩ := h.frame hk
  have hlocked : s.pc = .locked := (hS.region.stop hmutex hk).1
  have hdrains : ∀ v, S.Drains v → S'.Drains v := by
    rintro v (⟨t, ht, rest, hdraining⟩ | ⟨made, rest, hstart⟩)
    · obtain ⟨j, hj⟩ := List.mem_iff_getElem?.mp ht
      have hjk : k ≠ j := by
        rintro rfl
        obtain rfl : s = t := Option.some.inj (hk.symm.trans hj)
        simp [hlocked] at hdraining
      refine .inl ⟨t, ?_, rest, hdraining⟩
      rw [hstops]
      exact List.mem_of_getElem? (i := j) (by rw [List.getElem?_set_ne hjk, hj])
    · simp [hmutex] at hstart
  refine hS.of_onward honward (hS.toControl.stopRegion hS.workers hmutex hk h) ?_ ?_
    (honward.choices hS hposts fun w hw => .inl (hcurrent hw))
  · intro t ht hreturned w hcaller
    rw [hstops] at ht
    obtain hold | rfl := List.mem_or_eq_of_mem_set ht
    · exact .inl ⟨t, hold, hreturned, hcaller⟩
    · exact .inl ⟨s, List.mem_of_getElem? hk, by simp [Stop.returned, hlocked],
        hcaller'.symm.trans hcaller⟩
  · intro v V hV hdone
    obtain hw | ⟨w, S₁, hon, hw⟩ := h.workers
    · exact (hS.consumer v V (hw ▸ hV) hdone).imp_right (hdrains v)
    · exact hS.consumer_onWorker hon hw (by simp) (by simp) hdrains v V hV hdone

/-! ### `Start` -/

lemma StartStep.onward {pc : StartRegion} (h : StartStep S pc S') (hS : S.Inv)
    (hmutex : S.mutex = some (.start pc)) : S.Onward S' := by
  have hinv := hS.region.start hmutex
  have hfailing : (∀ made, pc ≠ .failStopping made) →
      ¬ ∃ made, S.mutex = some (.start (.failStopping made)) := by
    rintro hne ⟨made, hmade⟩
    exact hne made (by simpa using hmutex.symm.trans hmade)
  cases h with
  | storeStopping =>
    exact ⟨.same rfl, le_rfl, fun _ => .inr hinv.2.2, fun hf => absurd hf (hfailing (by simp))⟩
  | advance => exact ⟨.same rfl, Nat.le_succ _, .inl, fun hf => absurd hf (hfailing (by simp))⟩
  | spawn =>
    obtain ⟨⟨rfl, hpos⟩, -⟩ := hinv
    exact ⟨.spawn hpos rfl (.inl rfl), le_rfl, .inl, fun hf => absurd hf (hfailing (by simp))⟩
  | noThread =>
    obtain ⟨⟨rfl, hpos⟩, -⟩ := hinv
    exact ⟨.spawn hpos rfl (.inr ⟨rfl, _, rfl⟩), le_rfl, .inl,
      fun hf => absurd hf (hfailing (by simp))⟩
  | failStopping => exact ⟨.same rfl, le_rfl, fun _ => .inl rfl, fun _ => .inl rfl⟩
  | failAdvance => exact ⟨.same rfl, Nat.le_succ _, .inl, fun hf => absurd hf (hfailing (by simp))⟩
  | failRefuse hon | failLock hon | failWake hon | failUnlock hon | failDrain hon =>
    obtain ⟨W, W', -, -, rfl⟩ := onWorker_eq hon
    exact ⟨moves_of_onWorker hon rfl trivial, le_rfl, .inl,
      fun hf => absurd hf (hfailing (by simp))⟩
  | failDraining hon | failNext hon =>
    have haway := hS.away_of_start hmutex (.inr rfl)
    obtain ⟨W, W', -, -, rfl⟩ := onWorker_eq hon
    exact ⟨moves_of_onWorker hon rfl haway, le_rfl, .inl, fun hf => absurd hf (hfailing (by simp))⟩
  | _ => exact ⟨.same rfl, le_rfl, .inl, fun hf => absurd hf (hfailing (by simp))⟩

lemma workers_holding (S : State) (pc : StartRegion) : (S.holding pc).workers = S.workers := rfl

/-- The queue a failed `Start` drains is in use as long as it is at it. -/
lemma StartStep.consumer {pc : StartRegion} (h : StartStep S pc S') (hS : S.Inv)
    (hmutex : S.mutex = some (.start pc)) (v : Nat) (V : Worker) (hV : S'.workers[v]? = some V)
    (hdone : V.queue.pop.isDone = false) : V.run = .popping ∨ S'.Drains v := by
  have hkept : ∀ u, S'.stops = S.stops → (∀ made rest, pc ≠ .failDraining made (u :: rest)) →
      S.Drains u → S'.Drains u := by
    rintro u hstops hne (⟨t, ht, hdraining⟩ | ⟨made, rest, hstart⟩)
    · exact .inl ⟨t, hstops ▸ ht, hdraining⟩
    · exact absurd (by simpa using hmutex.symm.trans hstart) (hne made rest)
  have hstops : S'.stops = S.stops := by
    cases h with
    | failRefuse hon | failLock hon | failWake hon | failUnlock hon | failDrain hon
    | failDraining hon | failNext hon =>
      obtain ⟨W, W', -, -, rfl⟩ := onWorker_eq hon
      rfl
    | _ => rfl
  cases h with
  | failRefuse hon | failLock hon | failWake hon | failUnlock hon =>
    exact hS.consumer_onWorker hon (workers_holding _ _) (by simp) (by simp)
      (fun u => hkept u hstops (by simp)) v V hV hdone
  | failDrain hon =>
    obtain ⟨W, W', hW, -, rfl⟩ := onWorker_eq hon
    exact hS.consumer_one hW (workers_holding _ _) (fun _ => .inr (.inr ⟨_, _, rfl⟩))
      (fun u _ => hkept u hstops (by simp)) v V hV hdone
  | failDraining hon hW₁ hpop =>
    obtain ⟨W, W', hW, -, rfl⟩ := onWorker_eq hon
    exact hS.consumer_one hW (workers_holding _ _) (fun _ => .inr (.inr ⟨_, _, rfl⟩))
      (fun u hu => hkept u hstops (by simpa using Ne.symm hu)) v V hV hdone
  | @failNext w rest S₁ made rest' W₁ hon hW₁ hpop =>
    obtain ⟨W, W', hW, -, rfl⟩ := onWorker_eq hon
    obtain rfl : W' = W₁ := Option.some.inj ((getElem?_onWorker hW).symm.trans hW₁)
    exact hS.consumer_one hW (workers_holding _ _) (fun hnot => by simp [hnot] at hpop)
      (fun u hu => hkept u hstops (by simpa using Ne.symm hu)) v V hV hdone
  | spawn | noThread =>
    simp only [workers_holding, State.spawn, List.getElem?_append] at hV
    split_ifs at hV with hlt
    · exact (hS.consumer v V hV hdone).imp_right (hkept v hstops (by simp))
    · have hmem := List.mem_of_getElem? hV
      rw [List.mem_singleton] at hmem
      subst hmem
      simp [Mpscq.PopPc.isDone] at hdone
  | _ => exact (hS.consumer v V hV hdone).imp_right (hkept v hstops (by simp))

lemma State.Inv.start {pc : StartRegion} (hS : S.Inv) (hmutex : S.mutex = some (.start pc))
    (h : StartStep S pc S') : S'.Inv := by
  have honward := h.onward hS hmutex
  have hframe : S'.stops = S.stops ∧ S'.posts = S.posts := by
    cases h with
    | failRefuse hon | failLock hon | failWake hon | failUnlock hon | failDrain hon
    | failDraining hon | failNext hon =>
      obtain ⟨W, W', -, -, rfl⟩ := onWorker_eq hon
      exact ⟨rfl, rfl⟩
    | _ => exact ⟨rfl, rfl⟩
  have hcurrent : ∀ w ∈ S'.current, w ∈ S.current ∨ S'.gens[w]? = some S.generation := by
    intro w hw
    have hinv := hS.region.start hmutex
    cases h with
    | failRefuse hon | failLock hon | failWake hon | failUnlock hon | failDrain hon
    | failDraining hon | failNext hon =>
      obtain ⟨W, W', -, -, rfl⟩ := onWorker_eq hon
      exact .inl hw
    | publish => exact .inr ((hinv.2.2.1 w).mp hw)
    | failPublish => simp at hw
    | _ => exact .inl hw
  refine hS.of_onward honward (hS.toControl.start hS.workers hmutex h) ?_ (h.consumer hS hmutex)
    (honward.choices hS hframe.2 hcurrent)
  intro t ht hreturned w hcaller
  exact .inl ⟨t, hframe.1 ▸ ht, hreturned, hcaller⟩

/-! ### Steps and runs -/

/-- A call of `Stop` or `Start` gets `mtx_`. -/
lemma State.Inv.lock {stops : List Stop} {holder : Holder} (hS : S.Inv) (hmutex : S.mutex = none)
    (hstops : S.stops ⊆ stops)
    (hnew : ∀ s ∈ stops, s ∈ S.stops ∨ s.pc = .locked ∧ s.list = [] ∧
      ∀ w, s.caller = some w → S.Has w Worker.InTask)
    (hregion : { S with mutex := some holder, stops := stops : State }.RegionInv) :
    { S with mutex := some holder, stops := stops : State }.Inv := by
  have honward : S.Onward { S with mutex := some holder, stops := stops } :=
    ⟨.same rfl, le_rfl, .inl, fun hf => by simp [hmutex] at hf⟩
  refine hS.of_onward honward ?_ (fun s hs hreturned w hcaller => ?_) (fun v V hV hdone => ?_)
    (honward.choices hS rfl fun w hw => .inl hw)
  · refine hS.toControl.change rfl le_rfl hregion (fun s hs => ?_) fun w hw => .inl ?_
    · obtain hold | ⟨hlocked, -, -⟩ := hnew s hs
      · exact .inl hold
      · refine .inr ⟨.inl hlocked, ?_⟩
        rw [hlocked]
        trivial
    · obtain hcurrent | ⟨t, ht, hlist⟩ | hmade := hw
      · exact .inl hcurrent
      · exact .inr (.inl ⟨t, hstops ht, hlist⟩)
      · simp [State.made, hmutex] at hmade
  · obtain hold | ⟨-, -, htask⟩ := hnew s hs
    · exact .inl ⟨s, hold, hreturned, hcaller⟩
    · exact .inr (htask w hcaller)
  · refine (hS.consumer v V hV hdone).imp_right fun hdrains => ?_
    obtain ⟨t, ht, hdraining⟩ | ⟨made, rest, hstart⟩ := hdrains
    · exact .inl ⟨t, hstops ht, hdraining⟩
    · simp [hmutex] at hstart

lemma State.Inv.free (hS : S.Inv) (hmutex : S.mutex = none) : S.Settled := by
  have hregion := hS.region
  unfold State.RegionInv at hregion
  rwa [hmutex] at hregion

lemma onward_of_step {l : Label} (hS : S.Inv) (h : S.step l = some S') : S.Onward S' := by
  cases l with
  | post index =>
    obtain rfl := by simpa [State.step] using h
    exact ⟨.same rfl, le_rfl, .inl, .inr⟩
  | choose n =>
    obtain ⟨p, hp, hpost⟩ := Option.bind_eq_some_iff.mp h
    unfold WorkerPool.postStep at hpost
    split at hpost
    · obtain rfl := by simpa using hpost
      exact ⟨.same rfl, le_rfl, .inl, .inr⟩
    · split at hpost
      · obtain rfl := by simpa using hpost
        exact ⟨.same rfl, le_rfl, .inl, .inr⟩
      · obtain ⟨S₁, hon, rfl⟩ := Option.map_eq_some_iff.mp hpost
        exact onward_choose hp hon
    · simp at hpost
  | call w i => exact onward_onWorker h trivial
  | run w => exact onward_onWorker h ⟨rfl, rfl⟩
  | finish w =>
    simp only [State.step] at h
    split_ifs at h with hstopping
    exact onward_onWorker h (by simpa [State.Grants] using hstopping)
  | stop caller =>
    simp only [State.step] at h
    split_ifs at h with hguard
    obtain rfl := by simpa using h
    exact ⟨.same rfl, le_rfl, .inl, fun hf => by simp [hguard.1] at hf⟩
  | start threads =>
    simp only [State.step] at h
    by_cases hmutex : S.mutex = none
    · rw [if_pos hmutex] at h
      obtain rfl := Option.some.inj h
      exact ⟨.same rfl, le_rfl, .inl, fun hf => by simp [hmutex] at hf⟩
    · simp [hmutex] at h
  | region outcome =>
    simp only [State.step] at h
    split at h
    · next k pc hmutex =>
      obtain ⟨s, hk, hact⟩ := Option.bind_eq_some_iff.mp h
      exact (stopRegionAct_step hact).onward hmutex
    · next pc hmutex => exact (startAct_step h).onward hS hmutex
    · simp at h
  | control k =>
    obtain ⟨s, hk, hmap⟩ := Option.bind_eq_some_iff.mp h
    obtain ⟨⟨S₁, pc'⟩, hact, rfl⟩ := Option.map_eq_some_iff.mp hmap
    exact (stopAct_step hact).onward hS (List.mem_of_getElem? hk)

theorem State.Inv.step {l : Label} (hS : S.Inv) (h : S.step l = some S') : S'.Inv := by
  cases l with
  | post index =>
    obtain rfl := by simpa [State.step] using h
    refine hS.posts (fun p hp => ?_) (fun n p w hp hpc => ?_) fun n p w hp hpc => ?_
    · obtain hp | rfl := by simpa using hp
      · exact .inl hp
      · exact .inr ⟨Nat.zero_le _, by simp⟩
    · rw [List.getElem?_append] at hp
      split_ifs at hp
      · exact hp
      · have hmem := List.mem_of_getElem? hp
        rw [List.mem_singleton] at hmem
        simp [hmem] at hpc
    · rw [List.getElem?_append_left (List.getElem?_eq_some_iff.mp hp).1, hp]
  | choose n =>
    obtain ⟨p, hp, hpost⟩ := Option.bind_eq_some_iff.mp h
    exact hS.postStep hp hpost
  | call w i => exact hS.onWorker h trivial (by simp) (by simp) (by simp)
  | run w => exact hS.onWorker h ⟨rfl, rfl⟩ (by simp) (by simp) (by simp)
  | finish w =>
    simp only [State.step] at h
    split_ifs at h with hstopping
    exact hS.onWorker h (by simpa [State.Grants] using hstopping) (by simp) (by simp) (by simp)
  | stop caller =>
    simp only [State.step] at h
    split_ifs at h with hguard
    obtain rfl := by simpa using h
    obtain ⟨hmutex, hcaller⟩ := hguard
    refine hS.lock hmutex (List.subset_append_left _ _) (fun s hs => ?_) ?_
    · obtain hs | rfl := by simpa using hs
      · exact .inl hs
      · refine .inr ⟨rfl, rfl, fun w hw => ?_⟩
        obtain rfl : caller = some w := hw
        have hrunning : S.isRunning w = true := by
          simp only [Option.all_some, Bool.and_eq_true] at hcaller
          exact hcaller.1
        obtain ⟨W, hW, hrun⟩ := (Option.any_eq_true _ _).mp hrunning
        refine ⟨W, hW, ?_⟩
        split at hrun
        · next n hn => exact ⟨n, hn⟩
        · simp at hrun
    · exact ⟨{ caller := caller }, by simp, rfl, rfl, hS.free hmutex⟩
  | start threads =>
    simp only [State.step] at h
    by_cases hmutex : S.mutex = none
    · rw [if_pos hmutex] at h
      obtain rfl := Option.some.inj h
      exact hS.lock hmutex (List.Subset.refl _) (fun s hs => .inl hs) (hS.free hmutex)
    · simp [hmutex] at h
  | region outcome =>
    simp only [State.step] at h
    split at h
    · next k pc hmutex =>
      obtain ⟨s, hk, hact⟩ := Option.bind_eq_some_iff.mp h
      exact hS.stopRegion hmutex hk (stopRegionAct_step hact)
    · next pc hmutex => exact hS.start hmutex (startAct_step h)
    · simp at h
  | control k =>
    obtain ⟨s, hk, hmap⟩ := Option.bind_eq_some_iff.mp h
    obtain ⟨⟨S₁, pc'⟩, hact, rfl⟩ := Option.map_eq_some_iff.mp hmap
    exact hS.control hk (stopAct_step hact)

open Run in
theorem inv_of_exec {ls : List Label} (h : exec State.step {} ls = some S) : S.Inv :=
  exec_invariant (fun _ _ => True) (fun _ _ _ hS _ hstep => hS.step hstep) h
    (meets_of_forall (fun _ _ => trivial) _ _) inv_init

end Connx.WorkerPool
