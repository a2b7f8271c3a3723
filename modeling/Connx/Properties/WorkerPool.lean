import Connx.Net.WorkerPool.Runs

/-!
# The pool conserves tasks

A task that was accepted is run once or discarded once, a task that was refused is never run, and a
call of `Stop` from outside leaves nothing behind, except when it finds `stopping_` set by a call
that is not done or whose worker is not.
-/

namespace Connx.WorkerPool

open Run Pool

variable {S S' : State} {W : Worker} {w n : Nat} {s : Stop} {fate : Fate}

/-! ### What is promised -/

/-- What the call of `Post` returned, if it has. -/
def State.result (S : State) (n : Nat) : Option Bool :=
  S.posts[n]?.bind fun p =>
    match p.pc with
    | .refused => some false
    | .inside w => S.workers[w]?.bind fun W => (W.calls.find? (·.task = n)).bind fun c =>
        match c.pc with
        | .done accepted => some accepted
        | _ => none
    | _ => none

/-- What became of the task on any of the workers. -/
def State.fatesOf (S : State) (n : Nat) : List Fate :=
  S.workers.flatMap fun W => (W.fates.filter (·.1 = n)).map Prod.snd

/-- The task is in the queue, or the thread has taken it and is about to look whether to run it. -/
def Worker.Keeps (W : Worker) (n : Nat) : Prop :=
  n ∈ W.run.held ∨ n ∈ W.queue.exchanged ∧ .node n ∉ W.queue.returned

/-- Nothing is going on that could change the fate of a task of the worker. -/
def State.AtRest (S : State) (W : Worker) : Prop :=
  (S.mutex = none ∧ ∀ s ∈ S.stops, s.returned = true) ∧
    (∀ c ∈ W.calls, ∃ accepted, c.pc = .done accepted) ∧
    (W.Ended ∨ W.run = .waiting ∧ W.wakePending = false)

/-- The thread has ended, and every task that was let in has its fate. -/
def Worker.Over (W : Worker) : Prop :=
  W.Finished ∧ ∀ c ∈ W.calls, c.pc.letIn = true → ∃ fate, (c.task, fate) ∈ W.fates

/-- What holds of the tasks however the calls overlap. -/
structure ConservesTasks (S : State) : Prop where
  once : ∀ n, (S.fatesOf n).length ≤ 1
  accepted : ∀ n, S.result n = some true →
    (∃ fate, S.fatesOf n = [fate]) ∨ ∃ W ∈ S.workers, W.Keeps n
  settled : ∀ W ∈ S.workers, S.AtRest W → ∀ n, ¬ W.Keeps n
  refused : ∀ n, S.result n = some false → S.fatesOf n = []
  order : ∀ W ∈ S.workers, W.fates.map Prod.fst <+: W.queue.exchanged
  generation : ∀ W ∈ S.workers, ∀ n fate, (n, fate) ∈ W.fates →
    ∃ p, S.posts[n]? = some p ∧ p.began ≤ W.generation
  exclusive : ∀ w, S.Drains w → S.Has w Worker.Away

/-- A call of `Stop` from outside leaves nothing behind, too. -/
structure Conserves (S : State) : Prop extends ConservesTasks S where
  stopped : ∀ s ∈ S.stops, s.caller = none → s.returned = true →
    ∀ W ∈ S.workers, W.generation = s.stopped → W.Over

/-! ### Fates -/

lemma filter_of_nodup {fates : List (Nat × Fate)} (hnodup : (fates.map Prod.fst).Nodup)
    (h : (n, fate) ∈ fates) : fates.filter (·.1 = n) = [(n, fate)] := by
  induction fates with
  | nil => simp at h
  | cons x fates ih =>
    obtain ⟨hx, hnodup⟩ := List.nodup_cons.mp hnodup
    obtain rfl | h := List.mem_cons.mp h
    · have hnil : fates.filter (·.1 = n) = [] := by
        rw [List.filter_eq_nil_iff]
        intro y hy heq
        exact hx (List.mem_map.mpr ⟨y, hy, by simpa using heq⟩)
      rw [List.filter_cons_of_pos (by simp), hnil]
    · have hne : x.1 ≠ n := fun heq => hx (List.mem_map.mpr ⟨_, h, heq.symm⟩)
      rw [List.filter_cons_of_neg (by simpa using hne), ih hnodup h]

lemma Worker.not_keeps_of_empty (hempty : W.queue.Empty) (hheld : W.run.held = []) (n : Nat) :
    ¬ W.Keeps n := by
  rintro (hkept | ⟨hexchanged, hret⟩)
  · simp [hheld] at hkept
  · refine hret ?_
    rw [← show W.queue.exchanged.map .node = W.queue.returned from hempty]
    exact List.mem_map_of_mem hexchanged

namespace State.Inv

variable (hS : S.Inv)
include hS

/-- A task has its fate on the worker its call chose. -/
lemma chosen_of_exchanged (hW : S.workers[w]? = some W) (hn : n ∈ W.queue.exchanged) :
    ∃ p, S.posts[n]? = some p ∧ p.pc = .inside w := by
  have hinv := hS.workers W (List.mem_of_getElem? hW)
  obtain ⟨pc, hpc, -⟩ := (hinv.exchanged_iff n).mp hn
  exact hS.choices.calls w W hW n (hinv.posted n (by simp [hpc]))

lemma chosen_of_fate (hW : S.workers[w]? = some W) (hn : (n, fate) ∈ W.fates) :
    ∃ p, S.posts[n]? = some p ∧ p.pc = .inside w := by
  have hinv := hS.workers W (List.mem_of_getElem? hW)
  refine hS.chosen_of_exchanged hW (hinv.prefix_fates.subset (List.mem_append_left _ ?_))
  exact List.mem_map.mpr ⟨_, hn, rfl⟩

lemma fatesOf_eq {p : Post} (hp : S.posts[n]? = some p) (hpc : p.pc = .inside w)
    (hW : S.workers[w]? = some W) :
    S.fatesOf n = (W.fates.filter (·.1 = n)).map Prod.snd := by
  refine flatMap_of_unique hW fun v V hV hne => ?_
  rw [List.map_eq_nil_iff, List.filter_eq_nil_iff]
  rintro ⟨m, fate⟩ hm heq
  obtain rfl : m = n := by simpa using heq
  obtain ⟨q, hq, hqpc⟩ := hS.chosen_of_fate hV hm
  obtain rfl : p = q := Option.some.inj (hp.symm.trans hq)
  exact hne (by simpa using hqpc.symm.trans hpc)

omit hS in
lemma fatesOf_eq_nil (h : ∀ (v : Nat) (V : Worker), S.workers[v]? = some V →
    ∀ fate, (n, fate) ∉ V.fates) : S.fatesOf n = [] := by
  unfold State.fatesOf
  rw [List.flatMap_eq_nil_iff]
  intro V hV
  obtain ⟨v, hv⟩ := List.mem_iff_getElem?.mp hV
  rw [List.map_eq_nil_iff, List.filter_eq_nil_iff]
  rintro ⟨m, fate⟩ hm heq
  obtain rfl : m = n := by simpa using heq
  exact h v V hv fate hm

lemma fatesOf_of_mem (hW : S.workers[w]? = some W) (hn : (n, fate) ∈ W.fates) :
    S.fatesOf n = [fate] := by
  obtain ⟨p, hp, hpc⟩ := hS.chosen_of_fate hW hn
  have hnodup := (List.nodup_append.mp (hS.workers W (List.mem_of_getElem? hW)).nodup_fates).1
  rw [hS.fatesOf_eq hp hpc hW, filter_of_nodup hnodup hn]
  rfl

lemma fatesOf_length (n : Nat) : (S.fatesOf n).length ≤ 1 := by
  by_cases h : ∃ (v : Nat) (V : Worker) (fate : Fate), S.workers[v]? = some V ∧ (n, fate) ∈ V.fates
  · obtain ⟨v, V, fate, hV, hn⟩ := h
    simp [hS.fatesOf_of_mem hV hn]
  · push Not at h
    simp [fatesOf_eq_nil fun v V hV fate => h v V fate hV]

omit hS in
/-- The call of `PostToWorker` that has returned. -/
lemma call_of_result {accepted : Bool} (h : S.result n = some accepted) :
    (∃ p, S.posts[n]? = some p ∧ p.pc = .refused ∧ accepted = false) ∨
      ∃ p w W c, S.posts[n]? = some p ∧ p.pc = .inside w ∧ S.workers[w]? = some W ∧
        c ∈ W.calls ∧ c.task = n ∧ c.pc = .done accepted := by
  obtain ⟨p, hp, hpc⟩ := Option.bind_eq_some_iff.mp h
  split at hpc
  · next hrefused => exact .inl ⟨p, hp, hrefused, by simpa using hpc.symm⟩
  · next w hinside =>
    obtain ⟨W, hW, hfind⟩ := Option.bind_eq_some_iff.mp hpc
    obtain ⟨c, hc, hdone⟩ := Option.bind_eq_some_iff.mp hfind
    refine .inr ⟨p, w, W, c, hp, hinside, hW, List.mem_of_find?_eq_some hc, ?_, ?_⟩
    · simpa using List.find?_some hc
    · split at hdone
      · next hpc => rw [hpc, Option.some.inj hdone]
      · simp at hdone
  · simp at hpc

lemma accepted (h : S.result n = some true) :
    (∃ fate, S.fatesOf n = [fate]) ∨ ∃ W ∈ S.workers, W.Keeps n := by
  obtain ⟨_, _, _, hfalse⟩ | ⟨p, w, W, c, hp, hinside, hW, hc, rfl, hpc⟩ := call_of_result h
  · simp at hfalse
  · have hmem := List.mem_of_getElem? hW
    have hinv := hS.workers W hmem
    have hexchanged := hinv.exchanged_of_letIn hc (by rw [hpc]; rfl) (by simp [hpc])
    by_cases hret : .node c.task ∈ W.queue.returned
    · rw [hinv.fates] at hret
      have hret' : c.task ∈ W.fates.map Prod.fst ++ W.run.held := by simpa using hret
      obtain hfate | hheld := List.mem_append.mp hret'
      · obtain ⟨⟨m, fate⟩, hfate, hm⟩ := List.mem_map.mp hfate
        obtain rfl : m = c.task := hm
        exact .inl ⟨fate, hS.fatesOf_of_mem hW hfate⟩
      · exact .inr ⟨W, hmem, .inl hheld⟩
    · exact .inr ⟨W, hmem, .inr ⟨hexchanged, hret⟩⟩

lemma refused (h : S.result n = some false) : S.fatesOf n = [] := by
  refine fatesOf_eq_nil fun v V hV fate hn => ?_
  obtain ⟨q, hq, hqpc⟩ := hS.chosen_of_fate hV hn
  obtain ⟨p, hp, hpc, -⟩ | ⟨p, w, W, c, hp, hinside, hW, hc, rfl, hpc⟩ := call_of_result h
  · obtain rfl : p = q := Option.some.inj (hp.symm.trans hq)
    simp [hpc] at hqpc
  · obtain rfl : p = q := Option.some.inj (hp.symm.trans hq)
    obtain rfl : v = w := by simpa using hqpc.symm.trans hinside
    obtain rfl : V = W := Option.some.inj (hV.symm.trans hW)
    have hinv := hS.workers V (List.mem_of_getElem? hV)
    have hletIn := hinv.letIn_of_exchanged hc
      (hinv.prefix_fates.subset (List.mem_append_left _ (List.mem_map.mpr ⟨_, hn, rfl⟩)))
    simp [hpc, PostPc.letIn] at hletIn

/-! ### Workers that are done with -/

/-- A call of `Stop` that went through its loops has emptied the queues of its list. -/
lemma drained_of_done (hs : s ∈ S.stops) (hpc : s.pc = .done) (hw : w ∈ s.list) :
    S.Has w Worker.Drained ∧ S.Joined s w := by
  have hstages := (hS.stops s hs).2
  rw [hpc] at hstages
  exact ⟨hstages.1 w hw, hstages.2 w hw⟩

lemma list_of_early (hs : s ∈ S.stops) (hpc : s.pc = .early) : s.list = [] := by
  have hstages := (hS.stops s hs).2
  rwa [hpc] at hstages

/-- A worker of an old generation, when the calls of `Stop` have returned and no other call is
inside the critical section. -/
lemma drained_of_older (hw : w < S.workers.length) (hcurrent : w ∉ S.current) (hmade : S.made = [])
    (hstops : ∀ s ∈ S.stops, w ∈ s.list → s.returned = true) :
    S.Has w Worker.Finished ∨
      ∃ s ∈ S.stops, w ∈ s.list ∧ S.Has w Worker.Drained ∧ S.Joined s w := by
  obtain (hlist | ⟨s, hs, hlist⟩ | hlist) | hfin := hS.listed w hw
  · exact absurd hlist hcurrent
  · have hreturned : s.pc = .early ∨ s.pc = .done := by
      simpa [Stop.returned] using hstops s hs hlist
    obtain hearly | hdone := hreturned
    · simp [hS.list_of_early hs hearly] at hlist
    · exact .inr ⟨s, hs, hlist, hS.drained_of_done hs hdone hlist⟩
  · simp [hmade] at hlist
  · exact .inl hfin

/-- At rest no task is left over. -/
lemma settled (hW : W ∈ S.workers) (hrest : S.AtRest W) (n : Nat) : ¬ W.Keeps n := by
  obtain ⟨⟨hmutex, hstops⟩, hcalls, hended | ⟨hwaiting, hwake⟩⟩ := hrest
  · have hheld : W.run.held = [] := by
      rw [show W.run = .returned from hended]
      rfl
    refine Worker.not_keeps_of_empty ?_ hheld n
    obtain ⟨w, hw⟩ := List.mem_iff_getElem?.mp hW
    have hold : W.generation < S.generation := by
      obtain hlt | hstopping | ⟨made, hmade⟩ := hS.ended W hW hended
      · exact hlt
      · obtain ⟨hnot, -⟩ | ⟨-, -, holder⟩ := hS.free hmutex
        · simp [hnot] at hstopping
        · exact holder w _ (State.mem_gens hw)
      · simp [hmutex] at hmade
    have hcurrent : w ∉ S.current := by
      intro hmem
      obtain ⟨-, hmembers⟩ | ⟨-, hnil, -⟩ := hS.free hmutex
      · have hgen := (hmembers w).mp hmem
        rw [State.mem_gens hw, Option.some.injEq] at hgen
        omega
      · simp [hnil] at hmem
    obtain hfin | ⟨s, -, -, hdrained, -⟩ := hS.drained_of_older
      (List.getElem?_eq_some_iff.mp hw).1 hcurrent (by simp [State.made, hmutex])
      fun s hs _ => hstops s hs
    · exact (hfin.get hw).2.2
    · exact (hdrained.get hw).2
  · have hheld : W.run.held = [] := by
      rw [hwaiting]
      rfl
    refine Worker.not_keeps_of_empty ?_ hheld n
    obtain hempty | hpending | ⟨c, hc, hsignals⟩ := (hS.workers W hW).awake (by rw [hwaiting]; rfl)
    · exact hempty
    · simp [hwake] at hpending
    · obtain ⟨accepted, hpc⟩ := hcalls c hc
      rcases hsignals with ⟨hpush, -⟩ | hlock | hwake
      · simp [hpc] at hpush
      · simp [hpc] at hlock
      · simp [hpc] at hwake

lemma over_of_finished (hW : W ∈ S.workers) (hfin : W.Finished) : W.Over := by
  refine ⟨hfin, fun c hc hletIn => ?_⟩
  have hinv := hS.workers W hW
  have hinside := hfin.2.1.2 c hc
  have hpc : c.pc ≠ .push := by
    intro hpc
    simp [hpc, PostPc.inside] at hinside
  have hmem := hinv.exchanged_of_letIn hc hletIn hpc
  have hheld : W.run.held = [] := by
    rw [show W.run = .returned from hfin.1]
    rfl
  rw [← hinv.fates_of_empty hfin.2.2 hheld] at hmem
  obtain ⟨⟨m, fate⟩, hfate, rfl⟩ := List.mem_map.mp hmem
  exact ⟨fate, hfate⟩

/-- A call of `Stop` from outside that went through its loops leaves nothing behind. -/
lemma over_of_done (hs : s ∈ S.stops) (hcaller : s.caller = none) (hpc : s.pc = .done)
    (hW : W ∈ S.workers) (hgeneration : W.generation = s.stopped) : W.Finished := by
  obtain ⟨w, hw⟩ := List.mem_iff_getElem?.mp hW
  have hlists : S.Lists s := by simpa [hpc] using (hS.stops s hs).1
  have hlist : w ∈ s.list := (hlists.2 w).mpr (hgeneration ▸ State.mem_gens hw)
  obtain ⟨hdrained, hjoined⟩ := hS.drained_of_done hs hpc hlist
  have hended : S.Has w Worker.Ended := hjoined.resolve_right (by simp [hcaller])
  exact ⟨hended.get hw, hdrained.get hw⟩

end State.Inv

/-! ### Calls of `Stop` that find the pool stopped -/

/-- A call of `Stop` from outside finds `stopping_` set only when every other call of `Stop` has
returned and every thread that one of them detached has ended. -/
def State.stopsAlone (S : State) : Label → Bool
  | .region _ =>
    match S.mutex with
    | some (.stop k .loadStopping) =>
      !S.stopping || S.stops[k]?.any (·.caller.isSome) || (S.stops.eraseIdx k).all fun t =>
        t.returned && t.list.all fun w => t.caller != some w || S.hasReturned w
    | _ => true
  | _ => true

/-- The calls that returned early left nothing behind. -/
def State.EarlyOver (S : State) : Prop :=
  ∀ s ∈ S.stops, s.pc = .early → s.stopped < max 1 S.generation ∧
    (s.caller = none → ∀ W ∈ S.workers, W.generation = s.stopped → W.Finished)

/-- A call of `Stop` returns early when it looks at `stopping_`. -/
lemma early_of_step {l : Label} (hS : S.Inv) (h : S.step l = some S') (hs : s ∈ S'.stops)
    (hpc : s.pc = .early) :
    s ∈ S.stops ∨ ∃ outcome k t, l = .region outcome ∧ S.mutex = some (.stop k .loadStopping) ∧
      S.stops[k]? = some t ∧ S.stopping = true ∧ S'.workers = S.workers ∧
      S'.generation = S.generation ∧ s = { t with stopped := S.generation - 1, pc := .early } := by
  have honWorker : ∀ {w l}, S.onWorker w l = some S' → s ∈ S.stops := by
    intro w l hon
    obtain ⟨W, W', -, -, rfl⟩ := onWorker_eq hon
    exact hs
  cases l with
  | post index =>
    obtain rfl := by simpa [State.step] using h
    exact .inl hs
  | choose n =>
    obtain ⟨p, -, hpost⟩ := Option.bind_eq_some_iff.mp h
    unfold WorkerPool.postStep at hpost
    split at hpost
    · obtain rfl := by simpa using hpost
      exact .inl hs
    · split at hpost
      · obtain rfl := by simpa using hpost
        exact .inl hs
      · obtain ⟨S₁, hon, rfl⟩ := Option.map_eq_some_iff.mp hpost
        obtain ⟨W, W', -, -, rfl⟩ := onWorker_eq hon
        exact .inl hs
    · simp at hpost
  | call w i => exact .inl (honWorker h)
  | run w => exact .inl (honWorker h)
  | finish w =>
    simp only [State.step] at h
    split_ifs at h
    exact .inl (honWorker h)
  | stop caller =>
    simp only [State.step] at h
    split_ifs at h
    obtain rfl := by simpa using h
    obtain hs | rfl := by simpa using hs
    · exact .inl hs
    · simp at hpc
  | start threads =>
    simp only [State.step] at h
    split_ifs at h
    all_goals
      obtain rfl := by simpa using h
      exact .inl hs
  | region outcome =>
    simp only [State.step] at h
    split at h
    · next k pc hmutex =>
      obtain ⟨t, hk, hact⟩ := Option.bind_eq_some_iff.mp h
      cases stopRegionAct_step hact with
      | early hstopping =>
        obtain hs | rfl := List.mem_or_eq_of_mem_set hs
        · exact .inl hs
        · exact .inr ⟨outcome, k, t, rfl, hmutex, hk, hstopping, rfl, rfl, rfl⟩
      | loadStopping | loadWorkers =>
        obtain hs | rfl := List.mem_or_eq_of_mem_set hs
        · exact .inl hs
        · simp [(hS.region.stop hmutex hk).1] at hpc
      | refused =>
        obtain hs | rfl := List.mem_or_eq_of_mem_set hs
        · exact .inl hs
        · simp at hpc
      | refuse hon =>
        obtain ⟨W, W', -, -, rfl⟩ := onWorker_eq hon
        exact .inl hs
      | _ => exact .inl hs
    · cases startAct_step h with
      | failRefuse hon | failLock hon | failWake hon | failUnlock hon | failDrain hon
      | failDraining hon | failNext hon =>
        obtain ⟨W, W', -, -, rfl⟩ := onWorker_eq hon
        exact .inl hs
      | _ => exact .inl hs
    · simp at h
  | control k =>
    obtain ⟨t, hk, hmap⟩ := Option.bind_eq_some_iff.mp h
    obtain ⟨⟨S₁, pc'⟩, hact, rfl⟩ := Option.map_eq_some_iff.mp hmap
    have hstep := stopAct_step hact
    have hstops : S₁.stops = S.stops := by
      obtain rfl | ⟨w, l, hon, -⟩ := hstep.eq_or_onWorker
      · rfl
      · obtain ⟨W, W', -, -, rfl⟩ := onWorker_eq hon
        rfl
    simp only [hstops] at hs
    obtain hs | rfl := List.mem_or_eq_of_mem_set hs
    · exact .inl hs
    · exact absurd hpc hstep.pc.2.2.2

/-- The generation that a call of `Stop` finds stopped is over, when it is alone. -/
lemma finished_of_alone {k : Nat} {t : Stop} (hS : S.Inv)
    (hmutex : S.mutex = some (.stop k .loadStopping)) (hk : S.stops[k]? = some t)
    (hstopping : S.stopping = true)
    (halone : ∀ t ∈ S.stops.eraseIdx k, t.returned = true ∧
      ∀ w ∈ t.list, t.caller = some w → S.Has w Worker.Ended)
    (hW : W ∈ S.workers) : W.Finished := by
  obtain ⟨-, hlist, hsettled⟩ := hS.region.stop hmutex hk
  obtain ⟨hnot, -⟩ | ⟨-, hcurrent, -⟩ := hsettled
  · simp [hnot] at hstopping
  obtain ⟨w, hw⟩ := List.mem_iff_getElem?.mp hW
  have hother : ∀ s ∈ S.stops, w ∈ s.list → s ∈ S.stops.eraseIdx k := by
    intro s hs hmem
    obtain ⟨j, hj⟩ := List.mem_iff_getElem?.mp hs
    refine List.mem_eraseIdx_iff_getElem?.mpr ⟨j, ?_, hj⟩
    rintro rfl
    obtain rfl : s = t := Option.some.inj (hj.symm.trans hk)
    simp [hlist] at hmem
  obtain hfin | ⟨s, hs, hmem, hdrained, hjoined⟩ := hS.drained_of_older
    (List.getElem?_eq_some_iff.mp hw).1 (by simp [hcurrent]) (State.made_of_stop hmutex)
    fun s hs hmem => (halone s (hother s hs hmem)).1
  · exact hfin.get hw
  · have hended : S.Has w Worker.Ended :=
      hjoined.elim id ((halone s (hother s hs hmem)).2 w hmem)
    exact ⟨hended.get hw, hdrained.get hw⟩

lemma State.EarlyOver.step {l : Label} (hE : S.EarlyOver) (hS : S.Inv)
    (hok : S.stopsAlone l = true) (h : S.step l = some S') : S'.EarlyOver := by
  have honward := onward_of_step hS h
  intro s hs hpc
  obtain hold | ⟨outcome, k, t, rfl, hmutex, hk, hstopping, hworkers, hgeneration, rfl⟩ :=
    early_of_step hS h hs hpc
  · obtain ⟨hlt, hfin⟩ := hE s hold hpc
    refine ⟨hlt.trans_le (max_le_max le_rfl honward.generation), fun hcaller V hV hgen => ?_⟩
    obtain ⟨v, hv⟩ := List.mem_iff_getElem?.mp hV
    obtain ⟨V₀, hV₀, hlater⟩ | ⟨hnew, hpos⟩ := honward.worker hS hv
    · exact hlater.finished (hfin hcaller V₀ (List.mem_of_getElem? hV₀)
        (hlater.generation.symm.trans hgen))
    · omega
  · refine ⟨?_, fun hcaller V hV _ => ?_⟩
    · show S.generation - 1 < max 1 S'.generation
      omega
    · refine finished_of_alone hS hmutex hk hstopping ?_ (hworkers ▸ hV)
      have hcaller' : t.caller = none := hcaller
      simp only [State.stopsAlone, hmutex, hstopping, hk, Option.any_some, hcaller', Bool.not_true,
        Option.isSome_none, Bool.or_self, Bool.false_or, List.all_eq_true, Bool.and_eq_true] at hok
      intro u hu
      obtain ⟨hreturned, hlist⟩ := hok u hu
      refine ⟨hreturned, fun w hw hcall => has_ended_of_returned ?_⟩
      simpa [hcall] using hlist w hw

lemma State.Inv.conservesTasks (hS : S.Inv) : ConservesTasks S := by
  constructor
  · exact hS.fatesOf_length
  · exact fun n hn => hS.accepted hn
  · exact fun W hW hrest n => hS.settled hW hrest n
  · exact fun n hn => hS.refused hn
  · intro W hW
    exact (List.prefix_append _ _).trans (hS.workers W hW).prefix_fates
  · intro W hW n fate hn
    obtain ⟨w, hw⟩ := List.mem_iff_getElem?.mp hW
    obtain ⟨p, hp, hpc⟩ := hS.chosen_of_fate hw hn
    exact ⟨p, hp, ((hS.choices.chosen n p w hp hpc).get hw).1⟩
  · exact fun w hw => hS.away_of_drains hw

/-- In every run a task that was accepted is run once or discarded once, or it is still in the
queue, where it does not stay; one that was refused is not run; on each worker tasks are run in the
order of their pushes; and no worker runs a task posted to a newer generation. If a call of `Stop`
from outside finds `stopping_` set only when it is alone, then moreover the workers of the
generation it stopped are over when it has returned. -/
theorem conserves_of_exec {ls : List Label} (h : exec State.step {} ls = some S) :
    ConservesTasks S ∧
      (Meets State.step (fun S l => S.stopsAlone l = true) {} ls → Conserves S) := by
  have hS : S.Inv := inv_of_exec h
  refine ⟨hS.conservesTasks, fun hok => ⟨hS.conservesTasks, ?_⟩⟩
  have hE : S.EarlyOver :=
    (exec_invariant (I := fun S => S.Inv ∧ S.EarlyOver) _
      (fun S l S' hS hok hstep => ⟨hS.1.step hstep, hS.2.step hS.1 hok hstep⟩) h hok
      ⟨inv_init, by simp [State.EarlyOver]⟩).2
  intro s hs hcaller hreturned W hW hgeneration
  refine hS.over_of_finished hW ?_
  have hpc : s.pc = .early ∨ s.pc = .done := by simpa [Stop.returned] using hreturned
  obtain hearly | hdone := hpc
  · exact (hE s hs hearly).2 hcaller W hW hgeneration
  · exact hS.over_of_done hs hcaller hdone hW hgeneration

/-- `Start`, a task that is accepted and discarded by a call of `Stop` from outside, and a second
call that finds the pool stopped. -/
def stopTwice : List Label :=
  Label.start 1 :: List.replicate 6 (Label.region .ok) ++
    Label.post 0 :: List.replicate 2 (Label.choose 0) ++ List.replicate 10 (Label.call 0 0) ++
    Label.stop none :: List.replicate 7 (Label.region .ok) ++ List.replicate 4 (Label.run 0) ++
    List.replicate 21 (Label.control 0) ++ [Label.stop none, Label.region .ok]

theorem conserves_stopTwice : ∃ S, exec State.step {} stopTwice = some S ∧
    S.fatesOf 0 = [.discarded] ∧ S.stops.map Stop.pc = [.done, .early] ∧ Conserves S := by
  have hrun : (exec State.step {} stopTwice).map (fun S => (S.fatesOf 0, S.stops.map Stop.pc)) =
      some ([.discarded], [.done, .early]) := by decide +kernel
  obtain ⟨S, hS, heq⟩ := Option.map_eq_some_iff.mp hrun
  obtain ⟨hfates, hstops⟩ := by simpa using heq
  have hok : check State.step State.stopsAlone {} stopTwice = true := by decide +kernel
  exact ⟨S, hS, hfates, hstops, (conserves_of_exec hS).2 (meets_of_check State.stopsAlone hok)⟩

/-- A call of `Stop` that waits for the worker to end its task, and a second one from outside. -/
def stopWhileStopping : List Label :=
  Label.start 1 :: List.replicate 6 (Label.region .ok) ++
    Label.post 0 :: List.replicate 2 (Label.choose 0) ++ List.replicate 10 (Label.call 0 0) ++
    List.replicate 15 (Label.run 0) ++ Label.stop none :: List.replicate 7 (Label.region .ok) ++
    [Label.stop none, Label.region .ok]

/-- The second call returns while the task of the stopped generation is running. -/
theorem not_conserves_stopWhileStopping :
    ∃ S, exec State.step {} stopWhileStopping = some S ∧ ¬ Conserves S := by
  have hrun : (exec State.step {} stopWhileStopping).map (fun S =>
      (S.stops[1]?, S.workers.map fun W => (W.generation, W.run))) =
      some (some { caller := none, stopped := 1, pc := .early }, [(1, .running 0)]) := by
    decide +kernel
  obtain ⟨S, hS, heq⟩ := Option.map_eq_some_iff.mp hrun
  obtain ⟨hstop, hworkers⟩ := Prod.mk.inj heq
  obtain ⟨W, hsingle, hW⟩ := List.map_eq_singleton_iff.mp hworkers
  obtain ⟨hgeneration, hrunning⟩ := Prod.mk.inj hW
  refine ⟨S, hS, fun hconserves => ?_⟩
  have hover := hconserves.stopped _ (List.mem_of_getElem? hstop) rfl rfl W (by simp [hsingle])
    hgeneration
  have hended : W.run = .returned := hover.1.1
  simp [hrunning] at hended

end Connx.WorkerPool
