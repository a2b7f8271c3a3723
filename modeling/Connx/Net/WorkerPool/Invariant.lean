import Connx.Net.WorkerPool.Steps

/-!
# The invariant of the pool

The workers of a generation pass from `Start`, which makes them, to `workers_`, and from there to
the one call of `Stop` that finds them; or `Start` fails and shuts them down itself.
-/

namespace Connx.WorkerPool

variable {S S' : State} {w : Nat}

/-! ### Loops over a list of workers -/

/-- `rest` is what a loop over `list` has still to do; the others have been done. -/
def Covers (list rest : List Nat) (F : Nat → Prop) : Prop :=
  rest ⊆ list ∧ ∀ w ∈ list, w ∈ rest ∨ F w

namespace Covers

variable {list rest : List Nat} {F G : Nat → Prop}

lemma start (list : List Nat) (F : Nat → Prop) : Covers list list F :=
  ⟨List.Subset.refl _, fun _ hw => .inl hw⟩

lemma next (h : Covers list (w :: rest) F) (hw : F w) : Covers list rest F := by
  refine ⟨fun v hv => h.1 (List.mem_cons_of_mem _ hv), fun v hv => ?_⟩
  obtain hmem | hF := h.2 v hv
  · obtain rfl | hrest := List.mem_cons.mp hmem
    · exact .inr hw
    · exact .inl hrest
  · exact .inr hF

lemma head (h : Covers list (w :: rest) F) : w ∈ list := h.1 List.mem_cons_self

lemma done (h : Covers list [] F) {w : Nat} (hw : w ∈ list) : F w :=
  (h.2 w hw).resolve_left List.not_mem_nil

lemma mono (h : Covers list rest F) (hFG : ∀ w, F w → G w) : Covers list rest G :=
  ⟨h.1, fun w hw => (h.2 w hw).imp_right (hFG w)⟩

end Covers

/-! ### Workers of the pool -/

/-- The worker is there and satisfies `F`. -/
def State.Has (S : State) (w : Nat) (F : Worker → Prop) : Prop :=
  ∃ W, S.workers[w]? = some W ∧ F W

def State.gens (S : State) : List Nat := S.workers.map Worker.generation

/-- `list` holds the workers of the generation. -/
def State.Members (S : State) (generation : Nat) (list : List Nat) : Prop :=
  ∀ w, w ∈ list ↔ S.gens[w]? = some generation

/-- The workers go on, and new ones may be added. -/
def State.Later (S S' : State) : Prop :=
  ∀ (w : Nat) (W : Worker), S.workers[w]? = some W →
    ∃ W', S'.workers[w]? = some W' ∧ W.Later W'

lemma State.Has.later {F : Worker → Prop} (h : S.Has w F) (hlater : S.Later S')
    (hF : ∀ W W', W.Later W' → F W → F W') : S'.Has w F := by
  obtain ⟨W, hW, hFW⟩ := h
  obtain ⟨W', hW', hlater'⟩ := hlater w W hW
  exact ⟨W', hW', hF W W' hlater' hFW⟩

lemma State.Has.mono {F G : Worker → Prop} (h : S.Has w F) (hFG : ∀ W, F W → G W) : S.Has w G :=
  h.imp fun W hW => ⟨hW.1, hFG W hW.2⟩

lemma State.Has.and {F G : Worker → Prop} (hF : S.Has w F) (hG : S.Has w G) :
    S.Has w fun W => F W ∧ G W := by
  obtain ⟨W, hW, hFW⟩ := hF
  obtain ⟨W', hW', hGW⟩ := hG
  obtain rfl : W = W' := Option.some.inj (hW.symm.trans hW')
  exact ⟨W, hW, hFW, hGW⟩

lemma State.has_of_members {generation : Nat} {list : List Nat} (h : S.Members generation list)
    (hw : w ∈ list) : S.Has w (·.generation = generation) := by
  have hgen := (h w).mp hw
  rw [State.gens, List.getElem?_map, Option.map_eq_some_iff] at hgen
  exact hgen

lemma State.mem_gens {W : Worker} (h : S.workers[w]? = some W) :
    S.gens[w]? = some W.generation := by
  simp [State.gens, h]

/-! ### Stages of `Stop` -/

/-- The thread of the worker has ended, or it is the one that called `Stop`. -/
def State.Joined (S : State) (s : Stop) (w : Nat) : Prop := S.Has w Worker.Ended ∨ s.caller = some w

/-- How far a call of `Stop` is with its list. -/
def State.Stages (S : State) (s : Stop) : StopPc → Prop
  | .locked => True
  | .early => s.list = []
  | .lock _ => ∀ w ∈ s.list, S.Has w Worker.Refused
  | .wake _ => ∀ w ∈ s.list, S.Has w Worker.Refused
  | .unlock _ => ∀ w ∈ s.list, S.Has w Worker.Refused
  | .join rest => (∀ w ∈ s.list, S.Has w Worker.Refused) ∧ Covers s.list rest (S.Joined s)
  | .waitLock rest | .waitCheck rest | .waiting rest =>
    ((∀ w ∈ s.list, S.Has w Worker.Refused) ∧ ∀ w ∈ s.list, S.Joined s w) ∧
      Covers s.list rest (S.Has · Worker.Sealed)
  | .waitUnlock rest =>
    ((∀ w ∈ s.list, S.Has w Worker.Refused) ∧ ∀ w ∈ s.list, S.Joined s w) ∧
      Covers s.list rest.tail (S.Has · Worker.Sealed)
  | .drain rest | .draining rest =>
    ((∀ w ∈ s.list, S.Has w Worker.Sealed) ∧ ∀ w ∈ s.list, S.Joined s w) ∧
      Covers s.list rest (S.Has · Worker.Drained)
  | .done => (∀ w ∈ s.list, S.Has w Worker.Drained) ∧ ∀ w ∈ s.list, S.Joined s w

/-- The list of a call of `Stop` that has one is the generation it stopped. -/
def State.Lists (S : State) (s : Stop) : Prop :=
  s.stopped < S.generation ∧ S.Members s.stopped s.list

/-- A call of `Stop` outside its critical section. -/
def State.StopInv (S : State) (s : Stop) : Prop :=
  (s.pc = .locked ∨ s.pc = .early ∨ S.Lists s) ∧ S.Stages s s.pc

/-! ### Critical sections -/

def State.Older (S : State) : Prop := ∀ (w g : Nat), S.gens[w]? = some g → g < S.generation

/-- The pool outside of critical sections: it has been started, or it is stopped. -/
def State.Settled (S : State) : Prop :=
  S.stopping = false ∧ S.Members S.generation S.current ∨
    S.stopping = true ∧ S.current = [] ∧ S.Older

def State.StopRegionInv (S : State) (s : Stop) : StopRegion → Prop
  | .loadStopping => s.list = [] ∧ S.Settled
  | .storeStopping => s.list = [] ∧ S.stopping = false ∧ s.stopped = S.generation ∧
      S.Members s.stopped S.current
  | .advance => s.list = [] ∧ S.stopping = true ∧ s.stopped = S.generation ∧
      S.Members s.stopped S.current
  | .loadWorkers => s.list = [] ∧ S.stopping = true ∧ S.Older ∧ s.stopped + 1 = S.generation ∧
      S.Members s.stopped S.current
  | .storeWorkers => s.list = S.current ∧ S.stopping = true ∧ S.Older ∧
      s.stopped + 1 = S.generation ∧ S.Members s.stopped s.list
  | .refuse rest => S.current = [] ∧ S.stopping = true ∧ S.Older ∧ s.stopped + 1 = S.generation ∧
      S.Members s.stopped s.list ∧ Covers s.list rest (S.Has · Worker.Refused)

def Worker.Fresh (W : Worker) : Prop := W.calls = []

/-- The workers `Start` has made and not published. -/
def State.Making (S : State) (made : List Nat) : Prop :=
  S.current = [] ∧ S.Members S.generation made ∧ ∀ w ∈ made, S.Has w Worker.Fresh

/-- The workers of a `Start` that failed. -/
def State.Failed (S : State) (made : List Nat) : Prop :=
  (S.stopping = true ∧ S.current = [] ∧ S.Older) ∧ ∀ w ∈ made, S.Has w Worker.Fresh

def State.StartInv (S : State) : StartRegion → Prop
  | .loadStopping _ => S.Settled
  | .storeStopping _ => S.stopping = true ∧ S.current = [] ∧ S.Older
  | .advance _ => S.stopping = false ∧ S.current = [] ∧ S.Older
  | .spawn generation _ made =>
    (generation = S.generation ∧ 0 < generation) ∧ S.stopping = false ∧ S.Making made
  | .publish made | .failStopping made => S.stopping = false ∧ S.Making made
  | .failAdvance made => S.stopping = true ∧ S.Making made
  | .failRefuse made rest => S.Failed made ∧ Covers made rest (S.Has · Worker.Refused)
  | .failLock made rest | .failWake made rest | .failUnlock made rest =>
    S.Failed made ∧ Covers made rest.tail (S.Has · Worker.Refused)
  | .failJoin made rest => S.Failed made ∧ (∀ w ∈ made, S.Has w Worker.Refused) ∧
      Covers made rest (S.Has · Worker.Ended)
  | .failDrain made rest | .failDraining made rest => S.Failed made ∧
      (∀ w ∈ made, S.Has w Worker.Refused) ∧ (∀ w ∈ made, S.Has w Worker.Ended) ∧ rest ⊆ made
  | .failPublish made => S.Failed made ∧
      (∀ w ∈ made, S.Has w Worker.Refused) ∧ ∀ w ∈ made, S.Has w Worker.Ended

def State.RegionInv (S : State) : Prop :=
  match S.mutex with
  | none => S.Settled
  | some (.stop k pc) => ∃ s, S.stops[k]? = some s ∧ s.pc = .locked ∧ S.StopRegionInv s pc
  | some (.start pc) => S.StartInv pc

/-- The list of the call of `Start` that holds `mtx_`. -/
def StartRegion.made : StartRegion → List Nat
  | .loadStopping _ | .storeStopping _ | .advance _ => []
  | .spawn _ _ made | .publish made | .failStopping made | .failAdvance made => made
  | .failRefuse made _ | .failLock made _ | .failWake made _ | .failUnlock made _ => made
  | .failJoin made _ | .failDrain made _ | .failDraining made _ | .failPublish made => made

def State.made (S : State) : List Nat :=
  match S.mutex with
  | some (.start pc) => pc.made
  | _ => []

/-- The worker is in `workers_`, or in the list of a call of `Stop` or `Start`. -/
def State.Listed (S : State) (w : Nat) : Prop :=
  w ∈ S.current ∨ (∃ s ∈ S.stops, w ∈ s.list) ∨ w ∈ S.made

structure State.Control (S : State) : Prop where
  bounded : ∀ (w g : Nat), S.gens[w]? = some g → g ≤ S.generation
  region : S.RegionInv
  stops : ∀ s ∈ S.stops, S.StopInv s
  listed : ∀ w, w < S.workers.length → S.Listed w ∨ S.Has w Worker.Finished

/-! ### Steps of the workers -/

/-- Nothing but the workers changes. -/
structure State.Same (S S' : State) : Prop where
  stopping : S'.stopping = S.stopping
  generation : S'.generation = S.generation
  current : S'.current = S.current
  mutex : S'.mutex = S.mutex
  stops : S'.stops = S.stops
  gens : S'.gens = S.gens

variable {s : Stop}

lemma State.Joined.later (h : S.Joined s w) (hlater : S.Later S') : S'.Joined s w :=
  h.imp_left fun hended => hended.later hlater fun _ _ => Worker.Later.ended

section later

variable (hlater : S.Later S')
include hlater

lemma State.has_refused {list : List Nat} (h : ∀ w ∈ list, S.Has w Worker.Refused) :
    ∀ w ∈ list, S'.Has w Worker.Refused :=
  fun w hw => (h w hw).later hlater fun _ _ => Worker.Later.refused

lemma State.has_ended {list : List Nat} (h : ∀ w ∈ list, S.Has w Worker.Ended) :
    ∀ w ∈ list, S'.Has w Worker.Ended :=
  fun w hw => (h w hw).later hlater fun _ _ => Worker.Later.ended

lemma State.has_sealed {list : List Nat} (h : ∀ w ∈ list, S.Has w Worker.Sealed) :
    ∀ w ∈ list, S'.Has w Worker.Sealed :=
  fun w hw => (h w hw).later hlater fun _ _ => Worker.Later.sealed

lemma State.has_drained {list : List Nat} (h : ∀ w ∈ list, S.Has w Worker.Drained) :
    ∀ w ∈ list, S'.Has w Worker.Drained :=
  fun w hw => (h w hw).later hlater fun _ _ => Worker.Later.drained

lemma State.joined_later {list : List Nat} (h : ∀ w ∈ list, S.Joined s w) :
    ∀ w ∈ list, S'.Joined s w := fun w hw => (h w hw).later hlater

lemma State.covers_refused {list rest : List Nat} (h : Covers list rest (S.Has · Worker.Refused)) :
    Covers list rest (S'.Has · Worker.Refused) :=
  h.mono fun _ hw => hw.later hlater fun _ _ => Worker.Later.refused

lemma State.Stages.later {pc : StopPc} (h : S.Stages s pc) : S'.Stages s pc := by
  cases pc with
  | locked => trivial
  | early => exact h
  | lock rest => exact has_refused hlater h
  | wake rest => exact has_refused hlater h
  | unlock rest => exact has_refused hlater h
  | join rest => exact ⟨has_refused hlater h.1, h.2.mono fun _ hw => hw.later hlater⟩
  | waitLock rest | waitCheck rest | waiting rest | waitUnlock rest =>
    exact ⟨⟨has_refused hlater h.1.1, joined_later hlater h.1.2⟩,
      h.2.mono fun _ hw => hw.later hlater fun _ _ => Worker.Later.sealed⟩
  | drain rest | draining rest =>
    exact ⟨⟨has_sealed hlater h.1.1, joined_later hlater h.1.2⟩,
      h.2.mono fun _ hw => hw.later hlater fun _ _ => Worker.Later.drained⟩
  | done => exact ⟨has_drained hlater h.1, joined_later hlater h.2⟩

end later

lemma State.Members.of_gens {generation : Nat} {list : List Nat} (h : S.Members generation list)
    (hgens : S'.gens = S.gens) : S'.Members generation list := by
  intro w
  rw [hgens]
  exact h w

namespace State.Same

variable (h : S.Same S')
include h

lemma older (hS : S.Older) : S'.Older := by
  intro w g hg
  rw [h.gens] at hg
  rw [h.generation]
  exact hS w g hg

lemma settled (hS : S.Settled) : S'.Settled := by
  unfold State.Settled
  rw [h.stopping, h.generation, h.current]
  exact hS.imp (fun hr => ⟨hr.1, hr.2.of_gens h.gens⟩) fun hs => ⟨hs.1, hs.2.1, h.older hs.2.2⟩

lemma lists (hs : S.Lists s) : S'.Lists s := by
  unfold State.Lists
  rw [h.generation]
  exact ⟨hs.1, hs.2.of_gens h.gens⟩

lemma stopRegionInv (hlater : S.Later S') {pc : StopRegion} (hs : S.StopRegionInv s pc) :
    S'.StopRegionInv s pc := by
  cases pc with
  | loadStopping => exact ⟨hs.1, h.settled hs.2⟩
  | storeStopping | advance =>
    obtain ⟨hlist, hstopping, hstopped, hmembers⟩ := hs
    refine ⟨hlist, h.stopping.trans hstopping, hstopped.trans h.generation.symm, ?_⟩
    rw [h.current]
    exact hmembers.of_gens h.gens
  | loadWorkers =>
    obtain ⟨hlist, hstopping, holder, hstopped, hmembers⟩ := hs
    refine ⟨hlist, h.stopping.trans hstopping, h.older holder, hstopped.trans h.generation.symm, ?_⟩
    rw [h.current]
    exact hmembers.of_gens h.gens
  | storeWorkers =>
    obtain ⟨hlist, hstopping, holder, hstopped, hmembers⟩ := hs
    exact ⟨hlist.trans h.current.symm, h.stopping.trans hstopping, h.older holder,
      hstopped.trans h.generation.symm, hmembers.of_gens h.gens⟩
  | refuse rest =>
    obtain ⟨hcurrent, hstopping, holder, hstopped, hmembers, hcovers⟩ := hs
    exact ⟨h.current.trans hcurrent, h.stopping.trans hstopping, h.older holder,
      hstopped.trans h.generation.symm, hmembers.of_gens h.gens, covers_refused hlater hcovers⟩

lemma making {made : List Nat} (hm : S.Making made)
    (hfresh : S.current = [] → ∀ w, S.Has w Worker.Fresh → S'.Has w Worker.Fresh) :
    S'.Making made := by
  obtain ⟨hcurrent, hmembers, hall⟩ := hm
  refine ⟨h.current.trans hcurrent, ?_, fun w hw => hfresh hcurrent w (hall w hw)⟩
  rw [h.generation]
  exact hmembers.of_gens h.gens

lemma failed {made : List Nat} (hf : S.Failed made)
    (hfresh : S.current = [] → ∀ w, S.Has w Worker.Fresh → S'.Has w Worker.Fresh) :
    S'.Failed made := by
  obtain ⟨⟨hstopping, hcurrent, holder⟩, hall⟩ := hf
  exact ⟨⟨h.stopping.trans hstopping, h.current.trans hcurrent, h.older holder⟩,
    fun w hw => hfresh hcurrent w (hall w hw)⟩

lemma startInv (hlater : S.Later S')
    (hfresh : S.current = [] → ∀ w, S.Has w Worker.Fresh → S'.Has w Worker.Fresh)
    {pc : StartRegion} (hs : S.StartInv pc) : S'.StartInv pc := by
  cases pc with
  | loadStopping threads => exact h.settled hs
  | storeStopping threads | advance threads =>
    exact ⟨h.stopping.trans hs.1, h.current.trans hs.2.1, h.older hs.2.2⟩
  | spawn generation left made =>
    exact ⟨⟨hs.1.1.trans h.generation.symm, hs.1.2⟩, h.stopping.trans hs.2.1,
      h.making hs.2.2 hfresh⟩
  | publish made | failStopping made | failAdvance made =>
    exact ⟨h.stopping.trans hs.1, h.making hs.2 hfresh⟩
  | failRefuse made rest | failLock made rest | failWake made rest | failUnlock made rest =>
    exact ⟨h.failed hs.1 hfresh, covers_refused hlater hs.2⟩
  | failJoin made rest =>
    exact ⟨h.failed hs.1 hfresh, has_refused hlater hs.2.1,
      hs.2.2.mono fun _ hw => hw.later hlater fun _ _ => Worker.Later.ended⟩
  | failDrain made rest | failDraining made rest =>
    exact ⟨h.failed hs.1 hfresh, has_refused hlater hs.2.1, has_ended hlater hs.2.2.1, hs.2.2.2⟩
  | failPublish made =>
    exact ⟨h.failed hs.1 hfresh, has_refused hlater hs.2.1, has_ended hlater hs.2.2⟩

/-- The control of the pool does not depend on where the workers are. -/
lemma control (hlater : S.Later S')
    (hfresh : S.current = [] → ∀ w, S.Has w Worker.Fresh → S'.Has w Worker.Fresh)
    (hS : S.Control) : S'.Control := by
  constructor
  · rw [h.gens, h.generation]
    exact hS.bounded
  · have hregion := hS.region
    unfold State.RegionInv at hregion ⊢
    rw [h.mutex, h.stops]
    split at hregion
    · exact h.settled hregion
    · obtain ⟨s, hs, hpc, hinv⟩ := hregion
      exact ⟨s, hs, hpc, h.stopRegionInv hlater hinv⟩
    · exact h.startInv hlater hfresh hregion
  · rw [h.stops]
    intro s hs
    obtain ⟨hlists, hstages⟩ := hS.stops s hs
    exact ⟨hlists.imp_right (Or.imp_right h.lists), hstages.later hlater⟩
  · intro w hw
    have hlength : S'.workers.length = S.workers.length := by
      simpa [State.gens] using congrArg List.length h.gens
    unfold State.Listed State.made
    rw [h.current, h.stops, h.mutex]
    refine (hS.listed w (hlength ▸ hw)).imp_right fun hfin => ?_
    exact hfin.later hlater fun _ _ => Worker.Later.finished

end State.Same

end Connx.WorkerPool
