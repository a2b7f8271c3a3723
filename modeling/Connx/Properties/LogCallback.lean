import Connx.Bridge.Log
import Connx.Lib.Pool
import Mathlib.Tactic

/-!
# The log callback and its user data

`connx_log` loads the user data and the function one after the other and does not look at the
sequence counter, so a `connx_log_set_callback` in between makes it call the new function with the
old data; two calls of `connx_log_set_callback` at once leave a mixed pair behind for every later
`connx_log`. The pairs are kept together in the runs in which the two stores of one call and the two
loads of another do not overlap.
-/

namespace Connx.Log

/-- The pair of which a call has made both stores. -/
def Call.stored : Call → Option (Nat × Nat)
  | .storeEven f u _ | .set f u => some (f, u)
  | _ => none

/-- The function a call invokes or has invoked, with its data. -/
def Call.invokes : Call → Option (Nat × Nat)
  | .invoke f u => some (f, u)
  | .logged invoked => invoked
  | _ => none

/-- The call has stored the function and not yet the data. -/
def Call.amidStores : Call → Bool
  | .storeData _ _ _ => true
  | _ => false

/-- The call has loaded the data and not yet the function. -/
def Call.amidLoads : Call → Bool
  | .loadFunction _ => true
  | _ => false

/-- The initial pair, or one that a single `connx_log_set_callback` has stored. -/
def State.Registered (S : State) (pair : Nat × Nat) : Prop :=
  pair = (connxLogDefault, 0) ∨ ∃ call ∈ S.calls, call.stored = some pair

/-- Every function was invoked with its own data. -/
def State.OwnData (S : State) : Prop :=
  ∀ pair, Call.logged (some pair) ∈ S.calls → S.Registered pair

/-- Nobody is between two stores when the data is loaded or the function stored, and nobody is
between two loads when the function is stored. -/
def State.orderly (S : State) : Label → Bool
  | .advance i _ =>
    match S.calls[i]? with
    | some (.storeFunction _ _ _) => S.calls.all fun call => !call.amidStores && !call.amidLoads
    | some .loadData => S.calls.all fun call => !call.amidStores
    | _ => true
  | _ => true

/-! ### The invariant of the orderly runs -/

/-- Where the two global variables and the calls in progress stand to each other. -/
structure Coherent (S : State) : Prop where
  one : S.calls.countP Call.amidStores ≤ 1
  settled : S.calls.countP Call.amidStores = 0 →
    S.Registered (S.globals.logFunction, S.globals.userData)
  storing : ∀ f u s, Call.storeData f u s ∈ S.calls → S.globals.logFunction = f
  loading : ∀ u, Call.loadFunction u ∈ S.calls →
    u = S.globals.userData ∧ S.calls.countP Call.amidStores = 0
  invoked : ∀ call ∈ S.calls, ∀ pair, call.invokes = some pair → S.Registered pair

section Step

variable {S S' : State} {i : Nat} {call call' : Call} {g : Globals} {pair : Nat × Nat}

lemma coherent_init : Coherent {} where
  one := by simp
  settled _ := Or.inl rfl
  storing := by simp
  loading := by simp
  invoked := by simp

lemma State.Registered.set (h : S.Registered pair) (g : Globals) (hi : S.calls[i]? = some call)
    (hstored : ∀ p, call.stored = some p → call'.stored = some p) :
    State.Registered ⟨g, S.calls.set i call'⟩ pair := by
  obtain rfl | ⟨c, hc, hpair⟩ := h
  · exact Or.inl rfl
  · refine Or.inr ?_
    obtain ⟨j, hj⟩ := List.mem_iff_getElem?.mp hc
    by_cases hij : i = j
    · subst hij
      obtain rfl : call = c := Option.some.inj (hi.symm.trans hj)
      exact ⟨call', List.mem_set (List.getElem?_eq_some_iff.mp hi).1 _, hstored pair hpair⟩
    · exact ⟨c, List.mem_iff_getElem?.mpr ⟨j, by rwa [List.getElem?_set_ne hij]⟩, hpair⟩

/-- A step of a call that is not about to make one of its two stores. -/
lemma Coherent.set (h : Coherent S) (hi : S.calls[i]? = some call)
    (hfn : g.logFunction = S.globals.logFunction) (hdata : g.userData = S.globals.userData)
    (hcall : call.amidStores = false) (hcall' : call'.amidStores = false)
    (hstored : ∀ p, call.stored = some p → call'.stored = some p)
    (hload : ∀ u, call' = .loadFunction u →
      u = S.globals.userData ∧ S.calls.countP Call.amidStores = 0)
    (hinvoked : ∀ p, call'.invokes = some p → S.Registered p) :
    Coherent ⟨g, S.calls.set i call'⟩ := by
  have hcount : (S.calls.set i call').countP Call.amidStores = S.calls.countP Call.amidStores := by
    simpa [hcall, hcall'] using Pool.countP_set Call.amidStores hi call'
  refine ⟨hcount.trans_le h.one, fun hzero => ?_, fun f u s hmem => ?_, fun u hmem => ?_,
    fun c hc pair hpair => ?_⟩
  · have := (h.settled (hcount ▸ hzero)).set g hi hstored
    rwa [← hfn, ← hdata] at this
  · obtain hmem | rfl := List.mem_or_eq_of_mem_set hmem
    · exact hfn.trans (h.storing f u s hmem)
    · simp [Call.amidStores] at hcall'
  · rw [hcount]
    change u = g.userData ∧ _
    rw [hdata]
    obtain hmem | heq := List.mem_or_eq_of_mem_set hmem
    · exact h.loading u hmem
    · exact hload u heq.symm
  · obtain hc | rfl := List.mem_or_eq_of_mem_set hc
    · exact (h.invoked c hc pair hpair).set _ hi hstored
    · exact (hinvoked pair hpair).set _ hi hstored

/-- The store of the function, with nobody between two stores or two loads. -/
lemma Coherent.storeFunction {f u : Nat} {s : Int} (h : Coherent S)
    (hi : S.calls[i]? = some (.storeFunction f u s))
    (hquiet : ∀ c ∈ S.calls, c.amidStores = false ∧ c.amidLoads = false) :
    Coherent ⟨{ S.globals with logFunction := f }, S.calls.set i (.storeData f u s)⟩ := by
  have hzero : S.calls.countP Call.amidStores = 0 :=
    List.countP_eq_zero.mpr fun c hc => by simp [(hquiet c hc).1]
  have hone : (S.calls.set i (.storeData f u s)).countP Call.amidStores = 1 := by
    simpa [Call.amidStores, hzero] using
      Pool.countP_set Call.amidStores hi (.storeData f u s)
  refine ⟨hone.le, fun h0 => ?_, fun f' u' s' hmem => ?_, fun u' hmem => ?_,
    fun c hc pair hpair => ?_⟩
  · rw [hone] at h0
    exact absurd h0 one_ne_zero
  · obtain hmem | heq := List.mem_or_eq_of_mem_set hmem
    · simpa [Call.amidStores] using (hquiet _ hmem).1
    · cases heq
      rfl
  · obtain hmem | heq := List.mem_or_eq_of_mem_set hmem
    · simpa [Call.amidLoads] using (hquiet _ hmem).2
    · cases heq
  · obtain hc | rfl := List.mem_or_eq_of_mem_set hc
    · exact (h.invoked c hc pair hpair).set _ hi (by simp [Call.stored])
    · simp [Call.invokes] at hpair

/-- The store of the data completes the pair. -/
lemma Coherent.storeData {f u : Nat} {s : Int} (h : Coherent S)
    (hi : S.calls[i]? = some (.storeData f u s)) :
    Coherent ⟨{ S.globals with userData := u }, S.calls.set i (.storeEven f u s)⟩ := by
  have hmem : Call.storeData f u s ∈ S.calls := List.mem_of_getElem? hi
  have hcount : S.calls.countP Call.amidStores ≠ 0 := fun hzero => by
    simpa [Call.amidStores] using List.countP_eq_zero.mp hzero _ hmem
  have hzero : (S.calls.set i (.storeEven f u s)).countP Call.amidStores = 0 := by
    have heq := Pool.countP_set Call.amidStores hi (.storeEven f u s)
    rw [if_pos (show Call.amidStores (.storeData f u s) = true from rfl),
      if_neg (show ¬Call.amidStores (.storeEven f u s) = true from Bool.false_ne_true)] at heq
    have hone := h.one
    omega
  have hfn := h.storing f u s hmem
  refine ⟨by rw [hzero]; exact Nat.zero_le 1, fun _ => Or.inr ?_, fun f' u' s' hmem' => ?_,
    fun u' hmem' => ?_, fun c hc pair hpair => ?_⟩
  · exact ⟨.storeEven f u s, List.mem_set (List.getElem?_eq_some_iff.mp hi).1 _, by
      simp [Call.stored, hfn]⟩
  · exact absurd (List.countP_eq_zero.mp hzero _ hmem') (by simp [Call.amidStores])
  · obtain hmem' | heq := List.mem_or_eq_of_mem_set hmem'
    · exact absurd (h.loading u' hmem').2 hcount
    · cases heq
  · obtain hc | rfl := List.mem_or_eq_of_mem_set hc
    · exact (h.invoked c hc pair hpair).set _ hi (by simp [Call.stored])
    · simp [Call.invokes] at hpair

/-- A new call has not stored, loaded or invoked anything. -/
lemma Coherent.begin (h : Coherent S) (hcall : call.amidStores = false)
    (hload : call.amidLoads = false) (hinvoked : call.invokes = none) :
    Coherent { S with calls := S.calls ++ [call] } := by
  have hreg : ∀ pair, S.Registered pair →
      State.Registered { S with calls := S.calls ++ [call] } pair := by
    rintro pair (rfl | ⟨c, hc, hpair⟩)
    · exact Or.inl rfl
    · exact Or.inr ⟨c, List.mem_append_left _ hc, hpair⟩
  have hcount : (S.calls ++ [call]).countP Call.amidStores = S.calls.countP Call.amidStores := by
    simp [List.countP_append, hcall]
  refine ⟨hcount.trans_le h.one, fun hzero => hreg _ (h.settled (hcount ▸ hzero)),
    fun f u s hmem => ?_, fun u hmem => ?_, fun c hc pair hpair => ?_⟩
  · obtain hmem | heq := List.mem_append.mp hmem
    · exact h.storing f u s hmem
    · rw [← List.mem_singleton.mp heq] at hcall
      simp [Call.amidStores] at hcall
  · rw [hcount]
    obtain hmem | heq := List.mem_append.mp hmem
    · exact h.loading u hmem
    · rw [← List.mem_singleton.mp heq] at hload
      simp [Call.amidLoads] at hload
  · obtain hc | heq := List.mem_append.mp hc
    · exact hreg pair (h.invoked c hc pair hpair)
    · rw [List.mem_singleton.mp heq, hinvoked] at hpair
      cases hpair

/-- One orderly step. -/
lemma Coherent.step {l : Label} (h : Coherent S) (hok : S.orderly l = true)
    (hstep : Log.step S l = some S') : Coherent S' := by
  cases l with
  | setCallback callback userData =>
    cases hstep
    exact h.begin rfl rfl rfl
  | log level =>
    cases hstep
    unfold beginLog
    split_ifs <;> exact h.begin rfl rfl rfl
  | setMinLevel level =>
    cases hstep
    exact ⟨h.one, h.settled, h.storing, h.loading, h.invoked⟩
  | advance i made =>
    simp only [Log.step, Option.bind_eq_bind, Option.bind_eq_some_iff] at hstep
    obtain ⟨call, hi, ⟨g, call'⟩, hadv, hS'⟩ := hstep
    cases hS'
    have hinv : ∀ pair, call.invokes = some pair → S.Registered pair :=
      h.invoked call (List.mem_of_getElem? hi)
    cases call with
    | loadSeq f u =>
      cases hadv
      exact h.set hi rfl rfl rfl rfl (by simp [Call.stored]) (by simp) (by simp [Call.invokes])
    | storeOdd f u s =>
      cases hadv
      exact h.set hi rfl rfl rfl rfl (by simp [Call.stored]) (by simp) (by simp [Call.invokes])
    | storeFunction f u s =>
      cases hadv
      refine h.storeFunction hi fun c hc => ?_
      simp only [State.orderly, hi, List.all_eq_true] at hok
      simpa using hok c hc
    | storeData f u s =>
      cases hadv
      exact h.storeData hi
    | storeEven f u s =>
      cases hadv
      exact h.set hi rfl rfl rfl rfl (fun _ hp => hp) (by simp) (by simp [Call.invokes])
    | set f u => cases hadv
    | loadMinLevel level =>
      cases hadv
      split_ifs
      · exact h.set hi rfl rfl rfl rfl (by simp [Call.stored]) (by simp) (by simp [Call.invokes])
      · exact h.set hi rfl rfl rfl rfl (by simp [Call.stored]) (by simp) (by simp [Call.invokes])
    | makeMessage =>
      cases hadv
      split_ifs
      · exact h.set hi rfl rfl rfl rfl (by simp [Call.stored]) (by simp) (by simp [Call.invokes])
      · exact h.set hi rfl rfl rfl rfl (by simp [Call.stored]) (by simp) (by simp [Call.invokes])
    | loadData =>
      cases hadv
      have hzero : S.calls.countP Call.amidStores = 0 := by
        simp only [State.orderly, hi, List.all_eq_true] at hok
        exact List.countP_eq_zero.mpr fun c hc => by simpa using hok c hc
      refine h.set hi rfl rfl rfl rfl (by simp [Call.stored]) ?_ (by simp [Call.invokes])
      rintro u ⟨⟩
      exact ⟨rfl, hzero⟩
    | loadFunction u =>
      cases hadv
      obtain ⟨rfl, hzero⟩ := h.loading u (List.mem_of_getElem? hi)
      split_ifs
      · exact h.set hi rfl rfl rfl rfl (by simp [Call.stored]) (by simp) (by simp [Call.invokes])
      · refine h.set hi rfl rfl rfl rfl (by simp [Call.stored]) (by simp) ?_
        rintro pair ⟨⟩
        exact h.settled hzero
    | invoke f u =>
      cases hadv
      exact h.set hi rfl rfl rfl rfl (by simp [Call.stored]) (by simp) hinv
    | logged invoked => cases hadv

end Step

/-- In every run of orderly steps a callback is called with its own user data. -/
theorem ownData_of_exec {S : State} {ls : List Label}
    (hmeets : Run.Meets Log.step (fun S l => S.orderly l = true) {} ls)
    (hexec : Run.exec Log.step {} ls = some S) : S.OwnData := by
  have hcoherent : Coherent S := Run.exec_invariant (fun S l => S.orderly l = true)
    (fun _ _ _ h hok hstep => h.step hok hstep) hexec hmeets coherent_init
  exact fun pair hmem => hcoherent.invoked _ hmem pair rfl

/-- A message before, and one after, the callback is set. -/
def orderlyRun : List Label :=
  [Label.log 4] ++ List.replicate 5 (Label.advance 0 true) ++ [Label.setCallback 7 8] ++
    List.replicate 5 (Label.advance 1 true) ++ [Label.log 2] ++
    List.replicate 5 (Label.advance 2 true)

theorem ownData_orderlyRun :
    ∃ S, Run.exec Log.step {} orderlyRun = some S ∧ S.OwnData ∧
      Call.logged (some (connxLogDefault, 0)) ∈ S.calls ∧ Call.logged (some (7, 8)) ∈ S.calls := by
  obtain ⟨S, hexec, hcalls⟩ : ∃ S, Run.exec Log.step {} orderlyRun = some S ∧
      S.calls = [.logged (some (1, 0)), .set 7 8, .logged (some (7, 8))] :=
    Option.map_eq_some_iff.mp (by decide)
  have hmeets : Run.Meets Log.step (fun S l => S.orderly l = true) {} orderlyRun :=
    Run.meets_of_check State.orderly (by decide)
  exact ⟨S, hexec, ownData_of_exec hmeets hexec, by simp [hcalls, connxLogDefault],
    by simp [hcalls]⟩

/-- The callback is set between the two loads of a `connx_log`. -/
def setBetweenLoads : List Label :=
  [Label.log 4] ++ List.replicate 3 (Label.advance 0 true) ++ [Label.setCallback 7 8] ++
    List.replicate 5 (Label.advance 1 true) ++ List.replicate 2 (Label.advance 0 true)

/-- Two callbacks are set at once, and a message is logged when both calls have returned. -/
def setAtOnce : List Label :=
  [Label.setCallback 7 8, Label.setCallback 9 10] ++ List.replicate 3 (Label.advance 0 true) ++
    List.replicate 5 (Label.advance 1 true) ++ List.replicate 2 (Label.advance 0 true) ++
    [Label.log 4] ++ List.replicate 5 (Label.advance 2 true)

lemma not_ownData_of_calls {S : State} {pair : Nat × Nat}
    (hmem : Call.logged (some pair) ∈ S.calls) (hne : pair ≠ (connxLogDefault, 0))
    (hnone : ∀ call ∈ S.calls, call.stored ≠ some pair) : ¬S.OwnData := fun hown => by
  obtain rfl | ⟨call, hcall, hstored⟩ := hown pair hmem
  · exact hne rfl
  · exact hnone call hcall hstored

/-- The new function is called with the old data, and the function of one registration with the
data of another. -/
theorem not_ownData_setBetweenLoads :
    (∃ S, Run.exec Log.step {} setBetweenLoads = some S ∧
      Call.logged (some (7, 0)) ∈ S.calls ∧ ¬S.OwnData) ∧
    (∃ S, Run.exec Log.step {} setAtOnce = some S ∧
      Call.logged (some (9, 8)) ∈ S.calls ∧ ¬S.OwnData) := by
  refine ⟨?_, ?_⟩
  · obtain ⟨S, hexec, hcalls⟩ : ∃ S, Run.exec Log.step {} setBetweenLoads = some S ∧
        S.calls = [.logged (some (7, 0)), .set 7 8] := Option.map_eq_some_iff.mp (by decide)
    have hmem : Call.logged (some (7, 0)) ∈ S.calls := by simp [hcalls]
    exact ⟨S, hexec, hmem, not_ownData_of_calls hmem (by decide) (by simp [hcalls, Call.stored])⟩
  · obtain ⟨S, hexec, hcalls⟩ : ∃ S, Run.exec Log.step {} setAtOnce = some S ∧
        S.calls = [.set 7 8, .set 9 10, .logged (some (9, 8))] :=
      Option.map_eq_some_iff.mp (by decide)
    have hmem : Call.logged (some (9, 8)) ∈ S.calls := by simp [hcalls]
    exact ⟨S, hexec, hmem, not_ownData_of_calls hmem (by decide) (by simp [hcalls, Call.stored])⟩

end Connx.Log
