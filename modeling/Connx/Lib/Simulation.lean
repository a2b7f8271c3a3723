import Connx.Lib.Run

/-!
# Forward simulation

A system with a step function is compared with a specification, a relation between states that is
labelled with what can be observed. What is observed of a step may depend on the state in which it
is taken: the result of a call is part of it. A simulation relates the states of the two so that
every step can be followed by a step of the specification with the same observation; then whole
runs can be followed.
-/

namespace Run

variable {σ ℓ τ ω : Type*}

/-- The specification goes from one state to another with the given observations. -/
inductive Follows (spec : τ → ω → τ → Prop) : τ → List ω → τ → Prop
  | nil (t : τ) : Follows spec t [] t
  | cons {t t' t'' : τ} {o : ω} {os : List ω} (h : spec t o t') (hrest : Follows spec t' os t'') :
      Follows spec t (o :: os) t''

/-- What is observed of a run, up to the first label that is not enabled. -/
def observe (step : σ → ℓ → Option σ) (obs : σ → ℓ → ω) : σ → List ℓ → List ω
  | _, [] => []
  | s, l :: ls => obs s l :: ((step s l).map fun s' => observe step obs s' ls).getD []

section follows

variable {spec : τ → ω → τ → Prop}

lemma follows_cons {t t'' : τ} {o : ω} {os : List ω} :
    Follows spec t (o :: os) t'' ↔ ∃ t', spec t o t' ∧ Follows spec t' os t'' := by
  constructor
  · intro h
    cases h with
    | cons hstep hrest => exact ⟨_, hstep, hrest⟩
  · rintro ⟨t', hstep, hrest⟩
    exact .cons hstep hrest

lemma follows_append {t t'' : τ} {os os' : List ω} :
    Follows spec t (os ++ os') t'' ↔ ∃ t', Follows spec t os t' ∧ Follows spec t' os' t'' := by
  induction os generalizing t with
  | nil =>
    constructor
    · exact fun h => ⟨t, .nil t, h⟩
    · rintro ⟨t', h, h'⟩
      cases h with
      | nil => exact h'
  | cons o os ih =>
    rw [List.cons_append, follows_cons]
    constructor
    · rintro ⟨t₁, hstep, hrest⟩
      obtain ⟨t', h, h'⟩ := ih.mp hrest
      exact ⟨t', .cons hstep h, h'⟩
    · rintro ⟨t', h, h'⟩
      obtain ⟨t₁, hstep, hrest⟩ := follows_cons.mp h
      exact ⟨t₁, hstep, ih.mpr ⟨t', hrest, h'⟩⟩

/-- Invariant rule for the specification, over runs in which every observation satisfies `P`; what
`Q` says of an observation is proved along with it. -/
lemma Follows.invariant {I : τ → Prop} {P Q : ω → Prop}
    (hstep : ∀ t o t', I t → P o → spec t o t' → I t' ∧ Q o) {t t' : τ} {os : List ω}
    (h : Follows spec t os t') (ht : I t) (hos : ∀ o ∈ os, P o) : I t' ∧ ∀ o ∈ os, Q o := by
  induction h with
  | nil t => exact ⟨ht, by simp⟩
  | cons hstep' _ ih =>
    obtain ⟨hI, hQ⟩ := hstep _ _ _ ht (hos _ List.mem_cons_self) hstep'
    obtain ⟨hI', hQ'⟩ := ih hI fun o ho => hos o (List.mem_cons_of_mem _ ho)
    exact ⟨hI', List.forall_mem_cons.mpr ⟨hQ, hQ'⟩⟩

end follows

/-- Simulation rule: if every admissible step can be followed, every admissible run can. -/
theorem follows_of_exec {step : σ → ℓ → Option σ} {obs : σ → ℓ → ω} {spec : τ → ω → τ → Prop}
    {R : σ → τ → Prop} (ok : σ → ℓ → Prop)
    (hsim : ∀ s t l s', R s t → ok s l → step s l = some s' → ∃ t', spec t (obs s l) t' ∧ R s' t')
    {s s' : σ} {t : τ} {ls : List ℓ} (h : exec step s ls = some s') (hok : Meets step ok s ls)
    (hR : R s t) : ∃ t', Follows spec t (observe step obs s ls) t' ∧ R s' t' := by
  induction ls generalizing s t with
  | nil =>
    obtain rfl : s = s' := by simpa using h
    exact ⟨t, .nil t, hR⟩
  | cons l ls ih =>
    obtain ⟨u, hu, hrest⟩ := exec_cons_iff.mp h
    obtain ⟨t₁, hspec, hR₁⟩ := hsim s t l u hR hok.1 hu
    obtain ⟨t', hfollows, hR'⟩ := ih hrest (hok.2 u hu) hR₁
    refine ⟨t', ?_, hR'⟩
    rw [observe, hu]
    exact .cons hspec hfollows

end Run
