import Mathlib.Logic.Relation
import Mathlib.Data.List.Basic

/-!
# Runs of a labelled transition function

A system is given by `step : σ → ℓ → Option σ`; `none` means that the label is not enabled.
A run is a list of labels. `Meets ok` says of a run that each of its steps satisfies `ok` in the
state in which it is taken, so that a result about runs can assume something of every step and
nothing of the states reached.
-/

namespace Run

variable {σ ℓ : Type*} (step : σ → ℓ → Option σ)

/-- The state a list of labels leads to, if every label is enabled in its turn. -/
def exec : σ → List ℓ → Option σ
  | s, [] => some s
  | s, l :: ls => (step s l).bind fun s' => exec s' ls

/-- Every step of the run satisfies `ok` in the state before it. -/
def Meets (ok : σ → ℓ → Prop) : σ → List ℓ → Prop
  | _, [] => True
  | s, l :: ls => ok s l ∧ ∀ s', step s l = some s' → Meets ok s' ls

variable {step}

@[simp] lemma exec_nil (s : σ) : exec step s [] = some s := rfl

lemma exec_cons_iff {s s' : σ} {l : ℓ} {ls : List ℓ} :
    exec step s (l :: ls) = some s' ↔ ∃ t, step s l = some t ∧ exec step t ls = some s' := by
  simp [exec, Option.bind_eq_some_iff]

lemma exec_append_iff {s s' : σ} {ls ls' : List ℓ} :
    exec step s (ls ++ ls') = some s' ↔
      ∃ t, exec step s ls = some t ∧ exec step t ls' = some s' := by
  induction ls generalizing s with
  | nil => simp
  | cons l ls ih =>
    simp only [List.cons_append, exec_cons_iff, ih]
    constructor
    · rintro ⟨u, hu, t, ht, h⟩
      exact ⟨t, ⟨u, hu, ht⟩, h⟩
    · rintro ⟨t, ⟨u, hu, ht⟩, h⟩
      exact ⟨u, hu, t, ht, h⟩

lemma exec_snoc_iff {s s' : σ} {ls : List ℓ} {l : ℓ} :
    exec step s (ls ++ [l]) = some s' ↔ ∃ t, exec step s ls = some t ∧ step t l = some s' := by
  simp [exec_append_iff, exec_cons_iff]

/-- `Meets` for a condition that can be computed. -/
def check (step : σ → ℓ → Option σ) (ok : σ → ℓ → Bool) : σ → List ℓ → Bool
  | _, [] => true
  | s, l :: ls => ok s l && (step s l).all fun s' => check step ok s' ls

lemma meets_of_check (ok : σ → ℓ → Bool) {s : σ} {ls : List ℓ} (h : check step ok s ls = true) :
    Meets step (fun s l => ok s l = true) s ls := by
  induction ls generalizing s with
  | nil => trivial
  | cons l ls ih =>
    simp only [check, Bool.and_eq_true] at h
    refine ⟨h.1, fun t ht => ih ?_⟩
    simpa [ht] using h.2

lemma Meets.mono {ok ok' : σ → ℓ → Prop} (hok : ∀ s l, ok s l → ok' s l) {s : σ} {ls : List ℓ}
    (h : Meets step ok s ls) : Meets step ok' s ls := by
  induction ls generalizing s with
  | nil => trivial
  | cons l ls ih => exact ⟨hok _ _ h.1, fun t ht => ih (h.2 t ht)⟩

lemma meets_of_forall {ok : σ → ℓ → Prop} (h : ∀ s l, ok s l) (s : σ) (ls : List ℓ) :
    Meets step ok s ls := by
  induction ls generalizing s with
  | nil => trivial
  | cons l ls ih => exact ⟨h s l, fun t _ => ih t⟩

/-- Invariant rule: what one admissible step preserves, an admissible run preserves. -/
theorem exec_invariant (ok : σ → ℓ → Prop) {I : σ → Prop}
    (hstep : ∀ s l s', I s → ok s l → step s l = some s' → I s')
    {s s' : σ} {ls : List ℓ} (h : exec step s ls = some s') (hok : Meets step ok s ls)
    (hs : I s) : I s' := by
  induction ls generalizing s with
  | nil =>
    obtain rfl : s = s' := by simpa using h
    exact hs
  | cons l ls ih =>
    obtain ⟨t, ht, hts⟩ := exec_cons_iff.mp h
    exact ih hts (hok.2 t ht) (hstep s l t hs hok.1 ht)

end Run
