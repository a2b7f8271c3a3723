import Mathlib.Logic.Relation

/-!
# Cycles of waiting

`W a b` says that `a` waits for `b`. A cycle does not appear as long as nobody begins to wait for
one who waits for it, along any path.
-/

namespace WaitGraph

open Relation

variable {τ : Type*} {R R' W : τ → τ → Prop} {v w : τ}

/-- Nobody waits for itself, along any path. -/
def Acyclic (R : τ → τ → Prop) : Prop := ∀ a, ¬ TransGen R a a

lemma Acyclic.mono (h : Acyclic R) (hsub : ∀ a b, R' a b → R a b) : Acyclic R' :=
  fun a hcycle => h a (TransGen.mono (fun a b => hsub a b) a a hcycle)

/-- A path in the graph with one more edge: it does not use it, or it uses it once. -/
lemma transGen_insert (hpath : ¬ ReflTransGen R v w) {a b : τ}
    (h : TransGen (fun a b => R a b ∨ a = w ∧ b = v) a b) :
    TransGen R a b ∨ ReflTransGen R a w ∧ ReflTransGen R v b := by
  induction h with
  | single h =>
    obtain h | ⟨rfl, rfl⟩ := h
    · exact .inl (.single h)
    · exact .inr ⟨.refl, .refl⟩
  | tail _ h ih =>
    obtain h | ⟨rfl, rfl⟩ := h
    · exact ih.imp (fun hab => hab.tail h) fun hab => ⟨hab.1, hab.2.tail h⟩
    · obtain hab | hab := ih
      · exact .inr ⟨hab.to_reflTransGen, .refl⟩
      · exact absurd hab.2 hpath

/-- One begins to wait for another that does not wait for it. -/
theorem Acyclic.insert (h : Acyclic R) (hpath : ¬ ReflTransGen R v w) :
    Acyclic fun a b => R a b ∨ a = w ∧ b = v := by
  intro a hcycle
  obtain hcycle | ⟨haw, hva⟩ := transGen_insert hpath hcycle
  · exact h a hcycle
  · exact hpath (hva.trans haw)

/-- No path leads from one who waits for nobody. -/
lemma not_path_of_not_waiting (hne : v ≠ w) (hv : ∀ b, ¬ R v b) : ¬ ReflTransGen R v w := by
  intro h
  obtain rfl | ⟨b, hb, -⟩ := h.cases_head
  · exact hne rfl
  · exact hv b hb

/-- No path leads to one nobody waits for. -/
lemma not_path_of_not_awaited (hne : v ≠ w) (hw : ∀ a, ¬ R a w) : ¬ ReflTransGen R v w := by
  intro h
  obtain rfl | ⟨a, -, ha⟩ := h.cases_tail
  · exact hne rfl
  · exact hw a ha

/-- An edge of a cycle. -/
def OnCycle (W : τ → τ → Prop) (a b : τ) : Prop := W a b ∧ ReflTransGen W b a

lemma OnCycle.next {a b : τ} (h : OnCycle W a b) : ∃ c, OnCycle W b c := by
  obtain ⟨hab, hba⟩ := h
  obtain rfl | ⟨c, hbc, hca⟩ := hba.cases_head
  · exact ⟨b, hab, .refl⟩
  · exact ⟨c, hbc, hca.tail hab⟩

lemma onCycle_of_closed {a b : τ} (h : TransGen W a b) (hba : ReflTransGen W b a) :
    TransGen (OnCycle W) a b := by
  induction h with
  | single hab => exact .single ⟨hab, hba⟩
  | tail hab hbc ih => exact (ih (hba.head hbc)).tail ⟨hbc, hba.trans hab.to_reflTransGen⟩

/-- Only the edges that two others can follow matter: on a cycle there is always a next one. -/
theorem acyclic_of_followed (hR : Acyclic R) (h : ∀ a b c d, W a b → W b c → W c d → R a b) :
    Acyclic W := by
  intro a hcycle
  refine hR a (TransGen.mono (fun x y hxy => ?_) a a (onCycle_of_closed hcycle .refl))
  obtain ⟨c, hyc⟩ := hxy.next
  obtain ⟨d, hcd⟩ := hyc.next
  exact h x y c d hxy.1 hyc.1 hcd.1

end WaitGraph
