import Mathlib.Data.List.Induction

/-!
# Histories

A property of every event of a history, given what happened before it, and the order of two events.
-/

namespace History

variable {ε : Type*} {Φ Ψ : List ε → ε → Prop}

/-- Every event of the history satisfies `Φ` with what happened before it. -/
def Always (Φ : List ε → ε → Prop) (t : List ε) : Prop :=
  ∀ before e after, t = before ++ e :: after → Φ before e

@[simp] lemma always_nil : Always Φ [] := by
  intro before e after h
  simp at h

lemma always_snoc {t : List ε} {e : ε} : Always Φ (t ++ [e]) ↔ Always Φ t ∧ Φ t e := by
  constructor
  · intro h
    refine ⟨fun before e' after ht => ?_, h t e [] rfl⟩
    exact h before e' (after ++ [e]) (by simp [ht])
  · rintro ⟨ht, he⟩ before e' after h
    rcases List.eq_nil_or_concat after with rfl | ⟨after', e'', rfl⟩
    · obtain ⟨rfl, hlast⟩ := List.append_inj' h rfl
      obtain rfl : e = e' := by simpa using hlast
      exact he
    · have h' : t ++ [e] = (before ++ e' :: after') ++ [e''] := by simpa using h
      exact ht before e' after' (List.append_inj' h' rfl).1

/-- The event `a` happened before some `b`. -/
def Before (a b : ε) (t : List ε) : Prop := ∃ before after, t = before ++ b :: after ∧ a ∈ before

lemma before_snoc {a b e : ε} {t : List ε} :
    Before a b (t ++ [e]) ↔ Before a b t ∨ (e = b ∧ a ∈ t) := by
  constructor
  · rintro ⟨before, after, h, ha⟩
    rcases List.eq_nil_or_concat after with rfl | ⟨after', e', rfl⟩
    · obtain ⟨rfl, hlast⟩ := List.append_inj' h rfl
      exact Or.inr ⟨by simpa using hlast, ha⟩
    · have h' : t ++ [e] = (before ++ b :: after') ++ [e'] := by simpa using h
      exact Or.inl ⟨before, after', (List.append_inj' h' rfl).1, ha⟩
  · rintro (⟨before, after, rfl, ha⟩ | ⟨rfl, ha⟩)
    · exact ⟨before, after ++ [e], by simp, ha⟩
    · exact ⟨t, [], rfl, ha⟩

lemma Before.mem {a b : ε} {t : List ε} (h : Before a b t) : a ∈ t := by
  obtain ⟨before, after, rfl, ha⟩ := h
  exact List.mem_append_left _ ha

/-- Events that satisfy the property whatever happened before them. -/
lemma Always.append {t es : List ε} (h : Always Φ t) (hes : ∀ e ∈ es, ∀ before, Φ before e) :
    Always Φ (t ++ es) := by
  induction es using List.reverseRecOn with
  | nil => simpa using h
  | append_singleton es e ih =>
    rw [← List.append_assoc, always_snoc]
    refine ⟨ih fun e' he' => hes e' (List.mem_append_left _ he'), hes e (by simp) _⟩

end History
