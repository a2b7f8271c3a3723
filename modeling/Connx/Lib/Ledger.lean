import Mathlib.Logic.Function.Basic
import Mathlib.Tactic

/-!
# Linear ownership

Slots hold resources; a resource is held by one slot until it is freed, once. A program that only
puts new resources into empty slots, moves them between slots and frees what a slot holds keeps to
that.
-/

namespace Ledger

open Function

variable {σ κ : Type*} {content content' : σ → Option κ} {frees frees' : κ → Nat}
  {born born' : κ → Prop} {s d : σ} {k : κ}

/-- `content s` is what the slot holds, `frees k` how often the resource has been freed. -/
structure Linear (content : σ → Option κ) (frees : κ → Nat) (born : κ → Prop) : Prop where
  known : ∀ s k, content s = some k → born k
  unique : ∀ s s' k, content s = some k → content s' = some k → s = s'
  live : ∀ s k, content s = some k → frees k = 0
  owned : ∀ k, born k → frees k = 1 ∨ ∃ s, content s = some k
  unborn : ∀ k, ¬ born k → frees k = 0

namespace Linear

variable (h : Linear content frees born)
include h

lemma frees_le_one (k : κ) : frees k ≤ 1 := by
  by_cases hk : born k
  · obtain hfreed | ⟨s, hs⟩ := h.owned k hk
    · exact hfreed.le
    · rw [h.live s k hs]
      exact Nat.zero_le 1
  · rw [h.unborn k hk]
    exact Nat.zero_le 1

variable [DecidableEq σ]

/-- A new resource goes into an empty slot. -/
theorem put (hs : content s = none) (hk : ¬ born k) :
    Linear (update content s (some k)) frees fun j => j = k ∨ born j := by
  have hne {s' : σ} (hs' : content s' = some k) : False := hk (h.known s' k hs')
  refine ⟨?_, ?_, ?_, ?_, ?_⟩
  · intro s' j hj
    by_cases hss : s' = s
    · obtain rfl := hss
      rw [update_self] at hj
      exact .inl (Option.some.inj hj).symm
    · rw [update_of_ne hss] at hj
      exact .inr (h.known s' j hj)
  · intro s₁ s₂ j h₁ h₂
    by_cases hs₁ : s₁ = s <;> by_cases hs₂ : s₂ = s
    · rw [hs₁, hs₂]
    · rw [hs₁, update_self] at h₁
      rw [update_of_ne hs₂, ← h₁] at h₂
      exact (hne h₂).elim
    · rw [hs₂, update_self] at h₂
      rw [update_of_ne hs₁, ← h₂] at h₁
      exact (hne h₁).elim
    · rw [update_of_ne hs₁] at h₁
      rw [update_of_ne hs₂] at h₂
      exact h.unique s₁ s₂ j h₁ h₂
  · intro s' j hj
    by_cases hss : s' = s
    · rw [hss, update_self] at hj
      rw [← Option.some.inj hj]
      exact h.unborn k hk
    · rw [update_of_ne hss] at hj
      exact h.live s' j hj
  · rintro j (rfl | hj)
    · exact .inr ⟨s, update_self ..⟩
    · refine (h.owned j hj).imp_right fun ⟨s', hs'⟩ => ⟨s', ?_⟩
      have hss : s' ≠ s := by
        rintro rfl
        simp [hs] at hs'
      rwa [update_of_ne hss]
  · intro j hj
    push Not at hj
    exact h.unborn j hj.2

/-- A resource goes from one slot to an empty one. -/
theorem move (hs : content s = some k) (hd : content d = none) :
    Linear (update (update content s none) d (some k)) frees born := by
  have hne : s ≠ d := by
    rintro rfl
    simp [hs] at hd
  -- what a slot holds now, it held before, or it is the one moved
  have hback {s' : σ} {j : κ} (hj : update (update content s none) d (some k) s' = some j) :
      s' = d ∧ j = k ∨ s' ≠ s ∧ content s' = some j := by
    by_cases hsd : s' = d
    · obtain rfl := hsd
      rw [update_self] at hj
      exact .inl ⟨rfl, (Option.some.inj hj).symm⟩
    · rw [update_of_ne hsd] at hj
      by_cases hss : s' = s
      · simp [hss] at hj
      · rw [update_of_ne hss] at hj
        exact .inr ⟨hss, hj⟩
  refine ⟨?_, ?_, ?_, ?_, h.unborn⟩
  · intro s' j hj
    obtain ⟨-, rfl⟩ | ⟨-, hj⟩ := hback hj
    · exact h.known s j hs
    · exact h.known s' j hj
  · intro s₁ s₂ j h₁ h₂
    obtain ⟨hd₁, rfl⟩ | ⟨hs₁, hj₁⟩ := hback h₁ <;> obtain ⟨hd₂, heq⟩ | ⟨hs₂, hj₂⟩ := hback h₂
    · rw [hd₁, hd₂]
    · exact absurd (h.unique s₂ s j hj₂ hs) hs₂
    · exact absurd (h.unique s₁ s j hj₁ (heq ▸ hs)) hs₁
    · exact h.unique s₁ s₂ j hj₁ hj₂
  · intro s' j hj
    obtain ⟨-, rfl⟩ | ⟨-, hj⟩ := hback hj
    · exact h.live s j hs
    · exact h.live s' j hj
  · intro j hj
    refine (h.owned j hj).imp_right fun ⟨s', hs'⟩ => ?_
    by_cases hss : s' = s
    · obtain rfl := hss
      exact ⟨d, by rw [update_self, ← hs, hs']⟩
    · have hsd : s' ≠ d := by
        rintro rfl
        simp [hd] at hs'
      exact ⟨s', by rwa [update_of_ne hsd, update_of_ne hss]⟩

/-- What a slot holds is freed. -/
theorem free [DecidableEq κ] (hs : content s = some k) :
    Linear (update content s none) (update frees k (frees k + 1)) born := by
  have hback {s' : σ} {j : κ} (hj : update content s none s' = some j) :
      s' ≠ s ∧ content s' = some j := by
    by_cases hss : s' = s
    · simp [hss] at hj
    · exact ⟨hss, by rwa [update_of_ne hss] at hj⟩
  have hne {s' : σ} {j : κ} (hj : update content s none s' = some j) : j ≠ k := by
    rintro rfl
    exact (hback hj).1 (h.unique s' s j (hback hj).2 hs)
  refine ⟨fun s' j hj => h.known s' j (hback hj).2, ?_, ?_, ?_, ?_⟩
  · intro s₁ s₂ j h₁ h₂
    exact h.unique s₁ s₂ j (hback h₁).2 (hback h₂).2
  · intro s' j hj
    rw [update_of_ne (hne hj)]
    exact h.live s' j (hback hj).2
  · intro j hj
    by_cases hjk : j = k
    · rw [hjk, update_self, h.live s k hs]
      exact .inl rfl
    · rw [update_of_ne hjk]
      refine (h.owned j hj).imp_right fun ⟨s', hs'⟩ => ⟨s', ?_⟩
      have hss : s' ≠ s := by
        rintro rfl
        exact hjk (Option.some.inj (hs'.symm.trans hs))
      rwa [update_of_ne hss]
  · intro j hj
    have hjk : j ≠ k := by
      rintro rfl
      exact hj (h.known s j hs)
    rw [update_of_ne hjk]
    exact h.unborn j hj

end Linear

end Ledger
