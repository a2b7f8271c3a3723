import Mathlib.SetTheory.Ordinal.Family
import Connx.Lib.Resumption
import Connx.Lib.Run

/-!
# Infinite runs and what they come to

A thread comes to its goal in every infinite run if each of its own steps brings it nearer, the
steps of the others do not take it back, and it is given its turn as long as it is ready. Suspended
code comes nearer to its end whenever it goes on, whatever it finds: its rank is an ordinal.
-/

namespace Run

variable {σ ℓ : Type*} {step : σ → ℓ → Option σ} {s : σ}

/-- An infinite run from `s`: its states and the labels between them. -/
structure Forever (step : σ → ℓ → Option σ) (s : σ) where
  state : Nat → σ
  label : Nat → ℓ
  start : state 0 = s
  next : ∀ n, step (state n) (label n) = some (state (n + 1))

namespace Forever

variable (r : Forever step s) {ok : σ → ℓ → Prop} {I ready : σ → Prop} {mine : ℓ → Prop}

/-- Weak fairness: a thread that stays ready takes a step. -/
def Fair (ready : σ → Prop) (mine : ℓ → Prop) : Prop :=
  ∀ n, (∀ m, n ≤ m → ready (r.state m)) → ∃ m, n ≤ m ∧ mine (r.label m)

variable {r}

/-- What admissible steps preserve holds in every state. -/
lemma invariant (hstep : ∀ s l s', I s → ok s l → step s l = some s' → I s')
    (hok : ∀ n, ok (r.state n) (r.label n)) (hs : I s) (n : Nat) : I (r.state n) := by
  induction n with
  | zero =>
    rw [r.start]
    exact hs
  | succ n ih => exact hstep _ _ _ ih (hok n) (r.next n)

/-- A finite run that ends in a state in which it can stay is the beginning of an infinite one. -/
lemma exists_stay {ls : List ℓ} {t : σ} {l : ℓ} (hexec : exec step s ls = some t)
    (hstay : step t l = some t) (hok : Meets step ok s ls) (hl : ok t l) :
    ∃ r : Forever step s, (∀ n, ok (r.state n) (r.label n)) ∧
      (∀ n, ls.length ≤ n → r.state n = t ∧ r.label n = l) ∧
        ∀ n, n ≤ ls.length → exec step s (ls.take n) = some (r.state n) := by
  induction ls generalizing s with
  | nil =>
    obtain rfl : s = t := by simpa using hexec
    exact ⟨⟨fun _ => s, fun _ => l, rfl, fun _ => hstay⟩, fun _ => hl, fun _ _ => ⟨rfl, rfl⟩,
      by simp⟩
  | cons l' ls ih =>
    obtain ⟨u, hu, hut⟩ := exec_cons_iff.mp hexec
    obtain ⟨r, hr, hend, hagree⟩ := ih hut (hok.2 u hu)
    refine ⟨⟨fun n => n.casesOn s r.state, fun n => n.casesOn l' r.label, rfl, ?_⟩, ?_, ?_, ?_⟩
    · rintro (_ | n)
      · exact hu.trans (congrArg some r.start.symm)
      · exact r.next n
    · rintro (_ | n)
      · exact hok.1
      · exact hr n
    · rintro (_ | n) hn
      · simp at hn
      · exact hend n (by simpa using hn)
    · rintro (_ | n) hn
      · rfl
      · exact exec_cons_iff.mpr ⟨u, hu, hagree n (by simpa using hn)⟩

variable {ρ : Type*} [Preorder ρ] [WellFoundedLT ρ]

/-- Progress rule: `I` holds until the goal is reached; as long as it does the thread is ready, its
steps lower the rank and no step raises it. -/
theorem leadsTo (rank : σ → ρ) (goal : σ → Prop) (hfair : r.Fair ready mine)
    (hok : ∀ n, ok (r.state n) (r.label n)) (hready : ∀ s, I s → ready s)
    (hkeep : ∀ s l s', I s → ok s l → step s l = some s' →
      goal s' ∨ I s' ∧ rank s' ≤ rank s ∧ (mine l → rank s' < rank s))
    {n : Nat} (hn : I (r.state n)) : ∃ m, n ≤ m ∧ goal (r.state m) := by
  induction hrank : rank (r.state n) using WellFoundedLT.induction generalizing n with
  | ind k ih =>
    by_contra hnever
    have hnext : ∀ m, n ≤ m → I (r.state m) → I (r.state (m + 1)) ∧
        rank (r.state (m + 1)) ≤ rank (r.state m) ∧
          (mine (r.label m) → rank (r.state (m + 1)) < rank (r.state m)) := by
      intro m hm hI
      refine (hkeep _ _ _ hI (hok m) (r.next m)).resolve_left fun hgoal => hnever ?_
      exact ⟨m + 1, by omega, hgoal⟩
    -- up to the next step of the thread nothing raises the rank
    have hstays : ∀ m, n ≤ m → I (r.state m) ∧ rank (r.state m) ≤ k := by
      intro m hm
      induction m, hm using Nat.le_induction with
      | base => exact ⟨hn, hrank.le⟩
      | succ m hm ihm =>
        obtain ⟨hI, hle, -⟩ := hnext m hm ihm.1
        exact ⟨hI, hle.trans ihm.2⟩
    obtain ⟨m, hm, hmine⟩ := hfair n fun m hm => hready _ (hstays m hm).1
    obtain ⟨hI, -, hlt⟩ := hnext m hm (hstays m hm).1
    obtain ⟨m', hm', hgoal⟩ := ih _ ((hlt hmine).trans_le (hstays m hm).2) hI rfl
    exact hnever ⟨m', by omega, hgoal⟩

/-- Progress rule for a condition that holds also when the goal is reached. -/
theorem reaches (rank : σ → ρ) (goal : σ → Prop) (hfair : r.Fair ready mine)
    (hok : ∀ n, ok (r.state n) (r.label n))
    (hready : ∀ s, I s → ¬ goal s → ready s)
    (hkeep : ∀ s l s', I s → ¬ goal s → ok s l → step s l = some s' →
      I s' ∧ rank s' ≤ rank s ∧ (mine l → rank s' < rank s))
    {n : Nat} (hn : I (r.state n)) : ∃ m, n ≤ m ∧ I (r.state m) ∧ goal (r.state m) := by
  by_cases hgoal : goal (r.state n)
  · exact ⟨n, le_rfl, hn, hgoal⟩
  refine leadsTo (I := fun s => I s ∧ ¬ goal s) rank (fun s => I s ∧ goal s) hfair hok
    (fun s h => hready s h.1 h.2) ?_ ⟨hn, hgoal⟩
  rintro s l s' ⟨hI, hnot⟩ hok hstep
  obtain ⟨hI', hle, hlt⟩ := hkeep s l s' hI hnot hok hstep
  by_cases hgoal' : goal s'
  · exact Or.inl ⟨hI', hgoal'⟩
  · exact Or.inr ⟨⟨hI', hgoal'⟩, hle, hlt⟩

end Forever

end Run

namespace Resum

variable {σ ε α : Type}

/-- How far a program is from its end, in calls. -/
noncomputable def depth : Resum σ ε α → Ordinal.{0}
  | .ret _ _ => 0
  | .call _ _ k => ⨆ s, Order.succ (depth (k s))

lemma depth_lt_iSup (k : σ → Resum σ ε α) (s : σ) :
    (k s).depth < ⨆ s', Order.succ (k s').depth :=
  (Order.lt_succ _).trans_le (Ordinal.le_iSup (fun s' => Order.succ (k s').depth) s)

end Resum
