import Mathlib.Algebra.BigOperators.Group.List.Basic
import Mathlib.Algebra.Order.BigOperators.Group.List
import Mathlib.Tactic

/-!
# Pools of processes

A pool is a list of processes; a step replaces one of them or adds one. A shared counter is
described by a weight: it equals the sum of the weights of the processes, and a step has to account
only for the weight of the process that takes it.
-/

namespace Pool

variable {π : Type*} {ps : List π} {i : Nat} {p q : π}

/-- The sum of the weights of the processes. -/
def total (f : π → Nat) (ps : List π) : Nat := (ps.map f).sum

variable {f g h : π → Nat}

@[simp] lemma total_nil : total f [] = 0 := rfl

@[simp] lemma total_cons : total f (p :: ps) = f p + total f ps := by
  simp [total]

@[simp] lemma total_snoc : total f (ps ++ [q]) = total f ps + f q := by
  simp [total]

/-- A step of one process. -/
lemma total_set (hp : ps[i]? = some p) : total f (ps.set i q) + f p = total f ps + f q := by
  induction ps generalizing i with
  | nil => simp at hp
  | cons r ps ih =>
    cases i with
    | zero =>
      obtain rfl : r = p := by simpa using hp
      simp only [List.set_cons_zero, total_cons]
      omega
    | succ i =>
      have ih' := ih (i := i) (by simpa using hp)
      simp only [List.set_cons_succ, total_cons]
      omega

/-- The processes that satisfy a condition, after a step of one of them. -/
lemma countP_set (c : π → Bool) (hp : ps[i]? = some p) (q : π) :
    (ps.set i q).countP c + (if c p then 1 else 0) = ps.countP c + if c q then 1 else 0 := by
  obtain ⟨hlt, rfl⟩ := List.getElem?_eq_some_iff.mp hp
  have hpos : c ps[i] → 0 < ps.countP c := fun hc =>
    List.countP_pos_iff.mpr ⟨_, List.getElem_mem hlt, hc⟩
  rw [List.countP_set hlt]
  split_ifs with hold hnew hnew
  · have hle := hpos hold
    omega
  · have hle := hpos hold
    omega
  · omega
  · omega

lemma le_total (hp : ps[i]? = some p) : f p ≤ total f ps := by
  induction ps generalizing i with
  | nil => simp at hp
  | cons r ps ih =>
    rw [total_cons]
    cases i with
    | zero =>
      obtain rfl : r = p := by simpa using hp
      exact Nat.le_add_right _ _
    | succ i => exact (ih (by simpa using hp)).trans (Nat.le_add_left _ _)

lemma total_eq_zero : total f ps = 0 ↔ ∀ p ∈ ps, f p = 0 := by
  induction ps with
  | nil => simp
  | cons r ps ih => simp [ih]

lemma exists_of_total_pos (h : 0 < total f ps) : ∃ p ∈ ps, 0 < f p := by
  by_contra hnone
  push Not at hnone
  rw [total_eq_zero.mpr fun p hp => Nat.le_zero.mp (hnone p hp)] at h
  exact lt_irrefl 0 h

/-- Weights that are compared process by process. -/
lemma total_le_add (hle : ∀ p ∈ ps, f p ≤ g p + h p) : total f ps ≤ total g ps + total h ps := by
  induction ps with
  | nil => simp
  | cons r ps ih =>
    have hr := hle r List.mem_cons_self
    have ih' := ih fun p hp => hle p (List.mem_cons_of_mem _ hp)
    simp only [total_cons]
    omega

lemma total_mono (hle : ∀ p, f p ≤ g p) : total f ps ≤ total g ps := by
  induction ps with
  | nil => simp
  | cons r ps ih =>
    have hr := hle r
    simp only [total_cons]
    omega

/-- The process takes no more part in the smaller weight than in the larger one. -/
lemma total_add_le (hle : ∀ p, f p ≤ g p) (hp : ps[i]? = some p) :
    total f ps + g p ≤ total g ps + f p := by
  induction ps generalizing i with
  | nil => simp at hp
  | cons r ps ih =>
    have hr := hle r
    have hmono : total f ps ≤ total g ps := total_mono hle
    simp only [total_cons]
    cases i with
    | zero =>
      obtain rfl : r = p := by simpa using hp
      omega
    | succ i =>
      have ih' := ih (i := i) (by simpa using hp)
      omega

/-- Two processes with weight in a pool of total weight one are the same. -/
lemma eq_of_total_le_one {j : Nat} (htotal : total f ps ≤ 1) (hp : ps[i]? = some p)
    (hq : ps[j]? = some q) (hfp : 0 < f p) (hfq : 0 < f q) : i = j := by
  induction ps generalizing i j with
  | nil => simp at hp
  | cons r ps ih =>
    rw [total_cons] at htotal
    cases i with
    | zero =>
      cases j with
      | zero => rfl
      | succ j =>
        obtain rfl : r = p := by simpa using hp
        have hle : f q ≤ total f ps := le_total (i := j) (by simpa using hq)
        omega
    | succ i =>
      have hle : f p ≤ total f ps := le_total (i := i) (by simpa using hp)
      cases j with
      | zero =>
        obtain rfl : r = q := by simpa using hq
        omega
      | succ j =>
        congr 1
        exact ih (by omega) (by simpa using hp) (by simpa using hq)

lemma getElem?_snoc_eq (ps : List π) (q : π) (i : Nat) :
    (ps ++ [q])[i]? = if i = ps.length then some q else ps[i]? := by
  rcases lt_trichotomy i ps.length with hi | rfl | hi
  · rw [List.getElem?_append_left hi, if_neg hi.ne]
  · simp
  · rw [if_neg hi.ne', List.getElem?_eq_none hi.le, List.getElem?_eq_none (by simpa using hi)]

lemma getElem?_snoc (hp : (ps ++ [q])[i]? = some p) : ps[i]? = some p ∨ i = ps.length ∧ p = q := by
  rw [getElem?_snoc_eq] at hp
  split_ifs at hp with hi
  · exact .inr ⟨hi, (Option.some.inj hp).symm⟩
  · exact .inl hp

lemma eq_or_getElem?_of_mem_set (hq : q ∈ ps.set i p) : q = p ∨ ∃ j, j ≠ i ∧ ps[j]? = some q := by
  obtain ⟨j, hj⟩ := List.mem_iff_getElem?.mp hq
  rw [List.getElem?_set] at hj
  split_ifs at hj with hij hlt
  · exact .inl (Option.some.inj hj).symm
  · exact .inr ⟨j, fun heq => hij heq.symm, hj⟩

/-- The other processes of a pool without repetitions, after a step of one of them. -/
lemma mem_set_of_nodup {κ : Type*} {key : π → κ} {r : π} (hnodup : (ps.map key).Nodup)
    (hp : ps[i]? = some p) (hr : r ∈ ps.set i q) : r = q ∨ r ∈ ps ∧ key r ≠ key p := by
  obtain ⟨j, hj⟩ := List.mem_iff_getElem?.mp hr
  have hlt : i < ps.length := (List.getElem?_eq_some_iff.mp hp).1
  by_cases hij : i = j
  · subst hij
    rw [List.getElem?_set_self hlt] at hj
    exact .inl (Option.some.inj hj).symm
  · rw [List.getElem?_set_ne hij] at hj
    refine .inr ⟨List.mem_of_getElem? hj, fun heq => hij ?_⟩
    exact (List.getElem?_inj (by simpa using hlt) hnodup).mp (by simp [hp, hj, heq])

/-- A step keeps the key of the process that takes it. -/
lemma map_set_of_eq {κ : Type*} {key : π → κ} (hp : ps[i]? = some p) (hq : key q = key p) :
    (ps.set i q).map key = ps.map key := by
  obtain ⟨hlt, rfl⟩ := List.getElem?_eq_some_iff.mp hp
  have hlt' : i < (ps.map key).length := by simpa using hlt
  have hself := List.set_getElem_self hlt'
  rwa [List.getElem_map, ← hq, ← List.map_set] at hself

/-- What only one process has a part in. -/
lemma flatMap_of_unique {β : Type*} {f : π → List β} (hp : ps[i]? = some p)
    (hother : ∀ (j : Nat) (q : π), ps[j]? = some q → j ≠ i → f q = []) : ps.flatMap f = f p := by
  induction ps generalizing i with
  | nil => simp at hp
  | cons r ps ih =>
    rw [List.flatMap_cons]
    cases i with
    | zero =>
      obtain rfl : r = p := by simpa using hp
      have hnil : ps.flatMap f = [] := by
        rw [List.flatMap_eq_nil_iff]
        intro q hq
        obtain ⟨j, hj⟩ := List.mem_iff_getElem?.mp hq
        exact hother (j + 1) q (by simpa using hj) (by simp)
      rw [hnil, List.append_nil]
    | succ i =>
      rw [hother 0 r rfl (by simp), List.nil_append]
      exact ih (by simpa using hp) fun j q hj hne =>
        hother (j + 1) q (by simpa using hj) (by simpa using hne)

end Pool
