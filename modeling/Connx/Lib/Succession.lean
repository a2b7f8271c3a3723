import Mathlib.Data.List.Chain
import Mathlib.Data.List.Nodup
import Mathlib.Tactic

/-!
# Succession in a list

`After l a b` says that `b` comes right after `a` in `l`. A linked structure is described by the
list of its cells in order: what a cell should point to is what comes after it.
-/

namespace Succession

variable {α : Type*} {l : List α} {a b c x : α}

def After (l : List α) (a b : α) : Prop := ∃ xs ys, l = xs ++ a :: b :: ys

@[simp] lemma not_after_nil : ¬ After [] a b := by
  rintro ⟨xs, ys, h⟩
  simp at h

lemma After.mem_left (h : After l a b) : a ∈ l := by
  obtain ⟨xs, ys, rfl⟩ := h
  simp

lemma After.mem_right (h : After l a b) : b ∈ l := by
  obtain ⟨xs, ys, rfl⟩ := h
  simp

lemma after_cons : After (x :: l) a b ↔ a = x ∧ l.head? = some b ∨ After l a b := by
  constructor
  · rintro ⟨xs, ys, h⟩
    cases xs with
    | nil =>
      obtain ⟨rfl, rfl⟩ := by simpa using h
      exact .inl ⟨rfl, rfl⟩
    | cons x' xs =>
      obtain ⟨rfl, rfl⟩ := by simpa using h
      exact .inr ⟨xs, ys, rfl⟩
  · rintro (⟨rfl, h⟩ | ⟨xs, ys, rfl⟩)
    · obtain ⟨ys, rfl⟩ := List.head?_eq_some_iff.mp h
      exact ⟨[], ys, rfl⟩
    · exact ⟨x :: xs, ys, rfl⟩

lemma after_snoc : After (l ++ [x]) a b ↔ After l a b ∨ l.getLast? = some a ∧ b = x := by
  induction l with
  | nil => simp [after_cons]
  | cons y l ih =>
    rw [List.cons_append, after_cons, ih, after_cons]
    cases l with
    | nil => simp [eq_comm]
    | cons z l => simp [List.getLast?_cons_cons, or_assoc]

/-- A cell other than the last has one after it. -/
lemma exists_after (ha : a ∈ l) (hlast : l.getLast? ≠ some a) : ∃ b, After l a b := by
  obtain ⟨xs, ys, rfl⟩ := List.append_of_mem ha
  cases ys with
  | nil => simp at hlast
  | cons b ys => exact ⟨b, xs, ys, rfl⟩

lemma After.of_head (hn : l.Nodup) (hhead : l.head? = some a) (h : After l a b) :
    ∃ ys, l = a :: b :: ys := by
  obtain ⟨xs, ys, rfl⟩ := h
  cases xs with
  | nil => exact ⟨ys, rfl⟩
  | cons x xs =>
    obtain rfl : x = a := by simpa using hhead
    simp at hn

lemma After.unique (hn : l.Nodup) (hb : After l a b) (hc : After l a c) : b = c := by
  induction l with
  | nil => simp at hb
  | cons x l ih =>
    obtain ⟨hx, hn⟩ := List.nodup_cons.mp hn
    obtain ⟨rfl, hb₁⟩ | hb₁ := after_cons.mp hb
    · obtain ⟨-, hc₁⟩ | hc₁ := after_cons.mp hc
      · exact Option.some.inj (hb₁.symm.trans hc₁)
      · exact absurd hc₁.mem_left hx
    · obtain ⟨rfl, -⟩ | hc₁ := after_cons.mp hc
      · exact absurd hb₁.mem_left hx
      · exact ih hn hb₁ hc₁

lemma not_after_last (hn : l.Nodup) (hlast : l.getLast? = some a) : ¬ After l a b := by
  rintro ⟨xs, ys, rfl⟩
  have hmem : a ∈ b :: ys := by
    have h : (b :: ys).getLast? = some a := by
      simpa [List.getLast?_append, List.getLast?_cons_cons] using hlast
    exact List.mem_of_getLast? h
  have hn' := (List.nodup_append.mp hn).2.1
  exact (List.nodup_cons.mp hn').1 hmem

/-- A path that follows the succession from the head of a list stays in the list. -/
lemma prefix_of_isChain {R : α → α → Prop} (hn : l.Nodup) (hR : ∀ a b, a ∈ l → R a b → After l a b)
    {path : List α} (hhead : path.head? = l.head?) (hpath : path.IsChain R) : path <+: l := by
  induction path generalizing l with
  | nil => exact List.nil_prefix
  | cons p path ih =>
    cases l with
    | nil => simp at hhead
    | cons y l =>
      obtain rfl : p = y := by simpa using hhead
      refine (List.prefix_cons_inj p).mpr ?_
      obtain ⟨hp, hn'⟩ := List.nodup_cons.mp hn
      cases path with
      | nil => exact List.nil_prefix
      | cons q path =>
        obtain ⟨hpq, hpath⟩ := List.isChain_cons_cons.mp hpath
        refine ih hn' (fun a b ha hab => ?_) ?_ hpath
        · obtain ⟨rfl, -⟩ | h := after_cons.mp (hR a b (List.mem_cons_of_mem _ ha) hab)
          · exact absurd ha hp
          · exact h
        · obtain ⟨-, h⟩ | h := after_cons.mp (hR p q List.mem_cons_self hpq)
          · exact h.symm
          · exact absurd h.mem_left hp

end Succession
