import Connx.Lib.Succession
import Connx.Utils.Mpscq.Basic

/-!
# The list that the queue holds

Between a producer's exchange and its link the list is broken: the cell before the new one does not
point to it yet. `Shape` describes the list by its cells in the order of the exchanges and by the
links that are still to be written.
-/

namespace Connx.Mpscq

open Succession

variable {ν : Type} {q : Queue ν} {P P' : Cell ν → Cell ν → Prop}
  {chain : List (Cell ν)} {a b c prev obj : Cell ν}

/-- The cells from `oldest_` to `newest_`. Each points to the one after it, or this link is one of
those that are to be written. -/
structure Shape (q : Queue ν) (P : Cell ν → Cell ν → Prop) (chain : List (Cell ν)) : Prop where
  head : chain.head? = some q.oldest
  last : chain.getLast? = some q.newest
  nodup : chain.Nodup
  links : ∀ a b, After chain a b → q.next a = some b ∨ q.next a = none ∧ P a b
  pending : ∀ a b, P a b → q.next a = none ∧ After chain a b
  newest : q.next q.newest = none

section setNext

variable [DecidableEq ν]

@[simp] lemma Queue.setNext_newest (q : Queue ν) (target : Option (Cell ν)) :
    (q.setNext c target).newest = q.newest := rfl

@[simp] lemma Queue.setNext_self (q : Queue ν) (target : Option (Cell ν)) :
    (q.setNext c target).next c = target := Function.update_self _ _ _

lemma Queue.setNext_of_ne (q : Queue ν) (target : Option (Cell ν)) (h : a ≠ c) :
    (q.setNext c target).next a = q.next a := Function.update_of_ne h _ _

lemma Queue.setNext_of_mem (q : Queue ν) (target : Option (Cell ν)) (ha : a ∈ chain)
    (hc : c ∉ chain) : (q.setNext c target).next a = q.next a :=
  q.setNext_of_ne target fun h => hc (h ▸ ha)

lemma Queue.setNext_of_not_mem (q : Queue ν) (target : Option (Cell ν)) (ha : a ∉ chain)
    (hc : c ∈ chain) : (q.setNext c target).next a = q.next a :=
  q.setNext_of_ne target fun h => ha (h ▸ hc)

end setNext

namespace Shape

lemma congr (h : Shape q P chain) (hP : ∀ a b, P' a b ↔ P a b) : Shape q P' chain where
  head := h.head
  last := h.last
  nodup := h.nodup
  links a b hab := (h.links a b hab).imp_right fun hn => ⟨hn.1, (hP a b).mpr hn.2⟩
  pending a b hab := h.pending a b ((hP a b).mp hab)
  newest := h.newest

lemma oldest_mem (h : Shape q P chain) : q.oldest ∈ chain := List.mem_of_mem_head? h.head

lemma newest_mem (h : Shape q P chain) : q.newest ∈ chain := List.mem_of_getLast? h.last

/-- A cell that is not in the list gets its null. -/
lemma clear [DecidableEq ν] (h : Shape q P chain) (hc : c ∉ chain) :
    Shape (q.setNext c none) P chain where
  head := h.head
  last := h.last
  nodup := h.nodup
  links a b hab := by
    rw [q.setNext_of_mem none hab.mem_left hc]
    exact h.links a b hab
  pending a b hab := by
    have hafter := (h.pending a b hab).2
    rw [q.setNext_of_mem none hafter.mem_left hc]
    exact h.pending a b hab
  newest := by
    rw [Queue.setNext_newest, q.setNext_of_mem none h.newest_mem hc]
    exact h.newest

/-- A cell is appended; the link to it is still to be written. -/
lemma exchange (h : Shape q P chain) (hc : c ∉ chain) (hnext : q.next c = none)
    (hP : ∀ a b, P' a b ↔ P a b ∨ a = q.newest ∧ b = c) :
    Shape { q with newest := c } P' (chain ++ [c]) where
  head := by rw [List.head?_append, h.head]; rfl
  last := by simp
  nodup := by
    refine List.nodup_append.mpr ⟨h.nodup, List.nodup_singleton c, ?_⟩
    rintro a ha _ hb rfl
    exact hc (List.mem_singleton.mp hb ▸ ha)
  links a b hab := by
    obtain hab | ⟨hlast, rfl⟩ := after_snoc.mp hab
    · exact (h.links a b hab).imp_right fun hn => ⟨hn.1, (hP a b).mpr (.inl hn.2)⟩
    · obtain rfl : q.newest = a := Option.some.inj (h.last.symm.trans hlast)
      exact .inr ⟨h.newest, (hP _ _).mpr (.inr ⟨rfl, rfl⟩)⟩
  pending a b hab := by
    obtain hab | ⟨rfl, rfl⟩ := (hP a b).mp hab
    · exact ⟨(h.pending a b hab).1, after_snoc.mpr (.inl (h.pending a b hab).2)⟩
    · exact ⟨h.newest, after_snoc.mpr (.inr ⟨h.last, rfl⟩)⟩
  newest := hnext

/-- A link is written. -/
lemma link [DecidableEq ν] (h : Shape q P chain) (hP : ∀ a b, P a b ↔ P' a b ∨ a = prev ∧ b = c)
    (hnot : ¬ P' prev c) : Shape (q.setNext prev (some c)) P' chain := by
  have hlink : After chain prev c := (h.pending prev c ((hP _ _).mpr (.inr ⟨rfl, rfl⟩))).2
  have hne : ∀ a b, P' a b → a ≠ prev := by
    rintro a b hab rfl
    have hafter := (h.pending a b ((hP _ _).mpr (.inl hab))).2
    exact hnot (hafter.unique h.nodup hlink ▸ hab)
  refine ⟨h.head, h.last, h.nodup, fun a b hab => ?_, fun a b hab => ?_, ?_⟩
  · by_cases ha : a = prev
    · subst ha
      rw [hab.unique h.nodup hlink]
      exact .inl (by simp)
    · rw [q.setNext_of_ne _ ha]
      refine (h.links a b hab).imp_right fun hn => ⟨hn.1, ?_⟩
      exact ((hP a b).mp hn.2).resolve_right fun hprev => ha hprev.1
  · rw [q.setNext_of_ne _ (hne a b hab)]
    exact h.pending a b ((hP a b).mpr (.inl hab))
  · have hnewest : q.newest ≠ prev := by
      rintro rfl
      exact not_after_last h.nodup h.last hlink
    rw [Queue.setNext_newest, q.setNext_of_ne _ hnewest]
    exact h.newest

/-- What a pointer of the list says. -/
lemma after_of_next (h : Shape q P chain) (ha : a ∈ chain) (hnext : q.next a = some b) :
    After chain a b := by
  have hlast : chain.getLast? ≠ some a := by
    intro hlast
    obtain rfl : q.newest = a := Option.some.inj (h.last.symm.trans hlast)
    simp [h.newest] at hnext
  obtain ⟨b', hafter⟩ := exists_after ha hlast
  obtain hb | hb := h.links a b' hafter
  · obtain rfl : b = b' := Option.some.inj (hnext.symm.trans hb)
    exact hafter
  · simp [hb.1] at hnext

lemma eq_cons_of_next (h : Shape q P chain) (hnext : q.next q.oldest = some obj) :
    ∃ rest, chain = q.oldest :: obj :: rest :=
  (h.after_of_next h.oldest_mem hnext).of_head h.nodup h.head

/-- The consumer goes on to the second cell. -/
lemma advance {rest : List (Cell ν)} (h : Shape q P (q.oldest :: obj :: rest))
    (hnext : q.next q.oldest = some obj) : Shape { q with oldest := obj } P (obj :: rest) where
  head := rfl
  last := by simpa [List.getLast?_cons_cons] using h.last
  nodup := (List.nodup_cons.mp h.nodup).2
  links a b hab := h.links a b (after_cons.mpr (.inr hab))
  pending a b hab := by
    obtain ⟨hnone, hafter⟩ := h.pending a b hab
    refine ⟨hnone, ?_⟩
    obtain ⟨rfl, -⟩ | hafter := after_cons.mp hafter
    · simp [hnext] at hnone
    · exact hafter
  newest := h.newest

/-- Nothing comes after the only cell. -/
lemma eq_singleton (h : Shape q P chain) (heq : q.oldest = q.newest) : chain = [q.oldest] := by
  obtain ⟨rest, rfl⟩ := List.head?_eq_some_iff.mp h.head
  cases rest with
  | nil => rfl
  | cons b rest =>
    have hlast : (q.oldest :: b :: rest).getLast? = some q.oldest := heq ▸ h.last
    exact absurd ⟨[], rest, rfl⟩ (not_after_last h.nodup hlast)

end Shape

end Connx.Mpscq
