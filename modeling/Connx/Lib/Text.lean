import Mathlib.Tactic

/-!
# Searching and cutting strings

Strings as lists of characters, with the operations of a mutable string class: a search for a
character from a position on, and a substring by position and length that fails when the position
is outside. The lemmas read a search as a decomposition of the string, so that a parser built on
positions can be reasoned about without them.
-/

namespace Text

variable {α : Type*} {s l r : List α} {c : α} {pos i n : Nat}

/-- The `n` characters from `pos` on, fewer at the end of `s`; `none` if `pos` is outside. -/
def substr (s : List α) (pos n : Nat) : Option (List α) :=
  if s.length < pos then none else some ((s.drop pos).take n)

lemma substr_append (a b d : List α) : substr (a ++ (b ++ d)) a.length b.length = some b := by
  rw [substr, if_neg (by simp), List.drop_left, List.take_left]

lemma substr_append_right (a b : List α) : substr (a ++ b) a.length b.length = some b := by
  simpa using substr_append a b []

variable [DecidableEq α]

/-- The first position of `c` in `s` that is not before `pos`. -/
def find (s : List α) (c : α) (pos : Nat) : Option Nat :=
  ((s.drop pos).idxOf? c).map (· + pos)

lemma find_eq_none_iff : find s c pos = none ↔ c ∉ s.drop pos := by
  simp [find, List.idxOf?_eq_none_iff]

lemma idxOf?_append_cons (hl : c ∉ l) : (l ++ c :: r).idxOf? c = some l.length := by
  induction l with
  | nil => simp [List.idxOf?_cons]
  | cons a l ih =>
    obtain ⟨hne, hl⟩ := not_or.mp (mt List.mem_cons.mpr hl)
    rw [List.cons_append, List.idxOf?_cons, ih hl]
    simp [Ne.symm hne]

/-- The search stops at the first `c` behind a part without it. -/
lemma find_append_cons (a : List α) (hl : c ∉ l) :
    find (a ++ (l ++ c :: r)) c a.length = some (a.length + l.length) := by
  rw [find, List.drop_left, idxOf?_append_cons hl, Option.map_some, Nat.add_comm]

/-- A string has no `c`, or it splits at its first one. -/
lemma exists_first (s : List α) (c : α) : c ∉ s ∨ ∃ l r, s = l ++ c :: r ∧ c ∉ l := by
  by_cases h : c ∈ s
  · exact Or.inr (List.eq_append_cons_of_mem h)
  · exact Or.inl h

end Text
