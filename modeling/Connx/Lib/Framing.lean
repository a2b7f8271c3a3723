import Mathlib.Tactic

/-!
# Framing of a byte stream

A decoder looks at the front of a stream and finds a frame, asks for more, or rejects it.
`frames` cuts a whole stream into frames. A prefix-stable decoder does not change its mind when the
stream grows, so that frames can be cut off as the stream arrives: what was parsed so far and what
is left always determine the frames of the whole stream.
-/

namespace Framing

variable {α : Type*}

inductive Answer where
  | frame (n : Nat)
  | more
  | error
  deriving DecidableEq, Repr

/-- A decoder whose frames are not empty, and whose answers, except `more`, are final. -/
structure PrefixStable (dec : List α → Answer) : Prop where
  pos {x : List α} {n : Nat} : dec x = .frame n → 0 < n
  le {x : List α} {n : Nat} : dec x = .frame n → n ≤ x.length
  frame {x : List α} {n : Nat} : dec x = .frame n → ∀ y, dec (x ++ y) = .frame n
  error {x : List α} : dec x = .error → ∀ y, dec (x ++ y) = .error

variable (dec : List α → Answer)

/-- Cutting the frames `ms` off the front of `x` leaves `y`. -/
inductive Parses : List α → List (List α) → List α → Prop
  | nil (x : List α) : Parses x [] x
  | cons {x y : List α} {ms : List (List α)} {n : Nat} (h : dec x = .frame n)
      (hrest : Parses (x.drop n) ms y) : Parses x (x.take n :: ms) y

/-- Cut off frames as long as there are any, at most `fuel` of them. -/
def cut : Nat → List α → List (List α) × List α
  | 0, x => ([], x)
  | fuel + 1, x =>
    match dec x with
    | .frame n => ((x.take n) :: (cut fuel (x.drop n)).1, (cut fuel (x.drop n)).2)
    | _ => ([], x)

/-- The frames of a stream. -/
def frames (x : List α) : List (List α) := (cut dec x.length x).1

/-- What is left of a stream after its frames. -/
def remainder (x : List α) : List α := (cut dec x.length x).2

/-- The stream is rejected after its frames. -/
def Rejects (x : List α) : Prop := remainder dec x ≠ [] ∧ dec (remainder dec x) = .error

variable {dec}

section

variable {x y z : List α} {ms ms' : List (List α)}

lemma Parses.trans (h : Parses dec x ms y) (h' : Parses dec y ms' z) :
    Parses dec x (ms ++ ms') z := by
  induction h with
  | nil x => exact h'
  | cons hx _ ih => exact .cons hx (ih h')

lemma Parses.snoc {n : Nat} (h : Parses dec x ms y) (hy : dec y = .frame n) :
    Parses dec x (ms ++ [y.take n]) (y.drop n) :=
  h.trans (.cons hy (.nil _))

end

namespace PrefixStable

variable (h : PrefixStable dec) {x y z : List α} {ms : List (List α)}

include h

/-- Parsing does not depend on what follows. -/
lemma parses_append (hp : Parses dec x ms y) (z : List α) : Parses dec (x ++ z) ms (y ++ z) := by
  induction hp with
  | nil x => exact .nil _
  | @cons x y ms n hx _ ih =>
    have hcons := Parses.cons (h.frame hx z) (by rwa [List.drop_append_of_le_length (h.le hx)])
    rwa [List.take_append_of_le_length (h.le hx)] at hcons

/-- Enough fuel is enough. -/
lemma cut_eq_cut (fuel fuel' : Nat) (hf : x.length ≤ fuel) (hf' : x.length ≤ fuel') :
    cut dec fuel x = cut dec fuel' x := by
  induction fuel generalizing x fuel' with
  | zero =>
    obtain rfl : x = [] := List.length_eq_zero_iff.mp (Nat.le_zero.mp hf)
    cases fuel' with
    | zero => rfl
    | succ fuel' =>
      rw [cut, cut]
      split
      · next n hn => exact absurd (h.le hn) (Nat.not_le.mpr (h.pos hn))
      · rfl
  | succ fuel ih =>
    cases fuel' with
    | zero =>
      obtain rfl : x = [] := List.length_eq_zero_iff.mp (Nat.le_zero.mp hf')
      rw [cut, cut]
      split
      · next n hn => exact absurd (h.le hn) (Nat.not_le.mpr (h.pos hn))
      · rfl
    | succ fuel' =>
      rw [cut, cut]
      split
      · next n hn =>
        have hpos := h.pos hn
        have hlen : (x.drop n).length = x.length - n := List.length_drop
        rw [ih (x := x.drop n) fuel' (by omega) (by omega)]
      · rfl

lemma cut_frame {n : Nat} (hn : dec x = .frame n) :
    frames dec x = x.take n :: frames dec (x.drop n) ∧
      remainder dec x = remainder dec (x.drop n) := by
  have hpos := h.pos hn
  have hle := h.le hn
  obtain ⟨m, hm⟩ : ∃ m, x.length = m + 1 := ⟨x.length - 1, by omega⟩
  have hlen : (x.drop n).length ≤ m := by rw [List.length_drop]; omega
  have hcut : cut dec x.length x =
      (x.take n :: (cut dec (x.drop n).length (x.drop n)).1,
        (cut dec (x.drop n).length (x.drop n)).2) := by
    rw [hm, cut, hn, h.cut_eq_cut _ m le_rfl hlen]
  unfold frames remainder
  rw [hcut]
  exact ⟨rfl, rfl⟩

omit h in
/-- A stream without a frame at its front. -/
lemma cut_of_no_frame (hx : ∀ n, dec x ≠ .frame n) : frames dec x = [] ∧ remainder dec x = x := by
  have hcut : cut dec x.length x = ([], x) := by
    cases x.length with
    | zero => rfl
    | succ fuel =>
      rw [cut]
      split
      · next n hn => exact absurd hn (hx n)
      · rfl
  unfold frames remainder
  rw [hcut]
  exact ⟨rfl, rfl⟩

/-- What was cut off and what is left determine the frames of the stream. -/
theorem cut_of_parses (hp : Parses dec x ms y) :
    frames dec x = ms ++ frames dec y ∧ remainder dec x = remainder dec y := by
  induction hp with
  | nil x => exact ⟨rfl, rfl⟩
  | cons hx _ ih =>
    obtain ⟨hf, hr⟩ := h.cut_frame hx
    rw [hf, hr, ih.1, ih.2]
    exact ⟨rfl, rfl⟩

/-- What was cut off is a prefix of the frames of the whole stream. -/
lemma prefix_of_parses (hp : Parses dec x ms y) : ms <+: frames dec x :=
  ⟨_, (h.cut_of_parses hp).1.symm⟩

end PrefixStable

end Framing
