import Mathlib.Tactic

/-!
# Sets of flags in a word

A word is read as the set of the flags whose bits it has.
-/

namespace Mask

variable {a b m : UInt32}

lemma and_or (a b c : UInt32) : a &&& (b ||| c) = (a &&& b) ||| (a &&& c) := by
  apply UInt32.toBitVec_inj.mp
  ext i hi
  simp [Bool.and_or_distrib_left]

/-- No flag of a union is in `a` if none of its parts is. -/
lemma and_or_eq_zero {c : UInt32} : a &&& (b ||| c) = 0 ↔ a &&& b = 0 ∧ a &&& c = 0 := by
  rw [and_or, UInt32.or_eq_zero_iff]

/-- All flags of `a` are in `m`. -/
def Within (a m : UInt32) : Prop := a &&& m = a

instance : Decidable (Within a m) := inferInstanceAs (Decidable (a &&& m = a))

/-- A flag that is not in the larger set is not in the smaller one. -/
lemma Within.and_eq_zero (h : Within a m) (hb : m &&& b = 0) : a &&& b = 0 := by
  rw [← h, UInt32.and_assoc, hb, UInt32.and_zero]

lemma Within.trans {c : UInt32} (h : Within a m) (h' : Within m c) : Within a c := by
  rw [Within, ← h, UInt32.and_assoc, h']

lemma Within.eq_zero (h : Within a m) (hm : a &&& m = 0) : a = 0 := h.symm.trans hm

end Mask
