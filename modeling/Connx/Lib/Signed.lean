import Mathlib.Tactic

/-!
# Signed machine integers

The value that a signed integer of a given width has when an exact result is stored in it, as a
counter that wraps around or a conversion to a narrower type leaves it.
-/

namespace Signed

/-- The value of `n` in a signed integer of `w` bits. -/
def wrap (w : Nat) (n : Int) : Int := n.bmod (2 ^ w)

variable {w : Nat} {n m : Int}

lemma wrap_eq (h : -2 ^ w ≤ n) (h' : n < 2 ^ w) : wrap (w + 1) n = n := by
  apply Int.bmod_eq_of_le
  · rw [pow_succ]
    push_cast
    omega
  · rw [pow_succ]
    push_cast
    omega

lemma wrap_add_wrap : wrap w (wrap w n + m) = wrap w (n + m) := Int.bmod_add_bmod

end Signed
