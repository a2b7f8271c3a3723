import Mathlib.Tactic

/-!
# Numbers as bytes

The bytes of a number in both orders, and what the loops that read them back into a 64-bit word do
with one more byte.
-/

namespace ByteOrder

/-- The byte of weight `256 ^ i`. -/
def byteAt (n i : Nat) : UInt8 := UInt8.ofNat (n / 256 ^ i)

/-- The `w` lower bytes, least significant first. -/
def little (w n : Nat) : List UInt8 := (List.range w).map (byteAt n)

/-- The `w` lower bytes, most significant first. -/
def big (w n : Nat) : List UInt8 := (little w n).reverse

@[simp] lemma toNat_byteAt (n i : Nat) : (byteAt n i).toNat = n / 256 ^ i % 256 := by
  simp [byteAt]

@[simp] lemma length_little (w n : Nat) : (little w n).length = w := by simp [little]

@[simp] lemma length_big (w n : Nat) : (big w n).length = w := by simp [big]

lemma getElem?_little {w n i : Nat} (hi : i < w) : (little w n)[i]? = some (byteAt n i) := by
  simp [little, hi]

lemma getElem?_big {w n i : Nat} (hi : i < w) : (big w n)[i]? = some (byteAt n (w - 1 - i)) := by
  rw [big, List.getElem?_reverse (by simpa using hi), length_little]
  exact getElem?_little (by omega)

variable {value : UInt64} {byte : UInt8} {i : Nat}

/-- A byte put above those read so far. -/
lemma toNat_or_shiftLeft (hi : i < 8) (hvalue : value.toNat < 256 ^ i) :
    (value ||| (byte.toUInt64 <<< UInt64.ofNat (i * 8))).toNat =
      value.toNat + 256 ^ i * byte.toNat := by
  have hpow : (256 : Nat) ^ i = 2 ^ (i * 8) := by rw [mul_comm, pow_mul]; norm_num
  have hbyte : byte.toNat < 2 ^ 8 := byte.toNat_lt
  have hshift : byte.toNat <<< (i * 8) < 2 ^ 64 := by
    rw [Nat.shiftLeft_eq]
    calc byte.toNat * 2 ^ (i * 8) < 2 ^ 8 * 2 ^ (i * 8) := by gcongr
      _ = 2 ^ (8 + i * 8) := (pow_add ..).symm
      _ ≤ 2 ^ 64 := Nat.pow_le_pow_right (by norm_num) (by omega)
  have hmod : (UInt64.ofNat (i * 8)).toNat % 64 = i * 8 := by
    rw [UInt64.toNat_ofNat']
    omega
  rw [UInt64.toNat_or, UInt64.toNat_shiftLeft, hmod, UInt8.toNat_toUInt64, Nat.mod_eq_of_lt hshift,
    Nat.shiftLeft_eq, mul_comm, Nat.or_comm, ← Nat.two_pow_add_eq_or_of_lt (hpow ▸ hvalue), ← hpow,
    add_comm]

/-- The bytes read so far moved up by one. -/
lemma toNat_shiftLeft_or (hvalue : value.toNat < 256 ^ 7) :
    ((value <<< 8) ||| byte.toUInt64).toNat = 256 * value.toNat + byte.toNat := by
  have hbyte : byte.toNat < 2 ^ 8 := byte.toNat_lt
  have hshift : value.toNat <<< 8 < 2 ^ 64 := by
    rw [Nat.shiftLeft_eq]
    omega
  have height : (8 : UInt64).toNat % 64 = 8 := rfl
  rw [UInt64.toNat_or, UInt64.toNat_shiftLeft, height, UInt8.toNat_toUInt64,
    Nat.mod_eq_of_lt hshift, Nat.shiftLeft_eq, mul_comm,
    ← Nat.two_pow_add_eq_or_of_lt (i := 8) hbyte]

end ByteOrder
