import Mathlib
import Script.Number.Decimal

namespace Script

/-!
# The bits of a double

A double is made from bits by taking them apart and putting them together again,
which only changes the bits of those that are no numbers.  So the double nearest
to a decimal has the bits that were computed for it.
-/

namespace Decimal

open Float.Model Float.Model.UnpackedFloat

/-- Bits up to those of infinity are a number. -/
theorem valid_of_le
    {packed : BitVec Format.binary64.numBits}
    (number : packed.toNat ≤ Double.infiniteBits) :
    Format.binary64.Valid packed := by
  refine ⟨fun infinite mantissa => absurd ?_ mantissa⟩
  have all : (unpackExponent packed).toNat = 2 ^ 11 - 1 := by
    rw [infinite]
    rfl
  have exponent :
      (unpackExponent packed).toNat = packed.toNat / 2 ^ 52 % 2 ^ 11 := by
    simp [unpackExponent, Nat.shiftRight_eq_div_pow]
  have rest : (unpackMantissa packed).toNat = packed.toNat % 2 ^ 52 := by
    simp [unpackMantissa]
  have limit : Double.infiniteBits = (2 ^ 11 - 1) * 2 ^ 52 := by
    decide
  apply BitVec.eq_of_toNat_eq
  rw [rest]
  show packed.toNat % 2 ^ 52 = 0
  omega

theorem nearestBits_le (decimal : Decimal) :
    decimal.nearestBits ≤ Double.infiniteBits := by
  unfold nearestBits Double.nearestBits
  split
  · exact Nat.zero_le _
  · exact Nat.min_le_right _ _

/-- The double nearest to a decimal has the nearest bits. -/
theorem toBits_toFloat (decimal : Decimal) :
    decimal.toFloat.toBits.toNat = decimal.nearestBits := by
  have number := nearestBits_le decimal
  have small : decimal.nearestBits.toUInt64.toNat = decimal.nearestBits := by
    have limit : Double.infiniteBits < 2 ^ 64 := by
      decide
    exact Nat.mod_eq_of_lt (by omega)
  have kept :=
    pack_unpack_of_valid (valid_of_le (Nat.le_trans (Nat.le_of_eq small) number))
  exact (congrArg BitVec.toNat kept).trans small

end Decimal

end Script
