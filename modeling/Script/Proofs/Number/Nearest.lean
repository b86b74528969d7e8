import Script.Number.Shortest
import Mathlib.Algebra.Order.Field.Power
import Mathlib.Algebra.Order.Ring.Rat
import Mathlib.Tactic.FieldSimp
import Mathlib.Tactic.Linarith
import Mathlib.Tactic.Positivity
import Mathlib.Tactic.Ring

namespace Script

/-!
# The double nearest to a quotient

Which double is nearest depends on the value of a quotient alone, and the
nearest one to the value of a double is that double.
-/

/-- A power with an exponent of either sign is a quotient of powers. -/
theorem zpow_eq_quotient
    (base : ℚ)
    (exponent : Int) :
    base ^ exponent = base ^ exponent.toNat / base ^ (-exponent).toNat := by
  cases exponent with
  | ofNat exponent =>
      simp
  | negSucc predecessor =>
      simp [zpow_negSucc, Int.toNat_negSucc, Int.neg_negSucc]

section Rounding

variable {numerator denominator : Nat}

/-- Rounding a quotient depends on its value alone. -/
theorem roundHalfEven_scale
    {scale : Nat}
    (positive : 0 < scale) :
    roundHalfEven (scale * numerator) (scale * denominator) =
      roundHalfEven numerator denominator := by
  have double :
      2 * (scale * (numerator % denominator)) =
        scale * (2 * (numerator % denominator)) :=
    Nat.mul_left_comm _ _ _
  simp only [roundHalfEven, Nat.mul_div_mul_left _ _ positive,
    Nat.mul_mod_mul_left, double, Nat.mul_lt_mul_left positive]

theorem roundHalfEven_congr
    {other otherDenominator : Nat}
    (positive : 0 < denominator)
    (otherPositive : 0 < otherDenominator)
    (same : numerator * otherDenominator = other * denominator) :
    roundHalfEven numerator denominator =
      roundHalfEven other otherDenominator := by
  rw [← roundHalfEven_scale otherPositive, Nat.mul_comm otherDenominator,
    same, Nat.mul_comm other, Nat.mul_comm otherDenominator,
    roundHalfEven_scale positive]

/-- A whole number is not rounded. -/
theorem roundHalfEven_whole
    (positive : 0 < denominator)
    (whole : Nat) :
    roundHalfEven (whole * denominator) denominator = whole := by
  simp [roundHalfEven, positive]

end Rounding

namespace Double

variable {numerator denominator : Nat}

/-- The exponents of a quotient's bounds differ by the number of bits that a
significand has. -/
theorem lt_of_bounds
    {low high : Int}
    (below : (2 : ℚ) ^ low * denominator ≤ numerator)
    (above : (numerator : ℚ) < 2 ^ high * denominator) :
    low < high := by
  have between := below.trans_lt above
  have some : (0 : ℚ) ≤ denominator := by positivity
  exact (zpow_lt_zpow_iff_right₀ one_lt_two).mp
    (lt_of_mul_lt_mul_right between some)

/-- A comparison of a quotient with a power of two, in whole numbers. -/
theorem pow_le_iff
    (exponent : Int) :
    denominator * Nat.pow 2 exponent.toNat ≤
        numerator * Nat.pow 2 (-exponent).toNat ↔
      (2 : ℚ) ^ exponent * denominator ≤ numerator := by
  have some : (0 : ℚ) < 2 ^ (-exponent).toNat := by positivity
  rw [zpow_eq_quotient, div_mul_eq_mul_div, div_le_iff₀ some,
    mul_comm _ (denominator : ℚ)]
  exact_mod_cast Iff.rfl

/-- A quotient lies between the powers of two that the numbers of bits of its
parts tell. -/
theorem quotient_bounds
    (some : 0 < numerator)
    (positive : 0 < denominator) :
    (2 : ℚ) ^ ((numerator.log2 : Int) - denominator.log2 - 1) * denominator ≤
        numerator ∧
      (numerator : ℚ) <
        2 ^ ((numerator.log2 : Int) - denominator.log2 + 1) * denominator := by
  have numeratorLow : (2 : ℚ) ^ (numerator.log2 : Int) ≤ numerator := by
    exact_mod_cast Nat.log2_self_le some.ne'
  have numeratorHigh :
      (numerator : ℚ) < 2 ^ ((numerator.log2 : Int) + 1) := by
    exact_mod_cast Nat.lt_log2_self
  have denominatorLow : (2 : ℚ) ^ (denominator.log2 : Int) ≤ denominator := by
    exact_mod_cast Nat.log2_self_le positive.ne'
  have denominatorHigh :
      (denominator : ℚ) < 2 ^ ((denominator.log2 : Int) + 1) := by
    exact_mod_cast Nat.lt_log2_self
  generalize isBits : (numerator.log2 : Int) - denominator.log2 = bits
  constructor
  · calc (2 : ℚ) ^ (bits - 1) * denominator
        ≤ 2 ^ (bits - 1) * 2 ^ ((denominator.log2 : Int) + 1) := by gcongr
      _ = 2 ^ (numerator.log2 : Int) := by
          rw [← zpow_add₀ two_ne_zero]
          congr 1
          omega
      _ ≤ numerator := numeratorLow
  · calc (numerator : ℚ)
        < 2 ^ ((numerator.log2 : Int) + 1) := numeratorHigh
      _ = 2 ^ (bits + 1) * 2 ^ (denominator.log2 : Int) := by
          rw [← zpow_add₀ two_ne_zero]
          congr 1
          omega
      _ ≤ 2 ^ (bits + 1) * denominator := by gcongr

/-- The exponent of a quotient leaves 53 significant bits, unless it would be
too small. -/
theorem exists_unit
    (some : 0 < numerator)
    (positive : 0 < denominator) :
    ∃ unit : Int,
      (2 : ℚ) ^ (unit + 52) * denominator ≤ numerator ∧
        (numerator : ℚ) < 2 ^ (unit + 53) * denominator ∧
        unitExponent numerator denominator = max unit leastExponent := by
  have bounds := quotient_bounds some positive
  have unfolded :
      unitExponent numerator denominator =
        let estimate := (numerator.log2 : Int) - denominator.log2 - 53
        max
          (if denominator * Nat.pow 2 (estimate + 53).toNat ≤
              numerator * Nat.pow 2 (-(estimate + 53)).toNat then
            estimate + 1
          else
            estimate)
          leastExponent :=
    rfl
  generalize (numerator.log2 : Int) - denominator.log2 = bits
    at bounds unfolded
  dsimp only at unfolded
  rw [show bits - 53 + 53 = bits by omega] at unfolded
  by_cases reached :
      denominator * Nat.pow 2 bits.toNat ≤ numerator * Nat.pow 2 (-bits).toNat
  · rw [if_pos reached] at unfolded
    refine ⟨bits - 53 + 1, ?_, ?_, unfolded⟩
    · rw [show bits - 53 + 1 + 52 = bits by omega]
      exact (pow_le_iff bits).mp reached
    · rw [show bits - 53 + 1 + 53 = bits + 1 by omega]
      exact bounds.2
  · rw [if_neg reached] at unfolded
    refine ⟨bits - 53, ?_, ?_, unfolded⟩
    · rw [show bits - 53 + 52 = bits - 1 by omega]
      exact bounds.1
    · rw [show bits - 53 + 53 = bits by omega]
      exact not_le.mp (mt (pow_le_iff bits).mpr reached)

/-- Quotients of one value have the same exponent. -/
theorem unitExponent_congr
    {other otherDenominator : Nat}
    (some : 0 < numerator)
    (otherSome : 0 < other)
    (positive : 0 < denominator)
    (otherPositive : 0 < otherDenominator)
    (same : numerator * otherDenominator = other * denominator) :
    unitExponent numerator denominator =
      unitExponent other otherDenominator := by
  obtain ⟨unit, low, high, isUnit⟩ := exists_unit some positive
  obtain ⟨otherUnit, otherLow, otherHigh, otherIsUnit⟩ :=
    exists_unit otherSome otherPositive
  have value :
      (other : ℚ) = numerator / denominator * otherDenominator := by
    rw [div_mul_eq_mul_div, eq_div_iff (by positivity)]
    exact_mod_cast same.symm
  have denominatorPositive : (0 : ℚ) < denominator := by exact_mod_cast positive
  have below : (2 : ℚ) ^ (unit + 52) * otherDenominator ≤ other := by
    rw [value]
    gcongr
    exact (le_div_iff₀ denominatorPositive).mpr low
  have above : (other : ℚ) < 2 ^ (unit + 53) * otherDenominator := by
    rw [value]
    gcongr
    exact (div_lt_iff₀ denominatorPositive).mpr high
  have least := lt_of_bounds below otherHigh
  have most := lt_of_bounds otherLow above
  rw [isUnit, otherIsUnit, show unit = otherUnit by omega]

/-- The nearest double depends on the value of a quotient alone. -/
theorem nearestBits_congr
    {other otherDenominator : Nat}
    (positive : 0 < denominator)
    (otherPositive : 0 < otherDenominator)
    (same : numerator * otherDenominator = other * denominator) :
    nearestBits numerator denominator = nearestBits other otherDenominator := by
  unfold nearestBits
  by_cases zero : numerator = 0
  · have otherZero : other = 0 := by
      rw [zero, Nat.zero_mul] at same
      exact (Nat.mul_eq_zero.mp same.symm).resolve_right positive.ne'
    rw [if_pos zero, if_pos otherZero]
  · have otherSome : other ≠ 0 := by
      intro otherZero
      rw [otherZero, Nat.zero_mul] at same
      exact (Nat.mul_eq_zero.mp same).elim zero otherPositive.ne'
    rw [if_neg zero, if_neg otherSome,
      unitExponent_congr (Nat.pos_of_ne_zero zero) (Nat.pos_of_ne_zero otherSome)
        positive otherPositive same]
    dsimp only
    congr 2
    refine roundHalfEven_congr (Nat.mul_pos positive (Nat.two_pow_pos _))
      (Nat.mul_pos otherPositive (Nat.two_pow_pos _)) ?_
    rw [Nat.mul_mul_mul_comm, same, Nat.mul_mul_mul_comm other]

section Whole

variable {significand : Nat} {exponent : Int}

/-- A value with as many bits as a double has is counted in units of its own
exponent. -/
theorem unitExponent_whole
    (some : 0 < significand)
    (fits : significand < 2 * binade)
    (least : leastExponent ≤ exponent)
    (full : binade ≤ significand ∨ exponent = leastExponent) :
    unitExponent
        (significand * Nat.pow 2 exponent.toNat)
        (Nat.pow 2 (-exponent).toNat) =
      exponent := by
  obtain ⟨unit, low, high, isUnit⟩ :=
    exists_unit (Nat.mul_pos some (Nat.two_pow_pos exponent.toNat))
      (Nat.two_pow_pos (-exponent).toNat)
  have value :
      ((significand * 2 ^ exponent.toNat : Nat) : ℚ) =
        significand * 2 ^ exponent * (2 ^ (-exponent).toNat : Nat) := by
    have nonzero : (2 : ℚ) ^ (-exponent).toNat ≠ 0 := by positivity
    rw [zpow_eq_quotient]
    push_cast
    field_simp
  have most : unit + 52 < exponent + 53 := by
    refine lt_of_bounds low ?_
    rw [value, zpow_add₀ two_ne_zero, mul_comm (2 ^ exponent : ℚ)]
    gcongr
    exact_mod_cast fits
  rw [Nat.pow_eq, Nat.pow_eq, isUnit]
  rcases full with manyBits | smallest
  · have fewest : exponent + 52 < unit + 53 := by
      refine lt_of_bounds ?_ high
      rw [value, zpow_add₀ two_ne_zero, mul_comm (2 ^ exponent : ℚ)]
      gcongr
      exact_mod_cast manyBits
    omega
  · omega

/-- A value with as many bits as a double has is a double. -/
theorem nearestBits_whole
    (some : 0 < significand)
    (fits : significand < 2 * binade)
    (least : leastExponent ≤ exponent)
    (full : binade ≤ significand ∨ exponent = leastExponent) :
    nearestBits
        (significand * Nat.pow 2 exponent.toNat)
        (Nat.pow 2 (-exponent).toNat) =
      min ((exponent - leastExponent).toNat * binade + significand)
        infiniteBits := by
  have up : 0 < Nat.pow 2 exponent.toNat := Nat.two_pow_pos _
  have down : 0 < Nat.pow 2 (-exponent).toNat := Nat.two_pow_pos _
  unfold nearestBits
  rw [if_neg (Nat.mul_pos some up).ne',
    unitExponent_whole some fits least full]
  dsimp only
  rw [Nat.mul_assoc, Nat.mul_comm (Nat.pow 2 (-exponent).toNat),
    roundHalfEven_whole (Nat.mul_pos up down)]

end Whole

/-! The parts of a double. -/

variable {bits : Nat}

/-- The bits of a double, put together again from its exponent and its
significand. -/
theorem bits_of_parts (bits : Nat) :
    (exponent bits - leastExponent).toNat * binade + significand bits =
      bits := by
  have whole := Nat.div_add_mod bits binade
  unfold exponent significand
  split
  · rename_i small
    simp [small]
  · rename_i notSmall
    obtain ⟨level, isLevel⟩ := Nat.exists_eq_succ_of_ne_zero notSmall
    have lower :
        (leastExponent + ((bits / binade : Nat) - 1 : Nat) -
          leastExponent).toNat = level := by
      omega
    rw [isLevel, Nat.mul_succ, Nat.mul_comm] at whole
    rw [lower, ← Nat.add_assoc, whole]

theorem significand_lt (bits : Nat) :
    significand bits < 2 * binade := by
  unfold significand
  have some : 0 < binade := by decide
  have remainder := Nat.mod_lt bits some
  split
  · rename_i small
    have few := (Nat.div_eq_zero_iff_lt some).mp small
    omega
  · omega

theorem leastExponent_le (bits : Nat) :
    leastExponent ≤ exponent bits := by
  unfold exponent
  omega

theorem significand_pos
    (nonzero : bits ≠ 0) :
    0 < significand bits := by
  unfold significand
  split
  · omega
  · exact Nat.add_pos_left (by decide) _

/-- A double has all the bits of a significand, unless it is among the
smallest. -/
theorem significand_full (bits : Nat) :
    binade ≤ significand bits ∨ exponent bits = leastExponent := by
  unfold significand exponent
  split
  · rename_i small
    exact .inr (by simp [small])
  · exact .inl (Nat.le_add_right _ _)

end Double

namespace Decimal

variable {bits : Nat}

/-- The exact value of a double is its significand at its exponent. -/
theorem nearestBits_exact_eq (bits : Nat) :
    (exact bits).nearestBits =
      Double.nearestBits
        (Double.significand bits * Nat.pow 2 (Double.exponent bits).toNat)
        (Nat.pow 2 (-Double.exponent bits).toNat) := by
  unfold exact nearestBits
  have down (exponent : Nat) : 0 < Nat.pow 2 exponent := Nat.two_pow_pos _
  have ten (exponent : Nat) : 0 < Nat.pow 10 exponent :=
    Nat.pow_pos (by decide)
  refine Double.nearestBits_congr (ten _) (down _) ?_
  cases Double.exponent bits with
  | ofNat exponent =>
      simp
  | negSucc predecessor =>
      have tenth :
          5 ^ (predecessor + 1) * 2 ^ (predecessor + 1) =
            10 ^ (predecessor + 1) :=
        (Nat.mul_pow 5 2 _).symm
      simp [Nat.mul_assoc, tenth]

/-- The exact value of a double reads back as the double. -/
theorem nearestBits_exact
    (finite : bits < Double.infiniteBits) :
    (exact bits).nearestBits = bits := by
  rw [nearestBits_exact_eq]
  by_cases zero : bits = 0
  · rw [zero]
    rfl
  · rw [Double.nearestBits_whole (Double.significand_pos zero)
      (Double.significand_lt bits) (Double.leastExponent_le bits)
      (Double.significand_full bits), Double.bits_of_parts,
      Nat.min_eq_left finite.le]

/-- Whatever the search finds reads back. -/
theorem nearestBits_search
    (finite : bits < Double.infiniteBits)
    (steps : Nat)
    (exponent : Int) :
    (search bits steps exponent).nearestBits = bits := by
  induction steps generalizing exponent with
  | zero =>
      exact nearestBits_exact finite
  | succ steps inductionHypothesis =>
      rw [search]
      dsimp only
      split
      · assumption
      · split
        · assumption
        · exact inductionHypothesis _

/-- The fewest digits read back. -/
theorem nearestBits_shortest
    (finite : bits < Double.infiniteBits) :
    (shortest bits).nearestBits = bits := by
  unfold shortest
  split
  · rename_i zero
    rw [zero]
    rfl
  · exact nearestBits_search finite _ _

end Decimal

end Script
