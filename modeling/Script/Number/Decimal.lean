import Script.Text

namespace Script

/-!
# Decimals and the doubles nearest to them

A decimal is a natural number of units, each a power of ten.  Reading one gives
the double nearest to it, the even one of two that are equally near.  All the
arithmetic is exact and on natural numbers; a non-negative double is handled as
the number that its bits spell.
-/

/-- The number `digits * 10 ^ exponent`. -/
structure Decimal where
  digits : Nat
  exponent : Int
  deriving Repr, DecidableEq

/-- A quotient rounded to the nearest whole number, a half to the even one. -/
def roundHalfEven
    (numerator : Nat)
    (denominator : Nat) :
    Nat :=
  let quotient := numerator / denominator
  let remainder := numerator % denominator
  if 2 * remainder < denominator then
    quotient
  else if denominator < 2 * remainder then
    quotient + 1
  else
    quotient + quotient % 2

namespace Double

/-- The number of values between two powers of two. -/
def binade : Nat :=
  0x10000000000000

/-- The bit of the sign. -/
def signBit : Nat :=
  0x8000000000000000

/-- The exponent of the least positive double. -/
def leastExponent : Int :=
  -1074

/-- The bits of positive infinity. -/
def infiniteBits : Nat :=
  0x7FF * binade

/-- The bits of a double without its sign. -/
def magnitude (bits : Nat) : Nat :=
  bits % signBit

/-- Whether a double has a minus sign. -/
def isNegative (bits : Nat) : Bool :=
  bits / signBit == 1

/-- The exponent that leaves a positive quotient 53 significant bits, or fewer
where doubles have fewer. -/
def unitExponent
    (numerator : Nat)
    (denominator : Nat) :
    Int :=
  let estimate : Int := (numerator.log2 : Int) - denominator.log2 - 53
  let tooSmall :=
    denominator * Nat.pow 2 (estimate + 53).toNat ≤
      numerator * Nat.pow 2 (-(estimate + 53)).toNat
  max (if tooSmall then estimate + 1 else estimate) leastExponent

/-- The bits of the double nearest to a quotient, infinity included. -/
def nearestBits
    (numerator : Nat)
    (denominator : Nat) :
    Nat :=
  if numerator = 0 then
    0
  else
    let unit := unitExponent numerator denominator
    let significand :=
      roundHalfEven
        (numerator * Nat.pow 2 (-unit).toNat)
        (denominator * Nat.pow 2 unit.toNat)
    min
      ((unit - leastExponent).toNat * binade + significand)
      infiniteBits

/-- The significand of a finite non-negative double. -/
def significand (bits : Nat) : Nat :=
  if bits / binade = 0 then
    bits
  else
    binade + bits % binade

/-- The exponent of two that goes with the significand. -/
def exponent (bits : Nat) : Int :=
  leastExponent + ((bits / binade : Nat) - 1 : Nat)

/-- A finite non-negative double without its fraction. -/
def truncated (bits : Nat) : Nat :=
  let exponent := exponent bits
  significand bits * Nat.pow 2 exponent.toNat / Nat.pow 2 (-exponent).toNat

end Double

namespace Decimal

/-- The bits of the double nearest to a decimal. -/
def nearestBits (decimal : Decimal) : Nat :=
  Double.nearestBits
    (decimal.digits * Nat.pow 10 decimal.exponent.toNat)
    (Nat.pow 10 (-decimal.exponent).toNat)

/-- The double nearest to a decimal. -/
def toFloat (decimal : Decimal) : Float :=
  Float.ofBits decimal.nearestBits.toUInt64

/-- The number that a text of decimal digits spells. -/
def digitsValue (digits : Text) : Nat :=
  digits.foldl
    (fun value digit => value * 10 + (digit.toNat - 48))
    0

/-- The decimal written with the given digits before and after the point. -/
def ofDigits
    (whole : Text)
    (fraction : Text) :
    Decimal where
  digits :=
    digitsValue (whole ++ fraction)
  exponent :=
    -(fraction.length : Int)

end Decimal

end Script
