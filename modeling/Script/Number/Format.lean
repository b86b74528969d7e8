import Script.Number.Shortest

namespace Script

/-!
# Writing numbers

The digits of a number are always the fewest that read back.  A format decides
the rest: when an exponent is used, and how the values that are no number of
digits are spelled.
-/

/-- How numbers are written.  A number is positional when the exponent of its
leading digit lies in the given range; without a range it always is. -/
structure NumberFormat where
  positional : Option (Int × Int)
  infinite : String
  negativeInfinite : String
  notANumber : String

namespace Decimal

/-- Zeros in front of or behind other digits. -/
def zeros (count : Nat) : Text :=
  List.replicate count (Text.byte '0')

/-- The digits with the point at its place and no exponent. -/
def positional (decimal : Decimal) : Text :=
  let digits := Text.ofNat decimal.digits
  let places := (-decimal.exponent).toNat
  if places = 0 then
    digits ++ zeros decimal.exponent.toNat
  else if places < digits.length then
    digits.take (digits.length - places) ++
      Text.byte '.' :: digits.drop (digits.length - places)
  else
    Text.utf8 "0." ++ zeros (places - digits.length) ++ digits

/-- The exponent of the leading digit. -/
def leadingExponent (decimal : Decimal) : Int :=
  (Text.ofNat decimal.digits).length - 1 + decimal.exponent

/-- One digit, the point and the others, and an exponent with its sign and at
least two digits. -/
def scientific (decimal : Decimal) : Text :=
  let exponent := decimal.leadingExponent
  let magnitude := Text.ofNat exponent.natAbs
  let mantissa :=
    match Text.ofNat decimal.digits with
    | leading :: second :: others =>
        leading :: Text.byte '.' :: second :: others
    | short =>
        short
  mantissa ++
    Text.utf8 (if exponent < 0 then "e-" else "e+") ++
    zeros (2 - magnitude.length) ++ magnitude

end Decimal

namespace NumberFormat

/-- A decimal in the notation that its size asks for. -/
def decimal
    (format : NumberFormat)
    (value : Decimal) :
    Text :=
  match format.positional with
  | none =>
      value.positional
  | some (least, limit) =>
      if least ≤ value.leadingExponent && value.leadingExponent < limit then
        value.positional
      else
        value.scientific

/-- The double of some bits in the given format. -/
def writeBits
    (format : NumberFormat)
    (bits : Nat) :
    Text :=
  let magnitude := Double.magnitude bits
  let negative := Double.isNegative bits
  if Double.infiniteBits < magnitude then
    Text.utf8 format.notANumber
  else if magnitude = Double.infiniteBits then
    Text.utf8 (if negative then format.negativeInfinite else format.infinite)
  else
    let digits := format.decimal (Decimal.shortest magnitude)
    if negative then
      Text.byte '-' :: digits
    else
      digits

/-- A number in the given format. -/
def write
    (format : NumberFormat)
    (number : Float) :
    Text :=
  format.writeBits number.toBits.toNat

/-- How a program's own output shows numbers: never with an exponent. -/
def display : NumberFormat where
  positional := none
  infinite := "Infinity"
  negativeInfinite := "-Infinity"
  notANumber := "NaN"

/-- How a printed tree shows numbers: never with an exponent. -/
def tree : NumberFormat where
  positional := none
  infinite := "+Inf"
  negativeInfinite := "-Inf"
  notANumber := "NaN"

/-- How a printed token shows numbers: with an exponent from a million on, and
below one ten-thousandth. -/
def token : NumberFormat where
  positional := some (-4, 6)
  infinite := "+Inf"
  negativeInfinite := "-Inf"
  notANumber := "NaN"

end NumberFormat

end Script
