import Script.Number.Decimal

namespace Script.Decimal

/-!
# The fewest digits that read back

Every positive double has decimals that read back as the same double.  The
search below goes from coarse powers of ten to finer ones and stops at the
first on which one of the value's two neighbours reads back; if both do, the
nearer one is taken, and the even one of two that are equally near.
-/

/-- The exact value of a double: a decimal that reads back whatever its length. -/
def exact (bits : Nat) : Decimal :=
  let significand := Double.significand bits
  match Double.exponent bits with
  | .ofNat exponent =>
      { digits := significand * Nat.pow 2 exponent, exponent := 0 }
  | .negSucc predecessor =>
      { digits := significand * Nat.pow 5 (predecessor + 1)
        exponent := .negSucc predecessor }

/-- The neighbours of a double on the multiples of `10 ^ exponent`, the nearer
one first. -/
def neighbours
    (bits : Nat)
    (exponent : Int) :
    Decimal × Decimal :=
  let scale := Double.exponent bits
  let numerator :=
    Double.significand bits * Nat.pow 2 scale.toNat *
      Nat.pow 10 (-exponent).toNat
  let denominator :=
    Nat.pow 2 (-scale).toNat * Nat.pow 10 exponent.toNat
  let below := numerator / denominator
  let nearer := roundHalfEven numerator denominator
  let farther := if nearer = below then below + 1 else below
  ({ digits := nearer, exponent }, { digits := farther, exponent })

/-- The first neighbour that reads back, on at most `steps` powers of ten from
`exponent` downwards. -/
def search
    (bits : Nat) :
    (steps : Nat) →
    (exponent : Int) →
    Decimal
  | 0, _ =>
      exact bits
  | steps + 1, exponent =>
      let (nearer, farther) := neighbours bits exponent
      if nearer.nearestBits = bits then
        nearer
      else if farther.nearestBits = bits then
        farther
      else
        search bits steps (exponent - 1)

/-- The number of powers of ten the search may look at; seventeen digits always
read back. -/
def searchSteps : Nat :=
  24

/-- A power of ten above the value of a positive double: its number of bits
times a little more than the logarithm of two. -/
def coarsest (bits : Nat) : Int :=
  let bitLength : Int :=
    (Double.significand bits).log2 + 1 + Double.exponent bits
  bitLength * 30103 / 100000 + 1

/-- The decimal with the fewest digits that reads back as the given bits. -/
def shortest (bits : Nat) : Decimal :=
  if bits = 0 then
    { digits := 0, exponent := 0 }
  else
    search bits searchSteps (coarsest bits)

end Script.Decimal
