import Script.Number.Decimal
import Script.Yaml.Base64
import Script.Yaml.Node
import Script.Yaml.Timestamp

namespace Script.Yaml

/-!
# The meaning of scalars

A plain scalar is null, a truth value, an integer, a float or a timestamp when
it is spelled like one, and text otherwise.  An integer is decimal, or binary,
octal or hexadecimal after a zero and a letter; a zero in front of other digits
also makes it octal.  Underscores between digits do not count.  A tag asks for
one of these kinds, and then the spelling has to be of that kind.
-/

/-- The meaning of a scalar.  A float is given by the bits of its double. -/
inductive Meaning where
  | null
  | truth (value : Bool)
  | integer (value : Int)
  | float (bits : Nat)
  | timestamp (moment : Timestamp)
  | text (value : Text)
  deriving Repr, DecidableEq

namespace Meaning

/-- The tag of a meaning. -/
def tag : Meaning → Text
  | .null =>
      Tag.null
  | .truth _ =>
      Tag.truth
  | .integer _ =>
      Tag.integer
  | .float _ =>
      Tag.float
  | .timestamp _ =>
      Tag.timestamp
  | .text _ =>
      Tag.text

/-- Whether two meanings count as one key.  Zero does with and without a sign,
and what is no number does not even with itself. -/
def isSame : Meaning → Meaning → Bool
  | .float first, .float second =>
      Double.magnitude first ≤ Double.infiniteBits &&
        (first == second ||
          (Double.magnitude first == 0 && Double.magnitude second == 0))
  | .timestamp first, .timestamp second =>
      first.isSame second
  | first, second =>
      first == second

end Meaning

/-- The bits of a double that is no number. -/
def notANumber : Nat :=
  Double.infiniteBits + 0x8000000000001

/-- The words that mean something by themselves. -/
def words : List (String × Meaning) :=
  [("", .null), ("~", .null), ("null", .null), ("Null", .null),
   ("NULL", .null),
   ("true", .truth true), ("True", .truth true), ("TRUE", .truth true),
   ("false", .truth false), ("False", .truth false), ("FALSE", .truth false),
   (".nan", .float notANumber), (".NaN", .float notANumber),
   (".NAN", .float notANumber),
   (".inf", .float Double.infiniteBits), (".Inf", .float Double.infiniteBits),
   (".INF", .float Double.infiniteBits),
   ("+.inf", .float Double.infiniteBits),
   ("+.Inf", .float Double.infiniteBits),
   ("+.INF", .float Double.infiniteBits),
   ("-.inf", .float (Double.signBit + Double.infiniteBits)),
   ("-.Inf", .float (Double.signBit + Double.infiniteBits)),
   ("-.INF", .float (Double.signBit + Double.infiniteBits))]

/-- The meaning of a word. -/
def word? (text : Text) : Option Meaning :=
  (words.find? fun (word, _) => Text.utf8 word == text).map (·.2)

/-- The value of a digit in any base up to thirty-six. -/
def digitValue? (digit : UInt8) : Option Nat :=
  if Text.byte '0' ≤ digit && digit ≤ Text.byte '9' then
    some (digit.toNat - (Text.byte '0').toNat)
  else if Text.byte 'a' ≤ digit && digit ≤ Text.byte 'z' then
    some (digit.toNat - (Text.byte 'a').toNat + 10)
  else if Text.byte 'A' ≤ digit && digit ≤ Text.byte 'Z' then
    some (digit.toNat - (Text.byte 'A').toNat + 10)
  else
    none

/-- The number that digits of a base spell after the digits of `value`. -/
def digitsInBase?
    (base : Nat)
    (value : Nat) :
    Text → Option Nat
  | [] =>
      some value
  | digit :: rest =>
      match digitValue? digit with
      | none =>
          none
      | some place =>
          if place < base then
            digitsInBase? base (value * base + place) rest
          else
            none

/-- The natural number that a text spells. -/
def natural? (text : Text) : Option Nat :=
  match text with
  | [] =>
      none
  | first :: rest =>
      if first ≠ Text.byte '0' then
        digitsInBase? 10 0 text
      else
        match rest with
        | letter :: digit :: digits =>
            if letter ∈ [Text.byte 'x', Text.byte 'X'] then
              digitsInBase? 16 0 (digit :: digits)
            else if letter ∈ [Text.byte 'o', Text.byte 'O'] then
              digitsInBase? 8 0 (digit :: digits)
            else if letter ∈ [Text.byte 'b', Text.byte 'B'] then
              digitsInBase? 2 0 (digit :: digits)
            else
              digitsInBase? 8 0 rest
        | _ =>
            digitsInBase? 8 0 rest

/-- Cut a sign from the front of a text: whether it is negative, if there is
one, and the rest. -/
def cutSign (text : Text) : Option Bool × Text :=
  match text with
  | [] =>
      (none, [])
  | first :: rest =>
      if first = Text.byte '-' then
        (some true, rest)
      else if first = Text.byte '+' then
        (some false, rest)
      else
        (none, text)

/-- The number of values that sixty-four bits have. -/
def wordBound : Nat :=
  0x10000000000000000

/-- An integer of sixty-four bits with a sign. -/
def signed?
    (isNegative : Bool)
    (magnitude : Nat) :
    Option Int :=
  if isNegative then
    if magnitude ≤ wordBound / 2 then some (-(magnitude : Int)) else none
  else
    if magnitude < wordBound / 2 then some magnitude else none

/-- The integer that a text spells, one with a sign or a greater one
without. -/
def usualInteger? (text : Text) : Option Int :=
  match cutSign text with
  | (some isNegative, digits) =>
      (natural? digits).bind (signed? isNegative)
  | (none, digits) =>
      (natural? digits).bind fun magnitude =>
        if magnitude < wordBound then some magnitude else none

/-- The integer that a text spells with its sign behind a zero and a letter. -/
def innerSignInteger? (text : Text) : Option Int :=
  let read (base : Nat) (rest : Text) : Option Int :=
    match cutSign rest with
    | (some isNegative, first :: digits) =>
        (digitsInBase? base 0 (first :: digits)).bind (signed? isNegative)
    | _ =>
        none
  match text with
  | zero :: letter :: rest =>
      if zero ≠ Text.byte '0' then
        none
      else if letter = Text.byte 'b' then
        read 2 rest
      else if letter = Text.byte 'o' then
        read 8 rest
      else
        none
  | _ =>
      none

/-- The integer that a text spells. -/
def integer? (text : Text) : Option Int :=
  (usualInteger? text).or (innerSignInteger? text)

/-- Decimal digits. -/
def isDigit (byte : UInt8) : Bool :=
  Text.byte '0' ≤ byte && byte ≤ Text.byte '9'

/-- The exponent at the end of a decimal: nothing, or the letter, a sign if
there is one, and digits. -/
def exponent? (text : Text) : Option Int :=
  match text with
  | [] =>
      some 0
  | letter :: rest =>
      if letter ∈ [Text.byte 'e', Text.byte 'E'] then
        let (sign, digits) := cutSign rest
        if digits.isEmpty || !digits.all isDigit then
          none
        else
          let magnitude : Int := Decimal.digitsValue digits
          some (if sign = some true then -magnitude else magnitude)
      else
        none

/-- The decimal that a text without a sign spells: digits with a point among,
before or after them, and an exponent. -/
def decimal? (text : Text) : Option Decimal :=
  let whole := text.takeWhile isDigit
  let afterWhole := text.dropWhile isDigit
  let (fraction, rest) :=
    match afterWhole with
    | [] =>
        ([], [])
    | first :: others =>
        if first = Text.byte '.' then
          (others.takeWhile isDigit, others.dropWhile isDigit)
        else
          ([], afterWhole)
  if whole.isEmpty && fraction.isEmpty then
    none
  else
    (exponent? rest).map fun exponent =>
      let decimal := Decimal.ofDigits whole fraction
      { decimal with exponent := decimal.exponent + exponent }

/-- Decimals with a leading digit of this exponent or more are not finite. -/
def hugeExponent : Int :=
  310

/-- Positive decimals whose leading digit has a smaller exponent are zero. -/
def tinyExponent : Int :=
  -330

/-- The bits of the double nearest to a decimal.  Exponents far out of range are
settled first, since their powers of ten have too many digits. -/
def boundedBits (decimal : Decimal) : Nat :=
  let leading :=
    (Text.ofNat decimal.digits).length - 1 + decimal.exponent
  if decimal.digits = 0 || leading < tinyExponent then
    0
  else if hugeExponent ≤ leading then
    Double.infiniteBits
  else
    decimal.nearestBits

/-- The bits of a double with a sign. -/
def signedBits
    (isNegative : Bool)
    (bits : Nat) :
    Nat :=
  if isNegative then Double.signBit + bits else bits

/-- The bits of the double that a text spells, if one is near enough to it. -/
def float? (text : Text) : Option Nat :=
  let (sign, digits) := cutSign text
  (decimal? digits).bind fun decimal =>
    let bits := boundedBits decimal
    if bits < Double.infiniteBits then
      some (signedBits (sign == some true) bits)
    else
      none

/-- Whether every underscore of a text stands between digits.  `afterDigit`
tells whether a digit stands before the text. -/
def underscoresDivide (afterDigit : Bool) : Text → Bool
  | [] =>
      true
  | first :: rest =>
      if first = Text.byte '_' then
        afterDigit && ((rest.head?.map isDigit).getD false) &&
          underscoresDivide false rest
      else
        underscoresDivide (isDigit first) rest

/-- A text without its underscores. -/
def dropUnderscores (text : Text) : Text :=
  text.filter (· != Text.byte '_')

/-- The meaning of a text that starts with a point. -/
def pointMeaning (text : Text) : Meaning :=
  if underscoresDivide false text then
    ((float? (dropUnderscores text)).map Meaning.float).getD (.text text)
  else
    .text text

/-- The meaning of a text that starts with a digit or a sign. -/
def numberMeaning (text : Text) : Meaning :=
  match integer? (dropUnderscores text) with
  | some value =>
      .integer value
  | none =>
      ((float? (dropUnderscores text)).map Meaning.float).getD (.text text)

/-- The meaning of a plain scalar.  Whether it may be a timestamp depends on
its tag. -/
def plainMeaning
    (mayBeTimestamp : Bool)
    (text : Text) :
    Meaning :=
  match word? text with
  | some meaning =>
      meaning
  | none =>
      match text with
      | [] =>
          .null
      | first :: _ =>
          if first = Text.byte '.' then
            pointMeaning text
          else if isDigit first || first = Text.byte '+' ||
              first = Text.byte '-' then
            let moment :=
              if mayBeTimestamp then Timestamp.ofText? text else none
            match moment with
            | some moment =>
                .timestamp moment
            | none =>
                numberMeaning text
          else
            .text text

/-- Tags that ask for a kind which the spelling has to be of. -/
def spelledTags : List Text :=
  [Tag.truth, Tag.integer, Tag.float, Tag.null, Tag.timestamp]

/-- The bits of the double nearest to an integer, if it has a sign or needs
none. -/
def floatOf? (value : Int) : Option Nat :=
  if value < (wordBound / 2 : Nat) then
    some
      (signedBits (value < 0)
        (boundedBits { digits := value.natAbs, exponent := 0 }))
  else
    none

/-- The meaning of a scalar with one of the tags that ask for a kind. -/
def spelledMeaning
    (tag : Text)
    (text : Text) :
    Except Malformation Meaning :=
  let meaning := plainMeaning (tag == Tag.timestamp) text
  let refused := Malformation.otherKind meaning.tag text tag
  if meaning.tag = tag then
    .ok meaning
  else if tag = Tag.float then
    match meaning with
    | .integer value =>
        match floatOf? value with
        | some bits =>
            .ok (.float bits)
        | none =>
            .error refused
    | _ =>
        .error refused
  else
    .error refused

/-- The meaning of a scalar.  A tag that asks for no known kind makes it
text. -/
def meaning
    (tag : Text)
    (text : Text) :
    Except Malformation Meaning :=
  if spelledTags.contains tag then
    spelledMeaning tag text
  else if tag = Tag.binary then
    match Base64.decode? text with
    | some bytes =>
        .ok (.text bytes)
    | none =>
        .error .invalidBinary
  else
    .ok (.text text)

/-- The tag of a plain scalar that has none. -/
def plainTag (text : Text) : Text :=
  if text = Text.utf8 "<<" then
    Tag.merge
  else
    (plainMeaning true text).tag

end Script.Yaml
