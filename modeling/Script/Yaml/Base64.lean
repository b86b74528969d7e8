import Script.Text

namespace Script.Yaml.Base64

/-!
# Bytes as text

Three bytes are written as four characters of six bits each.  Equals signs fill
the last group when bytes are missing there, and line breaks do not count.
-/

/-- The six bits of a character. -/
def value? (character : UInt8) : Option Nat :=
  let between (first last : Char) : Bool :=
    Text.byte first ≤ character && character ≤ Text.byte last
  if between 'A' 'Z' then
    some (character.toNat - (Text.byte 'A').toNat)
  else if between 'a' 'z' then
    some (character.toNat - (Text.byte 'a').toNat + 26)
  else if between '0' '9' then
    some (character.toNat - (Text.byte '0').toNat + 52)
  else if character = Text.byte '+' then
    some 62
  else if character = Text.byte '/' then
    some 63
  else
    none

/-- The bytes that the values of a group stand for, of which the first `count`
are there. -/
def group
    (count : Nat)
    (values : Nat) :
    Text :=
  [(values / 0x10000).toUInt8, (values / 0x100 % 0x100).toUInt8,
    (values % 0x100).toUInt8].take count

/-- The number that four characters spell. -/
def number?
    (first : UInt8)
    (second : UInt8)
    (third : Option UInt8)
    (fourth : Option UInt8) :
    Option Nat := do
  let place (character : Option UInt8) : Option Nat :=
    match character with
    | none =>
        some 0
    | some character =>
        value? character
  let first ← value? first
  let second ← value? second
  let third ← place third
  let fourth ← place fourth
  some (((first * 64 + second) * 64 + third) * 64 + fourth)

/-- Decode groups of four characters. -/
def decodeGroups? : Text → Option Text
  | [] =>
      some []
  | first :: second :: third :: fourth :: rest =>
      let filler := Text.byte '='
      if fourth = filler then
        if !rest.isEmpty then
          none
        else if third = filler then
          (number? first second none none).map (group 1)
        else
          (number? first second (some third) none).map (group 2)
      else do
        let values ← number? first second (some third) (some fourth)
        let later ← decodeGroups? rest
        some (group 3 values ++ later)
  | _ =>
      none

/-- The bytes that a text stands for. -/
def decode? (text : Text) : Option Text :=
  decodeGroups?
    (text.filter fun byte => byte != Text.newline && byte != Text.byte '\r')

end Script.Yaml.Base64
