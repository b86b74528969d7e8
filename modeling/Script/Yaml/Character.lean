import Script.Text

namespace Script.Yaml

/-!
# Characters of settings documents

A settings document is read as characters.  Behind its last character stands,
as often as it is looked at, a character that no document may hold; it marks
the end.
-/

/-- What stands behind the last character of a document. -/
def ending : Char :=
  '\x00'

/-- Spaces and tabs. -/
def isBlank (character : Char) : Bool :=
  character == ' ' || character == '\t'

/-- Line breaks that are read as a line feed. -/
def isPlainBreak (character : Char) : Bool :=
  character == '\n' || character == '\r' || character == '\u0085'

/-- Line breaks that are kept as they are: the separators of lines and of
paragraphs. -/
def isKeptBreak (character : Char) : Bool :=
  character == '\u2028' || character == '\u2029'

/-- Line breaks. -/
def isBreak (character : Char) : Bool :=
  isPlainBreak character || isKeptBreak character

/-- Line breaks and the end. -/
def isBreakOrEnd (character : Char) : Bool :=
  isBreak character || character == ending

/-- Blanks, line breaks and the end. -/
def isSpacing (character : Char) : Bool :=
  isBlank character || isBreakOrEnd character

/-- Characters of which names are made. -/
def isNameCharacter (character : Char) : Bool :=
  character.isAlphanum || character == '_' || character == '-'

/-- The value of a hexadecimal digit. -/
def hexadecimalValue? (character : Char) : Option Nat :=
  if character.isDigit then
    some (character.toNat - '0'.toNat)
  else if 'a' ≤ character && character ≤ 'f' then
    some (character.toNat - 'a'.toNat + 10)
  else if 'A' ≤ character && character ≤ 'F' then
    some (character.toNat - 'A'.toNat + 10)
  else
    none

/-- The number that hexadecimal digits spell after the digits of `value`. -/
def hexadecimal?
    (value : Nat) :
    List Char → Option Nat
  | [] =>
      some value
  | digit :: rest =>
      match hexadecimalValue? digit with
      | none =>
          none
      | some place =>
          hexadecimal? (value * 16 + place) rest

/-- The UTF-8 bytes of some characters. -/
def textOf (characters : List Char) : Text :=
  characters.flatMap String.utf8EncodeChar

end Script.Yaml
