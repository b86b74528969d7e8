import Script.Text.Glyph
import Script.Text.Printable

namespace Script

/-!
# Quoted texts and characters

A quoted text stands between quotation marks and shows every byte: printable
characters as themselves, the mark and the backslash after a backslash, the
usual control characters by a letter, and all else by its number.  A byte that
belongs to no character is shown by its value, so different texts have
different quoted forms.
-/

namespace Quoted

/-- The letters that stand for control characters after a backslash. -/
def escapeLetter? (code : Nat) : Option Char :=
  match code with
  | 7 =>
      some 'a'
  | 8 =>
      some 'b'
  | 9 =>
      some 't'
  | 10 =>
      some 'n'
  | 11 =>
      some 'v'
  | 12 =>
      some 'f'
  | 13 =>
      some 'r'
  | _ =>
      none

/-- A code point by its number: two, four or eight hexadecimal digits. -/
def numbered (code : Nat) : Text :=
  if code < 0x20 || code == 0x7F then
    Text.utf8 "\\x" ++ Text.hexadecimal 2 code
  else if code < 0x10000 then
    Text.utf8 "\\u" ++ Text.hexadecimal 4 code
  else
    Text.utf8 "\\U" ++ Text.hexadecimal 8 code

/-- The form of a code point between two copies of a mark. -/
def character
    (mark : Char)
    (code : Nat) :
    Text :=
  if code == mark.toNat || code == 0x5C then
    Text.byte '\\' :: Glyph.encode code
  else if CodeClass.printable.contains code then
    Glyph.encode code
  else
    match escapeLetter? code with
    | some letter =>
        [Text.byte '\\', Text.byte letter]
    | none =>
        numbered code

/-- The form of a glyph between double quotation marks. -/
def glyph (shown : Glyph) : Text :=
  if shown.isInvalid then
    shown.raw.flatMap fun byte =>
      Text.utf8 "\\x" ++ Text.hexadecimal 2 byte.toNat
  else
    character '"' shown.code

end Quoted

namespace Text

/-- A text between double quotation marks. -/
def quote (text : Text) : Text :=
  between (byte '"') ((Glyph.decode text).flatMap Quoted.glyph)

/-- A code point between single quotation marks. -/
def quoteCharacter (code : Nat) : Text :=
  between (byte '\'') (Quoted.character '\'' code)

end Text

end Script
