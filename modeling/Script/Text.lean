namespace Script

/-!
# Byte texts

Programs, lexemes, string values, paths and everything printed are byte
strings.  Nothing promises that the bytes are UTF-8, so a text is the list of
its bytes and every operation here is defined for all of them.
-/

/-- A text is the list of its bytes. -/
abbrev Text :=
  List UInt8

namespace Text

/-- The UTF-8 bytes of a string. -/
def utf8 (string : String) : Text :=
  string.toList.flatMap String.utf8EncodeChar

/-- The byte of an ASCII character. -/
def byte (character : Char) : UInt8 :=
  character.toNat.toUInt8

/-- The line feed, which ends a line. -/
def newline : UInt8 :=
  10

/-- The number of line feeds in a text. -/
def newlines (text : Text) : Nat :=
  text.count newline

/-- The decimal digits of a natural number, without leading zeros. -/
def ofNat (number : Nat) : Text :=
  (Nat.toDigits 10 number).map byte

/-- The decimal digits of an integer, after a minus sign when it is negative. -/
def ofInt : Int → Text
  | .ofNat magnitude =>
      ofNat magnitude
  | .negSucc predecessor =>
      byte '-' :: ofNat (predecessor + 1)

/-- The last `width` hexadecimal digits of a number, in lower case. -/
def hexadecimal
    (width : Nat)
    (number : Nat) :
    Text :=
  match width with
  | 0 =>
      []
  | width + 1 =>
      hexadecimal width (number / 16) ++
        [byte (Nat.digitChar (number % 16))]

/-- A text between two copies of the same mark. -/
def between
    (mark : UInt8)
    (text : Text) :
    Text :=
  mark :: text ++ [mark]

/-- Texts joined by a line feed. -/
def joinLines (lines : List Text) : Text :=
  List.intercalate [newline] lines

/-- A text cut at every occurrence of a byte; there is always a first piece. -/
def split (separator : UInt8) : Text → List Text
  | [] =>
      [[]]
  | first :: rest =>
      if first = separator then
        [] :: split separator rest
      else
        match split separator rest with
        | [] =>
            [[first]]
        | piece :: pieces =>
            (first :: piece) :: pieces

/-- A text without the longest run of a byte at its end. -/
def trimEnd
    (unwanted : UInt8)
    (text : Text) :
    Text :=
  (text.reverse.dropWhile (· == unwanted)).reverse

end Text

end Script
