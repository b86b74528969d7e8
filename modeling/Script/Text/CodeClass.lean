import Script.Text.Glyph

namespace Script

/-!
# Classes of code points

A class is given by its boundaries, the code points at which membership
changes.  Before the first boundary nothing belongs to the class; a code point
belongs to it when the number of boundaries up to it is odd.

The two small classes are here.  Blanks are white space in the sense of
Unicode: what is cut from both ends of an entry, and what alone makes no entry
at all.  Separators are the spaces of all widths and the marks between lines and
paragraphs; together with the printable characters they are what a terminal can
show, and all else steers it, has no fixed shape, or stands for nothing yet.
-/

/-- A class of code points, as the increasing list of its boundaries. -/
structure CodeClass where
  boundaries : List Nat
  deriving Repr, DecidableEq

namespace CodeClass

/-- Whether a code point belongs to the class. -/
def contains
    (members : CodeClass)
    (code : Nat) :
    Bool :=
  (members.boundaries.takeWhile (· ≤ code)).length % 2 == 1

/-- Code points of general category Z (Unicode 17). -/
def separator : CodeClass where
  boundaries :=
    [0x20, 0x21, 0xA0, 0xA1, 0x1680, 0x1681, 0x2000, 0x200B, 0x2028, 0x202A,
     0x202F, 0x2030, 0x205F, 0x2060, 0x3000, 0x3001]

/-- Code points with the property White_Space. -/
def blank : CodeClass where
  boundaries :=
    [9, 14, 32, 33, 0x85, 0x86, 0xA0, 0xA1, 0x1680, 0x1681, 0x2000, 0x200B,
     0x2028, 0x202A, 0x202F, 0x2030, 0x205F, 0x2060, 0x3000, 0x3001]

end CodeClass

/-- Whether a glyph is white space. -/
def Glyph.isBlank (glyph : Glyph) : Bool :=
  CodeClass.blank.contains glyph.code

namespace Text

/-- A text without the white space at its two ends. -/
def trim (text : Text) : Text :=
  let glyphs := (Glyph.decode text).dropWhile Glyph.isBlank
  Glyph.bytes (glyphs.reverse.dropWhile Glyph.isBlank).reverse

/-- Whether a text holds nothing but white space. -/
def isBlank (text : Text) : Bool :=
  (Glyph.decode text).all Glyph.isBlank

end Text

end Script
