import Script.Text.Letter
import Script.Token

namespace Script

/-!
# Segments

A source text is cut into segments without gaps: lexemes, blanks, comments,
characters that begin no lexeme, and a string that is never closed.  Each
segment is the longest of its class at its place.
-/

/-- A piece of source text. -/
inductive Segment where
  /-- A lexeme with the kind and the literal of its token. -/
  | lexeme (kind : TokenKind) (literal : Literal) (glyphs : List Glyph)
  /-- One character between lexemes. -/
  | blank (glyph : Glyph)
  /-- Two slashes and the rest of their line. -/
  | comment (glyphs : List Glyph)
  /-- One character that begins no lexeme. -/
  | stray (glyph : Glyph)
  /-- A string that runs to the end of the text. -/
  | openString (glyphs : List Glyph)
  deriving Repr

namespace Glyph

/-- Whether a glyph is the given ASCII character. -/
def is
    (glyph : Glyph)
    (character : Char) :
    Bool :=
  glyph.code == character.toNat

/-- Decimal digits. -/
def isDigit (glyph : Glyph) : Bool :=
  48 ≤ glyph.code && glyph.code ≤ 57

/-- Characters that begin a name: letters and the underscore. -/
def startsName (glyph : Glyph) : Bool :=
  CodeClass.letter.contains glyph.code || glyph.is '_'

/-- Characters that continue a name. -/
def continuesName (glyph : Glyph) : Bool :=
  glyph.startsName || glyph.isDigit

/-- Blanks between lexemes: space, tab, carriage return and line feed. -/
def separates (glyph : Glyph) : Bool :=
  glyph.is ' ' || glyph.is '\r' || glyph.is '\t' || glyph.is '\n'

/-- The marks that are a lexeme by themselves whatever follows. -/
def mark? (glyph : Glyph) : Option TokenKind :=
  match Char.ofNat glyph.code with
  | '(' =>
      some .leftParen
  | ')' =>
      some .rightParen
  | '\x7b' =>
      some .leftBrace
  | '\x7d' =>
      some .rightBrace
  | ',' =>
      some .comma
  | '.' =>
      some .dot
  | '-' =>
      some .minus
  | '+' =>
      some .plus
  | ';' =>
      some .semicolon
  | '*' =>
      some .star
  | _ =>
      none

/-- The marks that join with an equals sign: the kind of the mark alone and the
kind of the pair. -/
def joining? (glyph : Glyph) : Option (TokenKind × TokenKind) :=
  match Char.ofNat glyph.code with
  | '!' =>
      some (.bang, .bangEqual)
  | '=' =>
      some (.equal, .equalEqual)
  | '<' =>
      some (.less, .lessEqual)
  | '>' =>
      some (.greater, .greaterEqual)
  | _ =>
      none

end Glyph

namespace Segment

/-- The glyphs of a segment. -/
def glyphs : Segment → List Glyph
  | .lexeme _ _ glyphs =>
      glyphs
  | .blank glyph =>
      [glyph]
  | .comment glyphs =>
      glyphs
  | .stray glyph =>
      [glyph]
  | .openString glyphs =>
      glyphs

/-- The bytes of a segment. -/
def bytes (segment : Segment) : Text :=
  Glyph.bytes segment.glyphs

/-- A mark alone, or joined with the equals sign after it. -/
def joined
    (kinds : TokenKind × TokenKind)
    (first : Glyph) :
    List Glyph → Segment
  | second :: _ =>
      if second.is '=' then
        .lexeme kinds.2 .nil [first, second]
      else
        .lexeme kinds.1 .nil [first]
  | [] =>
      .lexeme kinds.1 .nil [first]

/-- A slash alone, or the comment that two slashes begin. -/
def slash
    (first : Glyph) :
    List Glyph → Segment
  | second :: rest =>
      if second.is '/' then
        .comment (first :: second :: rest.takeWhile (!·.is '\n'))
      else
        .lexeme .slash .nil [first]
  | [] =>
      .lexeme .slash .nil [first]

/-- A string up to its closing quotation mark. -/
def string
    (first : Glyph)
    (rest : List Glyph) :
    Segment :=
  let inner := rest.takeWhile (!·.is '"')
  match rest.dropWhile (!·.is '"') with
  | closing :: _ =>
      .lexeme .string (.text (Glyph.bytes inner)) (first :: inner ++ [closing])
  | [] =>
      .openString (first :: inner)

/-- The digits after a point, when the point has a digit behind it. -/
def fraction : List Glyph → List Glyph
  | point :: digit :: rest =>
      if point.is '.' && digit.isDigit then
        digit :: rest.takeWhile Glyph.isDigit
      else
        []
  | _ =>
      []

/-- Digits and, behind a point, more digits. -/
def number
    (first : Glyph)
    (rest : List Glyph) :
    Segment :=
  let whole := first :: rest.takeWhile Glyph.isDigit
  let after := rest.dropWhile Glyph.isDigit
  let digits := fraction after
  let point := if digits.isEmpty then [] else after.take 1
  let value := Decimal.ofDigits (Glyph.bytes whole) (Glyph.bytes digits)
  .lexeme .number (.number value.toFloat) (whole ++ point ++ digits)

/-- A name, or the keyword that it spells. -/
def word
    (first : Glyph)
    (rest : List Glyph) :
    Segment :=
  let glyphs := first :: rest.takeWhile Glyph.continuesName
  match Keyword.ofText? (Glyph.bytes glyphs) with
  | some keyword =>
      .lexeme (.keyword keyword) .nil glyphs
  | none =>
      .lexeme .identifier .nil glyphs

/-- The segment at the front of a text. -/
def front
    (first : Glyph)
    (rest : List Glyph) :
    Segment :=
  match first.mark?, first.joining? with
  | some kind, _ =>
      .lexeme kind .nil [first]
  | none, some kinds =>
      joined kinds first rest
  | none, none =>
      if first.is '/' then
        slash first rest
      else if first.separates then
        .blank first
      else if first.is '"' then
        string first rest
      else if first.isDigit then
        number first rest
      else if first.startsName then
        word first rest
      else
        .stray first

/-- Cut a text whose first `skipped` glyphs belong to a segment already cut. -/
def splitAfter : Nat → List Glyph → List Segment
  | _, [] =>
      []
  | 0, first :: rest =>
      let segment := front first rest
      segment :: splitAfter (segment.glyphs.length - 1) rest
  | skipped + 1, _ :: rest =>
      splitAfter skipped rest

/-- Cut a source text into segments. -/
def split (source : Text) : List Segment :=
  splitAfter 0 (Glyph.decode source)

end Segment

end Script
