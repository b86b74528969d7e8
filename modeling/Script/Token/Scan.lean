import Script.Diagnostic
import Script.Token.Segment

namespace Script

/-!
# Scanning

The tokens of a source text are its lexemes in order, each with the line on
which it ends, and a last token that ends the input.  A stray character and a
string that is never closed are problems on the line where they end; scanning
goes on behind them.
-/

/-- The tokens and the problems of a source text. -/
structure Scan where
  tokens : List Token
  problems : List Diagnostic
  deriving Repr

namespace Segment

/-- The number of line feeds in a segment. -/
def newlines (segment : Segment) : Nat :=
  segment.glyphs.countP (·.is '\n')

/-- The token of a segment that ends on the given line. -/
def token?
    (segment : Segment)
    (line : Nat) :
    Option Token :=
  match segment with
  | .lexeme kind literal glyphs =>
      some { kind, lexeme := Glyph.bytes glyphs, literal, line }
  | _ =>
      none

/-- The problem of a segment that ends on the given line. -/
def problem?
    (segment : Segment)
    (line : Nat) :
    Option Diagnostic :=
  match segment with
  | .stray glyph =>
      some (.onLine line (.unexpectedCharacter glyph.code))
  | .openString _ =>
      some (.onLine line .unterminatedString)
  | _ =>
      none

end Segment

namespace Scan

/-- The tokens and problems of segments of which the first begins on `line`. -/
def ofSegments
    (line : Nat) :
    List Segment → Scan
  | [] =>
      { tokens := [.endAt line], problems := [] }
  | segment :: rest =>
      let last := line + segment.newlines
      let scan := ofSegments last rest
      { tokens := (segment.token? last).toList ++ scan.tokens
        problems := (segment.problem? last).toList ++ scan.problems }

/-- Scan a source text. -/
def ofSource (source : Text) : Scan :=
  ofSegments 1 (Segment.split source)

end Scan

end Script
