import Script.Yaml.Cursor

namespace Script.Yaml

/-!
# Gaps between words

The words of a scalar are divided by gaps.  A gap on one line is kept as it is.
A gap over several lines is folded: the blanks around the line breaks go away,
a single break is read as a space, and of several breaks the first is dropped.
-/

/-- What stands between two words. -/
structure Gap where
  /-- The blanks, as long as there is no line break. -/
  blanks : List Char
  /-- The first line break; it is empty when it was escaped. -/
  firstBreak : Option (List Char)
  /-- The other line breaks. -/
  moreBreaks : List Char
  deriving Repr, DecidableEq

namespace Gap

/-- A gap of which nothing has been read. -/
def empty : Gap where
  blanks := []
  firstBreak := none
  moreBreaks := []

/-- A gap that starts with a line break that does not count. -/
def escaped : Gap where
  blanks := []
  firstBreak := some []
  moreBreaks := []

/-- Whether a gap goes over several lines. -/
def isBroken (gap : Gap) : Bool :=
  gap.firstBreak.isSome

/-- How a gap is read. -/
def characters (gap : Gap) : List Char :=
  match gap.firstBreak with
  | none =>
      gap.blanks
  | some ['\n'] =>
      if gap.moreBreaks.isEmpty then [' '] else gap.moreBreaks
  | some first =>
      first ++ gap.moreBreaks

/-- A gap with one more blank. -/
def addBlank
    (gap : Gap)
    (blank : Char) :
    Gap :=
  if gap.isBroken then
    gap
  else
    { gap with blanks := gap.blanks ++ [blank] }

/-- A gap with one more line break. -/
def addBreak
    (gap : Gap)
    (lineBreak : List Char) :
    Gap :=
  if gap.isBroken then
    { gap with moreBreaks := gap.moreBreaks ++ lineBreak }
  else
    { gap with blanks := [], firstBreak := some lineBreak }

/-- Read a gap to its end.  After a line break a tab must not stand before the
column `least`; `start` is where the scalar started. -/
def read
    (least : Nat)
    (start : Mark) :
    Nat → Gap → Cursor → Except Fault (Gap × Cursor)
  | 0, gap, cursor =>
      .ok (gap, cursor)
  | bound + 1, gap, cursor => do
      let cursor ← cursor.need 1
      if isBlank cursor.peek then
        if gap.isBroken && cursor.column < least && cursor.isAt '\t' then
          .error (cursor.faultSince start .tabInPlain)
        else
          read least start bound (gap.addBlank cursor.peek) cursor.skip
      else if isBreak cursor.peek then
        let cursor ← cursor.need 2
        read least start bound (gap.addBreak cursor.breakText)
          cursor.skipLine
      else
        .ok (gap, cursor)

end Gap

end Script.Yaml
