import Script.Yaml.Character
import Script.Yaml.Encoding

namespace Script.Yaml

/-!
# A place in a document

A cursor goes through the characters of a document and keeps count of them, of
the lines and of the columns, all from zero.  Before characters are looked at
they have to be asked for, since that is when blocks are decoded.
-/

/-- A place in a document. -/
structure Mark where
  /-- The number of characters before the place. -/
  index : Nat
  line : Nat
  column : Nat
  deriving Repr, DecidableEq

/-- A place in a document, with what is left from there on. -/
structure Cursor where
  rest : List Char
  mark : Mark
  /-- The number of line breaks since the last character that is no blank. -/
  breaks : Nat
  /-- The number of characters in the whole document. -/
  length : Nat
  /-- The character at which the cursor stood when the last block was
  decoded. -/
  front : Option Char
  /-- The number of characters decoded so far.  Behind the last block the end
  counts as one more each time it is asked for. -/
  decoded : Nat
  /-- The number of characters up to the end of each block not yet decoded. -/
  blocks : List Nat
  /-- What is wrong behind the last character. -/
  flaw : Option Malformation
  /-- A flaw that was met and is still to be told. -/
  pending : Option Malformation
  deriving Repr, DecidableEq

namespace Cursor

/-- The cursor at the start of a document. -/
def ofStream (stream : Stream) : Cursor where
  rest := stream.characters
  mark := { index := 0, line := 0, column := 0 }
  breaks := 0
  length := stream.characters.length
  front := none
  decoded := 0
  blocks := stream.blocks
  flaw := stream.flaw
  pending := none

/-- A number of steps that is enough to get to the end. -/
def bound (cursor : Cursor) : Nat :=
  cursor.length + 4

/-- Ask for a number of characters. -/
def need
    (amount : Nat)
    (cursor : Cursor) :
    Except Fault Cursor :=
  let wanted := cursor.mark.index + amount
  if wanted ≤ cursor.decoded then
    .ok cursor
  else
    match cursor.blocks.dropWhile (· < wanted) with
    | first :: later =>
        .ok
          { cursor with
            front := cursor.rest.head?, decoded := first, blocks := later }
    | [] =>
        match cursor.flaw with
        | some cause =>
            .error (.unplaced cause)
        | none =>
            let all := max cursor.decoded (cursor.blocks.getLast?.getD 0)
            .ok
              { cursor with
                front := cursor.rest.head?, decoded := all + 1, blocks := [] }

/-- Ask for a number of characters that can be done without: whether they are
there.  If not, the flaw in the way is told later. -/
def ask
    (amount : Nat)
    (cursor : Cursor) :
    Bool × Cursor :=
  match cursor.need amount with
  | .ok cursor =>
      (true, cursor)
  | .error fault =>
      (false,
        { cursor with
          front := cursor.rest.head?
          decoded := cursor.length
          blocks := []
          pending := some fault.cause })

/-- The character at the cursor. -/
def peek (cursor : Cursor) : Char :=
  cursor.rest.headD ending

/-- The character a number of places behind the cursor. -/
def peekAt
    (offset : Nat)
    (cursor : Cursor) :
    Char :=
  (cursor.rest.drop offset).headD ending

/-- Whether a character stands at the cursor. -/
def isAt
    (character : Char)
    (cursor : Cursor) :
    Bool :=
  cursor.peek == character

/-- The column of a cursor. -/
def column (cursor : Cursor) : Nat :=
  cursor.mark.column

/-- The line of a cursor. -/
def line (cursor : Cursor) : Nat :=
  cursor.mark.line

/-- Go past one character that is no line break. -/
def skip (cursor : Cursor) : Cursor :=
  { cursor with
    rest := cursor.rest.tail
    mark :=
      { cursor.mark with
        index := cursor.mark.index + 1
        column := cursor.mark.column + 1 }
    breaks := if isBlank cursor.peek then cursor.breaks else 0 }

/-- The cursor at the start of the next line, some characters further on. -/
def nextLine
    (amount : Nat)
    (cursor : Cursor) :
    Cursor :=
  { cursor with
    rest := cursor.rest.drop amount
    mark :=
      { index := cursor.mark.index + amount
        line := cursor.mark.line + 1
        column := 0 }
    breaks := cursor.breaks + 1 }

/-- Go past a line break; a carriage return and a line feed are one.  Where
there is no line break, the cursor stays. -/
def skipLine (cursor : Cursor) : Cursor :=
  if cursor.isAt '\r' && cursor.peekAt 1 == '\n' then
    cursor.nextLine 2
  else if isBreak cursor.peek then
    cursor.nextLine 1
  else
    cursor

/-- How the line break at the cursor is read: nothing where there is none. -/
def breakText (cursor : Cursor) : List Char :=
  if isPlainBreak cursor.peek then
    ['\n']
  else if isKeptBreak cursor.peek then
    [cursor.peek]
  else
    []

/-- Go past a line break, however long it is. -/
def takeLine (cursor : Cursor) : Except Fault Cursor :=
  (cursor.need 2).map skipLine

/-- Skip the characters of a class, which does not hold the end.  There must be
fewer of them than the bound. -/
def skipWhile
    (wanted : Char → Bool) :
    Nat → Cursor → Except Fault Cursor
  | 0, cursor =>
      .ok cursor
  | bound + 1, cursor => do
      let cursor ← cursor.need 1
      if wanted cursor.peek then
        skipWhile wanted bound cursor.skip
      else
        .ok cursor

/-- Skip blanks. -/
def skipBlanks (cursor : Cursor) : Except Fault Cursor :=
  cursor.skipWhile isBlank cursor.bound

/-- Skip what is left of a line. -/
def skipToBreak (cursor : Cursor) : Except Fault Cursor :=
  cursor.skipWhile (!isBreakOrEnd ·) cursor.bound

/-- Take the characters of a class, which does not hold the end, in front of
those already taken, so that the last one comes first. -/
def takeWhile
    (wanted : Char → Bool) :
    Nat → List Char → Cursor → Except Fault (List Char × Cursor)
  | 0, taken, cursor =>
      .ok (taken, cursor)
  | bound + 1, taken, cursor => do
      let cursor ← cursor.need 1
      if wanted cursor.peek then
        takeWhile wanted bound (cursor.peek :: taken) cursor.skip
      else
        .ok (taken, cursor)

/-- Take a name: the longest run of its characters, which may be empty. -/
def takeName (cursor : Cursor) : Except Fault (List Char × Cursor) :=
  (cursor.takeWhile isNameCharacter cursor.bound []).map
    fun (taken, cursor) => (taken.reverse, cursor)

/-- Whether three equal characters stand at the start of a line, and spacing
behind them. -/
def isMarker
    (character : Char)
    (cursor : Cursor) :
    Bool :=
  cursor.column == 0 && cursor.isAt character &&
    cursor.peekAt 1 == character && cursor.peekAt 2 == character &&
    isSpacing (cursor.peekAt 3)

/-- Whether a mark between documents stands at the cursor. -/
def isDocumentMarker (cursor : Cursor) : Bool :=
  cursor.isMarker '-' || cursor.isMarker '.'

/-- The fault of a token that started at a mark. -/
def faultSince
    (cursor : Cursor)
    (start : Mark)
    (cause : Malformation) :
    Fault :=
  .inToken cause start.line cursor.line

end Cursor

end Script.Yaml
