import Script.Yaml.Scalar.Gap

namespace Script.Yaml.Quoted

/-!
# Quoted scalars

Between apostrophes only the apostrophe itself is written twice; between
quotation marks a backslash starts an escape, and one at the end of a line
makes the line break not count.  Either may run over several lines, which are
folded, and ends with the mark it started with.
-/

/-- The two ways to quote. -/
inductive Style where
  | single
  | double
  deriving Repr, DecidableEq

/-- The mark around a quoted scalar. -/
def Style.mark : Style → Char
  | .single =>
      '\x27'
  | .double =>
      '\x22'

/-- The characters that one letter after a backslash stands for. -/
def escapes : List (Char × Char) :=
  [('0', '\x00'), ('a', '\x07'), ('b', '\x08'), ('t', '\t'), ('\t', '\t'),
   ('n', '\n'), ('v', '\x0b'), ('f', '\x0c'), ('r', '\r'), ('e', '\x1b'),
   (' ', ' '), ('\x22', '\x22'), ('\x27', '\x27'), ('\\', '\\'),
   ('N', '\u0085'), ('_', '\u00a0'), ('L', '\u2028'), ('P', '\u2029')]

/-- The number of hexadecimal digits after a letter. -/
def escapeWidth? (letter : Char) : Option Nat :=
  match letter with
  | 'x' =>
      some 2
  | 'u' =>
      some 4
  | 'U' =>
      some 8
  | _ =>
      none

/-- The character that a number stands for, which is no surrogate. -/
def characterOf? (code : Nat) : Option Char :=
  if (0xD800 ≤ code && code ≤ 0xDFFF) || 0x10FFFF < code then
    none
  else
    some (Char.ofNat code)

/-- Go past a number of characters. -/
def skipMany : Nat → Cursor → Cursor
  | 0, cursor =>
      cursor
  | amount + 1, cursor =>
      skipMany amount cursor.skip

/-- Read an escape of hexadecimal digits, from behind its letter. -/
def readNumber
    (start : Mark)
    (width : Nat)
    (cursor : Cursor) :
    Except Fault (Char × Cursor) := do
  let cursor ← cursor.need width
  let digits := cursor.rest.take width
  let code? :=
    if digits.length = width then hexadecimal? 0 digits else none
  match code? with
  | none =>
      .error (cursor.faultSince start .escapeDigits)
  | some code =>
      match characterOf? code with
      | none =>
          .error (cursor.faultSince start .escapeCharacter)
      | some character =>
          .ok (character, skipMany width cursor)

/-- Read the escape at the cursor, which stands at a backslash. -/
def readEscape
    (start : Mark)
    (cursor : Cursor) :
    Except Fault (Char × Cursor) :=
  let letter := cursor.peekAt 1
  match escapes.find? fun (known, _) => known == letter with
  | some (_, character) =>
      .ok (character, cursor.skip.skip)
  | none =>
      match escapeWidth? letter with
      | some width =>
          readNumber start width cursor.skip.skip
      | none =>
          .error (cursor.faultSince start .unknownEscape)

/-- Take the characters of a word in front of those already taken, so that the
last one comes first, and tell whether the word ends with an escaped line
break. -/
def takeWord
    (style : Style)
    (start : Mark) :
    Nat → List Char → Cursor → Except Fault (List Char × Bool × Cursor)
  | 0, taken, cursor =>
      .ok (taken, false, cursor)
  | bound + 1, taken, cursor =>
      if isSpacing cursor.peek then
        .ok (taken, false, cursor)
      else if cursor.isAt style.mark then
        if style = .single && cursor.peekAt 1 == style.mark then do
          let cursor ← cursor.skip.skip.need 2
          takeWord style start bound (style.mark :: taken) cursor
        else
          .ok (taken, false, cursor)
      else if style = .double && cursor.isAt '\\' then
        if isBreak (cursor.peekAt 1) then do
          let cursor ← cursor.need 3
          .ok (taken, true, cursor.skip.skipLine)
        else do
          let (character, cursor) ← readEscape start cursor
          let cursor ← cursor.need 2
          takeWord style start bound (character :: taken) cursor
      else do
        let character := cursor.peek
        let cursor ← cursor.skip.need 2
        takeWord style start bound (character :: taken) cursor

/-- Read a quoted scalar up to its closing mark. -/
def readFrom
    (style : Style)
    (start : Mark) :
    Nat → List Char → Cursor → Except Fault (List Char × Cursor)
  | 0, taken, cursor =>
      .ok (taken, cursor)
  | bound + 1, taken, cursor => do
      let cursor ← cursor.need 4
      if cursor.isDocumentMarker then
        .error (cursor.faultSince start .markerInQuotes)
      else if cursor.isAt ending then
        .error (cursor.faultSince start .unclosedQuote)
      else
        let (taken, isEscaped, cursor) ←
          takeWord style start cursor.bound taken cursor
        let cursor ← cursor.need 1
        if cursor.isAt style.mark then
          .ok (taken, cursor.skip)
        else
          let opened := if isEscaped then Gap.escaped else .empty
          let (gap, cursor) ← opened.read 0 start cursor.bound cursor
          readFrom style start bound (gap.characters.reverse ++ taken) cursor

/-- Read a quoted scalar from its opening mark on. -/
def read
    (style : Style)
    (cursor : Cursor) :
    Except Fault (List Char × Cursor) := do
  let (taken, cursor) ←
    readFrom style cursor.mark cursor.bound [] cursor.skip
  .ok (taken.reverse, cursor)

end Script.Yaml.Quoted
