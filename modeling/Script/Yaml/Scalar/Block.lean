import Script.Yaml.Cursor

namespace Script.Yaml.Block

/-!
# Block scalars

A block scalar is what is indented further below a bar, which keeps its line
breaks, or an angle bracket, which folds them.  Behind the sign may stand how
far the lines are indented, and what becomes of the line breaks at the end.
-/

/-- What becomes of the line breaks at the end: all but the first are dropped,
or all, or none. -/
inductive Chomping where
  | clip
  | strip
  | keep
  deriving Repr, DecidableEq

/-- What stands behind the sign of a block scalar. -/
structure Header where
  chomping : Chomping
  /-- How much further the lines are indented, if it is told. -/
  increment : Option Nat
  deriving Repr, DecidableEq

/-- The sign for the line breaks at the end, if there is one. -/
def readChomping
    (cursor : Cursor) :
    Except Fault (Option Chomping × Cursor) := do
  let cursor ← cursor.need 1
  if cursor.isAt '+' then
    .ok (some .keep, cursor.skip)
  else if cursor.isAt '-' then
    .ok (some .strip, cursor.skip)
  else
    .ok (none, cursor)

/-- The digit for the indentation, if there is one. -/
def readIncrement
    (start : Mark)
    (cursor : Cursor) :
    Except Fault (Option Nat × Cursor) := do
  let cursor ← cursor.need 1
  if cursor.isAt '0' then
    .error (cursor.faultSince start .zeroIndentation)
  else if cursor.peek.isDigit then
    .ok (some (cursor.peek.toNat - '0'.toNat), cursor.skip)
  else
    .ok (none, cursor)

/-- Read the header, in which the two signs may stand in either order, up to
the end of its line. -/
def readHeader
    (start : Mark)
    (cursor : Cursor) :
    Except Fault (Header × Cursor) := do
  let (before, cursor) ← readChomping cursor
  let (increment, cursor) ← readIncrement start cursor
  let (after, cursor) ←
    if before.isNone && increment.isSome then
      readChomping cursor
    else
      .ok (none, cursor)
  let cursor ← cursor.skipBlanks
  let cursor ←
    if cursor.isAt '#' then cursor.skipToBreak else .ok cursor
  if isBreakOrEnd cursor.peek then
    let header : Header :=
      { chomping := (before.or after).getD .clip, increment := increment }
    if isBreak cursor.peek then
      let cursor ← cursor.takeLine
      .ok (header, cursor)
    else
      .ok (header, cursor)
  else
    .error (cursor.faultSince start .directiveEnd)

/-- Whether a space at a column belongs to the indentation, which may not be
known yet. -/
def isIndentation
    (indent : Option Nat)
    (column : Nat) :
    Bool :=
  match indent with
  | none =>
      true
  | some indent =>
      column < indent

/-- Read empty lines and the indentation of the line that follows them.  The
line breaks are put in front of those already taken, so that the last one comes
first; `widest` is the greatest column that was reached. -/
def readBreaks
    (indent : Option Nat)
    (start : Mark) :
    Nat → Nat → List Char → Cursor → Except Fault (Nat × List Char × Cursor)
  | 0, widest, taken, cursor =>
      .ok (widest, taken, cursor)
  | bound + 1, widest, taken, cursor => do
      let cursor ← cursor.need 1
      if isIndentation indent cursor.column && cursor.isAt ' ' then
        readBreaks indent start bound widest taken cursor.skip
      else
        let widest := max widest cursor.column
        if isIndentation indent cursor.column && cursor.isAt '\t' then
          .error (cursor.faultSince start .tabInBlock)
        else if isBreak cursor.peek then
          let lineBreak := cursor.breakText
          let cursor ← cursor.takeLine
          readBreaks indent start bound widest (lineBreak ++ taken) cursor
        else
          .ok (widest, taken, cursor)

/-- A block scalar as far as it has been read, the last character first. -/
structure State where
  taken : List Char
  /-- The line break of the last line. -/
  lineBreak : List Char
  /-- The line breaks of the empty lines behind it, the last one first. -/
  emptyLines : List Char
  /-- Whether the last line starts with a blank. -/
  startsBlank : Bool
  deriving Repr, DecidableEq

/-- The text so far with the line breaks before a further line, which are
folded unless one of the two lines starts with a blank. -/
def State.join
    (folded : Bool)
    (state : State)
    (nextStartsBlank : Bool) :
    List Char :=
  if folded && !state.startsBlank && !nextStartsBlank &&
      state.lineBreak == ['\n'] then
    if state.emptyLines.isEmpty then
      ' ' :: state.taken
    else
      state.emptyLines ++ state.taken
  else
    state.emptyLines ++ (state.lineBreak ++ state.taken)

/-- Read the lines that are indented by `indent`. -/
def readLines
    (folded : Bool)
    (indent : Nat)
    (start : Mark) :
    Nat → State → Cursor → Except Fault (State × Cursor)
  | 0, state, cursor =>
      .ok (state, cursor)
  | bound + 1, state, cursor => do
      let cursor ← cursor.need 1
      if cursor.column == indent && !cursor.isAt ending then
        let startsBlank := isBlank cursor.peek
        let (taken, cursor) ←
          cursor.takeWhile (!isBreakOrEnd ·) cursor.bound
            (state.join folded startsBlank)
        let lineBreak := cursor.breakText
        let cursor ← cursor.takeLine
        let (_, emptyLines, cursor) ←
          readBreaks (some indent) start cursor.bound 0 [] cursor
        readLines folded indent start bound
          { taken, lineBreak, emptyLines, startsBlank } cursor
      else
        .ok (state, cursor)

/-- The characters of a block scalar, with what is kept of the line breaks at
its end. -/
def State.characters
    (state : State)
    (chomping : Chomping) :
    List Char :=
  let reversed :=
    match chomping with
    | .clip =>
        state.lineBreak ++ state.taken
    | .strip =>
        state.taken
    | .keep =>
        state.emptyLines ++ (state.lineBreak ++ state.taken)
  reversed.reverse

/-- Read a block scalar from its sign on, in a collection whose entries are
indented by `outer`. -/
def read
    (folded : Bool)
    (outer : Option Nat)
    (cursor : Cursor) :
    Except Fault (List Char × Cursor) := do
  let start := cursor.mark
  let (header, cursor) ← readHeader start cursor.skip
  let told := header.increment.map (outer.getD 0 + ·)
  let (widest, emptyLines, cursor) ←
    readBreaks told start cursor.bound 0 [] cursor
  let least := (outer.map (· + 1)).getD 0
  let indent := told.getD (max widest (max least 1))
  let (state, cursor) ←
    readLines folded indent start cursor.bound
      { taken := [], lineBreak := [], emptyLines, startsBlank := false }
      cursor
  .ok (state.characters header.chomping, cursor)

end Script.Yaml.Block
