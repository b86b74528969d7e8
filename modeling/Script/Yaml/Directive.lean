import Script.Yaml.Tag

namespace Script.Yaml.Directive

/-!
# Directives

A line that starts with a percent sign, before a document, tells its version or
what a handle stands for.
-/

/-- Read the number of a version, which has one or two digits. -/
def readNumber
    (start : Mark)
    (cursor : Cursor) :
    Except Fault (Nat × Cursor) := do
  let (digits, after) ← cursor.takeWhile Char.isDigit 3 []
  if digits.isEmpty then
    .error (after.faultSince start .missingVersion)
  else if 2 < digits.length then
    .error (after.faultSince start .longVersion)
  else
    let value :=
      digits.foldr
        (fun digit value => value * 10 + (digit.toNat - '0'.toNat)) 0
    .ok (value, after)

/-- Read a version: two numbers and a point between them. -/
def readVersion
    (start : Mark)
    (cursor : Cursor) :
    Except Fault (TokenKind × Cursor) := do
  let cursor ← cursor.skipBlanks
  let (major, cursor) ← readNumber start cursor
  if cursor.isAt '.' then
    let (minor, cursor) ← readNumber start cursor.skip
    .ok (.version major minor, cursor)
  else
    .error (cursor.faultSince start .versionPoint)

/-- Read a handle and what it stands for. -/
def readHandle
    (start : Mark)
    (cursor : Cursor) :
    Except Fault (TokenKind × Cursor) := do
  let cursor ← cursor.skipBlanks
  let (handle, cursor) ← Tag.readHandle start true cursor
  let cursor ← cursor.need 1
  if !isBlank cursor.peek then
    .error (cursor.faultSince start .missingBlank)
  else
    let cursor ← cursor.skipBlanks
    let (expansion, cursor) ← Tag.readUri start false [] cursor
    let cursor ← cursor.need 1
    if isSpacing cursor.peek then
      .ok (.handle handle expansion, cursor)
    else
      .error (cursor.faultSince start .missingSpacing)

/-- Read the name of a directive. -/
def readName
    (start : Mark)
    (cursor : Cursor) :
    Except Fault (List Char × Cursor) := do
  let (name, cursor) ← cursor.takeName
  if name.isEmpty then
    .error (cursor.faultSince start .missingDirectiveName)
  else if isSpacing cursor.peek then
    .ok (name, cursor)
  else
    .error (cursor.faultSince start .directiveName)

/-- Read what a directive of the given name says. -/
def readBody
    (start : Mark)
    (name : List Char)
    (cursor : Cursor) :
    Except Fault (TokenKind × Cursor) :=
  if name = ['Y', 'A', 'M', 'L'] then
    readVersion start cursor
  else if name = ['T', 'A', 'G'] then
    readHandle start cursor
  else
    .error (cursor.faultSince start .unknownDirective)

/-- Read a directive from its percent sign to the end of its line. -/
def read (cursor : Cursor) : Except Fault (TokenKind × Cursor) := do
  let start := cursor.mark
  let (name, cursor) ← readName start cursor.skip
  let (directive, cursor) ← readBody start name cursor
  let cursor ← cursor.skipBlanks
  let cursor ←
    if cursor.isAt '#' then cursor.skipToBreak else .ok cursor
  if isBreak cursor.peek then
    let cursor ← cursor.takeLine
    .ok (directive, cursor)
  else if cursor.isAt ending then
    .ok (directive, cursor)
  else
    .error (cursor.faultSince start .directiveEnd)

end Script.Yaml.Directive
