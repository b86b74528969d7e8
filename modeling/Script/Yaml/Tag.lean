import Script.Yaml.Cursor
import Script.Yaml.Token

namespace Script.Yaml.Tag

/-!
# Tags

A tag tells the kind of a value.  It is a handle, which stands for the start of
a long name, and a suffix, or a whole name between angle brackets.
-/

/-- Characters of which the names of kinds are made. -/
def isUriCharacter (character : Char) : Bool :=
  isNameCharacter character ||
    character ∈
      [';', '/', '?', ':', '@', '&', '=', '+', '$', ',', '.', '!', '~', '*',
       '\x27', '(', ')', '[', ']', '%']

/-- The number of bytes of a character that a lead byte announces. -/
def leadWidth? (lead : Nat) : Option Nat :=
  Encoding.announcedWidth? lead.toUInt8

/-- The byte that a percent sign and two hexadecimal digits stand for. -/
def escapedByte? (cursor : Cursor) : Option Nat :=
  match cursor.rest with
  | '%' :: high :: low :: _ =>
      hexadecimal? 0 [high, low]
  | _ =>
      none

/-- Read the escaped bytes of one character; `missing` of them are still to be
read, or all when none was read yet.  The last byte comes first. -/
def readEscapes
    (start : Mark) :
    Nat → Option Nat → Text → Cursor → Except Fault (Text × Cursor)
  | 0, _, taken, cursor =>
      .ok (taken, cursor)
  | bound + 1, missing, taken, cursor => do
      if missing = some 0 then
        .ok (taken, cursor)
      else
        let cursor ← cursor.need 3
        match escapedByte? cursor with
        | none =>
            .error (cursor.faultSince start .tagEscape)
        | some byte =>
            let after := cursor.skip.skip.skip
            match missing with
            | none =>
                match leadWidth? byte with
                | none =>
                    .error (cursor.faultSince start .tagEscapeLead)
                | some width =>
                    readEscapes start bound (some (width - 1))
                      (byte.toUInt8 :: taken) after
            | some missing =>
                if byte / 64 = 2 then
                  readEscapes start bound (some (missing - 1))
                    (byte.toUInt8 :: taken) after
                else
                  .error (cursor.faultSince start .tagEscapeTail)

/-- Read the characters of a name, the last byte first. -/
def readUriFrom
    (start : Mark) :
    Nat → Text → Cursor → Except Fault (Text × Cursor)
  | 0, taken, cursor =>
      .ok (taken, cursor)
  | bound + 1, taken, cursor => do
      let cursor ← cursor.need 1
      if cursor.isAt '%' then
        let (taken, cursor) ←
          readEscapes start (Stream.longest + 1) none taken cursor
        readUriFrom start bound taken cursor
      else if isUriCharacter cursor.peek then
        readUriFrom start bound
          ((textOf [cursor.peek]).reverse ++ taken) cursor.skip
      else
        .ok (taken, cursor)

/-- Read a name that goes on from some characters already read.  It must not be
empty unless a mark was read before it. -/
def readUri
    (start : Mark)
    (isMarked : Bool)
    (head : Text)
    (cursor : Cursor) :
    Except Fault (Text × Cursor) := do
  let before := cursor.mark.index
  let (taken, cursor) ←
    readUriFrom start cursor.bound head.reverse cursor
  if !isMarked && cursor.mark.index = before then
    .error (cursor.faultSince start .missingTag)
  else
    .ok (taken.reverse, cursor)

/-- Read a handle: an exclamation mark, a name that may be empty, and a second
mark.  Without the second mark what was read is no handle; in a directive only
the single mark is one all the same. -/
def readHandle
    (start : Mark)
    (inDirective : Bool)
    (cursor : Cursor) :
    Except Fault (Text × Cursor) := do
  let cursor ← cursor.need 1
  if !cursor.isAt '!' then
    .error (cursor.faultSince start .missingHandle)
  else
    let (name, cursor) ← cursor.skip.takeName
    if cursor.isAt '!' then
      .ok (textOf ('!' :: name ++ ['!']), cursor.skip)
    else if inDirective && !name.isEmpty then
      .error (cursor.faultSince start .missingHandle)
    else
      .ok (textOf ('!' :: name), cursor)

/-- Whether a text is a handle with two marks. -/
def isHandle (text : Text) : Bool :=
  1 < text.length && text.getLast? == some (Text.byte '!')

/-- Read a tag that is no whole name between angle brackets. -/
def readShort
    (start : Mark)
    (cursor : Cursor) :
    Except Fault (TokenKind × Cursor) := do
  let (handle, cursor) ← readHandle start false cursor
  if isHandle handle then
    let (suffix, cursor) ← readUri start false [] cursor
    .ok (.tag handle suffix, cursor)
  else
    let (suffix, cursor) ← readUri start true (handle.drop 1) cursor
    if suffix.isEmpty then
      .ok (.tag [] (Text.utf8 "!"), cursor)
    else
      .ok (.tag (Text.utf8 "!") suffix, cursor)

/-- Read a whole name between angle brackets. -/
def readLong
    (start : Mark)
    (cursor : Cursor) :
    Except Fault (TokenKind × Cursor) := do
  let (name, cursor) ← readUri start false [] cursor.skip.skip
  if cursor.isAt '>' then
    .ok (.tag [] name, cursor.skip)
  else
    .error (cursor.faultSince start .unclosedTag)

/-- Read a tag from its exclamation mark on. -/
def read (cursor : Cursor) : Except Fault (TokenKind × Cursor) := do
  let start := cursor.mark
  let cursor ← cursor.need 2
  let (tag, cursor) ←
    if cursor.peekAt 1 == '<' then
      readLong start cursor
    else
      readShort start cursor
  let cursor ← cursor.need 1
  if isSpacing cursor.peek then
    .ok (tag, cursor)
  else
    .error (cursor.faultSince start .missingSpacing)

end Script.Yaml.Tag
