import Script.Yaml.Cursor

namespace Script.Yaml.Cursor

/-!
# Comments

A comment starts with a hash sign and ends with its line.  One that follows a
token on the same line goes with it; comments on lines of their own are taken
together with the blank lines between them, whatever the blanks in front of
them are.
-/

/-- How many characters are looked at for the next comment. -/
def commentReach : Nat :=
  512

/-- How far ahead a comment starts, when only characters of a class stand
before it.  `ahead` is what follows the first `offset` characters. -/
def findComment
    (spacing : Char → Bool) :
    Nat → Nat → List Char → Cursor → Option Nat × Cursor
  | 0, _, _, cursor =>
      (none, cursor)
  | reach + 1, offset, ahead, cursor =>
      match cursor.ask (offset + 1), ahead with
      | (true, cursor), first :: ahead =>
          if spacing first then
            findComment spacing reach (offset + 1) ahead cursor
          else if first == '#' then
            (some offset, cursor)
          else
            (none, cursor)
      | (_, cursor), _ =>
          (none, cursor)

/-- Skip characters, line breaks among them, up to an index. -/
def skipTo
    (index : Nat) :
    Nat → Cursor → Except Fault Cursor
  | 0, cursor =>
      .ok cursor
  | bound + 1, cursor =>
      if index ≤ cursor.mark.index then
        .ok cursor
      else do
        let cursor ← cursor.need 1
        if isBreak cursor.peek then
          let cursor ← cursor.takeLine
          skipTo index bound cursor
        else
          skipTo index bound cursor.skip

/-- Skip a comment that starts some characters ahead. -/
def skipCommentAt
    (offset : Nat)
    (cursor : Cursor) :
    Except Fault Cursor := do
  let cursor ←
    cursor.skipTo (cursor.mark.index + offset) cursor.bound
  cursor.skipToBreak

/-- Skip the comment behind a token on its line. -/
def skipLineComment (cursor : Cursor) : Except Fault Cursor := do
  if 0 < cursor.breaks then
    .ok cursor
  else
    let (found, cursor) :=
      cursor.findComment isBlank commentReach 0 cursor.rest
    match found with
    | some offset =>
        cursor.skipCommentAt offset
    | none =>
        .ok cursor

/-- Blanks and line breaks of one byte. -/
def isCommentSpacing (character : Char) : Bool :=
  isBlank character || character == '\n' || character == '\r'

/-- From the end of a comment, skip all comments that follow it. -/
def skipMoreComments : Nat → Cursor → Except Fault Cursor
  | 0, cursor =>
      .ok cursor
  | bound + 1, cursor =>
      if isCommentSpacing cursor.peek then do
        let (found, cursor) :=
          cursor.findComment isCommentSpacing (commentReach - 1) 1
            cursor.rest.tail
        match found with
        | some offset =>
            let cursor ← cursor.skipCommentAt offset
            skipMoreComments bound cursor
        | none =>
            .ok cursor
      else
        .ok cursor

/-- Skip a comment and all comments that follow it. -/
def skipComments (cursor : Cursor) : Except Fault Cursor := do
  let cursor ← cursor.skipToBreak
  cursor.skipMoreComments cursor.bound

end Script.Yaml.Cursor
