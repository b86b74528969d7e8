import Script.Diagnostic

namespace Script

/-!
# Cursors

A cursor is a place in a list of tokens, with what parsing has found out on the
way there: the problems so far and the number of nested constructs that are
open.  A parsing step either gives a value or fails; in both cases it says where
it stopped, and a step that fails has reported why.
-/

/-- A place in a list of tokens. -/
structure Cursor where
  /-- The tokens that are still to be read, the end of the input not among them. -/
  rest : List Token
  /-- The token that ends the input. -/
  ending : Token
  /-- The number of groupings, unary operators and blocks that are open. -/
  depth : Nat
  /-- The problems reported so far, the latest one first. -/
  reported : List Diagnostic
  deriving Repr

/-- The result of a parsing step. -/
inductive Step (α : Type) where
  | done (value : α) (cursor : Cursor)
  | failed (cursor : Cursor)
  deriving Repr

namespace Step

/-- Go on with the value of a step, unless it failed. -/
@[inline]
def bind
    (step : Step α)
    (next : α → Cursor → Step β) :
    Step β :=
  match step with
  | .done value cursor =>
      next value cursor
  | .failed cursor =>
      .failed cursor

/-- Change the value of a step. -/
@[inline]
def map
    (change : α → β)
    (step : Step α) :
    Step β :=
  step.bind fun value cursor => .done (change value) cursor

/-- Change the cursor of a step, whether it failed or not. -/
@[inline]
def mapCursor
    (change : Cursor → Cursor)
    (step : Step α) :
    Step α :=
  match step with
  | .done value cursor =>
      .done value (change cursor)
  | .failed cursor =>
      .failed (change cursor)

/-- Where a step stopped. -/
def cursor : Step α → Cursor
  | .done _ cursor =>
      cursor
  | .failed cursor =>
      cursor

end Step

namespace Cursor

/-- The most groupings, unary operators and blocks that may be open at once. -/
def maximalDepth : Nat :=
  1000

/-- The most parameters or arguments in a list without a problem. -/
def maximalArguments : Nat :=
  255

/-- The cursor at the start of a list of tokens.  The list counts up to its
first end of input; one is added when there is none. -/
def start (tokens : List Token) : Cursor :=
  let isEnd := fun token : Token => token.kind == .endOfInput
  let lastLine := (tokens.getLast?.map Token.line).getD 1
  { rest := tokens.takeWhile (!isEnd ·)
    ending := (tokens.find? isEnd).getD (.endAt lastLine)
    depth := 0
    reported := [] }

/-- The next token. -/
def peek (cursor : Cursor) : Token :=
  cursor.rest.headD cursor.ending

/-- Whether the next token has the given kind. -/
def sees
    (cursor : Cursor)
    (kind : TokenKind) :
    Bool :=
  cursor.peek.kind == kind

/-- Report a problem at a token. -/
def report
    (cursor : Cursor)
    (token : Token)
    (problem : Problem) :
    Cursor :=
  { cursor with reported := .atToken token problem :: cursor.reported }

/-- Read the next token if it has the given kind. -/
def accept?
    (cursor : Cursor)
    (kind : TokenKind) :
    Option (Token × Cursor) :=
  match cursor.rest with
  | token :: rest =>
      if token.kind = kind then
        some (token, { cursor with rest })
      else
        none
  | [] =>
      none

/-- Read a token of the given kind; any other one is a problem. -/
def expect
    (cursor : Cursor)
    (kind : TokenKind)
    (what : Expectation) :
    Step Token :=
  match cursor.accept? kind with
  | some (token, cursor) =>
      .done token cursor
  | none =>
      .failed (cursor.report cursor.peek (.expected what))

/-- Open a nested construct; `opening` is the token just read. -/
def enter
    (cursor : Cursor)
    (opening : Token) :
    Step Unit :=
  if cursor.depth < maximalDepth then
    .done () { cursor with depth := cursor.depth + 1 }
  else
    .failed (cursor.report opening .tooMuchNesting)

/-- Close a nested construct. -/
def leave (cursor : Cursor) : Cursor :=
  { cursor with depth := cursor.depth - 1 }

/-- Run a step inside a nested construct, which is closed again however the step
ends. -/
@[inline]
def nested
    (cursor : Cursor)
    (opening : Token)
    (body : Cursor → Step α) :
    Step α :=
  (cursor.enter opening).bind fun _ inner => (body inner).mapCursor leave

/-- Kinds of token that begin a statement and end the search for one. -/
def startsStatement : TokenKind → Bool
  | .keyword .classWord =>
      true
  | .keyword .funWord =>
      true
  | .keyword .varWord =>
      true
  | .keyword .forWord =>
      true
  | .keyword .ifWord =>
      true
  | .keyword .whileWord =>
      true
  | .keyword .printWord =>
      true
  | .keyword .returnWord =>
      true
  | _ =>
      false

/-- What is left after the tokens up to the next statement are dropped:
everything behind a semicolon or from a word on that begins a statement. -/
def nextStatement
    (previous : Token) :
    List Token → List Token
  | [] =>
      []
  | token :: rest =>
      if previous.kind = .semicolon || startsStatement token.kind then
        token :: rest
      else
        nextStatement token rest

/-- Skip at least one token, and go on to where the next statement may begin. -/
def synchronize (cursor : Cursor) : Cursor :=
  match cursor.rest with
  | [] =>
      cursor
  | token :: rest =>
      { cursor with rest := nextStatement token rest }

end Cursor

end Script
