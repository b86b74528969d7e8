import Script.Yaml.Scalar.Gap

namespace Script.Yaml.Plain

/-!
# Plain scalars

A plain scalar has no marks around it.  It ends before a colon that spacing
follows, before a comment, before a mark between documents and, between
brackets, before everything that structures a collection.  Outside of brackets
it also ends before a line that is not indented far enough.
-/

/-- Characters that end a plain scalar between brackets. -/
def isFlowMark (character : Char) : Bool :=
  character ∈ [',', '?', '[', ']', '\x7b', '\x7d']

/-- Whether the character at the cursor ends a plain scalar. -/
def isEnd
    (inFlow : Bool)
    (cursor : Cursor) :
    Bool :=
  (cursor.isAt ':' && isSpacing (cursor.peekAt 1)) ||
    (inFlow && isFlowMark cursor.peek)

/-- Take the characters of a word in front of those already taken, so that the
last one comes first. -/
def takeWord
    (inFlow : Bool) :
    Nat → List Char → Cursor → Except Fault (List Char × Cursor)
  | 0, taken, cursor =>
      .ok (taken, cursor)
  | bound + 1, taken, cursor =>
      if isSpacing cursor.peek || isEnd inFlow cursor then
        .ok (taken, cursor)
      else do
        let character := cursor.peek
        let cursor ← cursor.skip.need 2
        takeWord inFlow bound (character :: taken) cursor

/-- A plain scalar as far as it has been read: the last character first, and
the gap behind it. -/
structure State where
  taken : List Char
  gap : Gap
  deriving Repr, DecidableEq

/-- A scalar with one more word, which is given from its end. -/
def State.addWord
    (state : State)
    (word : List Char) :
    State :=
  if word.isEmpty then
    state
  else
    { taken := word ++ (state.gap.characters.reverse ++ state.taken)
      gap := .empty }

/-- Read a plain scalar that started at `start`; its lines are indented by
`least` or more. -/
def readFrom
    (inFlow : Bool)
    (least : Nat)
    (start : Mark) :
    Nat → State → Cursor → Except Fault (State × Cursor)
  | 0, state, cursor =>
      .ok (state, cursor)
  | bound + 1, state, cursor => do
      let cursor ← cursor.need 4
      if cursor.isDocumentMarker || cursor.isAt '#' then
        .ok (state, cursor)
      else
        let (word, cursor) ← takeWord inFlow cursor.bound [] cursor
        let state := state.addWord word
        if isBlank cursor.peek || isBreak cursor.peek then
          let (gap, cursor) ←
            state.gap.read least start cursor.bound cursor
          let state := { state with gap := gap }
          if !inFlow && cursor.column < least then
            .ok (state, cursor)
          else
            readFrom inFlow least start bound state cursor
        else
          .ok (state, cursor)

/-- Read a plain scalar: its characters, whether a line break follows them, and
the cursor behind it. -/
def read
    (inFlow : Bool)
    (least : Nat)
    (cursor : Cursor) :
    Except Fault (List Char × Bool × Cursor) := do
  let (state, cursor) ←
    readFrom inFlow least cursor.mark cursor.bound
      { taken := [], gap := .empty } cursor
  .ok (state.taken.reverse, state.gap.isBroken, cursor)

end Script.Yaml.Plain
