import Script.Yaml.Comment
import Script.Yaml.Directive
import Script.Yaml.Scalar.Block
import Script.Yaml.Scalar.Plain
import Script.Yaml.Scalar.Quoted

namespace Script.Yaml

/-!
# The tokens of a document

Tokens are found as they are asked for, always a few ahead.  Indentation starts
and ends block collections.  Whether a token is a key shows only by the colon
behind it, so a place where a key may have started is remembered until then;
the token that says so is put in front of it afterwards.
-/

/-- A place where a key may have started. -/
structure SimpleKey where
  isPossible : Bool
  /-- Whether nothing but a key may stand at the place. -/
  isRequired : Bool
  /-- The number of the first token of the key. -/
  number : Nat
  mark : Mark
  deriving Repr, DecidableEq

namespace SimpleKey

/-- How many characters a key may have. -/
def longest : Nat :=
  1024

/-- Whether a key that started at some place can no longer go on here: it has
to be on one line, and not too long. -/
def isStale
    (key : SimpleKey)
    (here : Mark) :
    Bool :=
  key.mark.line < here.line || key.mark.index + longest < here.index

end SimpleKey

/-- The tokens that were found, and what finding more depends on. -/
structure Scanner where
  cursor : Cursor
  isStarted : Bool
  /-- The tokens found and not yet taken. -/
  queue : List Token
  /-- The number of tokens taken. -/
  taken : Nat
  /-- The indentation of the open block collections, the innermost first. -/
  indents : List Nat
  /-- Whether a key may start here. -/
  keyAllowed : Bool
  /-- Where keys may have started: one place outside of brackets, and one for
  every open bracket, the innermost last. -/
  keys : Array SimpleKey
  /-- The numbers of tokens that may be keys, each once and with the number of
  brackets around it. -/
  candidates : List (Nat × Nat)
  deriving Repr, DecidableEq

namespace Scanner

/-- The scanner at the start of a document. -/
def ofText (text : Text) : Scanner where
  cursor := .ofStream (.ofText text)
  isStarted := false
  queue := []
  taken := 0
  indents := []
  keyAllowed := false
  keys := #[]
  candidates := []

/-- The number of open brackets. -/
def flowLevel (scanner : Scanner) : Nat :=
  scanner.keys.size - 1

/-- Whether there are open brackets. -/
def inFlow (scanner : Scanner) : Bool :=
  0 < scanner.flowLevel

/-- The place of the scanner. -/
def mark (scanner : Scanner) : Mark :=
  scanner.cursor.mark

/-- The number that the next token gets. -/
def nextNumber (scanner : Scanner) : Nat :=
  scanner.taken + scanner.queue.length

/-- The least column at which a scalar goes on. -/
def leastColumn (scanner : Scanner) : Nat :=
  (scanner.indents.head?.map (· + 1)).getD 0

/-- The fault of a token that starts here. -/
def faultHere
    (scanner : Scanner)
    (cause : Malformation) :
    Fault :=
  scanner.cursor.faultSince scanner.mark cause

/-- Ask for a number of characters. -/
def need
    (amount : Nat)
    (scanner : Scanner) :
    Except Fault Scanner := do
  let cursor ← scanner.cursor.need amount
  .ok { scanner with cursor := cursor }

/-! The queue. -/

/-- Add a token that starts on a line. -/
def addOn
    (line : Nat)
    (kind : TokenKind)
    (scanner : Scanner) :
    Scanner :=
  { scanner with queue := scanner.queue ++ [{ kind, line }] }

/-- Put a token that starts on a line before the token of a number, or last if
that token was taken already. -/
def insertOn
    (line : Nat)
    (number : Nat)
    (kind : TokenKind)
    (scanner : Scanner) :
    Scanner :=
  if number < scanner.taken then
    scanner.addOn line kind
  else
    let offset := number - scanner.taken
    { scanner with
      queue :=
        scanner.queue.take offset ++ { kind, line } ::
          scanner.queue.drop offset }

/-- Add a token of some characters at the place of the scanner. -/
def addSign
    (length : Nat)
    (kind : TokenKind)
    (scanner : Scanner) :
    Scanner :=
  let added := scanner.addOn scanner.mark.line kind
  { added with cursor := Quoted.skipMany length scanner.cursor }

/-! Keys. -/

/-- Forget that a token may be a key. -/
def dropCandidate
    (number : Nat)
    (scanner : Scanner) :
    Scanner :=
  { scanner with
    candidates := scanner.candidates.eraseP (·.1 == number) }

/-- Change the innermost place where a key may have started. -/
def setKey
    (key : SimpleKey)
    (scanner : Scanner) :
    Scanner :=
  { scanner with keys := scanner.keys.pop.push key }

/-- The fault of a key without a colon. -/
def missingColon
    (scanner : Scanner)
    (key : SimpleKey) :
    Fault :=
  scanner.cursor.faultSince key.mark .missingColon

/-- Give up the innermost place where a key may have started. -/
def removeKey (scanner : Scanner) : Except Fault Scanner :=
  match scanner.keys.back? with
  | none =>
      .ok scanner
  | some key =>
      if !key.isPossible then
        .ok scanner
      else if key.isRequired then
        .error (scanner.missingColon key)
      else
        .ok
          ((scanner.setKey { key with isPossible := false }).dropCandidate
            key.number)

/-- Remember that a key may start here, if it may. -/
def saveKey (scanner : Scanner) : Except Fault Scanner := do
  if scanner.keyAllowed then
    let key : SimpleKey :=
      { isPossible := true
        isRequired :=
          !scanner.inFlow &&
            scanner.indents.head? == some scanner.mark.column
        number := scanner.nextNumber
        mark := scanner.mark }
    let scanner ← scanner.removeKey
    let saved := (scanner.setKey key).dropCandidate key.number
    .ok
      { saved with
        candidates := (key.number, scanner.flowLevel) :: saved.candidates }
  else
    .ok scanner

/-- The innermost place where a key may have started, unless it is stale. -/
def currentKey? (scanner : Scanner) : Except Fault (Option SimpleKey) :=
  match scanner.keys.back? with
  | none =>
      .ok none
  | some key =>
      if !key.isPossible then
        .ok none
      else if !key.isStale scanner.mark then
        .ok (some key)
      else if key.isRequired then
        .error (scanner.missingColon key)
      else
        .ok none

/-! Brackets and indentation. -/

/-- Open a bracket. -/
def openFlow (scanner : Scanner) : Except Fault Scanner :=
  let key : SimpleKey :=
    { isPossible := false
      isRequired := false
      number := scanner.nextNumber
      mark := scanner.mark }
  if depthLimit ≤ scanner.flowLevel then
    .error (scanner.faultHere .tooDeep)
  else
    .ok { scanner with keys := scanner.keys.push key }

/-- Close a bracket, if one is open. -/
def closeFlow (scanner : Scanner) : Scanner :=
  match scanner.keys.back? with
  | some key =>
      if scanner.inFlow then
        { scanner with keys := scanner.keys.pop }.dropCandidate key.number
      else
        scanner
  | none =>
      scanner

/-- Start a block collection at a column, unless it is open.  Its token comes
before the token of a number, or last. -/
def roll
    (place : Mark)
    (number : Option Nat)
    (kind : TokenKind)
    (scanner : Scanner) :
    Except Fault Scanner :=
  if scanner.inFlow || place.column < scanner.leastColumn then
    .ok scanner
  else
    let opened :=
      { scanner with indents := place.column :: scanner.indents }
    if depthLimit < opened.indents.length then
      let since := (scanner.keys.back?.map (·.mark)).getD scanner.mark
      .error (scanner.cursor.faultSince since .tooDeep)
    else
      match number with
      | some number =>
          .ok (opened.insertOn place.line number kind)
      | none =>
          .ok (opened.addOn place.line kind)

/-- End the block collections that are indented further than a column, or
all. -/
def unroll
    (column : Option Nat)
    (line : Nat)
    (scanner : Scanner) :
    Scanner :=
  if scanner.inFlow then
    scanner
  else
    let isInner (indent : Nat) : Bool :=
      match column with
      | some column =>
          column < indent
      | none =>
          true
    let ended := scanner.indents.takeWhile isInner
    { scanner with
      indents := scanner.indents.dropWhile isInner
      queue :=
        scanner.queue ++ ended.map fun _ => { kind := .blockEnd, line } }

/-! Spacing. -/

/-- The byte order mark. -/
def byteOrderMark : Char :=
  '\ufeff'

/-- Whether a character is skipped before a token.  Where a key may start, a
tab is not. -/
def isSkipped
    (scanner : Scanner)
    (character : Char) :
    Bool :=
  character == ' ' ||
    ((scanner.inFlow || !scanner.keyAllowed) && character == '\t')

/-- Skip spacing and comments up to the next token. -/
def skipSpacing : Nat → Scanner → Except Fault Scanner
  | 0, scanner =>
      .ok scanner
  | bound + 1, scanner => do
      let cursor ← scanner.cursor.need 1
      let cursor :=
        if cursor.column == 0 && cursor.front == some byteOrderMark then
          cursor.skip
        else
          cursor
      let cursor ← cursor.skipWhile scanner.isSkipped cursor.bound
      let cursor ←
        if cursor.isAt '#' then cursor.skipComments else .ok cursor
      if isBreak cursor.peek then
        let cursor ← cursor.takeLine
        skipSpacing bound
          { scanner with
            cursor := cursor
            keyAllowed := scanner.keyAllowed || !scanner.inFlow }
      else
        .ok { scanner with cursor := cursor }

/-! Tokens. -/

/-- Start the tokens of a document. -/
def fetchStart (scanner : Scanner) : Scanner :=
  let started :=
    { scanner with
      isStarted := true
      keyAllowed := true
      keys :=
        #[{ isPossible := false
            isRequired := false
            number := 0
            mark := { index := 0, line := 0, column := 0 } }] }
  started.addOn scanner.mark.line .streamStart

/-- End everything that is open outside of brackets. -/
def endAll (scanner : Scanner) : Except Fault Scanner := do
  let scanner ← (scanner.unroll none scanner.mark.line).removeKey
  .ok { scanner with keyAllowed := false }

/-- The end of the document, which is at the start of a line. -/
def fetchEnd (scanner : Scanner) : Except Fault Scanner := do
  let cursor := scanner.cursor
  let mark :=
    if cursor.column = 0 then
      cursor.mark
    else
      { cursor.mark with line := cursor.line + 1, column := 0 }
  let scanner ← { scanner with cursor := { cursor with mark } }.endAll
  .ok (scanner.addOn mark.line .streamEnd)

/-- A directive. -/
def fetchDirective (scanner : Scanner) : Except Fault Scanner := do
  let scanner ← scanner.endAll
  let (directive, cursor) ← Directive.read scanner.cursor
  .ok
    { scanner.addOn scanner.mark.line directive with cursor := cursor }

/-- A mark between documents. -/
def fetchDocumentMarker
    (kind : TokenKind)
    (scanner : Scanner) :
    Except Fault Scanner := do
  let scanner ← scanner.endAll
  .ok (scanner.addSign 3 kind)

/-- An opening bracket. -/
def fetchFlowStart
    (kind : TokenKind)
    (scanner : Scanner) :
    Except Fault Scanner := do
  let scanner ← scanner.saveKey
  let scanner ← scanner.openFlow
  .ok ({ scanner with keyAllowed := true }.addSign 1 kind)

/-- A closing bracket. -/
def fetchFlowEnd
    (kind : TokenKind)
    (scanner : Scanner) :
    Except Fault Scanner := do
  let scanner ← scanner.removeKey
  .ok ({ scanner.closeFlow with keyAllowed := false }.addSign 1 kind)

/-- A comma between brackets. -/
def fetchFlowEntry (scanner : Scanner) : Except Fault Scanner := do
  let scanner ← scanner.removeKey
  .ok ({ scanner with keyAllowed := true }.addSign 1 .flowEntry)

/-- The dash of an entry. -/
def fetchBlockEntry (scanner : Scanner) : Except Fault Scanner := do
  if !scanner.inFlow && !scanner.keyAllowed then
    .error (scanner.faultHere .sequenceEntryPlace)
  else
    let scanner ← scanner.roll scanner.mark none .blockSequenceStart
    let scanner ← scanner.removeKey
    .ok ({ scanner with keyAllowed := true }.addSign 1 .blockEntry)

/-- The question mark of a key. -/
def fetchKey (scanner : Scanner) : Except Fault Scanner := do
  if !scanner.inFlow && !scanner.keyAllowed then
    .error (scanner.faultHere .mappingKeyPlace)
  else
    let scanner ← scanner.roll scanner.mark none .blockMappingStart
    let scanner ← scanner.removeKey
    .ok ({ scanner with keyAllowed := !scanner.inFlow }.addSign 1 .key)

/-- The colon behind a key that started before it. -/
def fetchSimpleValue
    (key : SimpleKey)
    (scanner : Scanner) :
    Except Fault Scanner := do
  let scanner := scanner.insertOn key.mark.line key.number .key
  let scanner ← scanner.roll key.mark (some key.number) .blockMappingStart
  let scanner :=
    (scanner.setKey { key with isPossible := false }).dropCandidate key.number
  .ok ({ scanner with keyAllowed := false }.addSign 1 .value)

/-- The colon of a value. -/
def fetchValue (scanner : Scanner) : Except Fault Scanner := do
  let key ← scanner.currentKey?
  match key with
  | some key =>
      scanner.fetchSimpleValue key
  | none =>
      let scanner :=
        match scanner.keys.back? with
        | none =>
            scanner
        | some key =>
            scanner.setKey { key with isPossible := false }
      if !scanner.inFlow && !scanner.keyAllowed then
        .error (scanner.faultHere .mappingValuePlace)
      else
        let scanner ← scanner.roll scanner.mark none .blockMappingStart
        .ok ({ scanner with keyAllowed := !scanner.inFlow }.addSign 1 .value)

/-- Characters that may follow the name of an anchor. -/
def endsAnchor (character : Char) : Bool :=
  isSpacing character ||
    character ∈ ['?', ':', ',', ']', '\x7d', '%', '@', '\x60']

/-- An anchor or a reference to one. -/
def fetchAnchor
    (kind : Text → TokenKind)
    (scanner : Scanner) :
    Except Fault Scanner := do
  let scanner ← scanner.saveKey
  let (name, cursor) ← scanner.cursor.skip.takeName
  if name.isEmpty || !endsAnchor cursor.peek then
    .error (cursor.faultSince scanner.mark .anchorName)
  else
    .ok
      { scanner.addOn scanner.mark.line (kind (textOf name)) with
        cursor := cursor, keyAllowed := false }

/-- A tag. -/
def fetchTag (scanner : Scanner) : Except Fault Scanner := do
  let scanner ← scanner.saveKey
  let (tag, cursor) ← Tag.read scanner.cursor
  .ok
    { scanner.addOn scanner.mark.line tag with
      cursor := cursor, keyAllowed := false }

/-- Add a scalar that goes from the place of the scanner to a cursor. -/
def addScalar
    (style : Style)
    (characters : List Char)
    (cursor : Cursor)
    (scanner : Scanner) :
    Scanner :=
  { scanner.addOn scanner.mark.line (.scalar style (textOf characters)) with
    cursor := cursor }

/-- A block scalar. -/
def fetchBlockScalar
    (folded : Bool)
    (scanner : Scanner) :
    Except Fault Scanner := do
  let scanner ← scanner.removeKey
  let (characters, cursor) ←
    Block.read folded scanner.indents.head? scanner.cursor
  .ok
    { scanner.addScalar .quoted characters cursor with keyAllowed := true }

/-- A quoted scalar. -/
def fetchQuoted
    (style : Quoted.Style)
    (scanner : Scanner) :
    Except Fault Scanner := do
  let scanner ← scanner.saveKey
  let (characters, cursor) ← Quoted.read style scanner.cursor
  .ok
    { scanner.addScalar .quoted characters cursor with keyAllowed := false }

/-- A plain scalar.  A key may start on the line that follows it. -/
def fetchPlain (scanner : Scanner) : Except Fault Scanner := do
  let scanner ← scanner.saveKey
  let (characters, isBroken, cursor) ←
    Plain.read scanner.inFlow scanner.leastColumn scanner.cursor
  .ok
    { scanner.addScalar .plain characters cursor with keyAllowed := isBroken }

/-- Characters that start no plain scalar. -/
def isReserved (character : Char) : Bool :=
  isSpacing character ||
    character ∈
      ['-', '?', ':', ',', '[', ']', '\x7b', '\x7d', '#', '&', '*', '!', '|',
       '>', '\x27', '\x22', '%', '@', '\x60']

/-- Whether a plain scalar starts here.  A dash, a question mark or a colon
starts one only before something else than spacing. -/
def isPlainStart (scanner : Scanner) : Bool :=
  let first := scanner.cursor.peek
  let second := scanner.cursor.peekAt 1
  !isReserved first || (first == '-' && !isBlank second) ||
    (!scanner.inFlow && (first == '?' || first == ':') && !isSpacing second)

/-- A token that is no mark between documents. -/
def fetchInner (scanner : Scanner) : Except Fault Scanner :=
  let sign (character : Char) : Bool :=
    scanner.cursor.isAt character
  let single := isSpacing (scanner.cursor.peekAt 1)
  if sign '[' then
    scanner.fetchFlowStart .flowSequenceStart
  else if sign '\x7b' then
    scanner.fetchFlowStart .flowMappingStart
  else if sign ']' then
    scanner.fetchFlowEnd .flowSequenceEnd
  else if sign '\x7d' then
    scanner.fetchFlowEnd .flowMappingEnd
  else if sign ',' then
    scanner.fetchFlowEntry
  else if sign '-' && single then
    scanner.fetchBlockEntry
  else if sign '?' && (scanner.inFlow || single) then
    scanner.fetchKey
  else if sign ':' && (scanner.inFlow || single) then
    scanner.fetchValue
  else if sign '*' then
    scanner.fetchAnchor .alias
  else if sign '&' then
    scanner.fetchAnchor .anchor
  else if sign '!' then
    scanner.fetchTag
  else if sign '|' && !scanner.inFlow then
    scanner.fetchBlockScalar false
  else if sign '>' && !scanner.inFlow then
    scanner.fetchBlockScalar true
  else if sign '\x27' then
    scanner.fetchQuoted .single
  else if sign '\x22' then
    scanner.fetchQuoted .double
  else if scanner.isPlainStart then
    scanner.fetchPlain
  else
    .error (scanner.faultHere .tokenStart)

/-- Skip the comment behind the last token; behind the dash of an entry there
is none. -/
def skipLineComment (scanner : Scanner) : Except Fault Scanner := do
  if (scanner.queue.getLast?.map (·.kind)) == some .blockEntry then
    .ok scanner
  else
    let cursor ← scanner.cursor.skipLineComment
    .ok { scanner with cursor := cursor }

/-- Find the next token. -/
def fetch (scanner : Scanner) : Except Fault Scanner := do
  let scanner ← scanner.need 1
  if !scanner.isStarted then
    .ok scanner.fetchStart
  else
    let before := scanner.mark.line
    let scanner ← scanner.skipSpacing scanner.cursor.bound
    let scanner ← (scanner.unroll (some scanner.mark.column) before).need 4
    if scanner.cursor.isAt ending then
      scanner.fetchEnd
    else if scanner.mark.column == 0 && scanner.cursor.isAt '%' then
      scanner.fetchDirective
    else if scanner.cursor.isMarker '-' then
      scanner.fetchDocumentMarker .documentStart
    else if scanner.cursor.isMarker '.' then
      scanner.fetchDocumentMarker .documentEnd
    else
      let scanner ← scanner.fetchInner
      scanner.skipLineComment

/-! Looking ahead. -/

/-- How many tokens are found before the first one is taken. -/
def lookahead : Nat :=
  3

/-- Whether the first token waits for the colon behind it, and the scanner that
knows when it does no longer. -/
def awaitsColon (scanner : Scanner) : Except Fault (Bool × Scanner) :=
  match scanner.candidates.find? (·.1 == scanner.taken) with
  | none =>
      .ok (false, scanner)
  | some (_, level) =>
      match scanner.keys[level]? with
      | none =>
          .ok (false, scanner)
      | some key =>
          if !key.isPossible then
            .ok (false, scanner)
          else if !key.isStale scanner.mark then
            .ok (true, scanner)
          else if key.isRequired then
            .error (scanner.missingColon key)
          else
            .ok
              (false,
                { scanner with
                  keys :=
                    scanner.keys.setIfInBounds level
                      { key with isPossible := false } })

/-- Find as many tokens as have to be known before the first one is taken. -/
def fetchMore : Nat → Scanner → Except Fault Scanner
  | 0, scanner =>
      .ok scanner
  | bound + 1, scanner => do
      if scanner.queue.length < lookahead then
        let scanner ← scanner.fetch
        fetchMore bound scanner
      else
        let (isAwaited, scanner) ← scanner.awaitsColon
        if isAwaited then
          let scanner ← scanner.fetch
          fetchMore bound scanner
        else
          .ok scanner

/-- The first token. -/
def peek (scanner : Scanner) : Except Fault (Token × Scanner) := do
  let scanner ← scanner.fetchMore scanner.cursor.bound
  let token :=
    scanner.queue.headD { kind := .streamEnd, line := scanner.mark.line }
  .ok (token, scanner)

/-- Take the first token. -/
def drop (scanner : Scanner) : Scanner :=
  { scanner with queue := scanner.queue.tail, taken := scanner.taken + 1 }

end Scanner

end Script.Yaml
