import Script.Yaml.Meaning
import Script.Yaml.Scanner

namespace Script.Yaml

/-!
# From tokens to a document

The first document of a text is read from its tokens.  What follows it is not
looked at, except for the few tokens that are found ahead.
-/

/-- The tokens that are left, and what the tokens so far defined. -/
structure Composer where
  scanner : Scanner
  /-- What the handles of tags stand for. -/
  handles : List (Text × Text)
  /-- The anchors and their numbers, the latest first. -/
  anchors : List (Text × Nat)
  /-- The nodes that have anchors. -/
  anchored : List (Nat × Node)
  deriving Repr

namespace Composer

/-- The next token. -/
def peek (composer : Composer) : Except Fault (Token × Composer) := do
  let (token, scanner) ← composer.scanner.peek
  .ok (token, { composer with scanner := scanner })

/-- Tell a flaw of the bytes that was met while tokens were found ahead. -/
def settle (composer : Composer) : Except Fault Composer :=
  match composer.scanner.cursor.pending with
  | some cause =>
      .error (.unplaced cause)
  | none =>
      .ok composer

/-- The first token of the next part of a document. -/
def begin (composer : Composer) : Except Fault (Token × Composer) := do
  let composer ← composer.settle
  composer.peek

/-- Take the next token. -/
def drop (composer : Composer) : Composer :=
  { composer with scanner := composer.scanner.drop }

/-- Take the next token and look at the one behind it. -/
def advance (composer : Composer) : Except Fault (Token × Composer) :=
  composer.drop.peek

/-- Number an anchor, if there is one. -/
def openAnchor
    (name : Option Text)
    (composer : Composer) :
    Option Nat × Composer :=
  match name with
  | none =>
      (none, composer)
  | some name =>
      let number := composer.anchors.length
      (some number,
        { composer with anchors := (name, number) :: composer.anchors })

/-- Keep the node of an anchor, if it has one. -/
def closeAnchor
    (number : Option Nat)
    (node : Node)
    (composer : Composer) :
    Composer :=
  match number with
  | none =>
      composer
  | some number =>
      { composer with anchored := (number, node) :: composer.anchored }

/-! The properties of nodes. -/

/-- The anchor and the tag in front of a node, and the line they start on. -/
structure Properties where
  line : Nat
  anchor : Option Text
  tag : Text
  deriving Repr, DecidableEq

/-- The full form of a tag. -/
def expandTag
    (composer : Composer)
    (start : Nat)
    (line : Nat)
    (handle : Text)
    (suffix : Text) :
    Except Fault Text :=
  if handle.isEmpty then
    .ok suffix
  else
    match composer.handles.find? (·.1 == handle) with
    | some (_, expansion) =>
        .ok (expansion ++ suffix)
    | none =>
        .error (.inStructure .unknownHandle start line)

/-- Read an anchor, if there is one. -/
def readAnchor
    (composer : Composer) :
    Except Fault (Option Text × Composer) := do
  let (token, composer) ← composer.peek
  match token.kind with
  | .anchor name =>
      .ok (some name, composer.drop)
  | _ =>
      .ok (none, composer)

/-- Read a tag, if there is one: its handle, its suffix and its line. -/
def readTag
    (composer : Composer) :
    Except Fault (Option (Text × Text × Nat) × Composer) := do
  let (token, composer) ← composer.peek
  match token.kind with
  | .tag handle suffix =>
      .ok (some (handle, suffix, token.line), composer.drop)
  | _ =>
      .ok (none, composer)

/-- Read an anchor and a tag, in either order. -/
def readProperties
    (composer : Composer) :
    Except Fault (Properties × Composer) := do
  let (first, composer) ← composer.peek
  let (before, composer) ← composer.readAnchor
  let (tag, composer) ← composer.readTag
  let (after, composer) ←
    if before.isNone && tag.isSome then
      composer.readAnchor
    else
      .ok (none, composer)
  let (_, composer) ← composer.peek
  let full ←
    match tag with
    | none =>
        .ok []
    | some (handle, suffix, line) =>
        composer.expandTag first.line line handle suffix
  .ok ({ line := first.line, anchor := before.or after, tag := full }, composer)

namespace Properties

/-- The tag that was given, in its short form, or else a default. -/
def tagOr
    (properties : Properties)
    (usual : Text) :
    Text :=
  if properties.tag.isEmpty || properties.tag = Tag.unspecific then
    usual
  else
    Tag.shorten properties.tag

/-- The node of a scalar with some properties. -/
def scalar
    (properties : Properties)
    (style : Style)
    (text : Text) :
    Node :=
  let usual :=
    match style with
    | .plain =>
        plainTag text
    | .quoted =>
        Tag.text
  .scalar (properties.line + 1) (properties.tagOr usual) text

/-- Whether there are any properties. -/
def isPresent (properties : Properties) : Bool :=
  properties.anchor.isSome || !properties.tag.isEmpty

end Properties

/-- A node of which nothing is written. -/
def emptyOn (line : Nat) : Node :=
  .scalar (line + 1) Tag.null []

/-- Keep a scalar under its anchor. -/
def keepScalar
    (properties : Properties)
    (style : Style)
    (text : Text)
    (composer : Composer) :
    Node × Composer :=
  let node := properties.scalar style text
  let (number, composer) := composer.openAnchor properties.anchor
  (node, composer.closeAnchor number node)

/-- The node that a reference stands for. -/
def resolve
    (line : Nat)
    (name : Text)
    (composer : Composer) :
    Except Fault (Node × Composer) :=
  match composer.anchors.find? (·.1 == name) with
  | some (_, target) =>
      .ok
        (.reference (line + 1) composer.scanner.taken name target,
          composer.drop)
  | none =>
      .error (.unplaced (.unknownAnchor name))

/-! Which tokens leave a place empty. -/

/-- Tokens that end an entry of a block sequence. -/
def endsEntry : TokenKind → Bool
  | .blockEntry =>
      true
  | .blockEnd =>
      true
  | _ =>
      false

/-- Tokens that end a key or a value of a block mapping. -/
def endsPart : TokenKind → Bool
  | .key =>
      true
  | .value =>
      true
  | .blockEnd =>
      true
  | _ =>
      false

/-- Tokens that end an entry of a sequence in a mapping that is indented as far
as the mapping. -/
def endsIndentless (kind : TokenKind) : Bool :=
  kind == .blockEntry || endsPart kind

/-- Tokens that end a value between brackets, of which `closing` is the last
one. -/
def endsFlowValue
    (closing : TokenKind)
    (kind : TokenKind) :
    Bool :=
  kind == .flowEntry || kind == closing

/-- Tokens that end a key between brackets. -/
def endsFlowKey
    (closing : TokenKind)
    (kind : TokenKind) :
    Bool :=
  kind == .value || endsFlowValue closing kind

/-- Pass the comma before an entry between brackets, of which `closing` is the
last one; before the first entry there is none.  `start` is the line of the
opening bracket. -/
def passComma
    (isFirst : Bool)
    (closing : TokenKind)
    (cause : Malformation)
    (start : Nat)
    (composer : Composer) :
    Except Fault (Token × Composer) := do
  let (token, composer) ← composer.begin
  if isFirst || token.kind == closing then
    .ok (token, composer)
  else if token.kind == .flowEntry then
    composer.advance
  else
    .error (.inStructure cause start token.line)

/-! Nodes. -/

mutual

/-- Read a node.  Block collections are allowed only outside of brackets, and a
sequence that is not indented only in a mapping.  The first argument bounds the
number of steps. -/
def readNode
    (bound : Nat)
    (inBlock : Bool)
    (mayBeIndentless : Bool)
    (composer : Composer) :
    Except Fault (Node × Composer) :=
  match bound with
  | 0 =>
      .ok (emptyOn 0, composer)
  | bound + 1 => do
      let (token, composer) ← composer.peek
      match token.kind with
      | .alias name =>
          let composer ← composer.settle
          composer.resolve token.line name
      | _ =>
          let (properties, composer) ← composer.readProperties
          let (token, composer) ← composer.peek
          readContent bound inBlock mayBeIndentless properties token composer

/-- Read what stands behind the properties of a node. -/
def readContent
    (bound : Nat)
    (inBlock : Bool)
    (mayBeIndentless : Bool)
    (properties : Properties)
    (token : Token)
    (composer : Composer) :
    Except Fault (Node × Composer) :=
  match bound with
  | 0 =>
      .ok (emptyOn 0, composer)
  | bound + 1 => do
      let sequence (items : List Node) : Node :=
        .sequence (properties.line + 1) (properties.tagOr Tag.sequence) items
      let mapping (entries : Entries) : Node :=
        .mapping (properties.line + 1) (properties.tagOr Tag.mapping) entries
      let (number, opened) := composer.openAnchor properties.anchor
      let kept (node : Node) (composer : Composer) : Node × Composer :=
        (node, composer.closeAnchor number node)
      match token.kind, inBlock, mayBeIndentless with
      | .blockEntry, _, true =>
          let (items, composer) ← readIndentless bound [] opened
          .ok (kept (sequence items) composer)
      | .scalar style text, _, _ =>
          .ok (composer.drop.keepScalar properties style text)
      | .flowSequenceStart, _, _ =>
          let (items, composer) ←
            readFlowSequence bound true token.line [] opened.drop
          .ok (kept (sequence items) composer)
      | .flowMappingStart, _, _ =>
          let (entries, composer) ←
            readFlowMapping bound true token.line [] opened.drop
          .ok (kept (mapping entries) composer)
      | .blockSequenceStart, true, _ =>
          let (items, composer) ←
            readBlockSequence bound token.line [] opened.drop
          .ok (kept (sequence items) composer)
      | .blockMappingStart, true, _ =>
          let (entries, composer) ←
            readBlockMapping bound token.line [] opened.drop
          .ok (kept (mapping entries) composer)
      | _, _, _ =>
          if properties.isPresent then
            .ok (composer.keepScalar properties .plain [])
          else
            .error
              (.inStructure .missingContent properties.line token.line)

/-- Read the entries of a block sequence that starts on the line `start`; those
already read are given from the last one on. -/
def readBlockSequence
    (bound : Nat)
    (start : Nat)
    (items : List Node)
    (composer : Composer) :
    Except Fault (List Node × Composer) :=
  match bound with
  | 0 =>
      .ok (items.reverse, composer)
  | bound + 1 => do
      let (token, composer) ← composer.begin
      match token.kind with
      | .blockEntry =>
          let (next, composer) ← composer.advance
          let (item, composer) ←
            if endsEntry next.kind then
              .ok (emptyOn token.line, composer)
            else
              readNode bound true false composer
          readBlockSequence bound start (item :: items) composer
      | .blockEnd =>
          .ok (items.reverse, composer.drop)
      | _ =>
          .error (.inStructure .missingEntry start token.line)

/-- Read the entries of a sequence that is indented as far as the mapping
around it. -/
def readIndentless
    (bound : Nat)
    (items : List Node)
    (composer : Composer) :
    Except Fault (List Node × Composer) :=
  match bound with
  | 0 =>
      .ok (items.reverse, composer)
  | bound + 1 => do
      let (token, composer) ← composer.begin
      match token.kind with
      | .blockEntry =>
          let (next, composer) ← composer.advance
          let (item, composer) ←
            if endsIndentless next.kind then
              .ok (emptyOn token.line, composer)
            else
              readNode bound true false composer
          readIndentless bound (item :: items) composer
      | _ =>
          .ok (items.reverse, composer)

/-- Read the entries of a block mapping. -/
def readBlockMapping
    (bound : Nat)
    (start : Nat)
    (entries : Entries)
    (composer : Composer) :
    Except Fault (Entries × Composer) :=
  match bound with
  | 0 =>
      .ok (entries.reverse, composer)
  | bound + 1 => do
      let (token, composer) ← composer.begin
      match token.kind with
      | .key =>
          let (next, composer) ← composer.advance
          let (key, composer) ←
            if endsPart next.kind then
              .ok (emptyOn token.line, composer)
            else
              readNode bound true true composer
          let (value, composer) ← readBlockValue bound composer
          readBlockMapping bound start ((key, value) :: entries) composer
      | .blockEnd =>
          .ok (entries.reverse, composer.drop)
      | _ =>
          .error (.inStructure .missingKey start token.line)

/-- Read the value of a key of a block mapping. -/
def readBlockValue
    (bound : Nat)
    (composer : Composer) :
    Except Fault (Node × Composer) :=
  match bound with
  | 0 =>
      .ok (emptyOn 0, composer)
  | bound + 1 => do
      let (token, composer) ← composer.begin
      match token.kind with
      | .value =>
          let (next, composer) ← composer.advance
          if endsPart next.kind then
            .ok (emptyOn token.line, composer)
          else
            readNode bound true true composer
      | _ =>
          .ok (emptyOn token.line, composer)

/-- Read the entries of a sequence between brackets. -/
def readFlowSequence
    (bound : Nat)
    (isFirst : Bool)
    (start : Nat)
    (items : List Node)
    (composer : Composer) :
    Except Fault (List Node × Composer) :=
  match bound with
  | 0 =>
      .ok (items.reverse, composer)
  | bound + 1 => do
      let (token, composer) ←
        composer.passComma isFirst .flowSequenceEnd .unclosedSequence start
      match token.kind with
      | .flowSequenceEnd =>
          .ok (items.reverse, composer.drop)
      | .key =>
          let (pair, composer) ← readPair bound composer.drop
          let item := .mapping (token.line + 1) Tag.mapping [pair]
          readFlowSequence bound false start (item :: items) composer
      | _ =>
          let (item, composer) ← readNode bound false false composer
          readFlowSequence bound false start (item :: items) composer

/-- Read the single entry of a mapping that has no brackets of its own.  Where
its key is missing, the token that ends the key is passed over. -/
def readPair
    (bound : Nat)
    (composer : Composer) :
    Except Fault ((Node × Node) × Composer) :=
  match bound with
  | 0 =>
      .ok ((emptyOn 0, emptyOn 0), composer)
  | bound + 1 => do
      let (token, composer) ← composer.begin
      let (key, composer) ←
        if endsFlowKey .flowSequenceEnd token.kind then
          .ok (emptyOn token.line, composer.drop)
        else
          readNode bound false false composer
      let (value, composer) ←
        readFlowValue bound .flowSequenceEnd composer
      let (_, composer) ← composer.begin
      .ok ((key, value), composer)

/-- Read the value of a key between brackets. -/
def readFlowValue
    (bound : Nat)
    (closing : TokenKind)
    (composer : Composer) :
    Except Fault (Node × Composer) :=
  match bound with
  | 0 =>
      .ok (emptyOn 0, composer)
  | bound + 1 => do
      let (token, composer) ← composer.begin
      match token.kind with
      | .value =>
          let (next, composer) ← composer.advance
          if endsFlowValue closing next.kind then
            .ok (emptyOn next.line, composer)
          else
            readNode bound false false composer
      | _ =>
          .ok (emptyOn token.line, composer)

/-- Read the entries of a mapping between brackets. -/
def readFlowMapping
    (bound : Nat)
    (isFirst : Bool)
    (start : Nat)
    (entries : Entries)
    (composer : Composer) :
    Except Fault (Entries × Composer) :=
  match bound with
  | 0 =>
      .ok (entries.reverse, composer)
  | bound + 1 => do
      let (token, composer) ←
        composer.passComma isFirst .flowMappingEnd .unclosedMapping start
      match token.kind with
      | .flowMappingEnd =>
          .ok (entries.reverse, composer.drop)
      | .key =>
          let (next, composer) ← composer.advance
          let (key, composer) ←
            if endsFlowKey .flowMappingEnd next.kind then
              .ok (emptyOn next.line, composer)
            else
              readNode bound false false composer
          let (value, composer) ←
            readFlowValue bound .flowMappingEnd composer
          readFlowMapping bound false start ((key, value) :: entries) composer
      | _ =>
          let (key, composer) ← readNode bound false false composer
          let (token, composer) ← composer.begin
          readFlowMapping bound false start
            ((key, emptyOn token.line) :: entries) composer

end

/-! Documents. -/

/-- The handles that are defined without a directive. -/
def usualHandles : List (Text × Text) :=
  [(Text.utf8 "!", Text.utf8 "!"), (Text.utf8 "!!", Tag.usual)]

/-- Read the directives in front of a document. -/
def readDirectives
    (hasVersion : Bool) :
    Nat → Composer → Except Fault (Token × Composer)
  | 0, composer =>
      composer.peek
  | bound + 1, composer => do
      let (token, composer) ← composer.peek
      match token.kind with
      | .version major minor =>
          if hasVersion then
            .error (.inStructure .repeatedVersion 0 token.line)
          else if major ≠ 1 || minor ≠ 1 then
            .error (.inStructure .otherVersion 0 token.line)
          else
            readDirectives true bound composer.drop
      | .handle handle expansion =>
          if composer.handles.any (·.1 == handle) then
            .error (.inStructure .repeatedHandle 0 token.line)
          else
            readDirectives hasVersion bound
              { composer.drop with
                handles := composer.handles ++ [(handle, expansion)] }
      | _ =>
          .ok
            (token,
              { composer with handles := composer.handles ++ usualHandles })

/-- Tokens that end a document, or stand before one. -/
def isOutside : TokenKind → Bool
  | .version _ _ =>
      true
  | .handle _ _ =>
      true
  | .documentStart =>
      true
  | .documentEnd =>
      true
  | .streamEnd =>
      true
  | _ =>
      false

/-- Read the root of a document that starts with a mark. -/
def readMarked
    (bound : Nat)
    (composer : Composer) :
    Except Fault (Node × Composer) := do
  let (token, composer) ← composer.readDirectives false bound
  if token.kind == .documentStart then
    let (token, composer) ← composer.drop.begin
    if isOutside token.kind then
      .ok (emptyOn token.line, composer)
    else
      composer.readNode bound true false
  else
    .error (.inStructure .missingDocumentStart 0 token.line)

/-- Read the root of the first document, if there is one. -/
def readRoot
    (bound : Nat)
    (composer : Composer) :
    Except Fault (Option Node × Composer) := do
  let (_, composer) ← composer.peek
  let (token, composer) ← composer.drop.begin
  if token.kind == .streamEnd then
    let composer ← composer.settle
    .ok (none, composer)
  else
    let (root, composer) ←
      if isOutside token.kind && token.kind != .documentEnd then
        composer.readMarked bound
      else do
        let composer ← composer.settle
        ({ composer with handles := usualHandles }).readNode bound true false
    let (_, composer) ← composer.begin
    let composer ← composer.settle
    .ok (some root, composer)

end Composer

/-- Read the first document of a text, if there is one. -/
def Document.ofText (text : Text) : Except Fault (Option Document) := do
  let scanner := Scanner.ofText text
  let composer : Composer :=
    { scanner, handles := [], anchors := [], anchored := [] }
  let (root, composer) ← composer.readRoot (16 * scanner.cursor.bound)
  .ok (root.map fun root => { root, anchored := composer.anchored })

end Script.Yaml
