import Script.Text

namespace Script.Yaml

/-!
# Malformed documents

What can be wrong with a document, in the order in which it is understood: its
bytes, its tokens, its structure, and the references and values in it.
-/

/-- Why a text is no document, or a document that cannot be understood. -/
inductive Malformation where
  /- The bytes. -/
  | invalidLead
  | incompleteSequence
  | invalidTail
  | overlongSequence
  | invalidCharacter
  | incompleteUnit
  | incompletePair
  | lowSurrogate
  | missingLowSurrogate
  | controlCharacter
  /- The tokens. -/
  | tokenStart
  | sequenceEntryPlace
  | mappingKeyPlace
  | mappingValuePlace
  | missingColon
  | tooDeep
  | unknownDirective
  | directiveEnd
  | missingDirectiveName
  | directiveName
  | versionPoint
  | longVersion
  | missingVersion
  | missingBlank
  | missingSpacing
  | anchorName
  | unclosedTag
  | missingHandle
  | missingTag
  | tagEscape
  | tagEscapeLead
  | tagEscapeTail
  | zeroIndentation
  | tabInBlock
  | tabInPlain
  | markerInQuotes
  | unclosedQuote
  | unknownEscape
  | escapeDigits
  | escapeCharacter
  /- The structure. -/
  | missingDocumentStart
  | repeatedVersion
  | otherVersion
  | repeatedHandle
  | unknownHandle
  | missingContent
  | missingEntry
  | missingKey
  | unclosedSequence
  | unclosedMapping
  /- The references and values. -/
  | unknownAnchor (name : Text)
  | selfContaining (name : Text)
  | excessiveReferences
  | mergedScalar
  | invalidKey (written : Text)
  | invalidBinary
  | otherKind (found : Text) (text : Text) (wanted : Text)
  deriving Repr, DecidableEq

/-- How deep collections may be nested. -/
def depthLimit : Nat :=
  10000

namespace Malformation

/-- The wording of a malformation. -/
def words : Malformation → Text
  | .invalidLead =>
      Text.utf8 "invalid leading UTF-8 octet"
  | .incompleteSequence =>
      Text.utf8 "incomplete UTF-8 octet sequence"
  | .invalidTail =>
      Text.utf8 "invalid trailing UTF-8 octet"
  | .overlongSequence =>
      Text.utf8 "invalid length of a UTF-8 sequence"
  | .invalidCharacter =>
      Text.utf8 "invalid Unicode character"
  | .incompleteUnit =>
      Text.utf8 "incomplete UTF-16 character"
  | .incompletePair =>
      Text.utf8 "incomplete UTF-16 surrogate pair"
  | .lowSurrogate =>
      Text.utf8 "unexpected low surrogate area"
  | .missingLowSurrogate =>
      Text.utf8 "expected low surrogate area"
  | .controlCharacter =>
      Text.utf8 "control characters are not allowed"
  | .tokenStart =>
      Text.utf8 "found character that cannot start any token"
  | .sequenceEntryPlace =>
      Text.utf8 "block sequence entries are not allowed in this context"
  | .mappingKeyPlace =>
      Text.utf8 "mapping keys are not allowed in this context"
  | .mappingValuePlace =>
      Text.utf8 "mapping values are not allowed in this context"
  | .missingColon =>
      Text.utf8 "could not find expected ':'"
  | .tooDeep =>
      Text.utf8 "exceeded max depth of " ++ Text.ofNat depthLimit
  | .unknownDirective =>
      Text.utf8 "found unknown directive name"
  | .directiveEnd =>
      Text.utf8 "did not find expected comment or line break"
  | .missingDirectiveName =>
      Text.utf8 "could not find expected directive name"
  | .directiveName =>
      Text.utf8 "found unexpected non-alphabetical character"
  | .versionPoint =>
      Text.utf8 "did not find expected digit or '.' character"
  | .longVersion =>
      Text.utf8 "found extremely long version number"
  | .missingVersion =>
      Text.utf8 "did not find expected version number"
  | .missingBlank =>
      Text.utf8 "did not find expected whitespace"
  | .missingSpacing =>
      Text.utf8 "did not find expected whitespace or line break"
  | .anchorName =>
      Text.utf8 "did not find expected alphabetic or numeric character"
  | .unclosedTag =>
      Text.utf8 "did not find the expected '>'"
  | .missingHandle =>
      Text.utf8 "did not find expected '!'"
  | .missingTag =>
      Text.utf8 "did not find expected tag URI"
  | .tagEscape =>
      Text.utf8 "did not find URI escaped octet"
  | .tagEscapeLead =>
      Text.utf8 "found an incorrect leading UTF-8 octet"
  | .tagEscapeTail =>
      Text.utf8 "found an incorrect trailing UTF-8 octet"
  | .zeroIndentation =>
      Text.utf8 "found an indentation indicator equal to 0"
  | .tabInBlock =>
      Text.utf8 "found a tab character where an indentation space is expected"
  | .tabInPlain =>
      Text.utf8 "found a tab character that violates indentation"
  | .markerInQuotes =>
      Text.utf8 "found unexpected document indicator"
  | .unclosedQuote =>
      Text.utf8 "found unexpected end of stream"
  | .unknownEscape =>
      Text.utf8 "found unknown escape character"
  | .escapeDigits =>
      Text.utf8 "did not find expected hexdecimal number"
  | .escapeCharacter =>
      Text.utf8 "found invalid Unicode character escape code"
  | .missingDocumentStart =>
      Text.utf8 "did not find expected <document start>"
  | .repeatedVersion =>
      Text.utf8 "found duplicate %YAML directive"
  | .otherVersion =>
      Text.utf8 "found incompatible YAML document"
  | .repeatedHandle =>
      Text.utf8 "found duplicate %TAG directive"
  | .unknownHandle =>
      Text.utf8 "found undefined tag handle"
  | .missingContent =>
      Text.utf8 "did not find expected node content"
  | .missingEntry =>
      Text.utf8 "did not find expected '-' indicator"
  | .missingKey =>
      Text.utf8 "did not find expected key"
  | .unclosedSequence =>
      Text.utf8 "did not find expected ',' or ']'"
  | .unclosedMapping =>
      Text.utf8 "did not find expected ',' or '\x7d'"
  | .unknownAnchor name =>
      Text.utf8 "unknown anchor '" ++ name ++ Text.utf8 "' referenced"
  | .selfContaining name =>
      Text.utf8 "anchor '" ++ name ++ Text.utf8 "' value contains itself"
  | .excessiveReferences =>
      Text.utf8 "document contains excessive aliasing"
  | .invalidKey written =>
      Text.utf8 "invalid map key: " ++ written
  | .mergedScalar =>
      Text.utf8 "map merge requires map or sequence of maps as the value"
  | .invalidBinary =>
      Text.utf8 "!!binary value contains invalid base64 data"
  | .otherKind found text wanted =>
      Text.utf8 "cannot decode " ++ found ++ Text.utf8 " `" ++ text ++
        Text.utf8 "` as a " ++ wanted

end Malformation

/-- A malformation and the line that is told with it, zero when none is. -/
structure Fault where
  cause : Malformation
  line : Nat
  deriving Repr, DecidableEq

namespace Fault

/-- A malformation that has no place. -/
def unplaced (cause : Malformation) : Fault where
  cause := cause
  line := 0

/-- The first of two numbers of lines, counted from zero, unless it is the
first line. -/
def earlier
    (first : Nat)
    (second : Nat) :
    Nat :=
  if first = 0 then second else first

/-- A malformation of a token that starts on one line and is at fault on
another.  Lines are counted from zero, and nothing is said about the first. -/
def inToken
    (cause : Malformation)
    (start : Nat)
    (here : Nat) :
    Fault where
  cause := cause
  line :=
    if earlier start here = 0 then 0 else earlier start here + 1

/-- A malformation of the structure: a part that starts on one line does not
go on as it should on another.  The number told is the one counted from
zero. -/
def inStructure
    (cause : Malformation)
    (start : Nat)
    (here : Nat) :
    Fault where
  cause := cause
  line := earlier start here

/-- The message of a fault. -/
def message (fault : Fault) : Text :=
  let place :=
    if fault.line = 0 then
      []
    else
      Text.utf8 "line " ++ Text.ofNat fault.line ++ Text.utf8 ": "
  Text.utf8 "yaml: " ++ place ++ fault.cause.words

end Fault

end Script.Yaml
