import Script.Yaml.Fault

namespace Script.Yaml

/-!
# Tokens of settings documents
-/

/-- How a scalar is written.  Only a plain one can be something else than
text. -/
inductive Style where
  | plain
  | quoted
  deriving Repr, DecidableEq

/-- The kinds of tokens. -/
inductive TokenKind where
  | streamStart
  | streamEnd
  | version (major : Nat) (minor : Nat)
  | handle (handle : Text) (expansion : Text)
  | documentStart
  | documentEnd
  | blockSequenceStart
  | blockMappingStart
  | blockEnd
  | flowSequenceStart
  | flowSequenceEnd
  | flowMappingStart
  | flowMappingEnd
  | blockEntry
  | flowEntry
  | key
  | value
  | alias (name : Text)
  | anchor (name : Text)
  | tag (handle : Text) (suffix : Text)
  | scalar (style : Style) (text : Text)
  deriving Repr, DecidableEq

/-- A token and the line it starts on, counted from zero. -/
structure Token where
  kind : TokenKind
  line : Nat
  deriving Repr, DecidableEq

end Script.Yaml
