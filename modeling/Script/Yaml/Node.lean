import Script.Yaml.Fault

namespace Script.Yaml

/-!
# Nodes

A node is a scalar, a sequence, a mapping or a reference to another node.  Its
tag names its kind.
-/

/-- What stands at some place of a document.  Lines are counted from one.  Every
reference has a number of its own, and gives its target by the number of its
anchor. -/
inductive Node where
  | scalar (line : Nat) (tag : Text) (text : Text)
  | sequence (line : Nat) (tag : Text) (items : List Node)
  | mapping (line : Nat) (tag : Text) (entries : List (Node × Node))
  | reference (line : Nat) (number : Nat) (name : Text) (target : Nat)
  deriving Repr

/-- The entries of a mapping: keys and values. -/
abbrev Entries :=
  List (Node × Node)

namespace Tag

/-- The tag of null. -/
def null : Text :=
  Text.utf8 "!!null"

/-- The tag of truth values. -/
def truth : Text :=
  Text.utf8 "!!bool"

/-- The tag of texts. -/
def text : Text :=
  Text.utf8 "!!str"

/-- The tag of integers. -/
def integer : Text :=
  Text.utf8 "!!int"

/-- The tag of floats. -/
def float : Text :=
  Text.utf8 "!!float"

/-- The tag of timestamps. -/
def timestamp : Text :=
  Text.utf8 "!!timestamp"

/-- The tag of bytes. -/
def binary : Text :=
  Text.utf8 "!!binary"

/-- The tag of the key that merges mappings. -/
def merge : Text :=
  Text.utf8 "!!merge"

/-- The tag of sequences. -/
def sequence : Text :=
  Text.utf8 "!!seq"

/-- The tag of mappings. -/
def mapping : Text :=
  Text.utf8 "!!map"

/-- The tag that tells nothing. -/
def unspecific : Text :=
  Text.utf8 "!"

/-- What all the usual tags start with. -/
def usual : Text :=
  Text.utf8 "tag:yaml.org,2002:"

/-- A tag in its short form. -/
def shorten (tag : Text) : Text :=
  if usual.isPrefixOf tag then
    Text.utf8 "!!" ++ tag.drop usual.length
  else
    tag

end Tag

namespace Node

/-- The line of a node. -/
def line : Node → Nat
  | .scalar line _ _ =>
      line
  | .sequence line _ _ =>
      line
  | .mapping line _ _ =>
      line
  | .reference line _ _ _ =>
      line

/-- The tag of a node; a reference has none. -/
def tag : Node → Text
  | .scalar _ tag _ =>
      tag
  | .sequence _ tag _ =>
      tag
  | .mapping _ tag _ =>
      tag
  | .reference _ _ _ _ =>
      []

/-- Whether a key merges mappings. -/
def isMerge : Node → Bool
  | .scalar _ tag text =>
      tag == Tag.merge && text == Text.utf8 "<<"
  | _ =>
      false

/-- The nodes that are merged for a value: those of a sequence, or itself. -/
def merged : Node → List Node
  | .sequence _ _ items =>
      items
  | node =>
      [node]

mutual

/-- The number of nodes that a node consists of. -/
def size : Node → Nat
  | .scalar _ _ _ =>
      1
  | .sequence _ _ items =>
      itemsSize items + 1
  | .mapping _ _ entries =>
      entriesSize entries + 1
  | .reference _ _ _ _ =>
      1

/-- The number of nodes that some items consist of. -/
def itemsSize : List Node → Nat
  | [] =>
      0
  | item :: rest =>
      size item + itemsSize rest

/-- The number of nodes that some entries consist of. -/
def entriesSize : List (Node × Node) → Nat
  | [] =>
      0
  | (key, value) :: rest =>
      size key + size value + entriesSize rest

end

/-- Whether two keys are the same: scalars of one text, however they are
written, references of one name, and any two collections of one kind.  What
they are the same by is told. -/
def sameKey? : Node → Node → Option Text
  | .scalar _ _ text, .scalar _ _ other =>
      if text = other then some text else none
  | .reference _ _ name _, .reference _ _ other _ =>
      if name = other then some name else none
  | .sequence _ _ _, .sequence _ _ _ =>
      some []
  | .mapping _ _ _, .mapping _ _ _ =>
      some []
  | _, _ =>
      none

end Node

/-- A key that stands again: its line, what it is called, and the line of the
earlier one. -/
structure Repetition where
  line : Nat
  name : Text
  earlier : Nat
  deriving Repr, DecidableEq

namespace Entries

/-- The keys that stand again, for every earlier one. -/
def repetitions : Entries → List Repetition
  | [] =>
      []
  | (key, _) :: rest =>
      rest.filterMap (fun (later, _) =>
        (key.sameKey? later).map fun name =>
          { line := later.line, name, earlier := key.line }) ++
        repetitions rest

/-- The nodes to be merged into a mapping, if there are any. -/
def merged? (entries : Entries) : Option (List Node) :=
  (entries.filter (·.1.isMerge)).getLast?.map (·.2.merged)

end Entries

/-- A document: its root, and the nodes that have anchors by the numbers of
these. -/
structure Document where
  root : Node
  anchored : List (Nat × Node)
  deriving Repr

namespace Document

/-- The node with an anchor of a number. -/
def find?
    (document : Document)
    (target : Nat) :
    Option Node :=
  (document.anchored.find? (·.1 == target)).map (·.2)

/-- The node that is meant by a node, which may be a reference. -/
def follow
    (document : Document)
    (node : Node) :
    Node :=
  match node with
  | .reference _ _ _ target =>
      (document.find? target).getD node
  | _ =>
      node

/-- The keys of a node that stand again, if it is a mapping. -/
def repetitions
    (document : Document)
    (node : Node) :
    List Repetition :=
  match document.follow node with
  | .mapping _ _ entries =>
      Entries.repetitions entries
  | _ =>
      []

end Document

end Script.Yaml
