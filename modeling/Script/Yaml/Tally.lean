import Script.Yaml.Node

namespace Script.Yaml

/-!
# How often nodes are read

A node is read again for every reference to it, so a short document can ask for
a great deal of reading.  A document is given up when nearly all the nodes read
were read through references; how near depends on how many there are.
-/

/-- What keeps a document from being understood. -/
inductive Obstacle where
  | malformed (cause : Malformation)
  /-- A collection of some kind is one of the keys that others are compared
  with. -/
  | uncomparable (kind : Text)
  deriving Repr, DecidableEq

namespace Obstacle

/-- Go on with what is not malformed. -/
def ofExcept
    {α : Type}
    (result : Except Malformation α) :
    Except Obstacle α :=
  result.mapError .malformed

end Obstacle

/-- The number of nodes read, and of those among them that were read through
references. -/
structure Tally where
  total : Nat
  referred : Nat
  deriving Repr, DecidableEq

namespace Tally

/-- Nothing read. -/
def empty : Tally where
  total := 0
  referred := 0

/-- Up to this many nodes, 99 of 100 may be read through references. -/
def generous : Nat :=
  400000

/-- From this many nodes on, one of ten may be read through references. -/
def strict : Nat :=
  4000000

/-- The share of nodes that may be read through references, in parts of
`100 * (strict - generous)`.  It falls evenly between the two limits. -/
def allowedShare (total : Nat) : Nat :=
  if total ≤ generous then
    99 * (strict - generous)
  else if strict ≤ total then
    10 * (strict - generous)
  else
    99 * (strict - generous) - 89 * (total - generous)

/-- Whether too many nodes are read through references. -/
def isExcessive (tally : Tally) : Bool :=
  100 < tally.referred && 1000 < tally.total &&
    allowedShare tally.total * tally.total <
      tally.referred * (100 * (strict - generous))

/-- Count one more node. -/
def count
    (tally : Tally)
    (isReferred : Bool) :
    Except Obstacle Tally :=
  let counted :=
    { total := tally.total + 1
      referred := tally.referred + if isReferred then 1 else 0 }
  if counted.isExcessive then
    .error (.malformed .excessiveReferences)
  else
    .ok counted

end Tally

/-- Where nodes are read: the document, and the numbers of the references that
led there. -/
structure Place where
  document : Document
  followed : List Nat
  deriving Repr

namespace Place

/-- The start of a document. -/
def start (document : Document) : Place where
  document := document
  followed := []

/-- Count a node that is read here. -/
def count
    (place : Place)
    (tally : Tally) :
    Except Obstacle Tally :=
  tally.count !place.followed.isEmpty

/-- Follow a reference, which must not be among those that led to it. -/
def enter
    (place : Place)
    (number : Nat)
    (name : Text) :
    Except Obstacle Place :=
  if place.followed.contains number then
    .error (.malformed (.selfContaining name))
  else
    .ok { place with followed := number :: place.followed }

/-- Count a node that is read here, and the one it means if it is a
reference. -/
def countThrough
    (place : Place)
    (node : Node)
    (tally : Tally) :
    Except Obstacle Tally := do
  let tally ← place.count tally
  match node with
  | .reference _ number name _ => do
      let inner ← place.enter number name
      inner.count tally
  | _ =>
      .ok tally

/-- A number of steps that is enough to read everything here: along the nodes of
the document, once for every reference that may be followed. -/
def bound (place : Place) : Nat :=
  8 * (place.document.root.size + 1) * (place.document.root.size + 2)

end Place

end Script.Yaml
