import Script.Yaml.Content
import Script.Yaml.Tally

namespace Script.Yaml

/-!
# Reading the content of nodes

Nodes are read in the order of the document.  A mapping takes over the entries
of the mappings that are merged into it, except for keys that are taken already:
by itself, or by a mapping merged before.  For that its keys are read a second
time, and what they mean is compared; a collection among them cannot be.
-/

/-- What reading goes on with. -/
structure Progress where
  tally : Tally
  /-- While mappings are merged, the keys that are taken. -/
  taken : Option (List Meaning)
  deriving Repr, DecidableEq

namespace Progress

/-- Nothing read and nothing merged. -/
def start : Progress where
  tally := .empty
  taken := none

/-- Count a node that is read at a place. -/
def count
    (progress : Progress)
    (place : Place) :
    Except Obstacle Progress := do
  let tally ← place.count progress.tally
  .ok { progress with tally := tally }

/-- Count a node that is read at a place, and the one it means. -/
def countThrough
    (progress : Progress)
    (place : Place)
    (node : Node) :
    Except Obstacle Progress := do
  let tally ← place.countThrough node progress.tally
  .ok { progress with tally := tally }

/-- Take one more key, while mappings are merged. -/
def take
    (progress : Progress)
    (key : Meaning) :
    Progress :=
  { progress with taken := progress.taken.map (key :: ·) }

/-- Whether a key is taken. -/
def isTaken
    (progress : Progress)
    (key : Meaning) :
    Bool :=
  (progress.taken.getD []).any key.isSame

end Progress

/-- The content of a mapping so far. -/
structure Gathering where
  isTextual : Bool
  entries : List (Meaning × Content)
  deriving Repr

namespace Gathering

/-- Add an entry. -/
def put
    (gathering : Gathering)
    (key : Meaning)
    (content : Content) :
    Gathering :=
  { gathering with entries := putEntry key content gathering.entries }

/-- Whether there is an entry of a key. -/
def hasKey
    (gathering : Gathering)
    (key : Meaning) :
    Bool :=
  gathering.entries.any (·.1.isSame key)

/-- The content that was gathered. -/
def content (gathering : Gathering) : Content :=
  .mapping gathering.isTextual gathering.entries

end Gathering

/-- The text of a scalar: what it means, if it means a text, or else what is
written. -/
def textOfMeaning
    (written : Text) :
    Meaning → Text
  | .text value =>
      value
  | _ =>
      written

/-- Whether all keys of a mapping are tagged as texts, apart from those that
merge mappings. -/
def isTextual
    (document : Document)
    (entries : Entries) :
    Bool :=
  entries.all fun (key, _) =>
    let tag := (document.follow key).tag
    tag == Tag.text || tag == Tag.merge

/-- The name that a key stands for; null and collections name nothing. -/
def nameOf?
    (document : Document)
    (key : Node) :
    Except Obstacle (Option Text) :=
  match document.follow key with
  | .scalar _ tag text => do
      let meaning ← Obstacle.ofExcept (meaning tag text)
      if meaning = .null then
        .ok none
      else
        .ok (some (textOfMeaning text meaning))
  | _ =>
      .ok none

/-- The mapping that is merged for a node, and where its entries are read. -/
def mergedMapping
    (place : Place)
    (node : Node) :
    Except Obstacle (Entries × Place) :=
  match node with
  | .mapping _ _ entries =>
      .ok (entries, place)
  | .reference _ number name target =>
      match place.document.find? target with
      | some (.mapping _ _ entries) => do
          let inner ← place.enter number name
          .ok (entries, inner)
      | _ =>
          .error (.malformed .mergedScalar)
  | _ =>
      .error (.malformed .mergedScalar)

mutual

/-- Read the content of a node.  A mapping with a key that stands again has
none.  The first argument bounds the number of steps. -/
def readContent
    (bound : Nat)
    (place : Place)
    (node : Node)
    (progress : Progress) :
    Except Obstacle (Option Content × Progress) :=
  match bound with
  | 0 =>
      .ok (none, progress)
  | bound + 1 => do
      let progress ← progress.count place
      match node with
      | .scalar _ tag text =>
          let meaning ← Obstacle.ofExcept (meaning tag text)
          .ok (some (.scalar meaning), progress)
      | .sequence _ _ items =>
          let (items, progress) ← readItems bound place items progress
          .ok (some (.sequence items), progress)
      | .mapping _ _ entries =>
          if (Entries.repetitions entries).isEmpty then
            let (gathering, progress) ←
              gather bound place entries
                { isTextual := isTextual place.document entries
                  entries := [] }
                progress
            .ok (some gathering.content, progress)
          else
            .ok (none, progress)
      | .reference _ number name target =>
          let inner ← place.enter number name
          match place.document.find? target with
          | none =>
              .ok (none, progress)
          | some node =>
              readContent bound inner node progress

/-- Read the contents of some items; those that have none are left out. -/
def readItems
    (bound : Nat)
    (place : Place)
    (items : List Node)
    (progress : Progress) :
    Except Obstacle (List Content × Progress) :=
  match bound, items with
  | _, [] =>
      .ok ([], progress)
  | 0, _ =>
      .ok ([], progress)
  | bound + 1, item :: rest => do
      let (content, progress) ← readContent bound place item progress
      let (contents, progress) ← readItems bound place rest progress
      .ok (content.toList ++ contents, progress)

/-- Add the entries of a mapping, and then those of the mappings that are merged
into it.  Only while they are merged does it matter what is taken. -/
def gather
    (bound : Nat)
    (place : Place)
    (entries : Entries)
    (gathering : Gathering)
    (progress : Progress) :
    Except Obstacle (Gathering × Progress) :=
  match bound with
  | 0 =>
      .ok (gathering, progress)
  | bound + 1 => do
      let (gathering, progress) ←
        gatherEntries bound place entries gathering progress
      match Entries.merged? entries with
      | none =>
          .ok (gathering, progress)
      | some nodes =>
          match progress.taken with
          | some _ =>
              gatherMerged bound place nodes gathering progress
          | none =>
              let (_, progress) ←
                takeKeys bound place entries
                  { progress with taken := some [] }
              let (gathering, progress) ←
                gatherMerged bound place nodes gathering progress
              .ok (gathering, { progress with taken := none })

/-- Add the entries of a mapping itself. -/
def gatherEntries
    (bound : Nat)
    (place : Place)
    (entries : Entries)
    (gathering : Gathering)
    (progress : Progress) :
    Except Obstacle (Gathering × Progress) :=
  match bound, entries with
  | _, [] =>
      .ok (gathering, progress)
  | 0, _ =>
      .ok (gathering, progress)
  | bound + 1, (key, value) :: rest => do
      if key.isMerge then
        gatherEntries bound place rest gathering progress
      else
        let (content, read) ←
          readKey bound place gathering.isTextual key
            { progress with taken := none }
        let progress := { progress with tally := read.tally }
        match content with
        | none =>
            gatherEntries bound place rest gathering progress
        | some (.scalar meaning) =>
            if progress.isTaken meaning then
              gatherEntries bound place rest gathering progress
            else
              let progress := progress.take meaning
              let (content, read) ←
                readContent bound place value
                  { progress with taken := none }
              let progress := { progress with tally := read.tally }
              let gathering :=
                match content with
                | some content =>
                    gathering.put meaning content
                | none =>
                    if (place.document.follow value).tag == Tag.null &&
                        !gathering.hasKey meaning then
                      gathering.put meaning (.scalar .null)
                    else
                      gathering
              gatherEntries bound place rest gathering progress
        | some content =>
            if progress.taken.isSome then
              .error (.uncomparable content.kind)
            else
              .error (.malformed (.invalidKey content.written))

/-- Read a key.  In a textual mapping it is the text of a scalar. -/
def readKey
    (bound : Nat)
    (place : Place)
    (isTextual : Bool)
    (key : Node)
    (progress : Progress) :
    Except Obstacle (Option Content × Progress) :=
  match bound with
  | 0 =>
      .ok (none, progress)
  | bound + 1 =>
      if isTextual then do
        let progress ← progress.countThrough place key
        let name ← nameOf? place.document key
        .ok (name.map fun name => .scalar (.text name), progress)
      else
        readContent bound place key progress

/-- Add the entries of some nodes, which have to be mappings.  One with a key
that stands again adds none. -/
def gatherMerged
    (bound : Nat)
    (place : Place)
    (nodes : List Node)
    (gathering : Gathering)
    (progress : Progress) :
    Except Obstacle (Gathering × Progress) :=
  match bound, nodes with
  | _, [] =>
      .ok (gathering, progress)
  | 0, _ =>
      .ok (gathering, progress)
  | bound + 1, node :: rest => do
      let (entries, inner) ← mergedMapping place node
      let progress ← progress.countThrough place node
      if (Entries.repetitions entries).isEmpty then
        let (gathering, progress) ←
          gather bound inner entries gathering progress
        gatherMerged bound place rest gathering progress
      else
        gatherMerged bound place rest gathering progress

/-- Take the keys of a mapping for those merged into it.  The keys that stand
again in its keys are told. -/
def takeKeys
    (bound : Nat)
    (place : Place)
    (entries : Entries)
    (progress : Progress) :
    Except Obstacle (List Repetition × Progress) :=
  match bound, entries with
  | _, [] =>
      .ok ([], progress)
  | 0, _ =>
      .ok ([], progress)
  | bound + 1, (key, _) :: rest => do
      let (content, progress) ← readContent bound place key progress
      match content with
      | none =>
          let (others, progress) ← takeKeys bound place rest progress
          .ok (place.document.repetitions key ++ others, progress)
      | some (.scalar meaning) =>
          takeKeys bound place rest (progress.take meaning)
      | some content =>
          .error (.uncomparable content.kind)

end

end Script.Yaml
