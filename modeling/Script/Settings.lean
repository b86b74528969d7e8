import Script.Text.Quoted
import Script.Yaml.Content.Read

namespace Script

/-!
# Settings

The settings of an interactive session.  A document gives some of them; those it
does not give, or gives as null, keep their values.  Every problem of a document
is found and told, except that a repeated key hides the others of its mapping.
A mapping may take over the entries of other mappings that it does not have
itself.
-/

/-- The settings of an interactive session. -/
structure Settings where
  prompt : Text
  continuationPrompt : Text
  historyFile : Text
  historyLimit : Int
  disableHistory : Bool
  deriving Repr, DecidableEq

namespace Settings

/-- The names of the settings. -/
inductive Key where
  | prompt
  | continuationPrompt
  | historyFile
  | historyLimit
  | disableHistory
  deriving Repr, DecidableEq

namespace Key

/-- All names of settings. -/
def all : List Key :=
  [.prompt, .continuationPrompt, .historyFile, .historyLimit, .disableHistory]

/-- How a name is written. -/
def name : Key → String
  | .prompt =>
      "prompt"
  | .continuationPrompt =>
      "continuation_prompt"
  | .historyFile =>
      "history_file"
  | .historyLimit =>
      "history_limit"
  | .disableHistory =>
      "disable_history"

/-- The setting of a name. -/
def ofName? (name : Text) : Option Key :=
  all.find? fun key => Text.utf8 key.name == name

end Key

/-- What a node of a document is needed as. -/
inductive Target where
  | text
  | integer
  | truth
  | settings
  deriving Repr, DecidableEq

namespace Target

/-- The name of a target. -/
def name : Target → String
  | .text =>
      "string"
  | .integer =>
      "int"
  | .truth =>
      "bool"
  | .settings =>
      "config.Config"

end Target

/-- A problem with one line of a document. -/
inductive Problem where
  | repeatedKey (line : Nat) (key : Text) (earlier : Nat)
  | repeatedField (line : Nat) (key : Text)
  | unknownKey (line : Nat) (key : Text)
  | wrongKind (line : Nat) (tag : Text) (text : Text) (target : Target)
  deriving Repr, DecidableEq

namespace Problem

/-- The text of a scalar as problems show it: a long one is cut. -/
def excerpt (text : Text) : Text :=
  if 10 < text.length then
    text.take 7 ++ Text.utf8 "..."
  else
    text

/-- A node as problems name it: by its tag and its text.  Nothing marks the
text of what claims to be a collection. -/
def describe
    (tag : Text)
    (text : Text) :
    Text :=
  if tag = Yaml.Tag.sequence || tag = Yaml.Tag.mapping then
    tag ++ text
  else
    tag ++ Text.utf8 " `" ++ excerpt text ++ Text.utf8 "`"

/-- The line that a problem is told of. -/
def line : Problem → Nat
  | .repeatedKey line _ _ =>
      line
  | .repeatedField line _ =>
      line
  | .unknownKey line _ =>
      line
  | .wrongKind line _ _ _ =>
      line

/-- The wording of a problem. -/
def words : Problem → Text
  | .repeatedKey _ key earlier =>
      Text.utf8 "mapping key " ++ Text.quote key ++
        Text.utf8 " already defined at line " ++ Text.ofNat earlier
  | .repeatedField _ key =>
      Text.utf8 "field " ++ key ++
        Text.utf8 " already set in type config.Config"
  | .unknownKey _ key =>
      Text.utf8 "field " ++ key ++
        Text.utf8 " not found in type config.Config"
  | .wrongKind _ tag text target =>
      Text.utf8 "cannot unmarshal " ++ describe tag text ++
        Text.utf8 " into " ++ Text.utf8 target.name

/-- The message of a problem. -/
def message (problem : Problem) : Text :=
  Text.utf8 "line " ++ Text.ofNat problem.line ++ Text.utf8 ": " ++
    problem.words

end Problem

/-- The problems with keys that stand again. -/
def repeatedKeys (repetitions : List Yaml.Repetition) : List Problem :=
  repetitions.map fun repetition =>
    .repeatedKey repetition.line repetition.name repetition.earlier

/-! Values. -/

/-- Integers are less than this. -/
def integerBound : Int :=
  0x8000000000000000

/-- The least integer, which also stands for what no integer can hold. -/
def leastInteger : Int :=
  -0x8000000000000000

/-- A double without its fraction.  What is too small for an integer, and the
double next above them all, become the least integer. -/
def truncatedOf? (bits : Nat) : Option Int :=
  let magnitude := Double.magnitude bits
  if Double.infiniteBits < magnitude then
    none
  else
    let size : Int := Double.truncated magnitude
    let truncated := if Double.isNegative bits then -size else size
    if leastInteger ≤ truncated && truncated < integerBound then
      some truncated
    else if truncated ≤ integerBound then
      some leastInteger
    else
      none

/-- The integer of a meaning: of an integer or a float, if it is not too
great. -/
def integerOf? : Yaml.Meaning → Option Int
  | .integer value =>
      if value < integerBound then some value else none
  | .float bits =>
      truncatedOf? bits
  | _ =>
      none

/-- The words that are truth values where one is wanted. -/
def truthWords : List (String × Bool) :=
  [("y", true), ("Y", true), ("yes", true), ("Yes", true), ("YES", true),
   ("on", true), ("On", true), ("ON", true),
   ("n", false), ("N", false), ("no", false), ("No", false), ("NO", false),
   ("off", false), ("Off", false), ("OFF", false)]

/-- The truth value of a meaning. -/
def truthOf? : Yaml.Meaning → Option Bool
  | .truth value =>
      some value
  | .text value =>
      (truthWords.find? fun (word, _) => Text.utf8 word == value).map (·.2)
  | _ =>
      none

/-- The settings with one of them taken from the meaning of a scalar, if it is
of the right kind. -/
def assign?
    (settings : Settings)
    (key : Key)
    (written : Text)
    (meaning : Yaml.Meaning) :
    Option Settings :=
  match key with
  | .prompt =>
      some { settings with prompt := Yaml.textOfMeaning written meaning }
  | .continuationPrompt =>
      some { settings with continuationPrompt := Yaml.textOfMeaning written meaning }
  | .historyFile =>
      some { settings with historyFile := Yaml.textOfMeaning written meaning }
  | .historyLimit =>
      (integerOf? meaning).map fun limit =>
        { settings with historyLimit := limit }
  | .disableHistory =>
      (truthOf? meaning).map fun isDisabled =>
        { settings with disableHistory := isDisabled }

/-- What a setting is needed as. -/
def Key.target : Key → Target
  | .historyLimit =>
      .integer
  | .disableHistory =>
      .truth
  | _ =>
      .text

/-- The problems of a collection where a scalar is wanted. -/
def collectionProblems
    (target : Target) :
    Yaml.Node → List Problem
  | .sequence line tag _ =>
      [.wrongKind line tag [] target]
  | .mapping line tag entries =>
      match repeatedKeys (Yaml.Entries.repetitions entries) with
      | [] =>
          [.wrongKind line tag [] target]
      | problems =>
          problems
  | _ =>
      []

/-! Documents. -/

/-- The settings taken from a document so far, and its problems. -/
structure Taking where
  settings : Settings
  problems : List Problem
  progress : Yaml.Progress
  deriving Repr, DecidableEq

namespace Taking

/-- Add problems. -/
def complain
    (taking : Taking)
    (problems : List Problem) :
    Taking :=
  { taking with problems := taking.problems ++ problems }

/-- Count a node that is read at a place, and the one it means. -/
def countThrough
    (taking : Taking)
    (place : Yaml.Place)
    (node : Yaml.Node) :
    Except Yaml.Obstacle Taking := do
  let progress ← taking.progress.countThrough place node
  .ok { taking with progress := progress }

/-- Take a setting from a node. -/
def assign
    (place : Yaml.Place)
    (key : Key)
    (node : Yaml.Node)
    (taking : Taking) :
    Except Yaml.Obstacle Taking := do
  let taking ← taking.countThrough place node
  match place.document.follow node with
  | .scalar line tag text =>
      let meaning ← Yaml.Obstacle.ofExcept (Yaml.meaning tag text)
      if meaning = .null then
        .ok taking
      else
        match taking.settings.assign? key text meaning with
        | some settings =>
            .ok { taking with settings := settings }
        | none =>
            .ok (taking.complain [.wrongKind line tag text key.target])
  | node =>
      .ok (taking.complain (collectionProblems key.target node))

/-- The name that a key stands for.  Null names nothing, and nothing but a
scalar should be a key. -/
def name?
    (place : Yaml.Place)
    (key : Yaml.Node)
    (taking : Taking) :
    Except Yaml.Obstacle (Option Text × Taking) := do
  let taking ← taking.countThrough place key
  let name ← Yaml.nameOf? place.document key
  .ok
    (name,
     taking.complain (collectionProblems .text (place.document.follow key)))

/-- Take the setting of a name, of which those in `done` have been taken.  A
name that is taken already is passed over while mappings are merged. -/
def assignName
    (place : Yaml.Place)
    (done : List Key)
    (line : Nat)
    (name : Text)
    (value : Yaml.Node)
    (taking : Taking) :
    Except Yaml.Obstacle (List Key × Taking) := do
  if taking.progress.isTaken (.text name) then
    .ok (done, taking)
  else
    let taking :=
      { taking with progress := taking.progress.take (.text name) }
    match Key.ofName? name with
    | none =>
        .ok (done, taking.complain [.unknownKey line name])
    | some key =>
        if key ∈ done then
          .ok (done, taking.complain [.repeatedField line name])
        else
          let taking ← taking.assign place key value
          .ok (key :: done, taking)

/-- Take the settings of the entries of a mapping, without those that are
merged into it. -/
def assignEntries
    (place : Yaml.Place)
    (done : List Key) :
    Yaml.Entries → Taking → Except Yaml.Obstacle Taking
  | [], taking =>
      .ok taking
  | (key, value) :: rest, taking => do
      if key.isMerge then
        assignEntries place done rest taking
      else
        let (name, taking) ← taking.name? place key
        match name with
        | none =>
            assignEntries place done rest taking
        | some name =>
            let (done, taking) ←
              taking.assignName place done key.line name value
            assignEntries place done rest taking

/-- Take the keys of a mapping for those merged into it. -/
def takeKeys
    (place : Yaml.Place)
    (entries : Yaml.Entries)
    (taking : Taking) :
    Except Yaml.Obstacle Taking := do
  let (repetitions, progress) ←
    Yaml.takeKeys place.bound place entries
      { taking.progress with taken := some [] }
  .ok
    ({ taking with progress := progress }.complain (repeatedKeys repetitions))

mutual

/-- Take the settings of a mapping, and then of the mappings that are merged
into it.  The first argument bounds the number of steps. -/
def assignMapping
    (bound : Nat)
    (place : Yaml.Place)
    (entries : Yaml.Entries)
    (taking : Taking) :
    Except Yaml.Obstacle Taking :=
  match bound with
  | 0 =>
      .ok taking
  | bound + 1 => do
      match Yaml.Entries.repetitions entries with
      | [] =>
          let taking ← assignEntries place [] entries taking
          match Yaml.Entries.merged? entries with
          | none =>
              .ok taking
          | some nodes =>
              match taking.progress.taken with
              | some _ =>
                  mergeAll bound place nodes taking
              | none =>
                  let taking ← taking.takeKeys place entries
                  let merged ← mergeAll bound place nodes taking
                  .ok
                    { merged with
                      progress := { merged.progress with taken := none } }
      | repetitions =>
          .ok (taking.complain (repeatedKeys repetitions))

/-- Take the settings of some nodes, which have to be mappings. -/
def mergeAll
    (bound : Nat)
    (place : Yaml.Place)
    (nodes : List Yaml.Node)
    (taking : Taking) :
    Except Yaml.Obstacle Taking :=
  match bound, nodes with
  | _, [] =>
      .ok taking
  | 0, _ =>
      .ok taking
  | bound + 1, node :: rest => do
      let (entries, inner) ← Yaml.mergedMapping place node
      let taking ← taking.countThrough place node
      let taking ← assignMapping bound inner entries taking
      mergeAll bound place rest taking

end

/-- Take the settings of a whole document. -/
def assignRoot
    (place : Yaml.Place)
    (taking : Taking) :
    Except Yaml.Obstacle Taking := do
  match place.document.root with
  | .mapping _ _ entries =>
      taking.assignMapping place.bound place entries
  | .scalar line tag text => do
      let meaning ← Yaml.Obstacle.ofExcept (Yaml.meaning tag text)
      if meaning = .null then
        .ok taking
      else
        .ok (taking.complain [.wrongKind line tag text .settings])
  | node =>
      .ok (taking.complain (collectionProblems .settings node))

end Taking

/-- Take the settings of a document, or tell all its problems, unless something
keeps it from being understood at all.  The document counts as a node, and so
does its root. -/
def assignDocument
    (settings : Settings)
    (document : Yaml.Document) :
    Except Yaml.Obstacle (Except (List Problem) Settings) := do
  let place := Yaml.Place.start document
  let progress ← Yaml.Progress.start.count place
  let progress ← progress.count place
  let taking ← Taking.assignRoot place { settings, problems := [], progress }
  if taking.problems.isEmpty then
    .ok (.ok taking.settings)
  else
    .ok (.error taking.problems)

end Settings

end Script
