import Script.Console.FileTree
import Script.Console.Path
import Script.Settings
import Script.Text.CodeClass
import Script.Yaml.Compose

namespace Script.Settings

/-!
# Loading settings

Settings come from a file that is named, or else from one in the home folder,
which need not be there.  What the file does not say has a default.
-/

/-- The part of the surroundings that settings depend on. -/
structure Surroundings where
  /-- The home folder, empty when there is none. -/
  home : Text
  /-- The settings file that the surroundings name, empty when there is none. -/
  settingsFile : Text
  deriving Repr, DecidableEq

/-- The settings without any file. -/
def standard (home : Text) : Settings where
  prompt := Text.utf8 "> "
  continuationPrompt := Text.utf8 ".. "
  historyFile :=
    if home.isEmpty then
      []
    else
      Path.join home (Text.utf8 ".luca_history")
  historyLimit := 1000
  disableHistory := false

/-- The file to load and whether it was asked for.  There is no file when the
path is empty. -/
structure Source where
  path : Text
  required : Bool
  deriving Repr, DecidableEq

/-- The settings file: the explicit one, or else the one that the surroundings
name, or else the one in the home folder. -/
def Source.choose
    (explicit : Text)
    (surroundings : Surroundings) :
    Source :=
  if !explicit.isEmpty then
    { path := explicit, required := true }
  else if !surroundings.settingsFile.isEmpty then
    { path := surroundings.settingsFile, required := true }
  else if surroundings.home.isEmpty then
    { path := [], required := false }
  else
    { path := Path.join surroundings.home (Text.utf8 ".luca.yaml")
      required := false }

/-- A path with the home folder for a tilde in front. -/
def expandHome
    (home : Text)
    (path : Text) :
    Text :=
  let tilde := Text.utf8 "~"
  if home.isEmpty ||
      !(path == tilde || (Text.utf8 "~/").isPrefixOf path) then
    path
  else
    Path.join home (path.drop tilde.length)

/-- Why settings cannot be loaded. -/
inductive LoadFailure where
  | unopened (path : Text) (problem : FileProblem)
  | unread (path : Text) (problem : FileProblem)
  | malformed (path : Text) (fault : Yaml.Fault)
  | unusable (path : Text) (problems : List Problem)
  | negativeLimit (path : Text) (limit : Int)
  deriving Repr, DecidableEq

namespace LoadFailure

/-- The message of a failure. -/
def message : LoadFailure → Text
  | .unopened path problem =>
      Text.utf8 "config: open " ++ path ++ Text.utf8 ": " ++
        problem.message path
  | .unread path problem =>
      Text.utf8 "config: parse " ++ path ++
        Text.utf8 ": yaml: input error: " ++ problem.message path
  | .malformed path fault =>
      Text.utf8 "config: parse " ++ path ++ Text.utf8 ": " ++ fault.message
  | .unusable path problems =>
      Text.utf8 "config: parse " ++ path ++
        Text.utf8 ": yaml: unmarshal errors:" ++
        problems.flatMap fun problem =>
          Text.utf8 "\n  " ++ problem.message
  | .negativeLimit path limit =>
      Text.utf8 "config: " ++ path ++
        Text.utf8 ": history_limit must not be negative, got " ++
        Text.ofInt limit

end LoadFailure

/-- How loading settings ends. -/
inductive Loading where
  | loaded (settings : Settings)
  | failed (failure : LoadFailure)
  /-- A collection of some kind had to be compared with the keys of a mapping.
  It breaks off, without a message of its own. -/
  | broken (kind : Text)
  deriving Repr, DecidableEq

namespace Loading

/-- Loading that cannot break off. -/
def ofExcept : Except LoadFailure Settings → Loading
  | .ok settings =>
      .loaded settings
  | .error failure =>
      .failed failure

end Loading

/-- Settings that make sense: the limit is not negative, and the history file is
a path. -/
def normalize
    (home : Text)
    (path : Text)
    (settings : Settings) :
    Except LoadFailure Settings :=
  if settings.historyLimit < 0 then
    .error (.negativeLimit path settings.historyLimit)
  else
    .ok
      { settings with
        historyFile := expandHome home settings.historyFile.trim }

/-- Read settings from the content of a file. -/
def ofContent
    (home : Text)
    (path : Text)
    (content : Text) :
    Loading :=
  match Yaml.Document.ofText content with
  | .error fault =>
      .failed (.malformed path fault)
  | .ok none =>
      .ofExcept (normalize home path (standard home))
  | .ok (some document) =>
      match (standard home).assignDocument document with
      | .error (.malformed cause) =>
          .failed (.malformed path (.unplaced cause))
      | .error (.uncomparable kind) =>
          .broken kind
      | .ok (.error problems) =>
          .failed (.unusable path problems)
      | .ok (.ok settings) =>
          .ofExcept (normalize home path settings)

/-- What reading a settings file comes to. -/
def ofReading
    (home : Text)
    (source : Source)
    (reading : Except FileProblem Text) :
    Loading :=
  match reading with
  | .ok content =>
      ofContent home source.path content
  | .error .isFolder =>
      .failed (.unread source.path .isFolder)
  | .error .missing =>
      if source.required then
        .failed (.unopened source.path .missing)
      else
        .loaded (standard home)
  | .error problem =>
      .failed (.unopened source.path problem)

/-- Load the settings. -/
def load
    (tree : FileTree)
    (surroundings : Surroundings)
    (explicit : Text) :
    Loading :=
  let source := Source.choose explicit surroundings
  if source.path.isEmpty then
    .loaded (standard surroundings.home)
  else
    ofReading surroundings.home source (tree.read source.path)

end Script.Settings
