import Script.Text

namespace Script

/-!
# Files

The files that a command can see: a tree of folders below the folder it runs
in.  A path is read as a file system does, name by name, and every name but the
last has to be that of a folder.
-/

/-- Why a file cannot be used. -/
inductive FileProblem where
  | missing
  | notFolder
  | isFolder
  | denied
  | nameTooLong
  | invalidName
  deriving Repr, DecidableEq

namespace FileProblem

/-- What was tried when the problem arose. -/
def attempt : FileProblem → String
  | .missing =>
      "open "
  | .notFolder =>
      "open "
  | .isFolder =>
      "read "
  | .denied =>
      "open "
  | .nameTooLong =>
      "open "
  | .invalidName =>
      "open "

/-- The wording of a problem. -/
def words : FileProblem → String
  | .missing =>
      ": no such file or directory"
  | .notFolder =>
      ": not a directory"
  | .isFolder =>
      ": is a directory"
  | .denied =>
      ": permission denied"
  | .nameTooLong =>
      ": file name too long"
  | .invalidName =>
      ": invalid argument"

/-- The message about a path. -/
def message
    (problem : FileProblem)
    (path : Text) :
    Text :=
  Text.utf8 problem.attempt ++ path ++ Text.utf8 problem.words

end FileProblem

/-- A place in a tree of files: the names on the way to it. -/
abbrev Location :=
  List Text

/-- Files with their contents, and folders besides those that hold a file. -/
structure FileTree where
  files : List (Location × Text)
  folders : List Location
  deriving Repr

namespace FileTree

/-- Whether a place is a folder: the root, or on the way to something. -/
def isFolder
    (tree : FileTree)
    (place : Location) :
    Bool :=
  place.isEmpty || tree.folders.any (place.isPrefixOf ·) ||
    tree.files.any fun (file, _) => place.isPrefixOf file && place != file

/-- Whether there is a file or a folder at a place. -/
def contains
    (tree : FileTree)
    (place : Location) :
    Bool :=
  tree.isFolder place || (tree.files.lookup place).isSome

/-- Whether a name leads to a folder wherever it stands: the folder itself or
the one around it. -/
def isStep (name : Text) : Bool :=
  name.isEmpty || name == Text.utf8 "." || name == Text.utf8 ".."

/-- Why a path that leaves the tree by the given names cannot be used.  Outside
of the tree there are folders around it, and nothing else is known. -/
def outside (names : List Text) : FileProblem :=
  if names.all isStep then .isFolder else .missing

/-- No name has more bytes than this. -/
def longestName : Nat :=
  255

/-- Every path has fewer bytes than this. -/
def pathBound : Nat :=
  4096

/-- Follow names from a place that exists. -/
def follow
    (tree : FileTree)
    (place : Location) :
    List Text → Except FileProblem Location
  | [] =>
      .ok place
  | name :: rest =>
      if !tree.isFolder place then
        .error .notFolder
      else if name.isEmpty || name == Text.utf8 "." then
        tree.follow place rest
      else if name == Text.utf8 ".." then
        if place.isEmpty then
          .error (outside rest)
        else
          tree.follow place.dropLast rest
      else if longestName < name.length then
        .error .nameTooLong
      else if tree.contains (place ++ [name]) then
        tree.follow (place ++ [name]) rest
      else
        .error .missing

/-- The place of a path; an absolute one lies outside of the tree, and an empty
one is nowhere.  No path holds a zero byte. -/
def locate
    (tree : FileTree)
    (path : Text) :
    Except FileProblem Location :=
  if path.contains 0 then
    .error .invalidName
  else if pathBound ≤ path.length then
    .error .nameTooLong
  else
    match Text.split (Text.byte '/') path with
    | [[]] =>
        .error .missing
    | [] :: names =>
        .error (outside names)
    | names =>
        tree.follow [] names

/-- The content of a file. -/
def read
    (tree : FileTree)
    (path : Text) :
    Except FileProblem Text :=
  match tree.locate path with
  | .error problem =>
      .error problem
  | .ok place =>
      match tree.files.lookup place with
      | some content =>
          .ok content
      | none =>
          .error .isFolder

/-- Replace the content of a file, or make it in a folder that exists; the tree
stays as it is when that cannot be done. -/
def write
    (tree : FileTree)
    (path : Text)
    (content : Text) :
    FileTree :=
  let names := Text.split (Text.byte '/') path
  let place :=
    match tree.locate path with
    | .ok place =>
        some place
    | .error .missing =>
        match tree.follow [] names.dropLast, names.getLast? with
        | .ok folder, some name =>
            if tree.isFolder folder && path.head? != some (Text.byte '/') then
              some (folder ++ [name])
            else
              none
        | _, _ =>
            none
    | .error _ =>
        none
  match place with
  | none =>
      tree
  | some place =>
      if tree.isFolder place || place.getLast? == some [] then
        tree
      else
        { tree with
          files :=
            (place, content) ::
              tree.files.filter fun (file, _) => file != place }

/-- The place of a path that stays inside of a tree. -/
def placeOf (path : Text) : Location :=
  (Text.split (Text.byte '/') path).filter fun name =>
    !name.isEmpty && name != Text.utf8 "."

/-- A tree of the given files, each at the place of its path, and folders. -/
def ofPaths
    (files : List (Text × Text))
    (folders : List Text) :
    FileTree where
  files :=
    files.map fun (path, content) => (placeOf path, content)
  folders :=
    folders.map placeOf

end FileTree

end Script
