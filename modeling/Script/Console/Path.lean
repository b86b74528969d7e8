import Script.Text

namespace Script

/-!
# Paths

A path is cleaned by reading it alone, without looking at any file: repeated
slashes and the name `.` go away, and `..` takes back the name before it.
-/

namespace Path

/-- The byte between the names of a path. -/
def slash : UInt8 :=
  Text.byte '/'

/-- The name of the folder itself. -/
def here : Text :=
  Text.utf8 "."

/-- The name of the folder around. -/
def up : Text :=
  Text.utf8 ".."

/-- Add a name to the names walked so far, the latest of which comes first.
Above the root there is only the root. -/
def step
    (rooted : Bool)
    (walked : List Text)
    (name : Text) :
    List Text :=
  if name.isEmpty || name == here then
    walked
  else if name == up then
    match walked with
    | [] =>
        if rooted then [] else [up]
    | latest :: earlier =>
        if latest == up then up :: walked else earlier
  else
    name :: walked

/-- The shortest path that leads the same way by its names alone. -/
def clean (path : Text) : Text :=
  let rooted := path.head? == some slash
  let walked := (Text.split slash path).foldl (step rooted) []
  let names := List.intercalate [slash] walked.reverse
  if rooted then
    slash :: names
  else if names.isEmpty then
    here
  else
    names

/-- A path that leads on from another one; an empty part adds nothing. -/
def join
    (base : Text)
    (rest : Text) :
    Text :=
  if base.isEmpty && rest.isEmpty then
    []
  else if base.isEmpty then
    clean rest
  else
    clean (base ++ slash :: rest)

end Path

end Script
