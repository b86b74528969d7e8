import Script.Console.FileTree
import Script.Session

namespace Script

/-!
# Script files

A script may start with a line that names its interpreter.  Such a line is taken
away up to its line feed, so that every other line keeps its number.
-/

/-- A script without a first line that names its interpreter. -/
def Text.withoutInterpreterLine (script : Text) : Text :=
  if (Text.utf8 "#!").isPrefixOf script then
    script.dropWhile (· != newline)
  else
    script

namespace FileTree

/-- Read a script from a file. -/
def readScript
    (tree : FileTree)
    (path : Text) :
    Except Failure Text :=
  match tree.read path with
  | .ok content =>
      .ok content.withoutInterpreterLine
  | .error problem =>
      .error (.trouble (problem.message path))

end FileTree

namespace Machine

/-- Run a script from a file. -/
def runFile
    (fuel : Nat)
    (tree : FileTree)
    (path : Text)
    (machine : Machine) :
    Ending × Machine :=
  match tree.readScript path with
  | .ok source =>
      machine.runSource fuel source
  | .error failure =>
      (.failed failure, machine)

end Machine

end Script
