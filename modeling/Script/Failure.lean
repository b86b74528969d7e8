import Script.Diagnostic
import Script.Fault

namespace Script

/-!
# Failures

How a run can end badly, as whoever started it sees it: reports on a program
that is not valid, a fault of a program that ran, or trouble outside of the
program such as a file that cannot be read.  A failure may be wrapped in a
context and is still recognised for what it is.
-/

/-- A diagnostic in its final wording. -/
structure Report where
  line : Int
  place : Text
  message : Text
  incomplete : Bool
  deriving Repr, DecidableEq

namespace Report

/-- The report of a diagnostic. -/
def ofDiagnostic (diagnostic : Diagnostic) : Report where
  line := diagnostic.line
  place := diagnostic.place.words
  message := diagnostic.problem.message
  incomplete := diagnostic.incomplete

/-- A message at a token, which may be the end of the input. -/
def atToken
    (token : Token)
    (message : Text) :
    Report where
  line := token.line
  place :=
    if token.kind = .endOfInput then
      Place.atEnd.words
    else
      (Place.atLexeme token.lexeme).words
  message := message
  incomplete := token.kind == .endOfInput

/-- The line of text for a report. -/
def text (report : Report) : Text :=
  Text.utf8 "[line " ++ Text.ofInt report.line ++ Text.utf8 "] Error" ++
    report.place ++ Text.utf8 ": " ++ report.message

end Report

/-- How a run can end badly.  In a list of reports an entry may be empty: it is
shown as an empty line. -/
inductive Failure where
  | invalid (reports : List (Option Report))
  | reported (report : Option Report)
  | stopped (fault : Fault)
  | trouble (message : Text)
  | wrapped (context : Text) (failure : Failure)
  deriving Repr

namespace Failure

/-- The failure of a program with the given diagnostics, if there are any. -/
def ofDiagnostics? (diagnostics : List Diagnostic) : Option Failure :=
  if diagnostics.isEmpty then
    none
  else
    some (.invalid (diagnostics.map fun found => some (.ofDiagnostic found)))

/-- The text of an entry in a list of reports. -/
def entryText (entry : Option Report) : Text :=
  (entry.map Report.text).getD []

/-- The text of a failure. -/
def text : Failure → Text
  | .invalid [] =>
      Text.utf8 "no errors"
  | .invalid reports =>
      Text.joinLines (reports.map entryText)
  | .reported report =>
      entryText report
  | .stopped fault =>
      fault.text
  | .trouble message =>
      message
  | .wrapped context failure =>
      context ++ Text.utf8 ": " ++ failure.text

/-- Whether the failure is that of a program that is not valid. -/
def isStatic : Failure → Bool
  | .invalid _ =>
      true
  | .reported _ =>
      true
  | .stopped _ =>
      false
  | .trouble _ =>
      false
  | .wrapped _ failure =>
      failure.isStatic

/-- Whether the failure is a fault of a program that ran. -/
def isRuntime : Failure → Bool
  | .stopped _ =>
      true
  | .wrapped _ failure =>
      failure.isRuntime
  | _ =>
      false

/-- Whether every report is incomplete; `none` when an empty entry comes before
a report that is not. -/
def allIncomplete? : List (Option Report) → Option Bool
  | [] =>
      some true
  | none :: _ =>
      none
  | some report :: rest =>
      if report.incomplete then
        allIncomplete? rest
      else
        some false

/-- Whether the failure only says that the input ended too early; there is no
answer for an empty entry. -/
def isIncomplete? : Failure → Option Bool
  | .invalid [] =>
      some false
  | .invalid reports =>
      allIncomplete? reports
  | .reported report =>
      report.map Report.incomplete
  | .stopped _ =>
      some false
  | .trouble _ =>
      some false
  | .wrapped _ failure =>
      failure.isIncomplete?

/-- What is written about a failure when a command ends with it. -/
def complaint (failure : Failure) : Text :=
  failure.text ++ [Text.newline]

/-- The exit status of a failure: data error, software error or no input. -/
def exitStatus (failure : Failure) : Nat :=
  if failure.isStatic then
    65
  else if failure.isRuntime then
    70
  else
    66

end Failure

end Script
