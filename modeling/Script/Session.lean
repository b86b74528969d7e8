import Script.Failure
import Script.Machine.Evaluate
import Script.Scope.Resolution
import Script.Tree.Program

namespace Script

/-!
# Sessions

A session feeds source texts to one machine, which keeps its global names from
one text to the next.  A text that is not valid is not run at all, and a text
that is valid runs until it ends or a fault stops it.
-/

/-- How a step of a session ended. -/
inductive Ending where
  | finished
  | failed (failure : Failure)
  | broken (breakage : Breakage)
  | exhausted

namespace Ending

/-- The failure of an ending, if it is one. -/
def failure? : Ending → Option Failure
  | .failed failure =>
      some failure
  | _ =>
      none

end Ending

namespace Outcome

/-- The value, the ending and the machine of an outcome.  An exhausted outcome
leaves the machine as it was before. -/
def split
    (before : Machine) :
    Outcome α → Option α × Ending × Machine
  | .done value machine =>
      (some value, .finished, machine)
  | .stopped fault machine =>
      (none, .failed (.stopped fault), machine)
  | .broken breakage machine =>
      (none, .broken breakage, machine)
  | .exhausted =>
      (none, .exhausted, before)

end Outcome

namespace Machine

/-- A bound that no program reaches in practice. -/
def ampleFuel : Nat :=
  0x4000000000000000

/-- Run statements without analysing their scopes. -/
def runTree
    (fuel : Nat)
    (statements : List Stmt)
    (machine : Machine) :
    Ending × Machine :=
  ((interpret fuel statements machine).split machine).2

/-- Run a source text: parse it, analyse its scopes, and run it if there are no
problems. -/
def runSource
    (fuel : Nat)
    (source : Text)
    (machine : Machine) :
    Ending × Machine :=
  let program := Program.ofSource source
  match Failure.ofDiagnostics? program.problems with
  | some failure =>
      (.failed failure, machine)
  | none =>
      let resolution := Resolution.ofStatements program.statements
      match Failure.ofDiagnostics? resolution.problems with
      | some failure =>
          (.failed failure, machine)
      | none =>
          machine.runTree fuel resolution.statements

/-- Run what reading a source came to: the text, or the message about what went
wrong. -/
def runReading
    (fuel : Nat)
    (reading : Except Text Text)
    (machine : Machine) :
    Ending × Machine :=
  match reading with
  | .ok source =>
      machine.runSource fuel source
  | .error message =>
      (.failed (.wrapped (Text.utf8 "read source") (.trouble message)), machine)

/-- Call a callable from outside of any program.  Such a call is not among those
under way. -/
def callDirectly
    (fuel : Nat)
    (callable : Callable)
    (arguments : List Value)
    (machine : Machine) :
    Option Value × Ending × Machine :=
  (call fuel callable arguments machine).split machine

end Machine

end Script
