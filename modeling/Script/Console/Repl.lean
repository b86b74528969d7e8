import Script.Console.History
import Script.Session
import Script.Settings
import Script.Text.CodeClass
import Script.Text.Printable

namespace Script

/-!
# Read, evaluate, print

An interactive session takes lines.  Lines are put together until they are an
entry: something that is not blank and does not stop in the middle of a
construct.  An entry is run, and what it says about itself is told; the session
goes on whatever that is.
-/

/-- The state of an interactive session. -/
structure Repl where
  machine : Machine
  /-- The lines that are no entry yet. -/
  pending : Text
  /-- What has been told about the entries, the latest first. -/
  told : List Text
  history : History

namespace Repl

/-- The start of a session. -/
def start
    (machine : Machine)
    (history : History) :
    Repl where
  machine := machine
  pending := []
  told := []
  history := history

/-- Tell something, on a line. -/
def tell
    (repl : Repl)
    (text : Text) :
    Repl :=
  { repl with told := (text ++ [Text.newline]) :: repl.told }

/-- All that has been told, from the first line to the last. -/
def complaints (repl : Repl) : Text :=
  repl.told.reverse.flatten

/-- Write a text as it is. -/
def write
    (repl : Repl)
    (text : Text) :
    Repl :=
  { repl with machine := repl.machine.write text }

/-- All that has been written by the session and its entries. -/
def output (repl : Repl) : Text :=
  repl.machine.output

/-- Run an entry and tell of its failure. -/
def runEntry
    (fuel : Nat)
    (entry : Text)
    (repl : Repl) :
    Repl :=
  let (ending, machine) := repl.machine.runSource fuel entry
  let ran := { repl with machine, pending := [] }
  match ending.failure? with
  | none =>
      ran
  | some failure =>
      ran.tell failure.text

/-- Take a piece of input.  Nothing follows a final piece, so it is run even
when it stops in the middle of a construct. -/
def feed
    (fuel : Nat)
    (piece : Text)
    (final : Bool)
    (repl : Repl) :
    Repl :=
  let entry := repl.pending ++ piece
  if entry.isBlank then
    { repl with pending := [] }
  else if Program.needsMore entry && !final then
    { repl with pending := entry }
  else
    repl.runEntry fuel entry

/-- Take pieces of input, each a line with its line feed, and then the rest of
the input. -/
def feedAll
    (fuel : Nat)
    (repl : Repl) :
    List Text → Repl
  | [] =>
      repl
  | [last] =>
      repl.feed fuel last true
  | line :: rest =>
      feedAll fuel (repl.feed fuel (line ++ [Text.newline]) false) rest

/-- Run an input that is not typed. -/
def runBuffered
    (fuel : Nat)
    (input : Text)
    (machine : Machine) :
    Repl :=
  (start machine .empty).feedAll fuel (Text.split Text.newline input)

/-- Tell that the input cannot be read any further. -/
def tellReadError
    (message : Text)
    (repl : Repl) :
    Repl :=
  repl.tell (Text.utf8 "read error: " ++ message)

/-- Run an input that fails after some text.  Its last line is not complete and
is not taken. -/
def runBroken
    (fuel : Nat)
    (input : Text)
    (message : Text)
    (machine : Machine) :
    Repl :=
  let lines := (Text.split Text.newline input).dropLast
  (lines.foldl
    (fun repl line => repl.feed fuel (line ++ [Text.newline]) false)
    (start machine .empty)).tellReadError message

/-! Sessions at a terminal. -/

/-- The prompt for the next line. -/
def prompt
    (settings : Settings)
    (repl : Repl) :
    Text :=
  if repl.pending.isEmpty then
    settings.prompt
  else
    settings.continuationPrompt

/-- Whether a terminal can show a prompt. -/
def isShowable (prompt : Text) : Bool :=
  (Glyph.decode prompt).all fun glyph =>
    CodeClass.printable.contains glyph.code ||
      CodeClass.separator.contains glyph.code

/-- Ask for a line, if the prompt can be shown. -/
def ask?
    (settings : Settings)
    (repl : Repl) :
    Option Repl :=
  let prompt := repl.prompt settings
  if isShowable prompt then
    some (repl.write prompt)
  else
    none

/-- The form of an entry in the history, which is a single line. -/
def historyForm (entry : Text) : Text :=
  entry.trim.map fun byte =>
    if byte = Text.newline then Text.byte ' ' else byte

/-- Take a line that was typed, without its line feed. -/
def takeLine
    (fuel : Nat)
    (line : Text)
    (repl : Repl) :
    Repl :=
  let entry := repl.pending ++ line ++ [Text.newline]
  if entry.isBlank then
    { repl with pending := [] }
  else if Program.needsMore entry then
    { repl with pending := entry }
  else
    { repl with
      history := repl.history.append (historyForm entry) }.runEntry fuel entry

/-- The lines that are typed: each without its line feed and a carriage return
before that.  After the last line feed there may be one more line. -/
def typedLines (input : Text) : List Text :=
  let pieces := Text.split Text.newline input
  pieces.dropLast.map History.withoutReturn ++
    (pieces.getLast?.filter (!·.isEmpty)).toList

/-- Ask for lines and take them until there are no more. -/
def converse
    (fuel : Nat)
    (settings : Settings)
    (repl : Repl) :
    List Text → Repl
  | [] =>
      match repl.ask? settings with
      | none =>
          repl.tellReadError (Text.utf8 "invalid prompt")
      | some repl =>
          repl.write [Text.newline]
  | line :: rest =>
      match repl.ask? settings with
      | none =>
          repl.tellReadError (Text.utf8 "invalid prompt")
      | some repl =>
          converse fuel settings (repl.takeLine fuel line) rest

end Repl

end Script
