import Script.Console.Flag
import Script.Console.Repl
import Script.Console.ScriptFile
import Script.Settings.Load
import Script.Tree.SExpression

namespace Script

/-!
# The command

A command line asks for a session, or for a script to be shown or run.  What it
does depends on the files, the surroundings and the standard input alone, and
is an exit status, two texts and the files afterwards.
-/

/-- What is shown of a script instead of running it. -/
inductive Emission where
  | tokens
  | tree
  deriving Repr, DecidableEq

/-- What a command line asks for. -/
inductive Task where
  | converse (settingsFile : Text)
  | script (path : Text) (emission : Option Emission)
  deriving Repr, DecidableEq

/-- What is written before a command ends, and its exit status. -/
structure Result where
  status : Nat
  output : Text
  complaints : Text
  deriving Repr, DecidableEq

namespace Options

/-- What is shown of a script; tokens come first. -/
def emission? (options : Options) : Option Emission :=
  if options.emitTokens then
    some .tokens
  else if options.emitTree then
    some .tree
  else
    none

end Options

namespace Result

/-- A command that ends at once with a complaint. -/
def refusal
    (status : Nat)
    (complaint : Text) :
    Result where
  status := status
  output := []
  complaints := complaint

/-- A complaint in the name of the command. -/
def trouble
    (status : Nat)
    (message : Text) :
    Result :=
  refusal status (Text.utf8 "luca: " ++ message ++ [Text.newline])

/-- The end of a command, with its failure if there is one. -/
def ofFailure?
    (output : Text)
    (failure : Option Failure) :
    Result where
  status := (failure.map Failure.exitStatus).getD 0
  output := output
  complaints := (failure.map Failure.complaint).getD []

end Result

namespace Task

/-- Read a command line.  A session shows nothing of a script, and there is one
script at most. -/
def ofArguments (arguments : List Text) : Except Result Task :=
  match Options.standard.read arguments with
  | .error problem =>
      .error (.refusal problem.exitStatus problem.text)
  | .ok (options, []) =>
      match options.emission? with
      | none =>
          .ok (.converse options.settingsFile)
      | some _ =>
          .error (.refusal 64 Flag.usage)
  | .ok (options, [path]) =>
      .ok (.script path options.emission?)
  | .ok _ =>
      .error (.refusal 64 Flag.usage)

end Task

/-- Show the tokens of a source text, one on each line. -/
def emitTokens (source : Text) : Result :=
  let scan := Scan.ofSource source
  match Failure.ofDiagnostics? scan.problems with
  | some failure =>
      .ofFailure? [] (some failure)
  | none =>
      .ofFailure?
        (scan.tokens.flatMap fun token => token.describe ++ [Text.newline])
        none

/-- Show the statements of a source text, each on a line. -/
def emitTree (source : Text) : Result :=
  let program := Program.ofSource source
  match Failure.ofDiagnostics? program.problems with
  | some failure =>
      .ofFailure? [] (some failure)
  | none =>
      .ofFailure? (Stmt.sexprLines program.statements) none

/-- Run a source text. -/
def runScript
    (fuel : Nat)
    (source : Text)
    (machine : Machine) :
    Result :=
  let (ending, machine) := machine.runSource fuel source
  .ofFailure? machine.output ending.failure?

/-- Show or run a source text. -/
def useSource
    (fuel : Nat)
    (emission : Option Emission)
    (source : Text)
    (machine : Machine) :
    Result :=
  match emission with
  | some .tokens =>
      emitTokens source
  | some .tree =>
      emitTree source
  | none =>
      runScript fuel source machine

/-- The standard input: its text, what ends it if it is not the end of the text,
and whether it comes from a terminal. -/
structure Input where
  content : Text
  failure : Option Text
  isTerminal : Bool
  deriving Repr, DecidableEq

namespace Input

/-- Read the whole input. -/
def readAll (input : Input) : Except Failure Text :=
  match input.failure with
  | none =>
      .ok input.content
  | some message =>
      .error (.wrapped (Text.utf8 "read stdin") (.trouble message))

end Input

/-- All that a command sees. -/
structure Host where
  tree : FileTree
  surroundings : Settings.Surroundings
  input : Input

namespace Host

/-- The file that keeps the history of a session, if there is one. -/
def historyFile? (settings : Settings) : Option Text :=
  if settings.disableHistory || settings.historyFile.isEmpty then
    none
  else
    some settings.historyFile

/-- The history at the start of a session. -/
def loadHistory
    (host : Host)
    (settings : Settings) :
    History :=
  match historyFile? settings with
  | none =>
      .empty
  | some path =>
      match host.tree.read path with
      | .ok content =>
          .ofContent settings.historyLimit content
      | .error _ =>
          .empty

/-- The files after a session. -/
def storeHistory
    (host : Host)
    (settings : Settings)
    (history : History) :
    FileTree :=
  match historyFile? settings with
  | none =>
      host.tree
  | some path =>
      host.tree.write path history.content

/-- Run a session.  Only one at a terminal has prompts and a history. -/
def converse
    (host : Host)
    (fuel : Nat)
    (settings : Settings)
    (machine : Machine) :
    Repl × FileTree :=
  if host.input.isTerminal then
    let repl :=
      (Repl.start machine (host.loadHistory settings)).converse fuel settings
        (Repl.typedLines host.input.content)
    (repl, host.storeHistory settings repl.history)
  else
    match host.input.failure with
    | none =>
        (Repl.runBuffered fuel host.input.content machine, host.tree)
    | some message =>
        (Repl.runBroken fuel host.input.content message machine, host.tree)

/-- The source text at a path; a dash stands for the standard input. -/
def readSource
    (host : Host)
    (path : Text) :
    Except Failure Text :=
  if path = Text.utf8 "-" then
    host.input.readAll
  else
    host.tree.readScript path

/-- Run a command: its result and the files afterwards, unless it breaks off
while it loads the settings. -/
def run
    (host : Host)
    (fuel : Nat)
    (arguments : List Text)
    (machine : Machine) :
    Option (Result × FileTree) :=
  match Task.ofArguments arguments with
  | .error result =>
      some (result, host.tree)
  | .ok (.converse settingsFile) =>
      match Settings.load host.tree host.surroundings settingsFile with
      | .failed failure =>
          some (.trouble 64 failure.message, host.tree)
      | .broken _ =>
          none
      | .loaded settings =>
          let (repl, tree) := host.converse fuel settings machine
          some
            ({ status := 0
               output := repl.output
               complaints := repl.complaints },
             tree)
  | .ok (.script path emission) =>
      match host.readSource path with
      | .error failure =>
          some (.trouble 66 failure.text, host.tree)
      | .ok source =>
          some (useSource fuel emission source machine, host.tree)

end Host

end Script
