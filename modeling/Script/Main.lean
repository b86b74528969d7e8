import Script.Console.Command

namespace Script.Console

/-!
# The command at work

The command with the files, the surroundings and the streams of the system.  It
decides nothing by itself: it reads what the other modules ask for and writes
what they say.
-/

/-- The text of some bytes. -/
def ofBytes (bytes : ByteArray) : Text :=
  bytes.toList

/-- The bytes of a text. -/
def toBytes (text : Text) : ByteArray :=
  ⟨text.toArray⟩

/-- The problem behind an error of the system. -/
def problemOf : IO.Error → FileProblem
  | .noFileOrDirectory _ _ _ =>
      .missing
  | .inappropriateType _ code _ =>
      if code = 21 then .isFolder else .notFolder
  | _ =>
      .denied

/-- Read a file. -/
def readFile (path : Text) : IO (Except FileProblem Text) := do
  match String.fromUTF8? (toBytes path) with
  | none =>
      return .error .missing
  | some path =>
      try
        return .ok (ofBytes (← IO.FS.readBinFile path))
      catch error =>
        return .error (problemOf error)

/-- Write a file, if that can be done. -/
def writeFile
    (path : Text)
    (content : Text) :
    IO Unit := do
  match String.fromUTF8? (toBytes path) with
  | none =>
      return
  | some path =>
      try
        IO.FS.writeBinFile path (toBytes content)
      catch _ =>
        return

/-- A variable of the surroundings, empty when it is not set. -/
def environment (name : String) : IO Text := do
  return Text.utf8 ((← IO.getEnv name).getD "")

/-- The surroundings of the command. -/
def surroundings : IO Settings.Surroundings := do
  return {
    home := ← environment "HOME"
    settingsFile := ← environment "LUCA_CONFIG" }

/-- Write a text to a stream at once. -/
def emit
    (stream : IO.FS.Stream)
    (text : Text) :
    IO Unit := do
  stream.write (toBytes text)
  stream.flush

/-- Write a result and give its exit status. -/
def finish (result : Result) : IO UInt32 := do
  emit (← IO.getStdout) result.output
  emit (← IO.getStderr) result.complaints
  return result.status.toUInt32

/-- Write what a session has said since the last time. -/
def flush (repl : Repl) : IO Repl := do
  emit (← IO.getStdout) repl.output
  emit (← IO.getStderr) repl.complaints
  return { repl with machine := repl.machine.clearOutput, told := [] }

/-- A machine whose clock stands at the seconds since the start. -/
def clocked
    (start : Nat)
    (machine : Machine) :
    IO Machine := do
  let now ← IO.monoMsNow
  return { machine with clock := fun _ => (now - start).toFloat / 1000 }

/-- Read the whole of a stream. -/
partial def readAll
    (stream : IO.FS.Stream)
    (before : Text) :
    IO Text := do
  let bytes ← stream.read 65536
  if bytes.isEmpty then
    return before
  else
    readAll stream (before ++ ofBytes bytes)

/-- Read a line with its line feed, which is missing at the end of the stream.
The bytes read before come in reverse order. -/
partial def readLine
    (stream : IO.FS.Stream)
    (before : Text) :
    IO Text := do
  match ofBytes (← stream.read 1) with
  | [] =>
      return before.reverse
  | byte :: _ =>
      if byte = Text.newline then
        return (byte :: before).reverse
      else
        readLine stream (byte :: before)

/-- Run a session on a stream that is no terminal. -/
partial def runBuffered
    (start : Nat)
    (stream : IO.FS.Stream)
    (repl : Repl) :
    IO Unit := do
  let repl := { repl with machine := ← clocked start repl.machine }
  let line ← readLine stream []
  let final := line.getLast? != some Text.newline
  let repl ← flush (repl.feed Machine.ampleFuel line final)
  if final then
    return
  else
    runBuffered start stream repl

/-- Run a session at a terminal; the result is the session at its end. -/
partial def runTyped
    (start : Nat)
    (settings : Settings)
    (stream : IO.FS.Stream)
    (repl : Repl) :
    IO Repl := do
  let repl := { repl with machine := ← clocked start repl.machine }
  match repl.ask? settings with
  | none =>
      flush (repl.tellReadError (Text.utf8 "invalid prompt"))
  | some repl =>
      let repl ← flush repl
      let line ← readLine stream []
      match Repl.typedLines line with
      | [] =>
          flush (repl.write [Text.newline])
      | typed :: _ =>
          runTyped start settings stream
            (← flush (repl.takeLine Machine.ampleFuel typed))

/-- Load the settings. -/
def loadSettings
    (explicit : Text) :
    IO Settings.Loading := do
  let surroundings ← surroundings
  let source := Settings.Source.choose explicit surroundings
  if source.path.isEmpty then
    return .loaded (.standard surroundings.home)
  else
    return Settings.ofReading surroundings.home source
      (← readFile source.path)

/-- Run a session. -/
def converse (settings : Settings) : IO Unit := do
  let start ← IO.monoMsNow
  let stream ← IO.getStdin
  if ← stream.isTty then
    let path := Host.historyFile? settings
    let history ←
      match path with
      | none =>
          pure .empty
      | some path =>
          match ← readFile path with
          | .ok content =>
              pure (.ofContent settings.historyLimit content)
          | .error _ =>
              pure .empty
    let repl ←
      runTyped start settings stream (Repl.start .standard history)
    match path with
    | none =>
        return
    | some path =>
        writeFile path repl.history.content
  else
    runBuffered start stream (Repl.start .standard .empty)

/-- The source text at a path; a dash stands for the standard input. -/
def readSource (path : Text) : IO (Except Text Text) := do
  if path = Text.utf8 "-" then
    return .ok (← readAll (← IO.getStdin) [])
  else
    match ← readFile path with
    | .ok content =>
        return .ok content.withoutInterpreterLine
    | .error problem =>
        return .error (problem.message path)

/-- Carry out what a command line asks for. -/
def perform : Task → IO UInt32
  | .converse settingsFile => do
      match ← loadSettings settingsFile with
      | .failed failure =>
          finish (.trouble 64 failure.message)
      | .broken kind =>
          finish
            (.refusal 2
              (Text.utf8 "panic: runtime error: hash of unhashable type " ++
                kind ++ [Text.newline]))
      | .loaded settings =>
          converse settings
          return 0
  | .script path emission => do
      match ← readSource path with
      | .error message =>
          finish (.trouble 66 message)
      | .ok source =>
          finish (useSource Machine.ampleFuel emission source .standard)

end Script.Console

/-- The command. -/
def main (arguments : List String) : IO UInt32 :=
  match Script.Task.ofArguments (arguments.map Script.Text.utf8) with
  | .error result =>
      Script.Console.finish result
  | .ok task =>
      Script.Console.perform task
