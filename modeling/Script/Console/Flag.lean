import Script.Text.Quoted

namespace Script

/-!
# Flags

A command line starts with flags, each behind one dash or two.  A flag has its
value behind an equals sign; one that takes a text may also have it as the next
argument, and one that takes a truth value is true without one.  The flags end
at the first argument that is none, or behind two dashes that stand alone.
-/

/-- What the flags of a command line ask for. -/
structure Options where
  emitTokens : Bool
  emitTree : Bool
  settingsFile : Text
  deriving Repr, DecidableEq

namespace Options

/-- What is done without flags. -/
def standard : Options where
  emitTokens := false
  emitTree := false
  settingsFile := []

end Options

/-- The flags that there are. -/
inductive Flag where
  | settingsFile
  | emitTree
  | emitTokens
  deriving Repr, DecidableEq

/-- Why flags are not followed. -/
inductive FlagProblem where
  | help
  | badSyntax (argument : Text)
  | undefined (name : Text)
  | missingValue (flag : Flag)
  | badTruth (flag : Flag) (value : Text)
  deriving Repr, DecidableEq

namespace Flag

/-- All flags, in the order of the usage text. -/
def all : List Flag :=
  [.settingsFile, .emitTree, .emitTokens]

/-- The name of a flag. -/
def name : Flag → String
  | .settingsFile =>
      "config"
  | .emitTree =>
      "emit-ast"
  | .emitTokens =>
      "emit-tokens"

/-- What a flag takes, as the usage text says it. -/
def valueName : Flag → String
  | .settingsFile =>
      " string"
  | .emitTree =>
      ""
  | .emitTokens =>
      ""

/-- What a flag is for. -/
def purpose : Flag → String
  | .settingsFile =>
      "REPL settings file (default $LUCA_CONFIG or ~/.luca.yaml)"
  | .emitTree =>
      "print the parsed program as s-expressions and exit"
  | .emitTokens =>
      "print the token stream and exit"

/-- The flag of a name. -/
def ofName? (name : Text) : Option Flag :=
  all.find? fun flag => Text.utf8 flag.name == name

/-- How to call the command. -/
def usage : Text :=
  Text.utf8 "usage: luca [flags] [script | -]\n" ++
    all.flatMap fun flag =>
      Text.utf8
        ("  -" ++ flag.name ++ flag.valueName ++ "\n    \t" ++
          flag.purpose ++ "\n")

end Flag

namespace FlagProblem

/-- The message of a problem; a call for help is none. -/
def message? : FlagProblem → Option Text
  | .help =>
      none
  | .badSyntax argument =>
      some (Text.utf8 "bad flag syntax: " ++ argument)
  | .undefined name =>
      some (Text.utf8 "flag provided but not defined: -" ++ name)
  | .missingValue flag =>
      some (Text.utf8 ("flag needs an argument: -" ++ flag.name))
  | .badTruth flag value =>
      some
        (Text.utf8 "invalid boolean value " ++ Text.quote value ++
          Text.utf8 (" for -" ++ flag.name ++ ": parse error"))

/-- What is written about a problem: its message and the usage text. -/
def text (problem : FlagProblem) : Text :=
  ((problem.message?.map (· ++ [Text.newline])).getD []) ++ Flag.usage

/-- The exit status: a call for help is none of the caller's mistakes. -/
def exitStatus : FlagProblem → Nat
  | .help =>
      0
  | _ =>
      64

end FlagProblem

/-- What one argument is. -/
inductive Argument where
  /-- A flag with a name, and a value if there is an equals sign. -/
  | flag (name : Text) (value : Option Text)
  /-- The mark behind the last flag. -/
  | endOfFlags
  /-- Something that is no flag. -/
  | operand
  /-- Something that looks like a flag but has no name. -/
  | nameless
  deriving Repr, DecidableEq

namespace Argument

/-- A dash. -/
def dash : UInt8 :=
  Text.byte '-'

/-- The equals sign. -/
def equals : UInt8 :=
  Text.byte '='

/-- What the text behind the dashes is. -/
def ofName (text : Text) : Argument :=
  match text with
  | [] =>
      .nameless
  | first :: rest =>
      if first = dash || first = equals then
        .nameless
      else
        let name := first :: rest.takeWhile (· != equals)
        match rest.dropWhile (· != equals) with
        | [] =>
            .flag name none
        | _ :: value =>
            .flag name (some value)

/-- What an argument is. -/
def ofText (text : Text) : Argument :=
  match text with
  | [] =>
      .operand
  | [_] =>
      .operand
  | first :: second :: rest =>
      if first ≠ dash then
        .operand
      else if second ≠ dash then
        ofName (second :: rest)
      else if rest.isEmpty then
        .endOfFlags
      else
        ofName rest

end Argument

namespace Options

/-- The truth value that a text spells. -/
def truth? (text : Text) : Option Bool :=
  if text ∈ ["1", "t", "T", "true", "TRUE", "True"].map Text.utf8 then
    some true
  else if text ∈ ["0", "f", "F", "false", "FALSE", "False"].map Text.utf8 then
    some false
  else
    none

/-- Follow a flag that takes a truth value. -/
def setTruth
    (options : Options)
    (flag : Flag)
    (value : Bool) :
    Options :=
  match flag with
  | .settingsFile =>
      options
  | .emitTree =>
      { options with emitTree := value }
  | .emitTokens =>
      { options with emitTokens := value }

/-- Follow the flags of a command line; the arguments behind them are left. -/
def read
    (options : Options) :
    List Text → Except FlagProblem (Options × List Text)
  | [] =>
      .ok (options, [])
  | argument :: rest =>
      match Argument.ofText argument with
      | .operand =>
          .ok (options, argument :: rest)
      | .endOfFlags =>
          .ok (options, rest)
      | .nameless =>
          .error (.badSyntax argument)
      | .flag name value =>
          match Flag.ofName? name with
          | none =>
              if name = Text.utf8 "help" || name = Text.utf8 "h" then
                .error .help
              else
                .error (.undefined name)
          | some .settingsFile =>
              match value, rest with
              | some path, rest =>
                  read { options with settingsFile := path } rest
              | none, path :: rest =>
                  read { options with settingsFile := path } rest
              | none, [] =>
                  .error (.missingValue .settingsFile)
          | some flag =>
              match value with
              | none =>
                  read (options.setTruth flag true) rest
              | some word =>
                  match truth? word with
                  | some value =>
                      read (options.setTruth flag value) rest
                  | none =>
                      .error (.badTruth flag word)

end Options

end Script
