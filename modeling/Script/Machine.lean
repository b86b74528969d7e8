import Script.Fault
import Script.Frame
import Script.Scope.Hole

namespace Script

/-!
# Machines

The state of a running program: its frames, the fields of its objects, where it
is and what it has printed.  Frame zero holds the global names and stays for the
life of the machine.

Running a piece of program has an outcome.  It gives a value, or stops with a
fault; or it meets a hole in the tree, or a distance that leads past the
outermost frame, which no program that was parsed and resolved does.  An outcome
is `exhausted` when the bound on the length of a chain of calls was too small
for the piece to come to its end.
-/

/-- The state of a running program. -/
structure Machine where
  frames : Frames
  /-- The fields of objects, by the number of the object. -/
  fields : Array Bindings
  /-- The number for the next function or class. -/
  identities : Nat
  /-- The frame in which names are defined now. -/
  current : Nat
  /-- The number of calls that are under way. -/
  depth : Nat
  /-- The most calls that may be under way at once, if there is a bound. -/
  callLimit : Option Nat
  /-- What has been written, the latest text first. -/
  printed : List Text
  /-- The seconds since the start, as the host tells them each time it is asked. -/
  clock : Nat → Float
  /-- How often the host has told the time. -/
  readings : Nat

/-- Why a tree cannot be run any further. -/
inductive Breakage where
  | hole (hole : Hole)
  | beyondOutermost
  deriving Repr, DecidableEq

/-- The outcome of running a piece of program. -/
inductive Outcome (α : Type) where
  | done (value : α) (machine : Machine)
  | stopped (fault : Fault) (machine : Machine)
  | broken (breakage : Breakage) (machine : Machine)
  | exhausted

namespace Outcome

/-- Go on with the value of an outcome, if it has one. -/
@[inline]
def bind
    (outcome : Outcome α)
    (next : α → Machine → Outcome β) :
    Outcome β :=
  match outcome with
  | .done value machine =>
      next value machine
  | .stopped fault machine =>
      .stopped fault machine
  | .broken breakage machine =>
      .broken breakage machine
  | .exhausted =>
      .exhausted

/-- Change the machine of an outcome, however it ended. -/
@[inline]
def mapMachine
    (change : Machine → Machine)
    (outcome : Outcome α) :
    Outcome α :=
  match outcome with
  | .done value machine =>
      .done value (change machine)
  | .stopped fault machine =>
      .stopped fault (change machine)
  | .broken breakage machine =>
      .broken breakage (change machine)
  | .exhausted =>
      .exhausted

end Outcome

namespace Machine

/-- The frame of the global names. -/
def globals : Nat :=
  0

/-- The most calls that may be under way at once. -/
def standardCallLimit : Nat :=
  3000

/-- A machine with no names at all. -/
def bare : Machine where
  frames := Frames.empty.push none []
  fields := #[]
  identities := 0
  current := globals
  depth := 0
  callLimit := some standardCallLimit
  printed := []
  clock := fun _ => 0
  readings := 0

/-- Bind a global name. -/
def defineGlobal
    (machine : Machine)
    (name : Text)
    (value : Value) :
    Machine :=
  { machine with frames := machine.frames.define globals name value }

/-- A machine whose global names are the host functions. -/
def standard : Machine :=
  (bare.defineGlobal (Text.utf8 "clock") (.native .clock)).defineGlobal
    (Text.utf8 "str") (.native .str)

/-- Everything written, from the first text to the last. -/
def output (machine : Machine) : Text :=
  machine.printed.reverse.flatten

/-- Write a text as it is. -/
def write
    (machine : Machine)
    (text : Text) :
    Machine :=
  { machine with printed := text :: machine.printed }

/-- Print a line. -/
def print
    (machine : Machine)
    (line : Text) :
    Machine :=
  machine.write (line ++ [Text.newline])

/-- Forget what was written. -/
def clearOutput (machine : Machine) : Machine :=
  { machine with printed := [] }

/-- Count one more time that the host has told the time. -/
def tick (machine : Machine) : Machine :=
  { machine with readings := machine.readings + 1 }

/-- Bind a name in the current frame. -/
def define
    (machine : Machine)
    (name : Text)
    (value : Value) :
    Machine :=
  { machine with frames := machine.frames.define machine.current name value }

/-- The value of a global name. -/
def readGlobal
    (machine : Machine)
    (name : Token) :
    Outcome Value :=
  match machine.frames.get? globals name.lexeme with
  | some value =>
      .done value machine
  | none =>
      .stopped { token := name, cause := .undefinedVariable } machine

/-- Change the value of a global name. -/
def writeGlobal
    (machine : Machine)
    (name : Token)
    (value : Value) :
    Outcome Value :=
  match machine.frames.holder? globals name.lexeme with
  | some holder =>
      .done value
        { machine with
          frames := machine.frames.define holder name.lexeme value }
  | none =>
      .stopped { token := name, cause := .undefinedVariable } machine

/-- The value of a name at a distance, or of a global name. -/
def read
    (machine : Machine)
    (name : Token)
    (distance : Option Nat) :
    Outcome Value :=
  match distance with
  | none =>
      machine.readGlobal name
  | some distance =>
      match machine.frames.getAt? machine.current distance name.lexeme with
      | some value =>
          .done value machine
      | none =>
          .broken .beyondOutermost machine

/-- Change the value of a name at a distance, or of a global name. -/
def assign
    (machine : Machine)
    (name : Token)
    (distance : Option Nat)
    (value : Value) :
    Outcome Value :=
  match distance with
  | none =>
      machine.writeGlobal name value
  | some distance =>
      match machine.frames.ancestor? (some machine.current) distance with
      | some (some found) =>
          .done value
            { machine with
              frames := machine.frames.define found name.lexeme value }
      | _ =>
          .broken .beyondOutermost machine

/-- Run a piece of program in a new frame inside `parent`.  The frame before is
the current one again however the piece ends. -/
@[inline]
def inNewFrame
    (machine : Machine)
    (parent : Nat)
    (bindings : Bindings)
    (body : Machine → Outcome α) :
    Outcome α :=
  let before := machine.current
  let frame := machine.frames.size
  let inside :=
    { machine with
      frames := machine.frames.push (some parent) bindings
      current := frame }
  (body inside).mapMachine fun after => { after with current := before }

/-- Whether one more call would be too many. -/
def isFull (machine : Machine) : Bool :=
  match machine.callLimit with
  | none =>
      false
  | some limit =>
      limit ≤ machine.depth

/-- Run a call, which is under way until it ends. -/
@[inline]
def duringCall
    (machine : Machine)
    (call : Machine → Outcome α) :
    Outcome α :=
  (call { machine with depth := machine.depth + 1 }).mapMachine
    fun after => { after with depth := after.depth - 1 }

/-- Make a function in the current frame. -/
def makeClosure
    (machine : Machine)
    (function : FunctionDecl)
    (isInitializer : Bool) :
    Closure × Machine :=
  ({ identity := machine.identities
     function
     frame := machine.current
     isInitializer },
   { machine with identities := machine.identities + 1 })

/-- Make the methods of a class, each under its name. -/
def makeMethods
    (machine : Machine) :
    List FunctionDecl → List (Text × Closure) × Machine
  | [] =>
      ([], machine)
  | function :: rest =>
      let name := function.name.lexeme
      let (closure, machine) :=
        machine.makeClosure function (name == Text.utf8 "init")
      let (methods, machine) := machine.makeMethods rest
      ((name, closure) :: methods, machine)

/-- Declare a function in the current frame. -/
def declareFunction
    (machine : Machine)
    (function : FunctionDecl) :
    Machine :=
  let (closure, machine) := machine.makeClosure function false
  machine.define function.name.lexeme (.function closure)

/-- Declare a class in the current frame. -/
def declareClass
    (machine : Machine)
    (name : Token)
    (methods : List FunctionDecl) :
    Machine :=
  let (methods, machine) := machine.makeMethods methods
  let members :=
    { identity := machine.identities, name := name.lexeme, methods }
  let machine := { machine with identities := machine.identities + 1 }
  machine.define name.lexeme (.classValue members)

/-- Make an object without fields. -/
def makeObject
    (machine : Machine)
    (members : ClassValue) :
    Object × Machine :=
  ({ identity := machine.fields.size, members },
   { machine with fields := machine.fields.push [] })

/-- Bind a method to its receiver: a new function in a frame of its own, which
has nothing but the receiver. -/
def bindMethod
    (machine : Machine)
    (method : Closure)
    (receiver : Object) :
    Closure × Machine :=
  ({ method with
     identity := machine.identities
     frame := machine.frames.size },
   { machine with
     frames :=
       machine.frames.push (some method.frame)
         [(Text.utf8 "this", .object receiver)]
     identities := machine.identities + 1 })

/-- The receiver that a method was bound to. -/
def receiverOf
    (machine : Machine)
    (method : Closure) :
    Value :=
  (machine.frames.local? method.frame (Text.utf8 "this")).getD .nil

/-- A property of an object: a field or else a method bound to the object. -/
def getProperty
    (machine : Machine)
    (object : Object)
    (name : Token) :
    Outcome Value :=
  match machine.fields[object.identity]?.bind (·.lookup name.lexeme) with
  | some value =>
      .done value machine
  | none =>
      match object.members.method? name.lexeme with
      | some method =>
          let (bound, machine) := machine.bindMethod method object
          .done (.function bound) machine
      | none =>
          .stopped { token := name, cause := .undefinedProperty } machine

/-- Give a field of an object a value. -/
def setField
    (machine : Machine)
    (object : Object)
    (name : Text)
    (value : Value) :
    Machine :=
  { machine with
    fields := machine.fields.modify object.identity (·.set name value) }

end Machine

end Script
