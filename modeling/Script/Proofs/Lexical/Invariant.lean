import Script.Proofs.Lexical.Heap
import Script.Proofs.Lexical.Nesting
import Script.Proofs.Lexical.Watch

namespace Script.Lexical

/-!
# The invariant of a watched run

`Matches` relates a chain of frames to the scopes around a position: each frame
was made for the scope at its place in the chain and binds the names that the
scope declares.  `Sound` says this of every function in the heap, for the
position at which it was declared, and it says that every use noted so far was
right.
-/

/-- The chain that begins at a frame consists of the frames made for the given
scopes, and of the global frame behind them. -/
def Matches
    (log : Log)
    (frames : Frames) :
    Nat → List Level → Prop
  | frame, [] =>
      frame = Machine.globals
  | frame, level :: outer =>
      frame ≠ Machine.globals ∧
        log.labelOf frame = some level.label ∧
        (∀ name ∈ level.names, (frames.local? frame name).isSome) ∧
        ∃ parent,
          frames.parent? frame = some parent ∧ Matches log frames parent outer

/-- The machine stands at a position: its current chain is that of the scopes
around the position, whose tree has begun to run. -/
structure Stands
    (log : Log)
    (machine : Machine)
    (position : Position) :
    Prop where
  began : .began position.origin ∈ log
  chain : Matches log machine.frames machine.current position.levels

/-- A function was declared at the position that the log has for it, in the chain
of the scopes around that position. -/
def Homed
    (log : Log)
    (machine : Machine)
    (closure : Closure) :
    Prop :=
  ∃ position,
    log.homeOf closure.identity = some position ∧
      .began position.origin ∈ log ∧
      Occurs position (.function closure.function) ∧
      Matches log machine.frames closure.frame position.levels

/-- A method that is not bound yet lacks only the frame of its receiver.  It is an
initializer if its name says so. -/
def MethodHomed
    (log : Log)
    (machine : Machine)
    (method : Closure) :
    Prop :=
  method.isInitializer = (method.name == Text.utf8 "init") ∧
    ∃ position level outer,
      log.homeOf method.identity = some position ∧
        .began position.origin ∈ log ∧
        Occurs position (.function method.function) ∧
        position.levels = level :: outer ∧
        level.names = [Position.receiverName] ∧
        level.label.form = .receiver ∧
        Matches log machine.frames method.frame outer

/-- The methods of a class are at home. -/
def MembersHomed
    (log : Log)
    (machine : Machine)
    (members : ClassValue) :
    Prop :=
  ∀ entry ∈ members.methods, MethodHomed log machine entry.2

/-- The functions in a value are at home, and an object has its fields. -/
def Good
    (log : Log)
    (machine : Machine) :
    Value → Prop
  | .function closure =>
      Homed log machine closure
  | .classValue members =>
      MembersHomed log machine members
  | .object object =>
      object.identity < machine.fields.size ∧
        MembersHomed log machine object.members
  | _ =>
      True

/-- The expression of a use stands at its position. -/
def Use.Stands (use : Use) : Prop :=
  match use.form with
  | .read =>
      Occurs use.position (.expr (.reference use.name use.distance))
  | .receiver =>
      Occurs use.position (.expr (.receiver use.name use.distance))
  | .assignment =>
      ∃ value,
        Occurs use.position (.expr (.assign use.name value use.distance))

/-- A use is an access to its name in a frame.  Reading gives the value that the name
has there and changes nothing; an assignment gives the name its value there, whether
it had one before or not, and changes nothing else. -/
structure Use.Accesses
    (use : Use)
    (frame : Nat) :
    Prop where
  reads :
    ∀ value,
      use.machine.frames.local? frame use.name.lexeme = some value →
      use.machine.read use.name use.distance = .done value use.machine
  assigns :
    ∀ value, ∃ frames,
      use.machine.assign use.name use.distance value =
          .done value { use.machine with frames } ∧
        use.machine.frames.Binds frames frame use.name.lexeme value

/-- A use fails: reading and assigning stop with the fault that the name is undefined,
and change nothing. -/
structure Use.Fails (use : Use) : Prop where
  reads :
    use.machine.read use.name use.distance =
      .stopped { token := use.name, cause := .undefinedVariable } use.machine
  assigns :
    ∀ value,
      use.machine.assign use.name use.distance value =
        .stopped { token := use.name, cause := .undefinedVariable } use.machine

/-- What a distance promises.  It leads to the frame that was made for the scope
with the nearest declaration before the use; the chain is longer than that, the
frame is not the global one, and a name that is read is bound there.  The name is
accessed in that frame. -/
structure Use.FindsScope
    (earlier : Log)
    (use : Use)
    (distance : Nat)
    (level : Level)
    (frame : Nat) :
    Prop where
  scope : use.position.levels[distance]? = some level
  declared : level.declares use.name.lexeme = true
  nearest :
    ∀ index nearer,
      index < distance →
      use.position.levels[index]? = some nearer →
      nearer.declares use.name.lexeme = false
  longer :
    distance < (use.machine.frames.chain use.machine.current).length
  found :
    use.machine.frames.ancestor? (some use.machine.current) distance =
      some (some frame)
  notGlobal : frame ≠ Machine.globals
  made : Log.labelOf earlier frame = some level.label
  bound :
    use.form ≠ .assignment →
    (use.machine.frames.local? frame use.name.lexeme).isSome
  accesses : use.Accesses frame

/-- What a missing distance promises: no scope around the use declares the name
before it, and the name is accessed in the global frame.  If it is not bound there
the access fails. -/
structure Use.FindsGlobal (use : Use) : Prop where
  undeclared :
    ∀ level ∈ use.position.levels,
      level.declares use.name.lexeme = false
  global :
    (use.machine.frames.local? Machine.globals use.name.lexeme).isSome →
    use.Accesses Machine.globals
  undefined :
    use.machine.frames.local? Machine.globals use.name.lexeme = none →
    use.Fails

/-- Scope analysis and evaluation agree about a use. -/
def Use.Agrees
    (earlier : Log)
    (use : Use) :
    Prop :=
  match use.distance with
  | some distance =>
      ∃ level frame, use.FindsScope earlier distance level frame
  | none =>
      use.FindsGlobal

/-- What holds of every use: in a tree with distances analysis and evaluation
agree, and in any other tree there is no distance. -/
structure Use.Right
    (earlier : Log)
    (use : Use) :
    Prop where
  began : .began use.position.origin ∈ earlier
  stands : use.Stands
  agrees : use.position.origin.resolved = true → use.Agrees earlier
  plain : use.position.origin.resolved = false → use.distance = none
  receiver :
    use.position.origin.resolved = true →
    use.name.lexeme = Position.receiverName →
    use.distance ≠ none

/-- What holds of every event: uses are right, and a function is entered with as
many arguments as it has parameters. -/
def Event.Right
    (earlier : Log) :
    Event → Prop
  | .used use =>
      use.Right earlier
  | .entered closure given =>
      closure.arity = given
  | .asked native given =>
      native.arity = given
  | _ =>
      True

/-- Every event of a log is right. -/
def Log.Right : Log → Prop
  | [] =>
      True
  | event :: earlier =>
      event.Right earlier ∧ Log.Right earlier

/-- What a piece of code is like by itself, at its position: it has no hole and
only known operators, and its distances are those of the nearest
declarations. -/
def Fits
    (position : Position) :
    Code → Prop
  | .expr (.unary operator _) =>
      operator.kind ∈ TokenKind.unaryOperators
  | .expr (.binary _ operator _) =>
      operator.kind ∈ TokenKind.binaryOperators
  | .expr (.reference name distance) =>
      name.lexeme ≠ Position.receiverName ∧
        (position.origin.resolved = true →
          distance = position.nearest? name.lexeme ∧
            ∀ level ∈ position.levels, level.pending ≠ some name.lexeme) ∧
        (position.origin.resolved = false → distance = none)
  | .expr (.assign name _ distance) =>
      name.lexeme ≠ Position.receiverName ∧
        (position.origin.resolved = true →
          distance = position.nearest? name.lexeme) ∧
        (position.origin.resolved = false → distance = none)
  | .expr (.receiver keyword distance) =>
      (position.origin.resolved = true →
        distance ≠ none ∧
          distance = position.nearest? keyword.lexeme ∧
          (∀ level ∈ position.levels,
            level.pending ≠ some keyword.lexeme) ∧
          keyword.lexeme = Position.receiverName ∧
          distance = position.receiverDistance?) ∧
        (position.origin.resolved = false → distance = none)
  | .expr .missing =>
      False
  | .stmt .missing =>
      False
  | _ =>
      True

/-- All code in a tree is as it should be. -/
def Origin.Fits (origin : Origin) : Prop :=
  ∀ position code,
    position.origin = origin → Occurs position code → Lexical.Fits position code

/-- The invariant of a watched run. -/
structure Sound
    (log : Log)
    (machine : Machine) :
    Prop where
  ordered : machine.frames.Ordered
  frames : machine.frames.Holds (Good log machine)
  fields :
    ∀ (index : Nat) (bindings : Bindings),
      machine.fields[index]? = some bindings →
      ∀ name value,
        bindings.lookup name = some value → Good log machine value
  labelled : ∀ frame, machine.frames.size ≤ frame → log.labelOf frame = none
  numbered :
    ∀ identity, machine.identities ≤ identity → log.homeOf identity = none
  origins : ∀ origin, .began origin ∈ log → origin.Fits
  right : log.Right

/-- A frame was made for a receiver. -/
def Log.HoldsReceiver
    (log : Log)
    (frame : Nat) :
    Prop :=
  frame ≠ Machine.globals ∧
    ∃ label, log.labelOf frame = some label ∧ label.form = .receiver

/-- A later moment of the same run. -/
structure Extends
    (before : Machine)
    (log : Log)
    (after : Machine)
    (longer : Log) :
    Prop where
  frames : before.frames.Grows after.frames
  fields : before.fields.size ≤ after.fields.size
  labels :
    ∀ frame label, log.labelOf frame = some label →
      longer.labelOf frame = some label
  homes :
    ∀ identity position, log.homeOf identity = some position →
      longer.homeOf identity = some position
  origins : ∀ origin, .began origin ∈ log → .began origin ∈ longer
  receivers :
    ∀ frame name,
      log.HoldsReceiver frame →
      after.frames.local? frame name = before.frames.local? frame name

theorem Log.not_holdsReceiver_globals (log : Log) :
    ¬ log.HoldsReceiver Machine.globals :=
  fun holds => holds.1 rfl

namespace Extends

/-- A frame for a receiver stays one. -/
theorem holdsReceiver
    {before after : Machine}
    {log longer : Log}
    (extended : Extends before log after longer)
    {frame : Nat}
    (holds : log.HoldsReceiver frame) :
    longer.HoldsReceiver frame := by
  obtain ⟨notGlobal, label, made, isReceiver⟩ := holds
  exact ⟨notGlobal, label, extended.labels frame label made, isReceiver⟩

theorem refl
    (machine : Machine)
    (log : Log) :
    Extends machine log machine log where
  frames := .refl machine.frames
  fields := le_rfl
  labels _ _ found := found
  homes _ _ found := found
  origins _ member := member
  receivers _ _ _ := rfl

theorem trans
    {first second third : Machine}
    {log longer longest : Log}
    (earlier : Extends first log second longer)
    (later : Extends second longer third longest) :
    Extends first log third longest where
  frames := earlier.frames.trans later.frames
  fields := earlier.fields.trans later.fields
  labels frame label found :=
    later.labels frame label (earlier.labels frame label found)
  homes identity position found :=
    later.homes identity position (earlier.homes identity position found)
  origins origin member := later.origins origin (earlier.origins origin member)
  receivers frame name holds :=
    (later.receivers frame name (earlier.holdsReceiver holds)).trans
      (earlier.receivers frame name holds)

/-- A change to neither frames nor fields leads on. -/
theorem same
    {machine after : Machine}
    (log : Log)
    (frames : after.frames = machine.frames)
    (fields : after.fields = machine.fields) :
    Extends machine log after log where
  frames := by
    rw [frames]
    exact .refl machine.frames
  fields := by
    rw [fields]
  labels _ _ found := found
  homes _ _ found := found
  origins _ member := member
  receivers _ _ _ := by
    rw [frames]

/-- Binding a name leads on, in any frame but one for a receiver. -/
theorem define
    (machine : Machine)
    {log : Log}
    {frame : Nat}
    (free : ¬ log.HoldsReceiver frame)
    (name : Text)
    (value : Value) :
    Extends machine log
      { machine with frames := machine.frames.define frame name value } log where
  frames := .define machine.frames frame name value
  fields := le_rfl
  labels _ _ found := found
  homes _ _ found := found
  origins _ member := member
  receivers other otherName holds := by
    rw [Frames.local?_define, if_neg]
    rintro ⟨rfl, -⟩
    exact free holds

end Extends

section Monotone

variable {before after : Machine} {log longer : Log}

theorem Matches.extend
    (extended : Extends before log after longer)
    {frame : Nat}
    {levels : List Level}
    (chain : Matches log before.frames frame levels) :
    Matches longer after.frames frame levels := by
  induction levels generalizing frame with
  | nil =>
      exact chain
  | cons level outer inductionHypothesis =>
      obtain ⟨notGlobal, made, bound, parent, around, outside⟩ := chain
      have inside := Frames.lt_size_of_parent? around
      refine ⟨notGlobal, extended.labels _ _ made, ?_, parent, ?_,
        inductionHypothesis outside⟩
      · intro name member
        exact extended.frames.bound frame name (bound name member)
      · rw [extended.frames.parent frame inside, around]

theorem Stands.extend
    (extended : Extends before log after longer)
    (current : after.current = before.current)
    {position : Position}
    (stands : Stands log before position) :
    Stands longer after position where
  began := extended.origins _ stands.began
  chain := current ▸ stands.chain.extend extended

theorem Homed.extend
    (extended : Extends before log after longer)
    {closure : Closure}
    (homed : Homed log before closure) :
    Homed longer after closure := by
  obtain ⟨position, home, began, occurs, chain⟩ := homed
  exact ⟨position, extended.homes _ _ home, extended.origins _ began, occurs,
    chain.extend extended⟩

theorem MethodHomed.extend
    (extended : Extends before log after longer)
    {method : Closure}
    (homed : MethodHomed log before method) :
    MethodHomed longer after method := by
  obtain ⟨marked, position, level, outer, home, began, occurs, levels, names,
    isReceiver, chain⟩ := homed
  exact ⟨marked, position, level, outer, extended.homes _ _ home,
    extended.origins _ began, occurs, levels, names, isReceiver,
    chain.extend extended⟩

theorem MembersHomed.extend
    (extended : Extends before log after longer)
    {members : ClassValue}
    (homed : MembersHomed log before members) :
    MembersHomed longer after members :=
  fun entry member => (homed entry member).extend extended

theorem Good.extend
    (extended : Extends before log after longer)
    {value : Value}
    (good : Good log before value) :
    Good longer after value := by
  cases value with
  | function closure =>
      exact Homed.extend extended good
  | classValue members =>
      exact MembersHomed.extend extended good
  | object object =>
      exact ⟨good.1.trans_le extended.fields, good.2.extend extended⟩
  | nil | bool | number | text | native =>
      trivial

end Monotone

/-- Whether a value is good does not depend on the current frame or the calls
under way. -/
theorem Good.same
    {machine after : Machine}
    {log : Log}
    {value : Value}
    (good : Good log machine value)
    (frames : after.frames = machine.frames)
    (fields : after.fields = machine.fields) :
    Good log after value :=
  good.extend (.same log frames fields)

/-- A literal is good. -/
theorem good_ofLiteral
    (log : Log)
    (machine : Machine)
    (value : Literal) :
    Good log machine (.ofLiteral value) := by
  cases value <;> trivial

namespace Matches

variable {log : Log} {frames : Frames}

/-- A frame with a chain was made. -/
theorem lt_size
    (ordered : frames.Ordered)
    {frame : Nat}
    {levels : List Level}
    (chain : Matches log frames frame levels) :
    frame < frames.size := by
  cases levels with
  | nil =>
      rw [show frame = Machine.globals from chain]
      exact ordered.positive
  | cons level outer =>
      obtain ⟨-, -, -, parent, around, -⟩ := chain
      exact Frames.lt_size_of_parent? around

/-- A walk outwards comes to the frame of the scope that is as far away. -/
theorem walk
    {frame distance : Nat}
    {levels : List Level}
    {level : Level}
    (chain : Matches log frames frame levels)
    (scope : levels[distance]? = some level) :
    ∃ found,
      frames.ancestor? (some frame) distance = some (some found) ∧
        found ≠ Machine.globals ∧
        log.labelOf found = some level.label ∧
        ∀ name ∈ level.names, (frames.local? found name).isSome := by
  induction distance generalizing frame levels with
  | zero =>
      cases levels with
      | nil =>
          cases scope
      | cons first outer =>
          obtain rfl : first = level := by
            simpa using scope
          obtain ⟨notGlobal, made, bound, -⟩ := chain
          exact ⟨frame, rfl, notGlobal, made, bound⟩
  | succ distance inductionHypothesis =>
      cases levels with
      | nil =>
          cases scope
      | cons first outer =>
          obtain ⟨-, -, -, parent, around, outside⟩ := chain
          obtain ⟨found, walked, rest⟩ :=
            inductionHypothesis outside (by simpa using scope)
          refine ⟨found, ?_, rest⟩
          rw [Frames.ancestor?]
          simpa only [around] using walked

/-- A frame is made for a receiver only where the innermost scope is one. -/
theorem not_holdsReceiver
    {frame : Nat}
    {levels : List Level}
    (chain : Matches log frames frame levels)
    (inBody : ∀ level ∈ levels.head?, level.label.form ≠ .receiver) :
    ¬ log.HoldsReceiver frame := by
  rintro ⟨notGlobal, label, made, isReceiver⟩
  cases levels with
  | nil =>
      exact notGlobal chain
  | cons level outer =>
      obtain ⟨-, madeFor, -⟩ := chain
      rw [made, Option.some.injEq] at madeFor
      exact inBody level rfl (madeFor ▸ isReceiver)

end Matches

/-- Names are not defined in the frame of a receiver. -/
theorem Stands.not_holdsReceiver
    {log : Log}
    {machine : Machine}
    {position : Position}
    (stands : Stands log machine position)
    (inBody : position.IsInBody) :
    ¬ log.HoldsReceiver machine.current :=
  stands.chain.not_holdsReceiver inBody

/-- A value has all its parts: a function has its frame, and an object has its
fields. -/
def WholeIn
    (machine : Machine) :
    Value → Prop
  | .function closure =>
      closure.frame < machine.frames.size
  | .classValue members =>
      ∀ entry ∈ members.methods, entry.2.frame < machine.frames.size
  | .object object =>
      object.identity < machine.fields.size ∧
        ∀ entry ∈ object.members.methods,
          entry.2.frame < machine.frames.size
  | _ =>
      True

/-- Every value that a machine keeps, in frames or in fields, has all its
parts. -/
structure WholeMachine (machine : Machine) : Prop where
  frames : machine.frames.Holds (WholeIn machine)
  fields :
    ∀ (index : Nat) (bindings : Bindings),
      machine.fields[index]? = some bindings →
      ∀ name value,
        bindings.lookup name = some value → WholeIn machine value

theorem MembersHomed.whole
    {log : Log}
    {machine : Machine}
    {members : ClassValue}
    (ordered : machine.frames.Ordered)
    (homed : MembersHomed log machine members)
    (entry : Text × Closure)
    (member : entry ∈ members.methods) :
    entry.2.frame < machine.frames.size := by
  obtain ⟨-, position, level, outer, -, -, -, -, -, -, chain⟩ :=
    homed entry member
  exact chain.lt_size ordered

/-- A good value has all its parts. -/
theorem Good.whole
    {log : Log}
    {machine : Machine}
    {value : Value}
    (ordered : machine.frames.Ordered)
    (good : Good log machine value) :
    WholeIn machine value := by
  cases value with
  | function closure =>
      obtain ⟨position, -, -, -, chain⟩ := good
      exact chain.lt_size ordered
  | classValue members =>
      exact MembersHomed.whole ordered good
  | object object =>
      exact ⟨good.1, good.2.whole ordered⟩
  | nil | bool | number | text | native =>
      trivial

/-- A sound machine keeps only whole values. -/
theorem Sound.whole
    {log : Log}
    {machine : Machine}
    (sound : Sound log machine) :
    WholeMachine machine where
  frames frame name value found :=
    (sound.frames frame name value found).whole sound.ordered
  fields index bindings stored name value found :=
    (sound.fields index bindings stored name value found).whole sound.ordered

end Script.Lexical
