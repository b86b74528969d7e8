import Script.Machine.Evaluate

namespace Script.Calls

/-!
# Traced evaluation

Evaluation that lists when calls begin and end.  A call begins when its callee and
its arguments have been evaluated and the callee turned out to be callable with as
many arguments; it ends when it comes back, whatever with.  Nothing else is a call:
a class and its initializer are called together, and host functions are called like
all others.  The events of a piece that has no end within its bound are kept, so
calls may be open at the end of the list.
-/

/-- A call that begins, with the machine at that moment. -/
structure Call where
  closing : Token
  callee : Value
  arguments : List Value
  machine : Machine
  callable : Callable
  allowed : machine.callee callee arguments.length = .ok callable

/-- What is listed. -/
inductive Event where
  | began (call : Call)
  | ended

namespace Event

/-- How many calls more are under way behind an event. -/
def change : Event → Int
  | .began _ =>
      1
  | .ended =>
      -1

end Event

/-- The number of calls that began and did not end. -/
def underWay : List Event → Int
  | [] =>
      0
  | event :: rest =>
      event.change + underWay rest

/-- An outcome with the events up to it, the earliest first. -/
structure Traced (α : Type) where
  outcome : Outcome α
  events : List Event

namespace Traced

/-- An outcome without events. -/
def quiet (outcome : Outcome α) : Traced α where
  outcome := outcome
  events := []

/-- Go on with the value of an outcome, if it has one. -/
def bind
    (traced : Traced α)
    (next : α → Machine → Traced β) :
    Traced β :=
  match traced with
  | { outcome := .done value machine, events } =>
      { outcome := (next value machine).outcome
        events := events ++ (next value machine).events }
  | { outcome := .stopped fault machine, events } =>
      { outcome := .stopped fault machine, events }
  | { outcome := .broken breakage machine, events } =>
      { outcome := .broken breakage machine, events }
  | { outcome := .exhausted, events } =>
      { outcome := .exhausted, events }

/-- A call ends when it comes back. -/
def ending : Outcome α → List Event
  | .exhausted =>
      []
  | _ =>
      [.ended]

end Traced

/-- A piece of program in a new frame. -/
def traceNewFrame
    (machine : Machine)
    (parent : Nat)
    (bindings : Bindings)
    (body : Machine → Traced α) :
    Traced α :=
  let inside :=
    body
      { machine with
        frames := machine.frames.push (some parent) bindings
        current := machine.frames.size }
  { inside with
    outcome :=
      inside.outcome.mapMachine fun after =>
        { after with current := machine.current } }

/-- A call, which is under way until it ends. -/
def traceDuringCall
    (call : Call)
    (body : Machine → Traced α) :
    Traced α :=
  let inside := body { call.machine with depth := call.machine.depth + 1 }
  { outcome :=
      inside.outcome.mapMachine fun after =>
        { after with depth := after.depth - 1 }
    events :=
      .began call :: (inside.events ++ Traced.ending inside.outcome) }

/-- What comes of a callee and its arguments: a fault, or a call. -/
def traceCallee
    (closing : Token)
    (callee : Value)
    (arguments : List Value)
    (machine : Machine)
    (body : Callable → Machine → Traced Value) :
    Traced Value :=
  match allowed : machine.callee callee arguments.length with
  | .error cause =>
      .quiet (.stopped { token := closing, cause } machine)
  | .ok callable =>
      traceDuringCall
        { closing, callee, arguments, machine, callable, allowed }
        (body callable)

section Callee

variable
  {closing : Token}
  {callee : Value}
  {arguments : List Value}
  {machine : Machine}
  (body : Callable → Machine → Traced Value)

theorem traceCallee_error
    {cause : FaultCause}
    (refused : machine.callee callee arguments.length = .error cause) :
    traceCallee closing callee arguments machine body =
      .quiet (.stopped { token := closing, cause } machine) := by
  unfold traceCallee
  split <;> simp_all

theorem traceCallee_ok
    {callable : Callable}
    (allowed : machine.callee callee arguments.length = .ok callable) :
    traceCallee closing callee arguments machine body =
      traceDuringCall
        { closing, callee, arguments, machine, callable, allowed }
        (body callable) := by
  unfold traceCallee
  split
  · rename_i refused
    rw [allowed] at refused
    cases refused
  · rename_i again
    cases allowed.symm.trans again
    rfl

end Callee

mutual

/-- Evaluate an expression. -/
def traceExpr
    (fuel : Nat)
    (expr : Expr)
    (machine : Machine) :
    Traced Value :=
  match fuel with
  | 0 =>
      .quiet .exhausted
  | fuel + 1 =>
      match expr with
      | .literal value =>
          .quiet (.done (.ofLiteral value) machine)
      | .group inner =>
          traceExpr fuel inner machine
      | .unary operator operand =>
          (traceExpr fuel operand machine).bind fun operand machine =>
            .quiet (machine.settle operator (operand.unary operator.kind))
      | .binary left operator right =>
          (traceExpr fuel left machine).bind fun left machine =>
            (traceExpr fuel right machine).bind fun right machine =>
              .quiet
                (machine.settle operator (left.binary operator.kind right))
      | .logical left operator right =>
          (traceExpr fuel left machine).bind fun left machine =>
            if left.decides operator.kind then
              .quiet (.done left machine)
            else
              traceExpr fuel right machine
      | .reference name distance =>
          .quiet (machine.read name distance)
      | .assign name value distance =>
          (traceExpr fuel value machine).bind fun value machine =>
            .quiet (machine.assign name distance value)
      | .call callee closing arguments =>
          (traceExpr fuel callee machine).bind fun value machine =>
            (traceExprs fuel arguments machine).bind fun arguments machine =>
              traceCallee closing value arguments machine
                fun callable machine =>
                  traceCall fuel callable arguments machine
      | .property object name =>
          (traceExpr fuel object machine).bind fun value machine =>
            match value with
            | .object object =>
                .quiet (machine.getProperty object name)
            | _ =>
                .quiet
                  (.stopped
                    { token := name, cause := .propertyOfNonInstance }
                    machine)
      | .setProperty object name value =>
          (traceExpr fuel object machine).bind fun target machine =>
            match target with
            | .object object =>
                (traceExpr fuel value machine).bind fun value machine =>
                  .quiet
                    (.done value (machine.setField object name.lexeme value))
            | _ =>
                .quiet
                  (.stopped { token := name, cause := .fieldOfNonInstance }
                    machine)
      | .receiver keyword distance =>
          .quiet (machine.read keyword distance)
      | .missing =>
          .quiet (.broken (.hole .expression) machine)

/-- Evaluate expressions from left to right. -/
def traceExprs
    (fuel : Nat)
    (exprs : List Expr)
    (machine : Machine) :
    Traced (List Value) :=
  match fuel with
  | 0 =>
      .quiet .exhausted
  | fuel + 1 =>
      match exprs with
      | [] =>
          .quiet (.done [] machine)
      | first :: rest =>
          (traceExpr fuel first machine).bind fun value machine =>
            (traceExprs fuel rest machine).bind fun values machine =>
              .quiet (.done (value :: values) machine)

/-- Call a callable with as many arguments as it takes. -/
def traceCall
    (fuel : Nat)
    (callable : Callable)
    (arguments : List Value)
    (machine : Machine) :
    Traced Value :=
  match fuel with
  | 0 =>
      .quiet .exhausted
  | fuel + 1 =>
      match callable with
      | .native native =>
          .quiet (machine.callNative native arguments)
      | .function closure =>
          traceFunction fuel closure arguments machine
      | .classValue members =>
          let (object, machine) := machine.makeObject members
          match members.initializer? with
          | none =>
              .quiet (.done (.object object) machine)
          | some initializer =>
              let (bound, machine) := machine.bindMethod initializer object
              (traceFunction fuel bound arguments machine).bind
                fun _ machine => .quiet (.done (.object object) machine)

/-- Run the body of a function in a new frame that has its parameters. -/
def traceFunction
    (fuel : Nat)
    (closure : Closure)
    (arguments : List Value)
    (machine : Machine) :
    Traced Value :=
  match fuel with
  | 0 =>
      .quiet .exhausted
  | fuel + 1 =>
      let bindings := Machine.parameterBindings closure.function arguments
      (traceNewFrame machine closure.frame bindings fun machine =>
        traceStmts fuel closure.function.body machine).bind
          fun flow machine =>
            if closure.isInitializer then
              .quiet (.done (machine.receiverOf closure) machine)
            else
              .quiet (.done flow.result machine)

/-- Run a statement. -/
def traceStmt
    (fuel : Nat)
    (stmt : Stmt)
    (machine : Machine) :
    Traced Flow :=
  match fuel with
  | 0 =>
      .quiet .exhausted
  | fuel + 1 =>
      match stmt with
      | .expression value =>
          (traceExpr fuel value machine).bind fun _ machine =>
            .quiet (.done .normal machine)
      | .print value =>
          (traceExpr fuel value machine).bind fun value machine =>
            .quiet (.done .normal (machine.print value.display))
      | .variableDecl name none =>
          .quiet (.done .normal (machine.define name.lexeme .nil))
      | .variableDecl name (some initial) =>
          (traceExpr fuel initial machine).bind fun value machine =>
            .quiet (.done .normal (machine.define name.lexeme value))
      | .block body =>
          traceNewFrame machine machine.current [] fun machine =>
            traceStmts fuel body machine
      | .conditional condition consequent alternative =>
          (traceExpr fuel condition machine).bind fun condition machine =>
            if condition.isTruthy then
              traceStmt fuel consequent machine
            else
              match alternative with
              | some alternative =>
                  traceStmt fuel alternative machine
              | none =>
                  .quiet (.done .normal machine)
      | .loop condition body =>
          traceLoop fuel condition body machine
      | .functionDecl function =>
          .quiet (.done .normal (machine.declareFunction function))
      | .returning _ none =>
          .quiet (.done (.returning .nil) machine)
      | .returning _ (some value) =>
          (traceExpr fuel value machine).bind fun value machine =>
            .quiet (.done (.returning value) machine)
      | .classDecl name methods =>
          .quiet (.done .normal (machine.declareClass name methods))
      | .missing =>
          .quiet (.broken (.hole .statement) machine)

/-- Run statements in a row, up to one that returns. -/
def traceStmts
    (fuel : Nat)
    (stmts : List Stmt)
    (machine : Machine) :
    Traced Flow :=
  match fuel with
  | 0 =>
      .quiet .exhausted
  | fuel + 1 =>
      match stmts with
      | [] =>
          .quiet (.done .normal machine)
      | first :: rest =>
          (traceStmt fuel first machine).bind fun flow machine =>
            match flow with
            | .normal =>
                traceStmts fuel rest machine
            | .returning value =>
                .quiet (.done (.returning value) machine)

/-- Run a statement as long as a condition holds and it does not return. -/
def traceLoop
    (fuel : Nat)
    (condition : Expr)
    (body : Stmt)
    (machine : Machine) :
    Traced Flow :=
  match fuel with
  | 0 =>
      .quiet .exhausted
  | fuel + 1 =>
      (traceExpr fuel condition machine).bind fun value machine =>
        if value.isTruthy then
          (traceStmt fuel body machine).bind fun flow machine =>
            match flow with
            | .normal =>
                traceLoop fuel condition body machine
            | .returning value =>
                .quiet (.done (.returning value) machine)
        else
          .quiet (.done .normal machine)

end

/-- Run statements at the top level. -/
def traceProgram
    (fuel : Nat) :
    List Stmt → Machine → Traced Unit
  | [], machine =>
      .quiet (.done () machine)
  | first :: rest, machine =>
      (traceStmt fuel first machine).bind fun _ machine =>
        traceProgram fuel rest machine

end Script.Calls
