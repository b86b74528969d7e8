import Script.Machine
import Script.Machine.Operator

namespace Script

/-!
# Evaluation

Expressions evaluate to values and statements run for their effects.  A `return`
statement ends the statements around it up to the function call it belongs to.

The functions call each other along the tree and into the bodies of functions.
Their first argument bounds the length of a chain of calls, and a loop spends
one unit on each round; a piece that comes to its end within one bound has the
same outcome within every greater one.
-/

/-- How a statement ended. -/
inductive Flow where
  | normal
  | returning (value : Value)

namespace Flow

/-- The value that a function gives when its body ended this way. -/
def result : Flow → Value
  | .normal =>
      .nil
  | .returning value =>
      value

end Flow

namespace Machine

/-- A result of an operator, or a fault at the operator. -/
def settle
    (machine : Machine)
    (operator : Token)
    (result : Except FaultCause Value) :
    Outcome Value :=
  match result with
  | .ok value =>
      .done value machine
  | .error cause =>
      .stopped { token := operator, cause } machine

/-- The callable that a call calls: the callee must be callable, take the given
number of arguments, and be one more call that is allowed. -/
def callee
    (machine : Machine)
    (value : Value)
    (given : Nat) :
    Except FaultCause Callable :=
  match value.callable? with
  | none =>
      .error .notCallable
  | some callable =>
      if callable.arity ≠ given then
        .error (.wrongArity callable.arity given)
      else if machine.isFull then
        .error .tooManyCalls
      else
        .ok callable

/-- Call a host function. -/
def callNative
    (machine : Machine)
    (native : Native)
    (arguments : List Value) :
    Outcome Value :=
  match native with
  | .clock =>
      .done (.number (machine.clock machine.readings)) machine.tick
  | .str =>
      .done (.text (arguments.headD .nil).display) machine
  | .custom _ _ =>
      .done .nil machine

/-- The parameters of a function with its arguments; of two parameters with one
name the latter counts. -/
def parameterBindings
    (function : FunctionDecl)
    (arguments : List Value) :
    Bindings :=
  (function.parameters.zip arguments).foldl
    (fun bindings (parameter, argument) =>
      bindings.set parameter.lexeme argument)
    []

mutual

/-- Evaluate an expression. -/
def evaluate
    (fuel : Nat)
    (expr : Expr)
    (machine : Machine) :
    Outcome Value :=
  match fuel with
  | 0 =>
      .exhausted
  | fuel + 1 =>
      match expr with
      | .literal value =>
          .done (.ofLiteral value) machine
      | .group inner =>
          evaluate fuel inner machine
      | .unary operator operand =>
          (evaluate fuel operand machine).bind fun operand machine =>
            machine.settle operator (operand.unary operator.kind)
      | .binary left operator right =>
          (evaluate fuel left machine).bind fun left machine =>
            (evaluate fuel right machine).bind fun right machine =>
              machine.settle operator (left.binary operator.kind right)
      | .logical left operator right =>
          (evaluate fuel left machine).bind fun left machine =>
            if left.decides operator.kind then
              .done left machine
            else
              evaluate fuel right machine
      | .reference name distance =>
          machine.read name distance
      | .assign name value distance =>
          (evaluate fuel value machine).bind fun value machine =>
            machine.assign name distance value
      | .call callee closing arguments =>
          (evaluate fuel callee machine).bind fun value machine =>
            (evaluateAll fuel arguments machine).bind fun arguments machine =>
              match machine.callee value arguments.length with
              | .error cause =>
                  .stopped { token := closing, cause } machine
              | .ok callable =>
                  machine.duringCall fun machine =>
                    call fuel callable arguments machine
      | .property object name =>
          (evaluate fuel object machine).bind fun value machine =>
            match value with
            | .object object =>
                machine.getProperty object name
            | _ =>
                .stopped { token := name, cause := .propertyOfNonInstance }
                  machine
      | .setProperty object name value =>
          (evaluate fuel object machine).bind fun target machine =>
            match target with
            | .object object =>
                (evaluate fuel value machine).bind fun value machine =>
                  .done value (machine.setField object name.lexeme value)
            | _ =>
                .stopped { token := name, cause := .fieldOfNonInstance }
                  machine
      | .receiver keyword distance =>
          machine.read keyword distance
      | .missing =>
          .broken (.hole .expression) machine

/-- Evaluate expressions from left to right. -/
def evaluateAll
    (fuel : Nat)
    (exprs : List Expr)
    (machine : Machine) :
    Outcome (List Value) :=
  match fuel with
  | 0 =>
      .exhausted
  | fuel + 1 =>
      match exprs with
      | [] =>
          .done [] machine
      | first :: rest =>
          (evaluate fuel first machine).bind fun value machine =>
            (evaluateAll fuel rest machine).bind fun values machine =>
              .done (value :: values) machine

/-- Call a callable with as many arguments as it takes.  Calling a class makes
an object and initializes it. -/
def call
    (fuel : Nat)
    (callable : Callable)
    (arguments : List Value)
    (machine : Machine) :
    Outcome Value :=
  match fuel with
  | 0 =>
      .exhausted
  | fuel + 1 =>
      match callable with
      | .native native =>
          machine.callNative native arguments
      | .function closure =>
          callFunction fuel closure arguments machine
      | .classValue members =>
          let (object, machine) := machine.makeObject members
          match members.initializer? with
          | none =>
              .done (.object object) machine
          | some initializer =>
              let (bound, machine) := machine.bindMethod initializer object
              (callFunction fuel bound arguments machine).bind fun _ machine =>
                .done (.object object) machine

/-- Run the body of a function in a new frame that has its parameters.  An
initializer gives its receiver, whatever its body returns. -/
def callFunction
    (fuel : Nat)
    (closure : Closure)
    (arguments : List Value)
    (machine : Machine) :
    Outcome Value :=
  match fuel with
  | 0 =>
      .exhausted
  | fuel + 1 =>
      let bindings := parameterBindings closure.function arguments
      (machine.inNewFrame closure.frame bindings fun machine =>
        executeAll fuel closure.function.body machine).bind
          fun flow machine =>
            if closure.isInitializer then
              .done (machine.receiverOf closure) machine
            else
              .done flow.result machine

/-- Run a statement. -/
def execute
    (fuel : Nat)
    (stmt : Stmt)
    (machine : Machine) :
    Outcome Flow :=
  match fuel with
  | 0 =>
      .exhausted
  | fuel + 1 =>
      match stmt with
      | .expression value =>
          (evaluate fuel value machine).bind fun _ machine =>
            .done .normal machine
      | .print value =>
          (evaluate fuel value machine).bind fun value machine =>
            .done .normal (machine.print value.display)
      | .variableDecl name none =>
          .done .normal (machine.define name.lexeme .nil)
      | .variableDecl name (some initial) =>
          (evaluate fuel initial machine).bind fun value machine =>
            .done .normal (machine.define name.lexeme value)
      | .block body =>
          machine.inNewFrame machine.current [] fun machine =>
            executeAll fuel body machine
      | .conditional condition consequent alternative =>
          (evaluate fuel condition machine).bind fun condition machine =>
            if condition.isTruthy then
              execute fuel consequent machine
            else
              match alternative with
              | some alternative =>
                  execute fuel alternative machine
              | none =>
                  .done .normal machine
      | .loop condition body =>
          repeatWhile fuel condition body machine
      | .functionDecl function =>
          .done .normal (machine.declareFunction function)
      | .returning _ none =>
          .done (.returning .nil) machine
      | .returning _ (some value) =>
          (evaluate fuel value machine).bind fun value machine =>
            .done (.returning value) machine
      | .classDecl name methods =>
          .done .normal (machine.declareClass name methods)
      | .missing =>
          .broken (.hole .statement) machine

/-- Run statements in a row, up to one that returns. -/
def executeAll
    (fuel : Nat)
    (stmts : List Stmt)
    (machine : Machine) :
    Outcome Flow :=
  match fuel with
  | 0 =>
      .exhausted
  | fuel + 1 =>
      match stmts with
      | [] =>
          .done .normal machine
      | first :: rest =>
          (execute fuel first machine).bind fun flow machine =>
            match flow with
            | .normal =>
                executeAll fuel rest machine
            | .returning value =>
                .done (.returning value) machine

/-- Run a statement as long as a condition holds and it does not return. -/
def repeatWhile
    (fuel : Nat)
    (condition : Expr)
    (body : Stmt)
    (machine : Machine) :
    Outcome Flow :=
  match fuel with
  | 0 =>
      .exhausted
  | fuel + 1 =>
      (evaluate fuel condition machine).bind fun value machine =>
        if value.isTruthy then
          (execute fuel body machine).bind fun flow machine =>
            match flow with
            | .normal =>
                repeatWhile fuel condition body machine
            | .returning value =>
                .done (.returning value) machine
        else
          .done .normal machine

end

/-- Run statements at the top level, where a `return` ends only the statement it
is in. -/
def interpret
    (fuel : Nat) :
    List Stmt → Machine → Outcome Unit
  | [], machine =>
      .done () machine
  | first :: rest, machine =>
      (execute fuel first machine).bind fun _ machine =>
        interpret fuel rest machine

end Machine

end Script
