import Script.Machine.Evaluate
import Script.Proofs.Lexical.Position

namespace Script.Lexical

/-!
# Watched evaluation

Evaluation that knows where in the source it is and keeps a log: which frame was
made for which scope, at which position each function was declared, and every
use of a name with the machine at that moment.  Watching changes nothing; the
last theorems say that the outcome is that of evaluation itself.
-/

/-- What a use does with its name. -/
inductive UseForm where
  | read
  | receiver
  | assignment
  deriving Repr, DecidableEq

/-- The use of a name at a moment of a run. -/
structure Use where
  form : UseForm
  name : Token
  distance : Option Nat
  position : Position
  machine : Machine

/-- What is noted in a log. -/
inductive Event where
  /-- A tree began to run. -/
  | began (origin : Origin)
  /-- A frame was made for a scope. -/
  | opened (frame : Nat) (label : ScopeLabel)
  /-- A function got its number; it stands at the position. -/
  | declared (identity : Nat) (position : Position)
  /-- The body of a function was entered with a number of arguments. -/
  | entered (closure : Closure) (given : Nat)
  /-- A host function was called with a number of arguments. -/
  | asked (native : Native) (given : Nat)
  /-- A name was used. -/
  | used (use : Use)

/-- Everything noted, the latest event first. -/
abbrev Log :=
  List Event

namespace Log

/-- The scope that a frame was made for. -/
def labelOf
    (log : Log)
    (frame : Nat) :
    Option ScopeLabel :=
  log.findSome? fun event =>
    match event with
    | .opened opened label =>
        if opened = frame then some label else none
    | _ =>
        none

/-- The position of the function with a number. -/
def homeOf
    (log : Log)
    (identity : Nat) :
    Option Position :=
  log.findSome? fun event =>
    match event with
    | .declared declared position =>
        if declared = identity then some position else none
    | _ =>
        none

/-- The position of a function, some position if none was noted. -/
def home
    (log : Log)
    (closure : Closure) :
    Position :=
  (log.homeOf closure.identity).getD
    (.top { number := 0, resolved := false, statements := [] })

/-- Note that methods in a row got their numbers. -/
def declareMethods
    (identity : Nat)
    (position : Position)
    (log : Log) :
    List FunctionDecl → Log
  | [] =>
      log
  | _ :: rest =>
      declareMethods (identity + 1) position.next
        (.declared identity position :: log) rest

/-- The innermost scope of a position. -/
def innermost (position : Position) : ScopeLabel :=
  match position.levels with
  | level :: _ =>
      level.label
  | [] =>
      { source := position.origin.number, path := [], form := .receiver }

/-- Note that a method was bound: it has a number of its own, and a frame for the
scope of its receiver. -/
def bindMethod
    (log : Log)
    (machine : Machine)
    (method : Closure) :
    Log :=
  .opened machine.frames.size (innermost (log.home method)) ::
    .declared machine.identities (log.home method) :: log

/-- Note what reading a property does: it may bind a method. -/
def getProperty
    (log : Log)
    (machine : Machine)
    (object : Object)
    (name : Text) :
    Log :=
  match machine.fields[object.identity]?.bind (·.lookup name) with
  | some _ =>
      log
  | none =>
      match object.members.method? name with
      | some method =>
          log.bindMethod machine method
      | none =>
          log

end Log

/-- An outcome with the log up to it. -/
structure Watched (α : Type) where
  outcome : Outcome α
  log : Log

namespace Watched

/-- Go on with the value of an outcome, if it has one. -/
def bind
    (watched : Watched α)
    (next : α → Machine → Log → Watched β) :
    Watched β :=
  match watched with
  | { outcome := .done value machine, log } =>
      next value machine log
  | { outcome := .stopped fault machine, log } =>
      { outcome := .stopped fault machine, log }
  | { outcome := .broken breakage machine, log } =>
      { outcome := .broken breakage machine, log }
  | { outcome := .exhausted, log } =>
      { outcome := .exhausted, log }

/-- Change the machine of an outcome, however it ended. -/
def mapMachine
    (change : Machine → Machine)
    (watched : Watched α) :
    Watched α :=
  { watched with outcome := watched.outcome.mapMachine change }

end Watched

/-- A piece of program in a new frame for a scope. -/
def watchNewFrame
    (machine : Machine)
    (log : Log)
    (parent : Nat)
    (bindings : Bindings)
    (label : ScopeLabel)
    (body : Machine → Log → Watched α) :
    Watched α :=
  let inside :=
    { machine with
      frames := machine.frames.push (some parent) bindings
      current := machine.frames.size }
  (body inside (.opened machine.frames.size label :: log)).mapMachine
    fun after => { after with current := machine.current }

/-- A call, which is under way until it ends. -/
def watchDuringCall
    (machine : Machine)
    (log : Log)
    (call : Machine → Log → Watched α) :
    Watched α :=
  (call { machine with depth := machine.depth + 1 } log).mapMachine
    fun after => { after with depth := after.depth - 1 }

mutual

/-- Evaluate the expression at a position. -/
def watchExpr
    (fuel : Nat)
    (position : Position)
    (expr : Expr)
    (machine : Machine)
    (log : Log) :
    Watched Value :=
  match fuel with
  | 0 =>
      { outcome := .exhausted, log }
  | fuel + 1 =>
      match expr with
      | .literal value =>
          { outcome := .done (.ofLiteral value) machine, log }
      | .group inner =>
          watchExpr fuel position inner machine log
      | .unary operator operand =>
          (watchExpr fuel position operand machine log).bind
            fun operand machine log =>
              { outcome :=
                  machine.settle operator (operand.unary operator.kind)
                log }
      | .binary left operator right =>
          (watchExpr fuel position left machine log).bind
            fun left machine log =>
              (watchExpr fuel position right machine log).bind
                fun right machine log =>
                  { outcome :=
                      machine.settle operator
                        (left.binary operator.kind right)
                    log }
      | .logical left operator right =>
          (watchExpr fuel position left machine log).bind
            fun left machine log =>
              if left.decides operator.kind then
                { outcome := .done left machine, log }
              else
                watchExpr fuel position right machine log
      | .reference name distance =>
          { outcome := machine.read name distance
            log :=
              .used { form := .read, name, distance, position, machine } ::
                log }
      | .assign name value distance =>
          (watchExpr fuel position value machine
            (.used { form := .assignment, name, distance, position, machine } ::
              log)).bind
            fun value machine log =>
              { outcome := machine.assign name distance value
                log :=
                  .used
                    { form := .assignment, name, distance, position,
                      machine } :: log }
      | .call callee closing arguments =>
          (watchExpr fuel position callee machine log).bind
            fun value machine log =>
              (watchExprs fuel position arguments machine log).bind
                fun arguments machine log =>
                  match machine.callee value arguments.length with
                  | .error cause =>
                      { outcome := .stopped { token := closing, cause } machine
                        log }
                  | .ok callable =>
                      watchDuringCall machine log fun machine log =>
                        watchCall fuel callable arguments machine log
      | .property object name =>
          (watchExpr fuel position object machine log).bind
            fun value machine log =>
              match value with
              | .object object =>
                  { outcome := machine.getProperty object name
                    log := log.getProperty machine object name.lexeme }
              | _ =>
                  { outcome :=
                      .stopped
                        { token := name, cause := .propertyOfNonInstance }
                        machine
                    log }
      | .setProperty object name value =>
          (watchExpr fuel position object machine log).bind
            fun target machine log =>
              match target with
              | .object object =>
                  (watchExpr fuel position value machine log).bind
                    fun value machine log =>
                      { outcome :=
                          .done value
                            (machine.setField object name.lexeme value)
                        log }
              | _ =>
                  { outcome :=
                      .stopped { token := name, cause := .fieldOfNonInstance }
                        machine
                    log }
      | .receiver keyword distance =>
          { outcome := machine.read keyword distance
            log :=
              .used
                { form := .receiver, name := keyword, distance, position,
                  machine } :: log }
      | .missing =>
          { outcome := .broken (.hole .expression) machine, log }

/-- Evaluate expressions at a position from left to right. -/
def watchExprs
    (fuel : Nat)
    (position : Position)
    (exprs : List Expr)
    (machine : Machine)
    (log : Log) :
    Watched (List Value) :=
  match fuel with
  | 0 =>
      { outcome := .exhausted, log }
  | fuel + 1 =>
      match exprs with
      | [] =>
          { outcome := .done [] machine, log }
      | first :: rest =>
          (watchExpr fuel position first machine log).bind
            fun value machine log =>
              (watchExprs fuel position rest machine log).bind
                fun values machine log =>
                  { outcome := .done (value :: values) machine, log }

/-- Call a callable with as many arguments as it takes. -/
def watchCall
    (fuel : Nat)
    (callable : Callable)
    (arguments : List Value)
    (machine : Machine)
    (log : Log) :
    Watched Value :=
  match fuel with
  | 0 =>
      { outcome := .exhausted, log }
  | fuel + 1 =>
      match callable with
      | .native native =>
          { outcome := machine.callNative native arguments
            log := .asked native arguments.length :: log }
      | .function closure =>
          watchFunction fuel closure arguments machine log
      | .classValue members =>
          match members.initializer? with
          | none =>
              { outcome :=
                  .done (.object (machine.makeObject members).1)
                    (machine.makeObject members).2
                log }
          | some initializer =>
              let (object, machine) := machine.makeObject members
              let log := log.bindMethod machine initializer
              let (bound, machine) := machine.bindMethod initializer object
              (watchFunction fuel bound arguments machine log).bind
                fun _ machine log =>
                  { outcome := .done (.object object) machine, log }

/-- Run the body of a function in a new frame that has its parameters. -/
def watchFunction
    (fuel : Nat)
    (closure : Closure)
    (arguments : List Value)
    (machine : Machine)
    (log : Log) :
    Watched Value :=
  match fuel with
  | 0 =>
      { outcome := .exhausted, log }
  | fuel + 1 =>
      let position := (log.home closure).inFunction closure.function
      let bindings := Machine.parameterBindings closure.function arguments
      (watchNewFrame machine (.entered closure arguments.length :: log)
        closure.frame bindings (Log.innermost position) fun machine log =>
          watchStmts fuel position closure.function.body machine log).bind
        fun flow machine log =>
          if closure.isInitializer then
            { outcome := .done (machine.receiverOf closure) machine, log }
          else
            { outcome := .done flow.result machine, log }

/-- Run the statement at a position. -/
def watchStmt
    (fuel : Nat)
    (position : Position)
    (stmt : Stmt)
    (machine : Machine)
    (log : Log) :
    Watched Flow :=
  match fuel with
  | 0 =>
      { outcome := .exhausted, log }
  | fuel + 1 =>
      match stmt with
      | .expression value =>
          (watchExpr fuel position value machine log).bind
            fun _ machine log =>
              { outcome := .done .normal machine, log }
      | .print value =>
          (watchExpr fuel position value machine log).bind
            fun value machine log =>
              { outcome := .done .normal (machine.print value.display), log }
      | .variableDecl name none =>
          { outcome := .done .normal (machine.define name.lexeme .nil), log }
      | .variableDecl name (some initial) =>
          (watchExpr fuel (position.initializing name.lexeme) initial machine
            log).bind
            fun value machine log =>
              { outcome := .done .normal (machine.define name.lexeme value)
                log }
      | .block body =>
          watchNewFrame machine log machine.current []
            (Log.innermost position.inBlock) fun machine log =>
              watchStmts fuel position.inBlock body machine log
      | .conditional condition consequent alternative =>
          (watchExpr fuel position condition machine log).bind
            fun condition machine log =>
              if condition.isTruthy then
                watchStmt fuel (position.inside 0) consequent machine log
              else
                match alternative with
                | some alternative =>
                    watchStmt fuel (position.inside 1) alternative machine log
                | none =>
                    { outcome := .done .normal machine, log }
      | .loop condition body =>
          watchLoop fuel position condition body machine log
      | .functionDecl function =>
          { outcome := .done .normal (machine.declareFunction function)
            log :=
              .declared machine.identities
                (position.declare function.name.lexeme) :: log }
      | .returning _ none =>
          { outcome := .done (.returning .nil) machine, log }
      | .returning _ (some value) =>
          (watchExpr fuel position value machine log).bind
            fun value machine log =>
              { outcome := .done (.returning value) machine, log }
      | .classDecl name methods =>
          { outcome := .done .normal (machine.declareClass name methods)
            log :=
              Log.declareMethods machine.identities
                (position.declare name.lexeme).inClass log methods }
      | .missing =>
          { outcome := .broken (.hole .statement) machine, log }

/-- Run the statements that stand in a row from a position on, up to one that
returns. -/
def watchStmts
    (fuel : Nat)
    (position : Position)
    (stmts : List Stmt)
    (machine : Machine)
    (log : Log) :
    Watched Flow :=
  match fuel with
  | 0 =>
      { outcome := .exhausted, log }
  | fuel + 1 =>
      match stmts with
      | [] =>
          { outcome := .done .normal machine, log }
      | first :: rest =>
          (watchStmt fuel position first machine log).bind
            fun flow machine log =>
              match flow with
              | .normal =>
                  watchStmts fuel (position.declaring first).next rest machine
                    log
              | .returning value =>
                  { outcome := .done (.returning value) machine, log }

/-- Run the loop at a position as long as its condition holds and its body does
not return. -/
def watchLoop
    (fuel : Nat)
    (position : Position)
    (condition : Expr)
    (body : Stmt)
    (machine : Machine)
    (log : Log) :
    Watched Flow :=
  match fuel with
  | 0 =>
      { outcome := .exhausted, log }
  | fuel + 1 =>
      (watchExpr fuel position condition machine log).bind
        fun value machine log =>
          if value.isTruthy then
            (watchStmt fuel (position.inside 0) body machine log).bind
              fun flow machine log =>
                match flow with
                | .normal =>
                    watchLoop fuel position condition body machine log
                | .returning value =>
                    { outcome := .done (.returning value) machine, log }
          else
            { outcome := .done .normal machine, log }

end

/-- Run the statements of a program from a position on at the top level. -/
def watchProgram
    (fuel : Nat)
    (position : Position) :
    List Stmt → Machine → Log → Watched Unit
  | [], machine, log =>
      { outcome := .done () machine, log }
  | first :: rest, machine, log =>
      (watchStmt fuel position first machine log).bind fun _ machine log =>
        watchProgram fuel (position.declaring first).next rest machine log

namespace Watched

theorem outcome_bind
    {watched : Watched α}
    {outcome : Outcome α}
    {next : α → Machine → Log → Watched β}
    {plain : α → Machine → Outcome β}
    (same : watched.outcome = outcome)
    (continues :
      ∀ value machine log,
        (next value machine log).outcome = plain value machine) :
    (watched.bind next).outcome = outcome.bind plain := by
  subst same
  cases watched with
  | mk outcome log =>
      cases outcome with
      | done value machine =>
          exact continues value machine log
      | stopped fault machine =>
          rfl
      | broken breakage machine =>
          rfl
      | exhausted =>
          rfl

theorem outcome_newFrame
    {machine : Machine}
    {log : Log}
    {parent : Nat}
    {bindings : Bindings}
    {label : ScopeLabel}
    {body : Machine → Log → Watched α}
    {plain : Machine → Outcome α}
    (same : ∀ machine log, (body machine log).outcome = plain machine) :
    (watchNewFrame machine log parent bindings label body).outcome =
      machine.inNewFrame parent bindings plain := by
  unfold watchNewFrame Machine.inNewFrame mapMachine
  simp only [same]

end Watched

/-- Watching within a bound has the outcomes of evaluation. -/
structure Erases (fuel : Nat) : Prop where
  expr :
    ∀ position expr machine log,
      (watchExpr fuel position expr machine log).outcome =
        machine.evaluate fuel expr
  exprs :
    ∀ position exprs machine log,
      (watchExprs fuel position exprs machine log).outcome =
        machine.evaluateAll fuel exprs
  call :
    ∀ callable arguments machine log,
      (watchCall fuel callable arguments machine log).outcome =
        machine.call fuel callable arguments
  function :
    ∀ closure arguments machine log,
      (watchFunction fuel closure arguments machine log).outcome =
        machine.callFunction fuel closure arguments
  stmt :
    ∀ position stmt machine log,
      (watchStmt fuel position stmt machine log).outcome =
        machine.execute fuel stmt
  stmts :
    ∀ position stmts machine log,
      (watchStmts fuel position stmts machine log).outcome =
        machine.executeAll fuel stmts
  loop :
    ∀ position condition body machine log,
      (watchLoop fuel position condition body machine log).outcome =
        machine.repeatWhile fuel condition body

namespace Erases

variable {fuel : Nat}

theorem expr_succ
    (smaller : Erases fuel)
    (position : Position)
    (expr : Expr)
    (machine : Machine)
    (log : Log) :
    (watchExpr (fuel + 1) position expr machine log).outcome =
      machine.evaluate (fuel + 1) expr := by
  rw [watchExpr.eq_def, Machine.evaluate.eq_def]
  cases expr with
  | literal | reference | receiver | missing =>
      rfl
  | group inner =>
      exact smaller.expr position inner machine log
  | unary operator operand =>
      exact Watched.outcome_bind (smaller.expr position operand machine log)
        fun _ _ _ => rfl
  | binary left operator right =>
      refine Watched.outcome_bind (smaller.expr position left machine log)
        fun leftValue afterLeft logLeft => ?_
      exact Watched.outcome_bind
        (smaller.expr position right afterLeft logLeft) fun _ _ _ => rfl
  | logical left operator right =>
      refine Watched.outcome_bind (smaller.expr position left machine log)
        fun leftValue afterLeft logLeft => ?_
      split
      · rfl
      · exact smaller.expr position right afterLeft logLeft
  | assign name value distance =>
      exact Watched.outcome_bind (smaller.expr position value machine _)
        fun _ _ _ => rfl
  | call callee closing arguments =>
      refine Watched.outcome_bind (smaller.expr position callee machine log)
        fun value afterCallee logCallee => ?_
      refine Watched.outcome_bind
        (smaller.exprs position arguments afterCallee logCallee)
        fun values afterArguments logArguments => ?_
      cases called : afterArguments.callee value values.length with
      | error cause =>
          rfl
      | ok callable =>
          simp only [watchDuringCall, Watched.mapMachine, Machine.duringCall,
            smaller.call]
  | property object name =>
      refine Watched.outcome_bind (smaller.expr position object machine log)
        fun value afterObject logObject => ?_
      cases value <;> rfl
  | setProperty object name value =>
      refine Watched.outcome_bind (smaller.expr position object machine log)
        fun target afterObject logObject => ?_
      cases target with
      | object object =>
          exact Watched.outcome_bind
            (smaller.expr position value afterObject logObject)
            fun _ _ _ => rfl
      | _ =>
          rfl

theorem exprs_succ
    (smaller : Erases fuel)
    (position : Position)
    (exprs : List Expr)
    (machine : Machine)
    (log : Log) :
    (watchExprs (fuel + 1) position exprs machine log).outcome =
      machine.evaluateAll (fuel + 1) exprs := by
  rw [watchExprs.eq_def, Machine.evaluateAll.eq_def]
  cases exprs with
  | nil =>
      rfl
  | cons first rest =>
      refine Watched.outcome_bind (smaller.expr position first machine log)
        fun value afterFirst logFirst => ?_
      exact Watched.outcome_bind
        (smaller.exprs position rest afterFirst logFirst) fun _ _ _ => rfl

theorem call_succ
    (smaller : Erases fuel)
    (callable : Callable)
    (arguments : List Value)
    (machine : Machine)
    (log : Log) :
    (watchCall (fuel + 1) callable arguments machine log).outcome =
      machine.call (fuel + 1) callable arguments := by
  rw [watchCall.eq_def, Machine.call.eq_def]
  cases callable with
  | native native =>
      rfl
  | function closure =>
      exact smaller.function closure arguments machine log
  | classValue members =>
      cases found : members.initializer? with
      | none =>
          simp only [found]
      | some initializer =>
          simp only [found]
          exact Watched.outcome_bind (smaller.function _ arguments _ _)
            fun _ _ _ => rfl

theorem function_succ
    (smaller : Erases fuel)
    (closure : Closure)
    (arguments : List Value)
    (machine : Machine)
    (log : Log) :
    (watchFunction (fuel + 1) closure arguments machine log).outcome =
      machine.callFunction (fuel + 1) closure arguments := by
  rw [watchFunction.eq_def, Machine.callFunction.eq_def]
  refine Watched.outcome_bind
    (Watched.outcome_newFrame fun inside log => smaller.stmts _ _ inside log)
    fun flow after log => ?_
  split <;> rfl

theorem stmt_succ
    (smaller : Erases fuel)
    (position : Position)
    (stmt : Stmt)
    (machine : Machine)
    (log : Log) :
    (watchStmt (fuel + 1) position stmt machine log).outcome =
      machine.execute (fuel + 1) stmt := by
  rw [watchStmt.eq_def, Machine.execute.eq_def]
  cases stmt with
  | expression value | print value =>
      exact Watched.outcome_bind (smaller.expr position value machine log)
        fun _ _ _ => rfl
  | variableDecl name initial =>
      cases initial with
      | none =>
          rfl
      | some initial =>
          exact Watched.outcome_bind (smaller.expr _ initial machine log)
            fun _ _ _ => rfl
  | block body =>
      exact Watched.outcome_newFrame
        fun inside log => smaller.stmts _ body inside log
  | conditional condition consequent alternative =>
      refine Watched.outcome_bind
        (smaller.expr position condition machine log)
        fun value after logAfter => ?_
      split
      · exact smaller.stmt _ consequent after logAfter
      · cases alternative with
        | none =>
            rfl
        | some alternative =>
            exact smaller.stmt _ alternative after logAfter
  | loop condition body =>
      exact smaller.loop position condition body machine log
  | returning keyword value =>
      cases value with
      | none =>
          rfl
      | some value =>
          exact Watched.outcome_bind (smaller.expr position value machine log)
            fun _ _ _ => rfl
  | functionDecl | classDecl | missing =>
      rfl

theorem stmts_succ
    (smaller : Erases fuel)
    (position : Position)
    (stmts : List Stmt)
    (machine : Machine)
    (log : Log) :
    (watchStmts (fuel + 1) position stmts machine log).outcome =
      machine.executeAll (fuel + 1) stmts := by
  rw [watchStmts.eq_def, Machine.executeAll.eq_def]
  cases stmts with
  | nil =>
      rfl
  | cons first rest =>
      refine Watched.outcome_bind (smaller.stmt position first machine log)
        fun flow after logAfter => ?_
      cases flow with
      | normal =>
          exact smaller.stmts _ rest after logAfter
      | returning value =>
          rfl

theorem loop_succ
    (smaller : Erases fuel)
    (position : Position)
    (condition : Expr)
    (body : Stmt)
    (machine : Machine)
    (log : Log) :
    (watchLoop (fuel + 1) position condition body machine log).outcome =
      machine.repeatWhile (fuel + 1) condition body := by
  rw [watchLoop.eq_def, Machine.repeatWhile.eq_def]
  refine Watched.outcome_bind (smaller.expr position condition machine log)
    fun value after logAfter => ?_
  split
  · refine Watched.outcome_bind (smaller.stmt _ body after logAfter)
      fun flow afterBody logBody => ?_
    cases flow with
    | normal =>
        exact smaller.loop position condition body afterBody logBody
    | returning value =>
        rfl
  · rfl

end Erases

/-- Watching changes nothing. -/
theorem erases (fuel : Nat) : Erases fuel := by
  induction fuel with
  | zero =>
      constructor <;> intros
      · rw [watchExpr, Machine.evaluate]
      · rw [watchExprs, Machine.evaluateAll]
      · rw [watchCall, Machine.call]
      · rw [watchFunction, Machine.callFunction]
      · rw [watchStmt, Machine.execute]
      · rw [watchStmts, Machine.executeAll]
      · rw [watchLoop, Machine.repeatWhile]
  | succ fuel inductionHypothesis =>
      exact
        { expr := inductionHypothesis.expr_succ
          exprs := inductionHypothesis.exprs_succ
          call := inductionHypothesis.call_succ
          function := inductionHypothesis.function_succ
          stmt := inductionHypothesis.stmt_succ
          stmts := inductionHypothesis.stmts_succ
          loop := inductionHypothesis.loop_succ }

/-- A watched program ends as the program does. -/
theorem watchProgram_outcome
    (fuel : Nat)
    (position : Position)
    (stmts : List Stmt)
    (machine : Machine)
    (log : Log) :
    (watchProgram fuel position stmts machine log).outcome =
      machine.interpret fuel stmts := by
  induction stmts generalizing position machine log with
  | nil =>
      rfl
  | cons first rest inductionHypothesis =>
      exact Watched.outcome_bind ((erases fuel).stmt position first machine log)
        fun _ after logAfter => inductionHypothesis _ after logAfter

end Script.Lexical
