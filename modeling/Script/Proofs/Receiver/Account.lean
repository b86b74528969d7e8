import Script.Proofs.Lexical.Watch

namespace Script.Lexical

/-!
# Accounts of receivers

What a watched run does with receivers, from the first entry to the last: methods
are bound, receivers are read, functions come back, and classes make objects.
Each entry has the machine and the log behind it.  Between the entries the run is
the watched one, which goes on from the value that each piece has there.
-/

/-- What an entry in an account is about. -/
inductive Matter where
  /-- A method was bound to an object, which gave the function. -/
  | bound (function : Closure) (receiver : Object)
  /-- A receiver is read. -/
  | received (use : Use)
  /-- A call of a function came back with a value. -/
  | returned (function : Closure) (value : Value)
  /-- A call of a class on a machine came back with a value. -/
  | constructed
      (members : ClassValue)
      (arguments : List Value)
      (before : Machine)
      (value : Value)

/-- An entry in an account. -/
structure Entry where
  matter : Matter
  machine : Machine
  log : Log

/-- The entry about a method that is bound. -/
def Entry.binding
    (method : Closure)
    (receiver : Object)
    (machine : Machine)
    (log : Log) :
    Entry where
  matter := .bound (machine.bindMethod method receiver).1 receiver
  machine := (machine.bindMethod method receiver).2
  log := log.bindMethod machine method

/-- The entry about a receiver that is read. -/
def Entry.reading
    (use : Use)
    (log : Log) :
    Entry where
  matter := .received use
  machine := use.machine
  log := .used use :: log

/-- The account of what goes on with the value of an outcome, if it has one. -/
def Watched.account
    (watched : Watched α)
    (next : α → Machine → Log → List Entry) :
    List Entry :=
  match watched with
  | { outcome := .done value machine, log } =>
      next value machine log
  | _ =>
      []

/-- The account of a piece of program in a new frame for a scope. -/
def accountNewFrame
    (machine : Machine)
    (log : Log)
    (parent : Nat)
    (bindings : Bindings)
    (label : ScopeLabel)
    (body : Machine → Log → List Entry) :
    List Entry :=
  body
    { machine with
      frames := machine.frames.push (some parent) bindings
      current := machine.frames.size }
    (.opened machine.frames.size label :: log)

/-- The account of reading a property, which may bind a method. -/
def accountProperty
    (object : Object)
    (name : Text)
    (machine : Machine)
    (log : Log) :
    List Entry :=
  match machine.fields[object.identity]?.bind (·.lookup name) with
  | some _ =>
      []
  | none =>
      match object.members.method? name with
      | some method =>
          [.binding method object machine log]
      | none =>
          []

/-- The account of making an object, which may bind its initializer. -/
def accountMakeObject
    (members : ClassValue)
    (machine : Machine)
    (log : Log)
    (account : Closure → Machine → Log → List Entry) :
    List Entry :=
  let (object, made) := machine.makeObject members
  match members.initializer? with
  | none =>
      []
  | some initializer =>
      let (bound, inside) := made.bindMethod initializer object
      .binding initializer object made log ::
        account bound inside (log.bindMethod made initializer)

mutual

/-- The account of the expression at a position. -/
def accountExpr
    (fuel : Nat)
    (position : Position)
    (expr : Expr)
    (machine : Machine)
    (log : Log) :
    List Entry :=
  match fuel with
  | 0 =>
      []
  | fuel + 1 =>
      match expr with
      | .group inner =>
          accountExpr fuel position inner machine log
      | .unary _ operand =>
          accountExpr fuel position operand machine log
      | .binary left _ right =>
          accountExpr fuel position left machine log ++
            (watchExpr fuel position left machine log).account
              fun _ machine log =>
                accountExpr fuel position right machine log
      | .logical left operator right =>
          accountExpr fuel position left machine log ++
            (watchExpr fuel position left machine log).account
              fun left machine log =>
                if left.decides operator.kind then
                  []
                else
                  accountExpr fuel position right machine log
      | .assign name value distance =>
          accountExpr fuel position value machine
            (.used { form := .assignment, name, distance, position, machine } ::
              log)
      | .call callee _ arguments =>
          accountExpr fuel position callee machine log ++
            (watchExpr fuel position callee machine log).account
              fun value machine log =>
                accountExprs fuel position arguments machine log ++
                  (watchExprs fuel position arguments machine log).account
                    fun arguments machine log =>
                      match machine.callee value arguments.length with
                      | .error _ =>
                          []
                      | .ok callable =>
                          accountCall fuel callable arguments
                            { machine with depth := machine.depth + 1 } log
      | .property object name =>
          accountExpr fuel position object machine log ++
            (watchExpr fuel position object machine log).account
              fun value machine log =>
                match value with
                | .object object =>
                    accountProperty object name.lexeme machine log
                | _ =>
                    []
      | .setProperty object _ value =>
          accountExpr fuel position object machine log ++
            (watchExpr fuel position object machine log).account
              fun target machine log =>
                match target with
                | .object _ =>
                    accountExpr fuel position value machine log
                | _ =>
                    []
      | .receiver keyword distance =>
          [.reading
            { form := .receiver, name := keyword, distance, position, machine }
            log]
      | _ =>
          []

/-- The account of expressions at a position, from left to right. -/
def accountExprs
    (fuel : Nat)
    (position : Position)
    (exprs : List Expr)
    (machine : Machine)
    (log : Log) :
    List Entry :=
  match fuel with
  | 0 =>
      []
  | fuel + 1 =>
      match exprs with
      | [] =>
          []
      | first :: rest =>
          accountExpr fuel position first machine log ++
            (watchExpr fuel position first machine log).account
              fun _ machine log => accountExprs fuel position rest machine log

/-- The account of a call of a callable with as many arguments as it takes. -/
def accountCall
    (fuel : Nat)
    (callable : Callable)
    (arguments : List Value)
    (machine : Machine)
    (log : Log) :
    List Entry :=
  match fuel with
  | 0 =>
      []
  | fuel + 1 =>
      match callable with
      | .native _ =>
          []
      | .function closure =>
          accountFunction fuel closure arguments machine log
      | .classValue members =>
          accountMakeObject members machine log
              (fun bound machine log =>
                accountFunction fuel bound arguments machine log) ++
            (watchCall (fuel + 1) (.classValue members) arguments machine
              log).account fun value after last =>
                [{ matter := .constructed members arguments machine value
                   machine := after
                   log := last }]

/-- The account of the body of a function in a new frame that has its
parameters. -/
def accountFunction
    (fuel : Nat)
    (closure : Closure)
    (arguments : List Value)
    (machine : Machine)
    (log : Log) :
    List Entry :=
  match fuel with
  | 0 =>
      []
  | fuel + 1 =>
      let position := (log.home closure).inFunction closure.function
      let bindings := Machine.parameterBindings closure.function arguments
      accountNewFrame machine (.entered closure arguments.length :: log)
          closure.frame bindings (Log.innermost position)
          (fun machine log =>
            accountStmts fuel position closure.function.body machine log) ++
        (watchFunction (fuel + 1) closure arguments machine log).account
          fun value after last =>
            [{ matter := .returned closure value
               machine := after
               log := last }]

/-- The account of the statement at a position. -/
def accountStmt
    (fuel : Nat)
    (position : Position)
    (stmt : Stmt)
    (machine : Machine)
    (log : Log) :
    List Entry :=
  match fuel with
  | 0 =>
      []
  | fuel + 1 =>
      match stmt with
      | .expression value =>
          accountExpr fuel position value machine log
      | .print value =>
          accountExpr fuel position value machine log
      | .variableDecl name (some initial) =>
          accountExpr fuel (position.initializing name.lexeme) initial machine
            log
      | .block body =>
          accountNewFrame machine log machine.current []
            (Log.innermost position.inBlock) fun machine log =>
              accountStmts fuel position.inBlock body machine log
      | .conditional condition consequent alternative =>
          accountExpr fuel position condition machine log ++
            (watchExpr fuel position condition machine log).account
              fun condition machine log =>
                if condition.isTruthy then
                  accountStmt fuel (position.inside 0) consequent machine log
                else
                  match alternative with
                  | some alternative =>
                      accountStmt fuel (position.inside 1) alternative machine
                        log
                  | none =>
                      []
      | .loop condition body =>
          accountLoop fuel position condition body machine log
      | .returning _ (some value) =>
          accountExpr fuel position value machine log
      | _ =>
          []

/-- The account of the statements that stand in a row from a position on. -/
def accountStmts
    (fuel : Nat)
    (position : Position)
    (stmts : List Stmt)
    (machine : Machine)
    (log : Log) :
    List Entry :=
  match fuel with
  | 0 =>
      []
  | fuel + 1 =>
      match stmts with
      | [] =>
          []
      | first :: rest =>
          accountStmt fuel position first machine log ++
            (watchStmt fuel position first machine log).account
              fun flow machine log =>
                match flow with
                | .normal =>
                    accountStmts fuel (position.declaring first).next rest
                      machine log
                | .returning _ =>
                    []

/-- The account of the loop at a position. -/
def accountLoop
    (fuel : Nat)
    (position : Position)
    (condition : Expr)
    (body : Stmt)
    (machine : Machine)
    (log : Log) :
    List Entry :=
  match fuel with
  | 0 =>
      []
  | fuel + 1 =>
      accountExpr fuel position condition machine log ++
        (watchExpr fuel position condition machine log).account
          fun value machine log =>
            if value.isTruthy then
              accountStmt fuel (position.inside 0) body machine log ++
                (watchStmt fuel (position.inside 0) body machine log).account
                  fun flow machine log =>
                    match flow with
                    | .normal =>
                        accountLoop fuel position condition body machine log
                    | .returning _ =>
                        []
            else
              []

end

/-- The account of the statements of a program from a position on. -/
def accountProgram
    (fuel : Nat)
    (position : Position) :
    List Stmt → Machine → Log → List Entry
  | [], _, _ =>
      []
  | first :: rest, machine, log =>
      accountStmt fuel position first machine log ++
        (watchStmt fuel position first machine log).account
          fun _ machine log =>
            accountProgram fuel (position.declaring first).next rest machine log

end Script.Lexical
