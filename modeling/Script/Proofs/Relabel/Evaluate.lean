import Script.Proofs.Relabel.Machine

namespace Script.Machine

/-!
# Evaluation on other lines

A program whose tokens are changed runs in the same way on a machine whose tokens
are changed: it gives the same outcome with its tokens changed.  A line is only
read to report a fault.
-/

variable {change : Token → Token}

/-- Within a bound, every piece of program runs alike with changed tokens. -/
structure RunsAlike
    (change : Token → Token)
    (fuel : Nat) : Prop where
  evaluate : ∀ expr machine,
    evaluate fuel (expr.relabel change) (machine.relabel change) =
      (evaluate fuel expr machine).relabel change (Value.relabel change)
  evaluateAll : ∀ exprs machine,
    evaluateAll fuel (Expr.relabelAll change exprs) (machine.relabel change) =
      (evaluateAll fuel exprs machine).relabel change
        (List.map (Value.relabel change))
  call : ∀ callable arguments machine,
    call fuel (callable.relabel change) (arguments.map (Value.relabel change))
        (machine.relabel change) =
      (call fuel callable arguments machine).relabel change
        (Value.relabel change)
  callFunction : ∀ closure arguments machine,
    callFunction fuel (closure.relabel change)
        (arguments.map (Value.relabel change)) (machine.relabel change) =
      (callFunction fuel closure arguments machine).relabel change
        (Value.relabel change)
  execute : ∀ stmt machine,
    execute fuel (stmt.relabel change) (machine.relabel change) =
      (execute fuel stmt machine).relabel change (Flow.relabel change)
  executeAll : ∀ stmts machine,
    executeAll fuel (Stmt.relabelAll change stmts) (machine.relabel change) =
      (executeAll fuel stmts machine).relabel change (Flow.relabel change)
  repeatWhile : ∀ condition body machine,
    repeatWhile fuel (condition.relabel change) (body.relabel change)
        (machine.relabel change) =
      (repeatWhile fuel condition body machine).relabel change
        (Flow.relabel change)

namespace RunsAlike

variable {fuel : Nat}

theorem evaluate_succ
    (relabels : Relabels change)
    (alike : RunsAlike change fuel)
    (expr : Expr)
    (machine : Machine) :
    Machine.evaluate (fuel + 1) (expr.relabel change)
        (machine.relabel change) =
      (Machine.evaluate (fuel + 1) expr machine).relabel change
        (Value.relabel change) := by
  cases expr with
  | literal value =>
      simp [Expr.relabel, Machine.evaluate, Outcome.relabel]
  | group inner =>
      simp [Expr.relabel, Machine.evaluate, alike.evaluate]
  | unary operator operand =>
      simp only [Expr.relabel, Machine.evaluate, alike.evaluate]
      apply Outcome.relabel_bind
      intro value machine
      rw [relabels.kind, Value.unary_relabel]
      exact settle_relabel machine operator _
  | binary left operator right =>
      simp only [Expr.relabel, Machine.evaluate, alike.evaluate]
      apply Outcome.relabel_bind
      intro leftValue machine
      rw [alike.evaluate]
      apply Outcome.relabel_bind
      intro rightValue machine
      rw [relabels.kind, Value.binary_relabel]
      exact settle_relabel machine operator _
  | logical left operator right =>
      simp only [Expr.relabel, Machine.evaluate, alike.evaluate]
      apply Outcome.relabel_bind
      intro value machine
      rw [relabels.kind, Value.decides_relabel]
      split
      · rfl
      · exact alike.evaluate right machine
  | reference name distance =>
      simp only [Expr.relabel, Machine.evaluate]
      exact read_relabel relabels machine name distance
  | assign name value distance =>
      simp only [Expr.relabel, Machine.evaluate, alike.evaluate]
      apply Outcome.relabel_bind
      intro result machine
      exact assign_relabel relabels machine name distance result
  | call callee closing arguments =>
      simp only [Expr.relabel, Machine.evaluate, alike.evaluate]
      apply Outcome.relabel_bind
      intro value machine
      rw [alike.evaluateAll]
      apply Outcome.relabel_bind
      intro values machine
      rw [List.length_map, callee_relabel]
      cases machine.callee value values.length with
      | error cause =>
          rfl
      | ok callable =>
          apply duringCall_relabel
          intro machine
          exact alike.call callable values machine
  | property object name =>
      simp only [Expr.relabel, Machine.evaluate, alike.evaluate]
      apply Outcome.relabel_bind
      intro value machine
      cases value with
      | object target =>
          exact getProperty_relabel relabels machine target name
      | _ =>
          rfl
  | setProperty object name value =>
      simp only [Expr.relabel, Machine.evaluate, alike.evaluate]
      apply Outcome.relabel_bind
      intro target machine
      cases target with
      | object target =>
          simp only [Value.relabel, alike.evaluate, relabels.lexeme]
          apply Outcome.relabel_bind
          intro result machine
          rw [setField_relabel]
          rfl
      | _ =>
          rfl
  | receiver keyword distance =>
      simp only [Expr.relabel, Machine.evaluate]
      exact read_relabel relabels machine keyword distance
  | missing =>
      rfl

theorem evaluateAll_succ
    (alike : RunsAlike change fuel)
    (exprs : List Expr)
    (machine : Machine) :
    Machine.evaluateAll (fuel + 1) (Expr.relabelAll change exprs)
        (machine.relabel change) =
      (Machine.evaluateAll (fuel + 1) exprs machine).relabel change
        (List.map (Value.relabel change)) := by
  cases exprs with
  | nil =>
      rfl
  | cons first rest =>
      simp only [Expr.relabelAll, Machine.evaluateAll, alike.evaluate]
      apply Outcome.relabel_bind
      intro value machine
      rw [alike.evaluateAll]
      apply Outcome.relabel_bind
      intro values machine
      rfl

theorem call_succ
    (relabels : Relabels change)
    (alike : RunsAlike change fuel)
    (callable : Callable)
    (arguments : List Value)
    (machine : Machine) :
    Machine.call (fuel + 1) (callable.relabel change)
        (arguments.map (Value.relabel change)) (machine.relabel change) =
      (Machine.call (fuel + 1) callable arguments machine).relabel change
        (Value.relabel change) := by
  cases callable with
  | native host =>
      simp only [Callable.relabel, Machine.call,
        callNative_relabel relabels]
  | function closure =>
      exact alike.callFunction closure arguments machine
  | classValue members =>
      simp only [Callable.relabel, Machine.call, makeObject_relabel,
        ClassValue.initializer?_relabel]
      cases members.initializer? with
      | none =>
          rfl
      | some initializer =>
          simp only [Option.map, bindMethod_relabel, alike.callFunction]
          apply Outcome.relabel_bind
          intro value machine
          rfl

theorem callFunction_succ
    (relabels : Relabels change)
    (alike : RunsAlike change fuel)
    (closure : Closure)
    (arguments : List Value)
    (machine : Machine) :
    Machine.callFunction (fuel + 1) (closure.relabel change)
        (arguments.map (Value.relabel change)) (machine.relabel change) =
      (Machine.callFunction (fuel + 1) closure arguments machine).relabel change
        (Value.relabel change) := by
  have function :
      (closure.relabel change).function = closure.function.relabel change :=
    rfl
  simp only [Machine.callFunction, function, parameterBindings_relabel relabels]
  rw [show (closure.relabel change).frame = closure.frame from rfl,
    inNewFrame_relabel machine closure.frame _ fun machine => by
      rw [FunctionDecl.body_relabel]
      exact alike.executeAll closure.function.body machine]
  apply Outcome.relabel_bind
  intro flow machine
  rw [show (closure.relabel change).isInitializer = closure.isInitializer
    from rfl]
  split
  · rw [receiverOf_relabel]
    rfl
  · cases flow <;> rfl

/-- The branch that a condition chooses. -/
theorem branch
    (alike : RunsAlike change fuel)
    (consequent : Stmt)
    (alternative : Option Stmt)
    (result : Value)
    (machine : Machine) :
    (if (result.relabel change).isTruthy = true then
        Machine.execute fuel (consequent.relabel change)
          (machine.relabel change)
      else
        match alternative.map (Stmt.relabel change) with
        | some alternative =>
            Machine.execute fuel alternative (machine.relabel change)
        | none =>
            .done .normal (machine.relabel change)) =
      Outcome.relabel change (Flow.relabel change)
        (if result.isTruthy = true then
          Machine.execute fuel consequent machine
        else
          match alternative with
          | some alternative =>
              Machine.execute fuel alternative machine
          | none =>
              .done .normal machine) := by
  rw [Value.isTruthy_relabel]
  split
  · exact alike.execute consequent machine
  · cases alternative with
    | none =>
        rfl
    | some stmt =>
        exact alike.execute stmt machine

theorem execute_succ
    (relabels : Relabels change)
    (alike : RunsAlike change fuel)
    (stmt : Stmt)
    (machine : Machine) :
    Machine.execute (fuel + 1) (stmt.relabel change) (machine.relabel change) =
      (Machine.execute (fuel + 1) stmt machine).relabel change
        (Flow.relabel change) := by
  cases stmt with
  | expression value =>
      simp only [Stmt.relabel, Machine.execute, alike.evaluate]
      apply Outcome.relabel_bind
      intro result machine
      rfl
  | print value =>
      simp only [Stmt.relabel, Machine.execute, alike.evaluate]
      apply Outcome.relabel_bind
      intro result machine
      rw [Value.display_relabel relabels]
      rfl
  | variableDecl name initial =>
      cases initial with
      | none =>
          simp only [Stmt.relabel, Machine.execute, relabels.lexeme,
            Option.map]
          exact congrArg _ (define_relabel machine name.lexeme .nil)
      | some value =>
          simp only [Stmt.relabel, Machine.execute, relabels.lexeme,
            Option.map, alike.evaluate]
          apply Outcome.relabel_bind
          intro result machine
          exact congrArg _ (define_relabel machine name.lexeme result)
  | block body =>
      simp only [Stmt.relabel, Machine.execute]
      apply inNewFrame_relabel machine machine.current []
      exact alike.executeAll body
  | conditional condition consequent alternative =>
      have chosen := alike.branch consequent alternative
      cases alternative <;>
        simp only [Stmt.relabel, Machine.execute, alike.evaluate] <;>
        exact Outcome.relabel_bind chosen
  | loop condition body =>
      exact alike.repeatWhile condition body machine
  | functionDecl function =>
      simp only [Stmt.relabel, Machine.execute,
        declareFunction_relabel relabels]
      rfl
  | returning keyword value =>
      cases value with
      | none =>
          rfl
      | some value =>
          simp only [Stmt.relabel, Machine.execute, Option.map, alike.evaluate]
          apply Outcome.relabel_bind
          intro result machine
          rfl
  | classDecl name methods =>
      simp only [Stmt.relabel, Machine.execute, declareClass_relabel relabels]
      rfl
  | missing =>
      rfl

theorem executeAll_succ
    (alike : RunsAlike change fuel)
    (stmts : List Stmt)
    (machine : Machine) :
    Machine.executeAll (fuel + 1) (Stmt.relabelAll change stmts)
        (machine.relabel change) =
      (Machine.executeAll (fuel + 1) stmts machine).relabel change
        (Flow.relabel change) := by
  cases stmts with
  | nil =>
      rfl
  | cons first rest =>
      simp only [Stmt.relabelAll, Machine.executeAll, alike.execute]
      apply Outcome.relabel_bind
      intro flow machine
      cases flow with
      | normal =>
          exact alike.executeAll rest machine
      | returning value =>
          rfl

theorem repeatWhile_succ
    (alike : RunsAlike change fuel)
    (condition : Expr)
    (body : Stmt)
    (machine : Machine) :
    Machine.repeatWhile (fuel + 1) (condition.relabel change)
        (body.relabel change) (machine.relabel change) =
      (Machine.repeatWhile (fuel + 1) condition body machine).relabel change
        (Flow.relabel change) := by
  simp only [Machine.repeatWhile, alike.evaluate]
  apply Outcome.relabel_bind
  intro value machine
  rw [Value.isTruthy_relabel]
  split
  · rw [alike.execute]
    apply Outcome.relabel_bind
    intro flow machine
    cases flow with
    | normal =>
        exact alike.repeatWhile condition body machine
    | returning value =>
        rfl
  · rfl

/-- Programs run alike with changed tokens, whatever the bound. -/
theorem all
    (relabels : Relabels change)
    (fuel : Nat) :
    RunsAlike change fuel := by
  induction fuel with
  | zero =>
      constructor <;> intros <;> rfl
  | succ fuel alike =>
      exact
        { evaluate := alike.evaluate_succ relabels
          evaluateAll := alike.evaluateAll_succ
          call := alike.call_succ relabels
          callFunction := alike.callFunction_succ relabels
          execute := alike.execute_succ relabels
          executeAll := alike.executeAll_succ
          repeatWhile := alike.repeatWhile_succ }

end RunsAlike

/-- A program on other lines runs in the same way at the top level. -/
theorem interpret_relabel
    (relabels : Relabels change)
    (fuel : Nat)
    (stmts : List Stmt)
    (machine : Machine) :
    interpret fuel (Stmt.relabelAll change stmts) (machine.relabel change) =
      (interpret fuel stmts machine).relabel change id := by
  have alike := RunsAlike.all relabels fuel
  induction stmts generalizing machine with
  | nil =>
      rfl
  | cons first rest inductionHypothesis =>
      simp only [Stmt.relabelAll, interpret, alike.execute]
      apply Outcome.relabel_bind
      intro flow machine
      exact inductionHypothesis machine

end Script.Machine
