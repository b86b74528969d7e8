import Script.Proofs.Alignment.Operation

namespace Script.Machine

/-!
# Evaluation of aligned programs

Aligned programs run in step with one another.  From machines that are alike they lead
to machines that are alike, give values that are alike, and stop with the same fault: a
use that is renamed has a distance, so that it is never reported as undefined.
-/

/-- Within a bound, every piece of program runs in step with one that is aligned. -/
structure RunsAligned
    (change : Change)
    (fuel : Nat) :
    Prop where
  evaluate : ∀ {links outline expr otherExpr machine other},
    machine.Alike change links outline other →
    Expr.Aligned change outline expr otherExpr →
    (evaluate fuel expr machine).Alike change links outline (Value.Alike change)
      (evaluate fuel otherExpr other)
  evaluateAll : ∀ {links outline exprs otherExprs machine other},
    machine.Alike change links outline other →
    Expr.AllAligned change outline exprs otherExprs →
    (evaluateAll fuel exprs machine).Alike change links outline
      (fun longer => List.Forall₂ (Value.Alike change longer))
      (evaluateAll fuel otherExprs other)
  call : ∀ {links outline callable otherCallable arguments otherArguments
      machine other},
    machine.Alike change links outline other →
    Callable.Alike change links callable otherCallable →
    List.Forall₂ (Value.Alike change links) arguments otherArguments →
    (call fuel callable arguments machine).Alike change links outline
      (Value.Alike change)
      (call fuel otherCallable otherArguments other)
  callFunction : ∀ {links outline closure otherClosure arguments
      otherArguments machine other},
    machine.Alike change links outline other →
    Closure.Alike change links [] closure otherClosure →
    List.Forall₂ (Value.Alike change links) arguments otherArguments →
    (callFunction fuel closure arguments machine).Alike change links outline
      (Value.Alike change) (callFunction fuel otherClosure otherArguments other)
  execute : ∀ {links outline stmt otherStmt machine other},
    machine.Alike change links outline other →
    Stmt.Aligned change outline stmt otherStmt →
    (execute fuel stmt machine).Alike change links outline (Flow.Alike change)
      (execute fuel otherStmt other)
  executeAll : ∀ {links outline stmts otherStmts machine other},
    machine.Alike change links outline other →
    Stmt.AllAligned change outline stmts otherStmts →
    (executeAll fuel stmts machine).Alike change links outline (Flow.Alike change)
      (executeAll fuel otherStmts other)
  repeatWhile : ∀ {links outline condition otherCondition body otherBody
      machine other},
    machine.Alike change links outline other →
    Expr.Aligned change outline condition otherCondition →
    Stmt.Aligned change outline body otherBody →
    (repeatWhile fuel condition body machine).Alike change links outline
      (Flow.Alike change)
      (repeatWhile fuel otherCondition otherBody other)

namespace RunsAligned

variable {change : Change} {fuel : Nat} {links : Links} {outline : Outline}
variable {machine other : Machine}

theorem evaluate_succ
    (inStep : RunsAligned change fuel)
    {expr otherExpr : Expr}
    (alike : machine.Alike change links outline other)
    (exprs : Expr.Aligned change outline expr otherExpr) :
    (Machine.evaluate (fuel + 1) expr machine).Alike change links outline
      (Value.Alike change)
      (Machine.evaluate (fuel + 1) otherExpr other) := by
  cases exprs with
  | literal value =>
      exact alike.done (Value.isPlain_ofLiteral value).alike
  | group inner =>
      exact inStep.evaluate alike inner
  | unary operator operand =>
      simp only [Machine.evaluate]
      refine (inStep.evaluate alike operand).bind ?_
      intro longer value otherValue machine other _ machines values
      rw [values.unary_eq]
      exact machines.settle operator fun _ => Value.isPlain_of_unary
  | binary operator left right =>
      simp only [Machine.evaluate]
      refine (inStep.evaluate alike left).bind ?_
      intro longer first otherFirst machine other _ machines firstAlike
      refine (inStep.evaluate machines right).bind ?_
      intro longest second otherSecond machine other later machines secondAlike
      rw [(firstAlike.extend later).binary_eq _ secondAlike]
      exact machines.settle operator fun _ => Value.isPlain_of_binary
  | logical operator left right =>
      simp only [Machine.evaluate]
      refine (inStep.evaluate alike left).bind ?_
      intro longer value otherValue machine other _ machines values
      rw [values.decides_eq]
      split
      · exact machines.done values
      · exact inStep.evaluate machines right
  | reference meets avoids =>
      exact alike.read meets avoids
  | assign value meets avoids =>
      simp only [Machine.evaluate]
      refine (inStep.evaluate alike value).bind ?_
      intro longer result otherResult machine other _ machines values
      exact machines.assign meets avoids values
  | call closing callee arguments =>
      simp only [Machine.evaluate]
      refine (inStep.evaluate alike callee).bind ?_
      intro longer value otherValue machine other _ machines values
      refine (inStep.evaluateAll machines arguments).bind ?_
      intro longest results otherResults machine other later machines allValues
      have chosen := machines.callee (values.extend later) results.length
      rw [← allValues.length_eq]
      rcases chosen with ⟨cause, before, after⟩ |
        ⟨callable, otherCallable, before, after, callables⟩
      · rw [before, after]
        exact machines.stopped _
      · rw [before, after]
        exact machines.duringCall fun _ _ inside =>
          inStep.call inside callables allValues
  | property name object =>
      simp only [Machine.evaluate]
      refine (inStep.evaluate alike object).bind ?_
      intro longer value otherValue machine other _ machines values
      cases values with
      | object objects =>
          exact machines.getProperty objects name
      | _ =>
          exact machines.stopped _
  | setProperty name object value =>
      simp only [Machine.evaluate]
      refine (inStep.evaluate alike object).bind ?_
      intro longer target otherTarget machine other _ machines targets
      cases targets with
      | object objects =>
          refine (inStep.evaluate machines value).bind ?_
          intro longest result otherResult machine other later machines values
          exact (machines.setField (objects.extend later) name.lexeme
            values).done values
      | _ =>
          exact machines.stopped _
  | receiver meets keeps =>
      have values := alike.read meets keeps.avoids
      rwa [keeps.token] at values
  | missing =>
      exact alike.broken _

theorem evaluateAll_succ
    (inStep : RunsAligned change fuel)
    {exprs otherExprs : List Expr}
    (alike : machine.Alike change links outline other)
    (all : Expr.AllAligned change outline exprs otherExprs) :
    (Machine.evaluateAll (fuel + 1) exprs machine).Alike change links outline
      (fun longer => List.Forall₂ (Value.Alike change longer))
      (Machine.evaluateAll (fuel + 1) otherExprs other) := by
  cases all with
  | nil =>
      exact alike.done .nil
  | cons first rest =>
      simp only [Machine.evaluateAll]
      refine (inStep.evaluate alike first).bind ?_
      intro longer value otherValue machine other _ machines valueAlike
      refine (inStep.evaluateAll machines rest).bind ?_
      intro longest values otherValues machine other later machines valuesAlike
      exact machines.done (.cons (valueAlike.extend later) valuesAlike)

theorem call_succ
    (inStep : RunsAligned change fuel)
    {callable otherCallable : Callable}
    {arguments otherArguments : List Value}
    (alike : machine.Alike change links outline other)
    (callables : Callable.Alike change links callable otherCallable)
    (values : List.Forall₂ (Value.Alike change links) arguments otherArguments) :
    (Machine.call (fuel + 1) callable arguments machine).Alike change links outline
      (Value.Alike change)
      (Machine.call (fuel + 1) otherCallable otherArguments other) := by
  cases callables with
  | native host =>
      exact alike.callNative host values
  | function closures =>
      exact inStep.callFunction alike closures values
  | @classValue members otherMembers classes =>
      obtain ⟨objects, machines⟩ := alike.makeObject classes
      have initializers := classes.method? (Text.utf8 "init")
      simp only [Machine.call, ClassValue.initializer?]
      generalize members.method? (Text.utf8 "init") = initializer,
        otherMembers.method? (Text.utf8 "init") = otherInitializer
        at initializers ⊢
      cases initializers with
      | none =>
          exact machines.done (.object objects)
      | some closures =>
          obtain ⟨longer, within, bound, boundMachines⟩ :=
            machines.bindMethod closures objects
          have called :=
            inStep.callFunction boundMachines bound
              (Value.Alike.extend_list values within)
          refine .widen within (called.bind ?_)
          intro longest _ _ machine other later machines _
          exact machines.done (.object (objects.extend (within.trans later)))

theorem callFunction_succ
    (proper : change.IsProper)
    (inStep : RunsAligned change fuel)
    {closure otherClosure : Closure}
    {arguments otherArguments : List Value}
    (alike : machine.Alike change links outline other)
    (closures : closure.Alike change links [] otherClosure)
    (values :
      List.Forall₂ (Value.Alike change links) arguments otherArguments) :
    (Machine.callFunction (fuel + 1) closure arguments machine).Alike change
      links outline (Value.Alike change)
      (Machine.callFunction (fuel + 1) otherClosure otherArguments other) := by
  obtain ⟨around, _, linked, -, functions⟩ := closures.function
  rw [List.nil_append] at functions
  simp only [Machine.callFunction]
  rw [closures.isInitializer]
  have ran :
      (machine.inNewFrame closure.frame
          (parameterBindings closure.function arguments)
          (Machine.executeAll fuel closure.function.body)).Alike change links
        outline (Flow.Alike change)
        (other.inNewFrame otherClosure.frame
          (parameterBindings otherClosure.function otherArguments)
          (Machine.executeAll fuel otherClosure.function.body)) := by
    generalize closure.function = function,
      otherClosure.function = otherFunction at functions ⊢
    cases functions with
    | mk marked name avoids body =>
        have fresh := fun parameter member =>
          (avoids parameter member).fresh (.here marked around)
        refine alike.inNewFrame linked
          (.foldl_set values fresh (.nil change links marked)) ?_
        intro longer machine other machines
        exact inStep.executeAll machines body
  refine ran.bind ?_
  intro longer flow otherFlow machine other later machines flows
  split
  · exact machines.done (machines.receiverOf proper (closures.extend later))
  · exact machines.done flows.result

theorem execute_succ
    (inStep : RunsAligned change fuel)
    {stmt otherStmt : Stmt}
    (alike : machine.Alike change links outline other)
    (stmts : Stmt.Aligned change outline stmt otherStmt) :
    (Machine.execute (fuel + 1) stmt machine).Alike change links outline
      (Flow.Alike change)
      (Machine.execute (fuel + 1) otherStmt other) := by
  cases stmts with
  | expression value =>
      simp only [Machine.execute]
      refine (inStep.evaluate alike value).bind ?_
      intro longer result otherResult machine other _ machines _
      exact machines.done .normal
  | print value =>
      simp only [Machine.execute]
      refine (inStep.evaluate alike value).bind ?_
      intro longer result otherResult machine other _ machines values
      rw [values.display_eq]
      exact (machines.print _).done .normal
  | variableDecl common avoids initial =>
      cases initial with
      | absent =>
          simp only [Machine.execute]
          exact (alike.define common avoids .nil).done .normal
      | present value =>
          simp only [Machine.execute]
          refine (inStep.evaluate alike value).bind ?_
          intro longer result otherResult machine other _ machines values
          exact (machines.define common avoids values).done .normal
  | block marked body =>
      simp only [Machine.execute]
      refine alike.inNewFrame alike.here (.nil change links marked) ?_
      intro longer machine other machines
      exact inStep.executeAll machines body
  | conditional condition consequent =>
      simp only [Machine.execute]
      refine (inStep.evaluate alike condition).bind ?_
      intro longer result otherResult machine other _ machines values
      rw [values.isTruthy_eq]
      split
      · exact inStep.execute machines consequent
      · exact machines.done .normal
  | choice condition consequent alternative =>
      simp only [Machine.execute]
      refine (inStep.evaluate alike condition).bind ?_
      intro longer result otherResult machine other _ machines values
      rw [values.isTruthy_eq]
      split
      · exact inStep.execute machines consequent
      · exact inStep.execute machines alternative
  | loop condition body =>
      exact inStep.repeatWhile alike condition body
  | functionDecl common keeps function =>
      exact (alike.declareFunction common keeps function).done .normal
  | returning keyword value =>
      cases value with
      | absent =>
          exact alike.done (.returning .nil)
      | present value =>
          simp only [Machine.execute]
          refine (inStep.evaluate alike value).bind ?_
          intro longer result otherResult machine other _ machines values
          exact machines.done (.returning values)
  | classDecl common keeps methods =>
      exact (alike.declareClass common keeps methods).done .normal
  | missing =>
      exact alike.broken _

theorem executeAll_succ
    (inStep : RunsAligned change fuel)
    {stmts otherStmts : List Stmt}
    (alike : machine.Alike change links outline other)
    (all : Stmt.AllAligned change outline stmts otherStmts) :
    (Machine.executeAll (fuel + 1) stmts machine).Alike change links outline
      (Flow.Alike change) (Machine.executeAll (fuel + 1) otherStmts other) := by
  cases all with
  | nil =>
      exact alike.done .normal
  | cons first rest =>
      simp only [Machine.executeAll]
      refine (inStep.execute alike first).bind ?_
      intro longer flow otherFlow machine other _ machines flows
      cases flows with
      | normal =>
          exact inStep.executeAll machines rest
      | returning values =>
          exact machines.done (.returning values)

theorem repeatWhile_succ
    (inStep : RunsAligned change fuel)
    {condition otherCondition : Expr}
    {body otherBody : Stmt}
    (alike : machine.Alike change links outline other)
    (conditions : Expr.Aligned change outline condition otherCondition)
    (bodies : Stmt.Aligned change outline body otherBody) :
    (Machine.repeatWhile (fuel + 1) condition body machine).Alike change links outline
      (Flow.Alike change)
      (Machine.repeatWhile (fuel + 1) otherCondition otherBody other) := by
  simp only [Machine.repeatWhile]
  refine (inStep.evaluate alike conditions).bind ?_
  intro longer value otherValue machine other _ machines values
  rw [values.isTruthy_eq]
  split
  · refine (inStep.execute machines bodies).bind ?_
    intro longest flow otherFlow machine other _ machines flows
    cases flows with
    | normal =>
        exact inStep.repeatWhile machines conditions bodies
    | returning values =>
        exact machines.done (.returning values)
  · exact machines.done .normal

/-- Aligned programs run in step with one another, whatever the bound. -/
theorem all
    (proper : change.IsProper)
    (fuel : Nat) :
    RunsAligned change fuel := by
  induction fuel with
  | zero =>
      constructor <;> intros <;> exact .exhausted
  | succ fuel inStep =>
      exact
        { evaluate := inStep.evaluate_succ
          evaluateAll := inStep.evaluateAll_succ
          call := inStep.call_succ
          callFunction := inStep.callFunction_succ proper
          execute := inStep.execute_succ
          executeAll := inStep.executeAll_succ
          repeatWhile := inStep.repeatWhile_succ }

end RunsAligned

/-- Aligned programs run in step with one another at the top level. -/
theorem interpret_aligned
    {change : Change}
    (proper : change.IsProper)
    (fuel : Nat)
    {stmts otherStmts : List Stmt}
    {links : Links}
    {outline : Outline}
    {machine other : Machine}
    (alike : machine.Alike change links outline other)
    (all : Stmt.AllAligned change outline stmts otherStmts) :
    (interpret fuel stmts machine).Alike change links outline (fun _ => Eq)
      (interpret fuel otherStmts other) := by
  induction stmts generalizing links machine other otherStmts with
  | nil =>
      cases all
      exact alike.done rfl
  | cons first rest inductionHypothesis =>
      cases all with
      | cons firstAligned restAligned =>
          simp only [interpret]
          refine ((RunsAligned.all proper fuel).execute alike firstAligned).bind ?_
          intro longer flow otherFlow machine other _ machines _
          exact inductionHypothesis machines restAligned

end Script.Machine
