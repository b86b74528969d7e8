import Script.Machine.Evaluate

namespace Script

/-!
# Greater bounds

A piece of program that comes to its end within one bound on the length of chains has
the same outcome within every greater one.
-/

namespace Outcome

/-- What an outcome may be within a greater bound: the same, or anything if the bound
was too small. -/
inductive Below : Outcome α → Outcome α → Prop where
  | exhausted
      (outcome : Outcome α) :
      Below .exhausted outcome
  | same
      (outcome : Outcome α) :
      Below outcome outcome

namespace Below

theorem trans
    {first second third : Outcome α}
    (earlier : first.Below second)
    (later : second.Below third) :
    first.Below third := by
  cases earlier with
  | exhausted =>
      exact .exhausted third
  | same =>
      exact later

theorem bind
    {outcome greater : Outcome α}
    {next greaterNext : α → Machine → Outcome β}
    (first : outcome.Below greater)
    (second : ∀ value machine,
      (next value machine).Below (greaterNext value machine)) :
    (outcome.bind next).Below (greater.bind greaterNext) := by
  cases first with
  | exhausted =>
      exact .exhausted _
  | same =>
      cases outcome with
      | done value machine =>
          exact second value machine
      | stopped | broken | exhausted =>
          exact .same _

theorem mapMachine
    {outcome greater : Outcome α}
    (below : outcome.Below greater)
    (change : Machine → Machine) :
    (outcome.mapMachine change).Below (greater.mapMachine change) := by
  cases below with
  | exhausted =>
      exact .exhausted _
  | same =>
      exact .same _

/-- An outcome that is not exhausted is final. -/
theorem eq
    {outcome greater : Outcome α}
    (below : outcome.Below greater)
    (ended : outcome ≠ .exhausted) :
    greater = outcome := by
  cases below with
  | exhausted =>
      exact (ended rfl).elim
  | same =>
      rfl

end Below

end Outcome

namespace Machine

/-- Every piece of program may do no less with one unit more. -/
structure AllBelow (fuel : Nat) : Prop where
  evaluate : ∀ expr machine,
    (evaluate fuel expr machine).Below (evaluate (fuel + 1) expr machine)
  evaluateAll : ∀ exprs machine,
    (evaluateAll fuel exprs machine).Below
      (evaluateAll (fuel + 1) exprs machine)
  call : ∀ callable arguments machine,
    (call fuel callable arguments machine).Below
      (call (fuel + 1) callable arguments machine)
  callFunction : ∀ closure arguments machine,
    (callFunction fuel closure arguments machine).Below
      (callFunction (fuel + 1) closure arguments machine)
  execute : ∀ stmt machine,
    (execute fuel stmt machine).Below (execute (fuel + 1) stmt machine)
  executeAll : ∀ stmts machine,
    (executeAll fuel stmts machine).Below
      (executeAll (fuel + 1) stmts machine)
  repeatWhile : ∀ condition body machine,
    (repeatWhile fuel condition body machine).Below
      (repeatWhile (fuel + 1) condition body machine)

namespace AllBelow

variable {fuel : Nat}

theorem evaluate_succ
    (smaller : AllBelow fuel)
    (expr : Expr)
    (machine : Machine) :
    (Machine.evaluate (fuel + 1) expr machine).Below
      (Machine.evaluate (fuel + 2) expr machine) := by
  rw [Machine.evaluate.eq_def, Machine.evaluate.eq_def (fuel + 2)]
  cases expr with
  | literal | reference | receiver | missing =>
      exact .same _
  | group inner =>
      exact smaller.evaluate inner machine
  | unary operator operand =>
      exact (smaller.evaluate operand machine).bind fun _ _ => .same _
  | binary left operator right =>
      exact (smaller.evaluate left machine).bind fun _ middle =>
        (smaller.evaluate right middle).bind fun _ _ => .same _
  | logical left operator right =>
      refine (smaller.evaluate left machine).bind fun _ after => ?_
      split
      · exact .same _
      · exact smaller.evaluate right after
  | assign name value distance =>
      exact (smaller.evaluate value machine).bind fun _ _ => .same _
  | call callee closing arguments =>
      refine (smaller.evaluate callee machine).bind fun _ middle => ?_
      refine (smaller.evaluateAll arguments middle).bind fun values after => ?_
      split
      · exact .same _
      · exact (smaller.call _ values _).mapMachine _
  | property object name =>
      exact (smaller.evaluate object machine).bind fun _ _ => .same _
  | setProperty object name value =>
      refine (smaller.evaluate object machine).bind fun _ middle => ?_
      split
      · exact (smaller.evaluate value middle).bind fun _ _ => .same _
      · exact .same _

theorem evaluateAll_succ
    (smaller : AllBelow fuel)
    (exprs : List Expr)
    (machine : Machine) :
    (Machine.evaluateAll (fuel + 1) exprs machine).Below
      (Machine.evaluateAll (fuel + 2) exprs machine) := by
  rw [Machine.evaluateAll.eq_def, Machine.evaluateAll.eq_def (fuel + 2)]
  cases exprs with
  | nil =>
      exact .same _
  | cons first rest =>
      exact (smaller.evaluate first machine).bind fun _ middle =>
        (smaller.evaluateAll rest middle).bind fun _ _ => .same _

theorem call_succ
    (smaller : AllBelow fuel)
    (callable : Callable)
    (arguments : List Value)
    (machine : Machine) :
    (Machine.call (fuel + 1) callable arguments machine).Below
      (Machine.call (fuel + 2) callable arguments machine) := by
  rw [Machine.call.eq_def, Machine.call.eq_def (fuel + 2)]
  cases callable with
  | native host =>
      exact .same _
  | function closure =>
      exact smaller.callFunction closure arguments machine
  | classValue members =>
      dsimp only
      split
      · exact .same _
      · exact (smaller.callFunction _ arguments _).bind fun _ _ => .same _

theorem callFunction_succ
    (smaller : AllBelow fuel)
    (closure : Closure)
    (arguments : List Value)
    (machine : Machine) :
    (Machine.callFunction (fuel + 1) closure arguments machine).Below
      (Machine.callFunction (fuel + 2) closure arguments machine) := by
  rw [Machine.callFunction.eq_def, Machine.callFunction.eq_def (fuel + 2)]
  exact ((smaller.executeAll closure.function.body _).mapMachine _).bind
    fun _ _ => .same _

theorem execute_succ
    (smaller : AllBelow fuel)
    (stmt : Stmt)
    (machine : Machine) :
    (Machine.execute (fuel + 1) stmt machine).Below
      (Machine.execute (fuel + 2) stmt machine) := by
  rw [Machine.execute.eq_def, Machine.execute.eq_def (fuel + 2)]
  cases stmt with
  | expression value | print value =>
      exact (smaller.evaluate value machine).bind fun _ _ => .same _
  | variableDecl name initial =>
      cases initial with
      | none =>
          exact .same _
      | some initial =>
          exact (smaller.evaluate initial machine).bind fun _ _ => .same _
  | block body =>
      exact (smaller.executeAll body _).mapMachine _
  | conditional condition consequent alternative =>
      refine (smaller.evaluate condition machine).bind fun _ after => ?_
      split
      · exact smaller.execute consequent after
      · cases alternative with
        | none =>
            exact .same _
        | some alternative =>
            exact smaller.execute alternative after
  | loop condition body =>
      exact smaller.repeatWhile condition body machine
  | returning keyword value =>
      cases value with
      | none =>
          exact .same _
      | some value =>
          exact (smaller.evaluate value machine).bind fun _ _ => .same _
  | functionDecl | classDecl | missing =>
      exact .same _

theorem executeAll_succ
    (smaller : AllBelow fuel)
    (stmts : List Stmt)
    (machine : Machine) :
    (Machine.executeAll (fuel + 1) stmts machine).Below
      (Machine.executeAll (fuel + 2) stmts machine) := by
  rw [Machine.executeAll.eq_def, Machine.executeAll.eq_def (fuel + 2)]
  cases stmts with
  | nil =>
      exact .same _
  | cons first rest =>
      refine (smaller.execute first machine).bind fun flow after => ?_
      cases flow with
      | normal =>
          exact smaller.executeAll rest after
      | returning value =>
          exact .same _

theorem repeatWhile_succ
    (smaller : AllBelow fuel)
    (condition : Expr)
    (body : Stmt)
    (machine : Machine) :
    (Machine.repeatWhile (fuel + 1) condition body machine).Below
      (Machine.repeatWhile (fuel + 2) condition body machine) := by
  rw [Machine.repeatWhile.eq_def, Machine.repeatWhile.eq_def (fuel + 2)]
  refine (smaller.evaluate condition machine).bind fun _ middle => ?_
  split
  · refine (smaller.execute body middle).bind fun flow after => ?_
    cases flow with
    | normal =>
        exact smaller.repeatWhile condition body after
    | returning value =>
        exact .same _
  · exact .same _

/-- Every piece of program may do no less with one unit more, whatever the bound. -/
theorem all (fuel : Nat) : AllBelow fuel := by
  induction fuel with
  | zero =>
      constructor <;> intros <;> exact .exhausted _
  | succ fuel smaller =>
      exact
        { evaluate := smaller.evaluate_succ
          evaluateAll := smaller.evaluateAll_succ
          call := smaller.call_succ
          callFunction := smaller.callFunction_succ
          execute := smaller.execute_succ
          executeAll := smaller.executeAll_succ
          repeatWhile := smaller.repeatWhile_succ }

end AllBelow

/-- What grows with one unit more grows with any number of units more. -/
theorem below_of_le
    (piece : Nat → Outcome α)
    (grows : ∀ fuel, (piece fuel).Below (piece (fuel + 1)))
    {fuel more : Nat}
    (enough : fuel ≤ more) :
    (piece fuel).Below (piece more) := by
  induction enough with
  | refl =>
      exact .same _
  | step _ inductionHypothesis =>
      exact inductionHypothesis.trans (grows _)

variable {fuel more : Nat}

/-- An expression may do no less within a greater bound. -/
theorem evaluate_below
    (enough : fuel ≤ more)
    (expr : Expr)
    (machine : Machine) :
    (evaluate fuel expr machine).Below (evaluate more expr machine) :=
  below_of_le (fun fuel => evaluate fuel expr machine)
    (fun fuel => (AllBelow.all fuel).evaluate expr machine) enough

/-- A statement may do no less within a greater bound. -/
theorem execute_below
    (enough : fuel ≤ more)
    (stmt : Stmt)
    (machine : Machine) :
    (execute fuel stmt machine).Below (execute more stmt machine) :=
  below_of_le (fun fuel => execute fuel stmt machine)
    (fun fuel => (AllBelow.all fuel).execute stmt machine) enough

end Machine

end Script
