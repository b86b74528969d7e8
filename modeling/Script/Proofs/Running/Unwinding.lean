import Script.Machine.Evaluate

namespace Script

/-!
# Running unwinds

However a piece of program ends, the machine behind it is in the frame in which it
was before, has as many calls under way, and has the same bound on calls.  A new
frame and a call are left on every way out of them.
-/

namespace Machine

/-- A machine that stands where another one stood: what a piece of program changes
only until it ends is the same. -/
structure Resumes (before after : Machine) : Prop where
  current : after.current = before.current
  depth : after.depth = before.depth
  callLimit : after.callLimit = before.callLimit

namespace Resumes

theorem refl (machine : Machine) : machine.Resumes machine :=
  ⟨rfl, rfl, rfl⟩

theorem trans
    {first second third : Machine}
    (earlier : first.Resumes second)
    (later : second.Resumes third) :
    first.Resumes third where
  current := later.current.trans earlier.current
  depth := later.depth.trans earlier.depth
  callLimit := later.callLimit.trans earlier.callLimit

end Resumes

end Machine

namespace Outcome

/-- However an outcome ended, its machine stands where one stood before. -/
def Unwinds
    (before : Machine) :
    Outcome α → Prop
  | .done _ after =>
      before.Resumes after
  | .stopped _ after =>
      before.Resumes after
  | .broken _ after =>
      before.Resumes after
  | .exhausted =>
      True

namespace Unwinds

variable {before middle : Machine}

theorem after
    {outcome : Outcome α}
    (resumes : before.Resumes middle)
    (unwinds : outcome.Unwinds middle) :
    outcome.Unwinds before := by
  cases outcome with
  | done | stopped | broken =>
      exact resumes.trans unwinds
  | exhausted =>
      trivial

theorem bind
    {outcome : Outcome α}
    {next : α → Machine → Outcome β}
    (first : outcome.Unwinds before)
    (second : ∀ value after, (next value after).Unwinds after) :
    (outcome.bind next).Unwinds before := by
  cases outcome with
  | done value after =>
      exact (second value after).after first
  | stopped | broken | exhausted =>
      exact first

theorem mapMachine
    {outcome : Outcome α}
    {change : Machine → Machine}
    (unwinds : outcome.Unwinds middle)
    (back : ∀ after, middle.Resumes after → before.Resumes (change after)) :
    (outcome.mapMachine change).Unwinds before := by
  cases outcome with
  | done | stopped | broken =>
      exact back _ unwinds
  | exhausted =>
      trivial

end Unwinds

end Outcome

namespace Machine

/-- A new frame is left however the piece in it ends. -/
theorem inNewFrame_unwinds
    (machine : Machine)
    (parent : Nat)
    (bindings : Bindings)
    {body : Machine → Outcome α}
    (inside : ∀ inner, (body inner).Unwinds inner) :
    (machine.inNewFrame parent bindings body).Unwinds machine := by
  refine (inside _).mapMachine fun after resumes => ?_
  exact ⟨rfl, resumes.depth, resumes.callLimit⟩

/-- A call is left however it ends. -/
theorem duringCall_unwinds
    (machine : Machine)
    {call : Machine → Outcome α}
    (inside : ∀ inner, (call inner).Unwinds inner) :
    (machine.duringCall call).Unwinds machine := by
  refine (inside _).mapMachine fun after resumes => ?_
  refine ⟨resumes.current, ?_, resumes.callLimit⟩
  show after.depth - 1 = machine.depth
  rw [resumes.depth]
  rfl

section Operations

variable (machine : Machine) (name : Token)

theorem settle_unwinds
    (operator : Token)
    (result : Except FaultCause Value) :
    (machine.settle operator result).Unwinds machine := by
  cases result <;> exact Resumes.refl machine

theorem readGlobal_unwinds : (machine.readGlobal name).Unwinds machine := by
  unfold readGlobal
  split <;> exact Resumes.refl machine

theorem read_unwinds (distance : Option Nat) :
    (machine.read name distance).Unwinds machine := by
  cases distance with
  | none =>
      exact machine.readGlobal_unwinds name
  | some distance =>
      rw [read]
      split <;> exact Resumes.refl machine

theorem writeGlobal_unwinds (value : Value) :
    (machine.writeGlobal name value).Unwinds machine := by
  unfold writeGlobal
  split <;> exact ⟨rfl, rfl, rfl⟩

theorem assign_unwinds
    (distance : Option Nat)
    (value : Value) :
    (machine.assign name distance value).Unwinds machine := by
  cases distance with
  | none =>
      exact machine.writeGlobal_unwinds name value
  | some distance =>
      rw [assign]
      split <;> exact ⟨rfl, rfl, rfl⟩

theorem getProperty_unwinds (object : Object) :
    (machine.getProperty object name).Unwinds machine := by
  unfold getProperty
  split
  · exact Resumes.refl machine
  · split
    · exact ⟨rfl, rfl, rfl⟩
    · exact Resumes.refl machine

theorem callNative_unwinds
    (native : Native)
    (arguments : List Value) :
    (machine.callNative native arguments).Unwinds machine := by
  cases native <;> exact ⟨rfl, rfl, rfl⟩

theorem makeMethods_resumes (functions : List FunctionDecl) :
    machine.Resumes (machine.makeMethods functions).2 := by
  induction functions generalizing machine with
  | nil =>
      exact Resumes.refl machine
  | cons function rest inductionHypothesis =>
      have made :
          machine.Resumes
            (machine.makeClosure function
              (function.name.lexeme == Text.utf8 "init")).2 :=
        ⟨rfl, rfl, rfl⟩
      exact made.trans (inductionHypothesis _)

theorem declareClass_resumes (functions : List FunctionDecl) :
    machine.Resumes (machine.declareClass name functions) :=
  (machine.makeMethods_resumes functions).trans ⟨rfl, rfl, rfl⟩

end Operations

/-- Within a bound, every piece of program unwinds. -/
structure AllUnwind (fuel : Nat) : Prop where
  evaluate : ∀ expr machine, (evaluate fuel expr machine).Unwinds machine
  evaluateAll : ∀ exprs machine,
    (evaluateAll fuel exprs machine).Unwinds machine
  call : ∀ callable arguments machine,
    (call fuel callable arguments machine).Unwinds machine
  callFunction : ∀ closure arguments machine,
    (callFunction fuel closure arguments machine).Unwinds machine
  execute : ∀ stmt machine, (execute fuel stmt machine).Unwinds machine
  executeAll : ∀ stmts machine, (executeAll fuel stmts machine).Unwinds machine
  repeatWhile : ∀ condition body machine,
    (repeatWhile fuel condition body machine).Unwinds machine

namespace AllUnwind

variable {fuel : Nat}

theorem evaluate_succ
    (smaller : AllUnwind fuel)
    (expr : Expr)
    (machine : Machine) :
    (Machine.evaluate (fuel + 1) expr machine).Unwinds machine := by
  cases expr with
  | literal value =>
      exact Resumes.refl machine
  | group inner =>
      exact smaller.evaluate inner machine
  | unary operator operand =>
      exact (smaller.evaluate operand machine).bind fun value after =>
        settle_unwinds after operator _
  | binary left operator right =>
      exact (smaller.evaluate left machine).bind fun leftValue middle =>
        (smaller.evaluate right middle).bind fun rightValue after =>
          settle_unwinds after operator _
  | logical left operator right =>
      refine (smaller.evaluate left machine).bind fun value after => ?_
      split
      · exact Resumes.refl after
      · exact smaller.evaluate right after
  | reference name distance =>
      exact read_unwinds machine name distance
  | assign name value distance =>
      exact (smaller.evaluate value machine).bind fun value after =>
        assign_unwinds after name distance value
  | call callee closing arguments =>
      refine (smaller.evaluate callee machine).bind fun value middle => ?_
      refine (smaller.evaluateAll arguments middle).bind fun values after => ?_
      split
      · exact Resumes.refl after
      · exact duringCall_unwinds after fun inner =>
          smaller.call _ values inner
  | property object name =>
      refine (smaller.evaluate object machine).bind fun value after => ?_
      split
      · exact getProperty_unwinds after name _
      · exact Resumes.refl after
  | setProperty object name value =>
      refine (smaller.evaluate object machine).bind fun target middle => ?_
      split
      · exact (smaller.evaluate value middle).bind fun value after =>
          ⟨rfl, rfl, rfl⟩
      · exact Resumes.refl middle
  | receiver keyword distance =>
      exact read_unwinds machine keyword distance
  | missing =>
      exact Resumes.refl machine

theorem evaluateAll_succ
    (smaller : AllUnwind fuel)
    (exprs : List Expr)
    (machine : Machine) :
    (Machine.evaluateAll (fuel + 1) exprs machine).Unwinds machine := by
  cases exprs with
  | nil =>
      exact Resumes.refl machine
  | cons first rest =>
      exact (smaller.evaluate first machine).bind fun value middle =>
        (smaller.evaluateAll rest middle).bind fun values after =>
          Resumes.refl after

theorem call_succ
    (smaller : AllUnwind fuel)
    (callable : Callable)
    (arguments : List Value)
    (machine : Machine) :
    (Machine.call (fuel + 1) callable arguments machine).Unwinds machine := by
  cases callable with
  | native host =>
      exact machine.callNative_unwinds host arguments
  | function closure =>
      exact smaller.callFunction closure arguments machine
  | classValue members =>
      rw [Machine.call]
      have made : machine.Resumes (machine.makeObject members).2 :=
        ⟨rfl, rfl, rfl⟩
      dsimp only
      split
      · exact made
      · rename_i initializer _
        have bound :
            machine.Resumes
              ((machine.makeObject members).2.bindMethod initializer
                (machine.makeObject members).1).2 :=
          ⟨rfl, rfl, rfl⟩
        exact ((smaller.callFunction _ arguments _).after bound).bind
          fun value after => Resumes.refl after

theorem callFunction_succ
    (smaller : AllUnwind fuel)
    (closure : Closure)
    (arguments : List Value)
    (machine : Machine) :
    (Machine.callFunction (fuel + 1) closure arguments machine).Unwinds
      machine := by
  rw [Machine.callFunction]
  have inside :=
    inNewFrame_unwinds machine closure.frame
      (parameterBindings closure.function arguments) fun inner =>
        smaller.executeAll closure.function.body inner
  refine inside.bind fun flow after => ?_
  split <;> exact Resumes.refl after

theorem execute_succ
    (smaller : AllUnwind fuel)
    (stmt : Stmt)
    (machine : Machine) :
    (Machine.execute (fuel + 1) stmt machine).Unwinds machine := by
  cases stmt with
  | expression value =>
      exact (smaller.evaluate value machine).bind fun value after =>
        Resumes.refl after
  | print value =>
      exact (smaller.evaluate value machine).bind fun value after =>
        ⟨rfl, rfl, rfl⟩
  | variableDecl name initial =>
      cases initial with
      | none =>
          exact ⟨rfl, rfl, rfl⟩
      | some value =>
          exact (smaller.evaluate value machine).bind fun value after =>
            ⟨rfl, rfl, rfl⟩
  | block body =>
      exact inNewFrame_unwinds machine machine.current [] fun inner =>
        smaller.executeAll body inner
  | conditional condition consequent alternative =>
      refine (smaller.evaluate condition machine).bind fun value after => ?_
      split
      · exact smaller.execute consequent after
      · split
        · exact smaller.execute _ after
        · exact Resumes.refl after
  | loop condition body =>
      exact smaller.repeatWhile condition body machine
  | functionDecl function =>
      exact ⟨rfl, rfl, rfl⟩
  | returning keyword value =>
      cases value with
      | none =>
          exact Resumes.refl machine
      | some value =>
          exact (smaller.evaluate value machine).bind fun value after =>
            Resumes.refl after
  | classDecl name methods =>
      exact declareClass_resumes machine name methods
  | missing =>
      exact Resumes.refl machine

theorem executeAll_succ
    (smaller : AllUnwind fuel)
    (stmts : List Stmt)
    (machine : Machine) :
    (Machine.executeAll (fuel + 1) stmts machine).Unwinds machine := by
  cases stmts with
  | nil =>
      exact Resumes.refl machine
  | cons first rest =>
      refine (smaller.execute first machine).bind fun flow after => ?_
      split
      · exact smaller.executeAll rest after
      · exact Resumes.refl after

theorem repeatWhile_succ
    (smaller : AllUnwind fuel)
    (condition : Expr)
    (body : Stmt)
    (machine : Machine) :
    (Machine.repeatWhile (fuel + 1) condition body machine).Unwinds
      machine := by
  rw [Machine.repeatWhile]
  refine (smaller.evaluate condition machine).bind fun value middle => ?_
  split
  · refine (smaller.execute body middle).bind fun flow after => ?_
    split
    · exact smaller.repeatWhile condition body after
    · exact Resumes.refl after
  · exact Resumes.refl middle

/-- Every piece of program unwinds, whatever the bound. -/
theorem all (fuel : Nat) : AllUnwind fuel := by
  induction fuel with
  | zero =>
      constructor <;> intros <;> trivial
  | succ fuel smaller =>
      exact
        { evaluate := smaller.evaluate_succ
          evaluateAll := smaller.evaluateAll_succ
          call := smaller.call_succ
          callFunction := smaller.callFunction_succ
          execute := smaller.execute_succ
          executeAll := smaller.executeAll_succ
          repeatWhile := smaller.repeatWhile_succ }

end AllUnwind

/-- Statements at the top level unwind. -/
theorem interpret_unwinds
    (fuel : Nat)
    (stmts : List Stmt)
    (machine : Machine) :
    (interpret fuel stmts machine).Unwinds machine := by
  induction stmts generalizing machine with
  | nil =>
      exact Resumes.refl machine
  | cons first rest inductionHypothesis =>
      exact ((AllUnwind.all fuel).execute first machine).bind fun _ after =>
        inductionHypothesis after

end Machine

end Script
