import Script.Proofs.Calls.Trace
import Script.Proofs.Running.Unwinding

namespace Script

/-!
# The bound on calls

A machine with a bound on calls does what the same machine does without it, up to
the first call that begins when as many calls as the bound allows are under way.
There it stops, in the state in which that call began but for the frames and the
calls that it leaves.
-/

namespace Machine

/-- A machine with a bound on calls. -/
def limited
    (machine : Machine)
    (limit : Nat) :
    Machine :=
  { machine with callLimit := some limit }

/-- A machine without a bound on calls. -/
def unlimited (machine : Machine) : Machine :=
  { machine with callLimit := none }

end Machine

namespace Outcome

/-- An outcome on a machine with a bound on calls. -/
def limited
    (limit : Nat)
    (outcome : Outcome α) :
    Outcome α :=
  outcome.mapMachine fun after => after.limited limit

end Outcome

namespace Machine

section Operations

variable (limit : Nat) (machine : Machine) (name : Token)

theorem settle_limited
    (operator : Token)
    (result : Except FaultCause Value) :
    (machine.limited limit).settle operator result =
      (machine.settle operator result).limited limit := by
  cases result <;> rfl

theorem readGlobal_limited :
    (machine.limited limit).readGlobal name =
      (machine.readGlobal name).limited limit := by
  simp only [readGlobal, limited]
  split <;> rfl

theorem read_limited (distance : Option Nat) :
    (machine.limited limit).read name distance =
      (machine.read name distance).limited limit := by
  cases distance with
  | none =>
      exact readGlobal_limited limit machine name
  | some distance =>
      simp only [read, limited]
      split <;> rfl

theorem writeGlobal_limited (value : Value) :
    (machine.limited limit).writeGlobal name value =
      (machine.writeGlobal name value).limited limit := by
  simp only [writeGlobal, limited]
  split <;> rfl

theorem assign_limited
    (distance : Option Nat)
    (value : Value) :
    (machine.limited limit).assign name distance value =
      (machine.assign name distance value).limited limit := by
  cases distance with
  | none =>
      exact writeGlobal_limited limit machine name value
  | some distance =>
      simp only [assign, limited]
      split <;> rfl

theorem getProperty_limited (object : Object) :
    (machine.limited limit).getProperty object name =
      (machine.getProperty object name).limited limit := by
  simp only [getProperty, limited]
  split
  · rfl
  · split <;> rfl

theorem callNative_limited
    (native : Native)
    (arguments : List Value) :
    (machine.limited limit).callNative native arguments =
      (machine.callNative native arguments).limited limit := by
  cases native <;> rfl

theorem makeMethods_limited (functions : List FunctionDecl) :
    (machine.limited limit).makeMethods functions =
      ((machine.makeMethods functions).1,
        (machine.makeMethods functions).2.limited limit) := by
  induction functions generalizing machine with
  | nil =>
      rfl
  | cons function rest inductionHypothesis =>
      have made :
          (machine.limited limit).makeClosure function
              (function.name.lexeme == Text.utf8 "init") =
            ((machine.makeClosure function
                (function.name.lexeme == Text.utf8 "init")).1,
              (machine.makeClosure function
                (function.name.lexeme == Text.utf8 "init")).2.limited
                  limit) :=
        rfl
      simp only [makeMethods, made, inductionHypothesis]

theorem declareClass_limited (functions : List FunctionDecl) :
    (machine.limited limit).declareClass name functions =
      (machine.declareClass name functions).limited limit := by
  simp only [declareClass, makeMethods_limited]
  rfl

/-- Without a bound, a callee is refused for what it is. -/
theorem callee_limited
    {machine : Machine}
    (unbounded : machine.callLimit = none)
    (limit : Nat)
    (value : Value)
    (given : Nat) :
    (machine.limited limit).callee value given =
      (machine.callee value given).bind fun callable =>
        if limit ≤ machine.depth then
          .error .tooManyCalls
        else
          .ok callable := by
  have notFull : machine.isFull = false := by
    rw [isFull, unbounded]
  unfold callee
  split
  · rfl
  · split
    · rfl
    · rw [notFull]
      by_cases full : limit ≤ machine.depth <;>
        simp [isFull, limited, Except.bind, full]

end Operations

end Machine

namespace Calls

/-- Events in which each call that begins also ends. -/
inductive Balanced : List Event → Prop where
  | nothing :
      Balanced []
  | call
      {inside : List Event}
      (call : Call)
      (balanced : Balanced inside) :
      Balanced (.began call :: (inside ++ [.ended]))
  | append
      {first second : List Event}
      (earlier : Balanced first)
      (later : Balanced second) :
      Balanced (first ++ second)

/-- The first call that begins when there is no room for it. -/
def excess?
    (room : Nat) :
    List Event → Option Call
  | [] =>
      none
  | .began call :: rest =>
      match room with
      | 0 =>
          some call
      | room + 1 =>
          excess? room rest
  | .ended :: rest =>
      excess? (room + 1) rest

/-- Behind calls that have ended there is as much room as before them. -/
theorem Balanced.excess?_append
    {first : List Event}
    (balanced : Balanced first)
    (room : Nat)
    (second : List Event) :
    excess? room (first ++ second) =
      (excess? room first).or (excess? room second) := by
  induction balanced generalizing room second with
  | nothing =>
      rfl
  | call call _ inductionHypothesis =>
      cases room with
      | zero =>
          rfl
      | succ room =>
          simp [excess?, inductionHypothesis]
  | append _ _ firstHypothesis secondHypothesis =>
      simp [firstHypothesis, secondHypothesis, Option.or_assoc]

section Ending

variable
  {traced : Traced α}
  (balanced : traced.outcome ≠ .exhausted → Balanced traced.events)

include balanced

theorem Balanced.enclose
    (came : traced.outcome ≠ .exhausted)
    (call : Call) :
    Balanced
      (.began call :: (traced.events ++ Traced.ending traced.outcome)) := by
  cases outcome : traced.outcome with
  | exhausted =>
      exact (came outcome).elim
  | done | stopped | broken =>
      exact (balanced came).call call

/-- The end of a call begins none. -/
theorem excess?_ending (room : Nat) :
    excess? room (traced.events ++ Traced.ending traced.outcome) =
      excess? room traced.events := by
  cases outcome : traced.outcome with
  | exhausted =>
      exact congrArg _ (List.append_nil _)
  | done | stopped | broken =>
      have came : traced.outcome ≠ .exhausted := by
        rw [outcome]
        nofun
      exact ((balanced came).excess?_append room [.ended]).trans
        (Option.or_none)

end Ending

/-- A machine that leaves the frames and the calls that were entered since an earlier
one, and that has a bound on calls. -/
def leave
    (limit : Nat)
    (before after : Machine) :
    Machine :=
  { after with
    callLimit := some limit
    current := before.current
    depth := before.depth }

/-- What comes of a piece on a machine with a bound on calls, in which the bound
refuses the call that was found. -/
def refuse
    (limit : Nat)
    (before : Machine)
    (found : Option Call)
    (outcome : Outcome α) :
    Outcome α :=
  match found with
  | none =>
      outcome.limited limit
  | some call =>
      .stopped { token := call.closing, cause := .tooManyCalls }
        (leave limit before call.machine)

/-- What comes of a traced piece on a machine with a bound on calls. -/
def Traced.limited
    (limit : Nat)
    (before : Machine)
    (traced : Traced α) :
    Outcome α :=
  refuse limit before (excess? (limit - before.depth) traced.events)
    traced.outcome

/-- A piece inside another one is refused with it. -/
theorem mapMachine_refuse
    {limit : Nat}
    {before inner : Machine}
    {change : Machine → Machine}
    (commutes : ∀ after,
      change (after.limited limit) = (change after).limited limit)
    (leaves : ∀ after, change (leave limit inner after) = leave limit before after)
    (found : Option Call)
    (outcome : Outcome α) :
    (refuse limit inner found outcome).mapMachine change =
      refuse limit before found (outcome.mapMachine change) := by
  cases found with
  | some call =>
      exact congrArg (Outcome.stopped _) (leaves call.machine)
  | none =>
      cases outcome with
      | done value after =>
          exact congrArg (Outcome.done value) (commutes after)
      | stopped fault after =>
          exact congrArg (Outcome.stopped fault) (commutes after)
      | broken breakage after =>
          exact congrArg (Outcome.broken breakage) (commutes after)
      | exhausted =>
          rfl

/-- A trace tells what a piece does without a bound on calls and with one. -/
structure Tells
    (limit : Nat)
    (before : Machine)
    (free bounded : Outcome α)
    (traced : Traced α) :
    Prop where
  outcome : traced.outcome = free
  unwinds : free.Unwinds before
  balanced : free ≠ .exhausted → Balanced traced.events
  limited : bounded = traced.limited limit before

namespace Tells

variable {limit : Nat} {before : Machine}

/-- A piece that calls nothing. -/
theorem quiet
    {free bounded : Outcome α}
    (unwinds : free.Unwinds before)
    (limited : bounded = free.limited limit) :
    Tells limit before free bounded (.quiet free) where
  outcome := rfl
  unwinds := unwinds
  balanced _ := .nothing
  limited := limited

/-- A piece on a machine that stands where another one stood. -/
theorem after
    {middle : Machine}
    {free bounded : Outcome α}
    {traced : Traced α}
    (resumes : before.Resumes middle)
    (tells : Tells limit middle free bounded traced) :
    Tells limit before free bounded traced where
  outcome := tells.outcome
  unwinds := tells.unwinds.after resumes
  balanced := tells.balanced
  limited := by
    rw [tells.limited, Traced.limited, Traced.limited, resumes.depth]
    unfold refuse leave
    rw [resumes.current, resumes.depth]

/-- One piece after the other. -/
theorem bind
    {free bounded : Outcome α}
    {traced : Traced α}
    {next : α → Machine → Outcome β}
    {trace : α → Machine → Traced β}
    (first : Tells limit before free bounded traced)
    (unbounded : before.callLimit = none)
    (second : ∀ value after,
      after.callLimit = none →
        Tells limit after (next value after)
          (next value (after.limited limit)) (trace value after)) :
    Tells limit before (free.bind next) (bounded.bind next)
      (traced.bind trace) := by
  obtain ⟨rfl, unwinds, balanced, rfl⟩ := first
  obtain ⟨outcome, events⟩ := traced
  cases outcome with
  | done value after =>
      have resumes : before.Resumes after := unwinds
      have later := second value after (resumes.callLimit.trans unbounded)
      have ended : Balanced events := balanced nofun
      refine ⟨later.outcome, later.unwinds.after resumes,
        fun ends => ended.append (later.balanced ends), ?_⟩
      have bounded := (later.after resumes).limited
      rw [Traced.limited] at bounded
      simp only [Traced.limited, Traced.bind, ended.excess?_append]
      cases excess? (limit - before.depth) events with
      | some call =>
          rfl
      | none =>
          exact bounded
  | stopped | broken =>
      refine ⟨rfl, unwinds, fun _ => balanced nofun, ?_⟩
      simp only [Traced.limited, Traced.bind]
      cases excess? (limit - before.depth) events <;> rfl
  | exhausted =>
      refine ⟨rfl, trivial, fun ends => (ends rfl).elim, ?_⟩
      simp only [Traced.limited, Traced.bind]
      cases excess? (limit - before.depth) events <;> rfl

/-- A piece in a new frame. -/
theorem newFrame
    (machine : Machine)
    (parent : Nat)
    (bindings : Bindings)
    {body : Machine → Outcome α}
    {trace : Machine → Traced α}
    (unbounded : machine.callLimit = none)
    (inside : ∀ inner,
      inner.callLimit = none →
        Tells limit inner (body inner) (body (inner.limited limit))
          (trace inner)) :
    Tells limit machine (machine.inNewFrame parent bindings body)
      ((machine.limited limit).inNewFrame parent bindings body)
      (traceNewFrame machine parent bindings trace) := by
  obtain ⟨outcome, unwinds, balanced, limited⟩ :=
    inside
      { machine with
        frames := machine.frames.push (some parent) bindings
        current := machine.frames.size }
      unbounded
  refine ⟨congrArg (Outcome.mapMachine _) outcome, ?_, ?_, ?_⟩
  · exact unwinds.mapMachine fun after resumes =>
      ⟨rfl, resumes.depth, resumes.callLimit⟩
  · intro ends
    refine balanced fun exhausted => ends ?_
    rw [Machine.inNewFrame, exhausted]
    rfl
  · refine (congrArg (Outcome.mapMachine _) limited).trans ?_
    exact mapMachine_refuse (fun _ => rfl) (fun _ => rfl) _ _

/-- A call for which there is room, or for which there is none. -/
theorem duringCall
    (call : Call)
    {body : Machine → Outcome α}
    {trace : Machine → Traced α}
    (unbounded : call.machine.callLimit = none)
    (inside : ∀ inner,
      inner.callLimit = none →
        Tells limit inner (body inner) (body (inner.limited limit))
          (trace inner)) :
    Tells limit call.machine (call.machine.duringCall body)
      (if limit ≤ call.machine.depth then
        .stopped { token := call.closing, cause := .tooManyCalls }
          (call.machine.limited limit)
      else
        (call.machine.limited limit).duringCall body)
      (traceDuringCall call trace) := by
  obtain ⟨outcome, unwinds, balanced, limited⟩ :=
    inside { call.machine with depth := call.machine.depth + 1 } unbounded
  rw [← outcome] at balanced
  refine ⟨congrArg (Outcome.mapMachine _) outcome, ?_, ?_, ?_⟩
  · refine unwinds.mapMachine fun after resumes => ?_
    refine ⟨resumes.current, ?_, resumes.callLimit⟩
    exact congrArg (· - 1) resumes.depth
  · intro ends
    refine Balanced.enclose balanced (fun exhausted => ends ?_) call
    rw [Machine.duringCall, ← outcome, exhausted]
    rfl
  · split
    · rename_i full
      rw [Traced.limited, Nat.sub_eq_zero_of_le full]
      rfl
    · rename_i notFull
      have room :
          limit - call.machine.depth = limit - (call.machine.depth + 1) + 1 := by
        omega
      rw [Traced.limited] at limited
      rw [Machine.duringCall, Traced.limited, room]
      refine (congrArg (Outcome.mapMachine _) limited).trans ?_
      refine (mapMachine_refuse (fun _ => rfl) (fun _ => rfl) _ _).trans ?_
      exact congrArg (fun found => refuse limit call.machine found _)
        (excess?_ending balanced _).symm

/-- A call, or the fault that there is in place of it. -/
theorem callee
    (closing : Token)
    (value : Value)
    (arguments : List Value)
    (machine : Machine)
    {call : Callable → Machine → Outcome Value}
    {trace : Callable → Machine → Traced Value}
    (unbounded : machine.callLimit = none)
    (inside : ∀ callable inner,
      inner.callLimit = none →
        Tells limit inner (call callable inner)
          (call callable (inner.limited limit)) (trace callable inner)) :
    Tells limit machine
      (match machine.callee value arguments.length with
      | .error cause =>
          .stopped { token := closing, cause } machine
      | .ok callable =>
          machine.duringCall (call callable))
      (match (machine.limited limit).callee value arguments.length with
      | .error cause =>
          .stopped { token := closing, cause } (machine.limited limit)
      | .ok callable =>
          (machine.limited limit).duringCall (call callable))
      (traceCallee closing value arguments machine trace) := by
  rw [Machine.callee_limited unbounded]
  cases allowed : machine.callee value arguments.length with
  | error cause =>
      rw [traceCallee_error trace allowed]
      exact quiet (.refl machine) rfl
  | ok callable =>
      rw [traceCallee_ok trace allowed]
      have tells :=
        duringCall
          { closing, callee := value, arguments, machine, callable, allowed }
          unbounded (inside callable)
      rw [Except.bind]
      split at tells
      · rename_i full
        rw [if_pos full]
        exact tells
      · rename_i full
        rw [if_neg full]
        exact tells

end Tells

open Machine

/-- Within a bound on the length of chains, every trace tells what its piece does. -/
structure AllTell
    (limit fuel : Nat) :
    Prop where
  expr : ∀ expr machine,
    machine.callLimit = none →
      Tells limit machine (evaluate fuel expr machine)
        (evaluate fuel expr (machine.limited limit))
        (traceExpr fuel expr machine)
  exprs : ∀ exprs machine,
    machine.callLimit = none →
      Tells limit machine (evaluateAll fuel exprs machine)
        (evaluateAll fuel exprs (machine.limited limit))
        (traceExprs fuel exprs machine)
  call : ∀ callable arguments machine,
    machine.callLimit = none →
      Tells limit machine (Machine.call fuel callable arguments machine)
        (Machine.call fuel callable arguments (machine.limited limit))
        (traceCall fuel callable arguments machine)
  function : ∀ closure arguments machine,
    machine.callLimit = none →
      Tells limit machine (callFunction fuel closure arguments machine)
        (callFunction fuel closure arguments (machine.limited limit))
        (traceFunction fuel closure arguments machine)
  stmt : ∀ stmt machine,
    machine.callLimit = none →
      Tells limit machine (execute fuel stmt machine)
        (execute fuel stmt (machine.limited limit))
        (traceStmt fuel stmt machine)
  stmts : ∀ stmts machine,
    machine.callLimit = none →
      Tells limit machine (executeAll fuel stmts machine)
        (executeAll fuel stmts (machine.limited limit))
        (traceStmts fuel stmts machine)
  loop : ∀ condition body machine,
    machine.callLimit = none →
      Tells limit machine (repeatWhile fuel condition body machine)
        (repeatWhile fuel condition body (machine.limited limit))
        (traceLoop fuel condition body machine)

namespace AllTell

variable {limit fuel : Nat}

theorem expr_succ
    (smaller : AllTell limit fuel)
    (expr : Expr)
    (machine : Machine)
    (unbounded : machine.callLimit = none) :
    Tells limit machine (evaluate (fuel + 1) expr machine)
      (evaluate (fuel + 1) expr (machine.limited limit))
      (traceExpr (fuel + 1) expr machine) := by
  rw [traceExpr.eq_def, evaluate.eq_def, evaluate.eq_def]
  cases expr with
  | literal | missing =>
      exact .quiet (.refl machine) rfl
  | group inner =>
      exact smaller.expr inner machine unbounded
  | unary operator operand =>
      exact (smaller.expr operand machine unbounded).bind unbounded
        fun value after _ =>
          .quiet (settle_unwinds after operator _)
            (settle_limited limit after operator _)
  | binary left operator right =>
      refine (smaller.expr left machine unbounded).bind unbounded
        fun leftValue middle unbounded => ?_
      exact (smaller.expr right middle unbounded).bind unbounded
        fun rightValue after _ =>
          .quiet (settle_unwinds after operator _)
            (settle_limited limit after operator _)
  | logical left operator right =>
      refine (smaller.expr left machine unbounded).bind unbounded
        fun value after unbounded => ?_
      split
      · exact .quiet (.refl after) rfl
      · exact smaller.expr right after unbounded
  | reference name distance | receiver name distance =>
      exact .quiet (read_unwinds machine name distance)
        (read_limited limit machine name distance)
  | assign name value distance =>
      exact (smaller.expr value machine unbounded).bind unbounded
        fun value after _ =>
          .quiet (assign_unwinds after name distance value)
            (assign_limited limit after name distance value)
  | call callee closing arguments =>
      refine (smaller.expr callee machine unbounded).bind unbounded
        fun value middle unbounded => ?_
      refine (smaller.exprs arguments middle unbounded).bind unbounded
        fun values after unbounded => ?_
      exact Tells.callee closing value values after unbounded
        fun callable inner => smaller.call callable values inner
  | property object name =>
      refine (smaller.expr object machine unbounded).bind unbounded
        fun value after unbounded => ?_
      cases value with
      | object target =>
          exact .quiet (getProperty_unwinds after name target)
            (getProperty_limited limit after name target)
      | _ =>
          exact .quiet (.refl after) rfl
  | setProperty object name value =>
      refine (smaller.expr object machine unbounded).bind unbounded
        fun target middle unbounded => ?_
      cases target with
      | object target =>
          exact (smaller.expr value middle unbounded).bind unbounded
            fun value after _ => .quiet ⟨rfl, rfl, rfl⟩ rfl
      | _ =>
          exact .quiet (.refl middle) rfl

theorem exprs_succ
    (smaller : AllTell limit fuel)
    (exprs : List Expr)
    (machine : Machine)
    (unbounded : machine.callLimit = none) :
    Tells limit machine (evaluateAll (fuel + 1) exprs machine)
      (evaluateAll (fuel + 1) exprs (machine.limited limit))
      (traceExprs (fuel + 1) exprs machine) := by
  rw [traceExprs.eq_def, evaluateAll.eq_def, evaluateAll.eq_def]
  cases exprs with
  | nil =>
      exact .quiet (.refl machine) rfl
  | cons first rest =>
      refine (smaller.expr first machine unbounded).bind unbounded
        fun value middle unbounded => ?_
      exact (smaller.exprs rest middle unbounded).bind unbounded
        fun values after _ => .quiet (.refl after) rfl

theorem call_succ
    (smaller : AllTell limit fuel)
    (callable : Callable)
    (arguments : List Value)
    (machine : Machine)
    (unbounded : machine.callLimit = none) :
    Tells limit machine (Machine.call (fuel + 1) callable arguments machine)
      (Machine.call (fuel + 1) callable arguments (machine.limited limit))
      (traceCall (fuel + 1) callable arguments machine) := by
  rw [traceCall.eq_def, Machine.call.eq_def, Machine.call.eq_def]
  cases callable with
  | native host =>
      exact .quiet (callNative_unwinds machine host arguments)
        (callNative_limited limit machine host arguments)
  | function closure =>
      exact smaller.function closure arguments machine unbounded
  | classValue members =>
      cases found : members.initializer? with
      | none =>
          simp only [found]
          exact .quiet ⟨rfl, rfl, rfl⟩ rfl
      | some initializer =>
          simp only [found]
          have resumes :
              machine.Resumes
                ((machine.makeObject members).2.bindMethod initializer
                  (machine.makeObject members).1).2 :=
            ⟨rfl, rfl, rfl⟩
          have inside :=
            smaller.function
              ((machine.makeObject members).2.bindMethod initializer
                (machine.makeObject members).1).1
              arguments _ (resumes.callLimit.trans unbounded)
          refine Tells.bind (inside.after resumes) unbounded ?_
          exact fun _ after _ => .quiet (Resumes.refl after) rfl

theorem function_succ
    (smaller : AllTell limit fuel)
    (closure : Closure)
    (arguments : List Value)
    (machine : Machine)
    (unbounded : machine.callLimit = none) :
    Tells limit machine (callFunction (fuel + 1) closure arguments machine)
      (callFunction (fuel + 1) closure arguments (machine.limited limit))
      (traceFunction (fuel + 1) closure arguments machine) := by
  rw [traceFunction.eq_def, callFunction.eq_def, callFunction.eq_def]
  refine (Tells.newFrame machine closure.frame _ unbounded fun inner =>
    smaller.stmts closure.function.body inner).bind unbounded
      fun flow after _ => ?_
  split <;> exact .quiet (.refl after) rfl

theorem stmt_succ
    (smaller : AllTell limit fuel)
    (stmt : Stmt)
    (machine : Machine)
    (unbounded : machine.callLimit = none) :
    Tells limit machine (execute (fuel + 1) stmt machine)
      (execute (fuel + 1) stmt (machine.limited limit))
      (traceStmt (fuel + 1) stmt machine) := by
  rw [traceStmt.eq_def, execute.eq_def, execute.eq_def]
  cases stmt with
  | expression value | print value =>
      exact (smaller.expr value machine unbounded).bind unbounded
        fun value after _ => .quiet ⟨rfl, rfl, rfl⟩ rfl
  | variableDecl name initial =>
      cases initial with
      | none =>
          exact .quiet ⟨rfl, rfl, rfl⟩ rfl
      | some initial =>
          exact (smaller.expr initial machine unbounded).bind unbounded
            fun value after _ => .quiet ⟨rfl, rfl, rfl⟩ rfl
  | block body =>
      exact Tells.newFrame machine machine.current [] unbounded fun inner =>
        smaller.stmts body inner
  | conditional condition consequent alternative =>
      refine (smaller.expr condition machine unbounded).bind unbounded
        fun value after unbounded => ?_
      split
      · exact smaller.stmt consequent after unbounded
      · cases alternative with
        | none =>
            exact .quiet (.refl after) rfl
        | some alternative =>
            exact smaller.stmt alternative after unbounded
  | loop condition body =>
      exact smaller.loop condition body machine unbounded
  | functionDecl function =>
      exact .quiet ⟨rfl, rfl, rfl⟩ rfl
  | returning keyword value =>
      cases value with
      | none =>
          exact .quiet (.refl machine) rfl
      | some value =>
          exact (smaller.expr value machine unbounded).bind unbounded
            fun value after _ => .quiet (.refl after) rfl
  | classDecl name methods =>
      exact .quiet (declareClass_resumes machine name methods)
        (congrArg (Outcome.done _)
          (declareClass_limited limit machine name methods))
  | missing =>
      exact .quiet (.refl machine) rfl

theorem stmts_succ
    (smaller : AllTell limit fuel)
    (stmts : List Stmt)
    (machine : Machine)
    (unbounded : machine.callLimit = none) :
    Tells limit machine (executeAll (fuel + 1) stmts machine)
      (executeAll (fuel + 1) stmts (machine.limited limit))
      (traceStmts (fuel + 1) stmts machine) := by
  rw [traceStmts.eq_def, executeAll.eq_def, executeAll.eq_def]
  cases stmts with
  | nil =>
      exact .quiet (.refl machine) rfl
  | cons first rest =>
      refine (smaller.stmt first machine unbounded).bind unbounded
        fun flow after unbounded => ?_
      cases flow with
      | normal =>
          exact smaller.stmts rest after unbounded
      | returning value =>
          exact .quiet (.refl after) rfl

theorem loop_succ
    (smaller : AllTell limit fuel)
    (condition : Expr)
    (body : Stmt)
    (machine : Machine)
    (unbounded : machine.callLimit = none) :
    Tells limit machine (repeatWhile (fuel + 1) condition body machine)
      (repeatWhile (fuel + 1) condition body (machine.limited limit))
      (traceLoop (fuel + 1) condition body machine) := by
  rw [traceLoop.eq_def, repeatWhile.eq_def, repeatWhile.eq_def]
  refine (smaller.expr condition machine unbounded).bind unbounded
    fun value middle unbounded => ?_
  split
  · refine (smaller.stmt body middle unbounded).bind unbounded
      fun flow after unbounded => ?_
    cases flow with
    | normal =>
        exact smaller.loop condition body after unbounded
    | returning value =>
        exact .quiet (.refl after) rfl
  · exact .quiet (.refl middle) rfl

/-- Every trace tells what its piece does, whatever the bounds. -/
theorem all (limit fuel : Nat) : AllTell limit fuel := by
  induction fuel with
  | zero =>
      constructor <;> intros <;> exact .quiet trivial rfl
  | succ fuel smaller =>
      exact
        { expr := smaller.expr_succ
          exprs := smaller.exprs_succ
          call := smaller.call_succ
          function := smaller.function_succ
          stmt := smaller.stmt_succ
          stmts := smaller.stmts_succ
          loop := smaller.loop_succ }

end AllTell

/-- The trace of a program tells what the program does. -/
theorem program_tells
    (limit fuel : Nat)
    (stmts : List Stmt)
    (machine : Machine)
    (unbounded : machine.callLimit = none) :
    Tells limit machine (interpret fuel stmts machine)
      (interpret fuel stmts (machine.limited limit))
      (traceProgram fuel stmts machine) := by
  induction stmts generalizing machine with
  | nil =>
      exact .quiet (.refl machine) rfl
  | cons first rest inductionHypothesis =>
      exact ((AllTell.all limit fuel).stmt first machine unbounded).bind
        unbounded fun _ after unbounded =>
          inductionHypothesis after unbounded

end Calls

end Script
