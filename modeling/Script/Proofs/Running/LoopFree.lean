import Script.Proofs.Running.Ending
import Script.Proofs.Running.Unwinding
import Script.Proofs.Session.Sources

namespace Script

/-!
# Programs without loops come to their end

Without loops, only calls can go on for ever, and the bound on calls stops them.
The proof is an induction on the number of calls that may still begin inside of each
other; within one such number it follows the tree.
-/

namespace Machine

variable {region : Region} {room : Nat}

/-- Calls that are not too many come to their end. -/
def CallsEnd
    (region : Region)
    (room : Nat) :
    Prop :=
  ∀ callable arguments machine,
    region.Allows room machine →
    machine.isFull = false →
    region.KnowsCallable callable →
    (∀ value ∈ arguments, region.Knows value) →
    Ends region room region.Knows fun fuel =>
      machine.duringCall fun machine => call fuel callable arguments machine

/-- What a call may call. -/
theorem callee_eq_ok
    {machine : Machine}
    {value : Value}
    {given : Nat}
    {callable : Callable}
    (allowed : machine.callee value given = .ok callable) :
    value.callable? = some callable ∧ machine.isFull = false := by
  unfold callee at allowed
  cases found : value.callable? with
  | none =>
      rw [found] at allowed
      cases allowed
  | some candidate =>
      rw [found] at allowed
      dsimp only at allowed
      split at allowed
      · cases allowed
      · split at allowed
        · cases allowed
        · rename_i notFull
          cases allowed
          exact ⟨rfl, by simpa using notFull⟩

mutual

/-- Expressions come to their end when calls do. -/
theorem evaluate_ends
    (calls : CallsEnd region room) :
    (expr : Expr) →
    ∀ {machine : Machine},
      region.Allows room machine →
      Ends region room region.Knows fun fuel => evaluate fuel expr machine
  | .literal value, machine, allows =>
      (Ends.now (.done (.ofLiteral value) machine)
        ⟨allows, Region.knows_ofLiteral value⟩).spend fun _ => rfl
  | .group inner, _, allows =>
      (evaluate_ends calls inner allows).spend fun _ => rfl
  | .unary operator operand, _, allows =>
      ((evaluate_ends calls operand allows).bind
        (fun _ value machine =>
          machine.settle operator (value.unary operator.kind))
        fun _ _ allows _ =>
          .now _ (allows.settle operator fun _ => Region.knows_unary)).spend
            fun _ => rfl
  | .binary left operator right, _, allows =>
      ((evaluate_ends calls left allows).bind _ fun leftValue _ allows _ =>
        (evaluate_ends calls right allows).bind
          (fun _ rightValue machine =>
            machine.settle operator
              (leftValue.binary operator.kind rightValue))
          fun _ _ allows _ =>
            .now _ (allows.settle operator fun _ => Region.knows_binary)).spend
              fun _ => rfl
  | .logical left operator right, _, allows => by
      refine ((evaluate_ends calls left allows).bind
        (fun fuel value machine =>
          if value.decides operator.kind then
            .done value machine
          else
            evaluate fuel right machine) ?_).spend fun _ => rfl
      intro value after allows known
      cases value.decides operator.kind with
      | true =>
          exact .now _ ⟨allows, known⟩
      | false =>
          exact evaluate_ends calls right allows
  | .reference name distance, _, allows =>
      (Ends.now _ (allows.read name distance)).spend fun _ => rfl
  | .assign name value distance, _, allows =>
      ((evaluate_ends calls value allows).bind
        (fun _ value machine => machine.assign name distance value)
        fun _ _ allows known =>
          .now _ (allows.assign name distance known)).spend fun _ => rfl
  | .call callee closing arguments, _, allows => by
      refine ((evaluate_ends calls callee allows).bind _
        fun value _ allows known =>
          (evaluateAll_ends calls arguments allows).bind
            (fun fuel arguments machine =>
              match machine.callee value arguments.length with
              | .error cause =>
                  .stopped { token := closing, cause } machine
              | .ok callable =>
                  machine.duringCall fun machine =>
                    call fuel callable arguments machine) ?_).spend
                      fun _ => rfl
      intro values after allows knownValues
      cases allowed : after.callee value values.length with
      | error cause =>
          exact .now _ allows
      | ok callable =>
          obtain ⟨isCallable, notFull⟩ := callee_eq_ok allowed
          exact calls callable values after allows notFull
            (Region.knows_callable known isCallable) knownValues
  | .property object name, _, allows => by
      refine ((evaluate_ends calls object allows).bind
        (fun _ value machine =>
          match value with
          | .object object =>
              machine.getProperty object name
          | _ =>
              .stopped { token := name, cause := .propertyOfNonInstance }
                machine) ?_).spend fun _ => rfl
      intro value after allows known
      cases value with
      | object target =>
          exact .now _ (allows.getProperty known name)
      | nil | bool | number | text | native | function | classValue =>
          exact .now _ allows
  | .setProperty object name value, _, allows => by
      refine ((evaluate_ends calls object allows).bind
        (fun fuel target machine =>
          match target with
          | .object object =>
              (evaluate fuel value machine).bind fun value machine =>
                .done value (machine.setField object name.lexeme value)
          | _ =>
              .stopped { token := name, cause := .fieldOfNonInstance }
                machine) ?_).spend fun _ => rfl
      intro target after allows _
      cases target with
      | object target =>
          refine (evaluate_ends calls value allows).bind _
            fun value after allows known => .now _ ⟨?_, known⟩
          exact allows.change (allows.covers.setField target name.lexeme known)
            rfl rfl
      | nil | bool | number | text | native | function | classValue =>
          exact .now _ allows
  | .receiver keyword distance, _, allows =>
      (Ends.now _ (allows.read keyword distance)).spend fun _ => rfl
  | .missing, machine, _ =>
      (Ends.now (.broken (.hole .expression) machine)
        trivial).spend fun _ => rfl

theorem evaluateAll_ends
    (calls : CallsEnd region room) :
    (exprs : List Expr) →
    ∀ {machine : Machine},
      region.Allows room machine →
      Ends region room (fun values => ∀ value ∈ values, region.Knows value)
        fun fuel => evaluateAll fuel exprs machine
  | [], machine, allows =>
      (Ends.now (.done [] machine)
        ⟨allows, fun _ member => nomatch member⟩).spend fun _ => rfl
  | first :: rest, _, allows =>
      ((evaluate_ends calls first allows).bind _ fun value _ allows known =>
        (evaluateAll_ends calls rest allows).bind _ fun values after allows
            knownRest =>
          .now (.done (value :: values) after)
            ⟨allows, List.forall_mem_cons.mpr ⟨known, knownRest⟩⟩).spend
              fun _ => rfl

end

/-- The condition that the value a statement returns is known. -/
def KnownFlow
    (region : Region)
    (flow : Flow) :
    Prop :=
  region.Knows flow.result

mutual

/-- Statements without loops come to their end when calls do. -/
theorem execute_ends
    (calls : CallsEnd region room) :
    (stmt : Stmt) →
    stmt.hasLoop = false →
    ∀ {machine : Machine},
      region.Allows room machine →
      Ends region room (KnownFlow region) fun fuel =>
        execute fuel stmt machine
  | .expression value, _, _, allows =>
      ((evaluate_ends calls value allows).bind _ fun _ _ allows _ =>
        .now (.done Flow.normal _) ⟨allows, trivial⟩).spend fun _ => rfl
  | .print value, _, _, allows =>
      ((evaluate_ends calls value allows).bind _ fun value after allows _ =>
        .now (.done Flow.normal (after.print value.display))
          ⟨allows.change (allows.covers.adjust _ _ _) rfl rfl, trivial⟩).spend
            fun _ => rfl
  | .variableDecl name none, _, machine, allows =>
      (Ends.now
        (.done Flow.normal (machine.define name.lexeme .nil))
        ⟨allows.define _ _ trivial, trivial⟩).spend fun _ => rfl
  | .variableDecl name (some initial), _, _, allows =>
      ((evaluate_ends calls initial allows).bind _
        fun value after allows known =>
        .now (.done Flow.normal (after.define name.lexeme value))
          ⟨allows.define _ _ known, trivial⟩).spend fun _ => rfl
  | .block body, loopFree, _, allows =>
      (allows.inNewFrame allows.covers.current
        (fun _ _ found => by cases found)
        (fun _ allows => executeAll_ends calls body loopFree allows)).spend
          fun _ => rfl
  | .conditional condition consequent none, loopFree, _, allows => by
      refine ((evaluate_ends calls condition allows).bind
        (fun fuel condition machine =>
          if condition.isTruthy then
            execute fuel consequent machine
          else
            .done .normal machine) ?_).spend fun _ => rfl
      intro value after allows _
      cases value.isTruthy with
      | true =>
          exact execute_ends calls consequent loopFree allows
      | false =>
          exact .now (.done Flow.normal after) ⟨allows, trivial⟩
  | .conditional condition consequent (some alternative), loopFree, _,
      allows => by
      rw [Stmt.hasLoop, Bool.or_eq_false_iff] at loopFree
      refine ((evaluate_ends calls condition allows).bind
        (fun fuel condition machine =>
          if condition.isTruthy then
            execute fuel consequent machine
          else
            execute fuel alternative machine) ?_).spend fun _ => rfl
      intro value after allows _
      cases value.isTruthy with
      | true =>
          exact execute_ends calls consequent loopFree.1 allows
      | false =>
          exact execute_ends calls alternative loopFree.2 allows
  | .loop _ _, loopFree, _, _ => by
      rw [Stmt.hasLoop] at loopFree
      cases loopFree
  | .functionDecl function, loopFree, machine, allows =>
      (Ends.now (.done Flow.normal (machine.declareFunction function))
        ⟨allows.change (allows.covers.declareFunction loopFree) rfl rfl,
          trivial⟩).spend fun _ => rfl
  | .returning _ none, _, machine, allows =>
      (Ends.now (.done (Flow.returning .nil) machine)
        ⟨allows, trivial⟩).spend fun _ => rfl
  | .returning _ (some value), _, _, allows =>
      ((evaluate_ends calls value allows).bind _ fun value after allows known =>
        .now (.done (Flow.returning value) after)
          ⟨allows, known⟩).spend fun _ => rfl
  | .classDecl name methods, loopFree, machine, allows => by
      have resumes := declareClass_resumes machine name methods
      refine (Ends.now
        (.done Flow.normal (machine.declareClass name methods))
        ⟨allows.change (allows.covers.declareClass name loopFree)
          resumes.callLimit resumes.depth, trivial⟩).spend fun _ => rfl
  | .missing, _, machine, _ =>
      (Ends.now (.broken (.hole .statement) machine)
        trivial).spend fun _ => rfl

theorem executeAll_ends
    (calls : CallsEnd region room) :
    (stmts : List Stmt) →
    Stmt.anyLoop stmts = false →
    ∀ {machine : Machine},
      region.Allows room machine →
      Ends region room (KnownFlow region) fun fuel =>
        executeAll fuel stmts machine
  | [], _, machine, allows =>
      (Ends.now (.done Flow.normal machine) ⟨allows, trivial⟩).spend
        fun _ => rfl
  | first :: rest, loopFree, _, allows => by
      rw [Stmt.anyLoop, Bool.or_eq_false_iff] at loopFree
      refine ((execute_ends calls first loopFree.1 allows).bind
        (fun fuel flow machine =>
          match flow with
          | .normal =>
              executeAll fuel rest machine
          | .returning value =>
              .done (.returning value) machine) ?_).spend fun _ => rfl
      intro flow after allows known
      cases flow with
      | normal =>
          exact executeAll_ends calls rest loopFree.2 allows
      | returning value =>
          exact .now (.done (Flow.returning value) after)
            ⟨allows, known⟩

end

/-- Known functions come to their end when the calls in them do. -/
theorem callFunction_ends
    (calls : CallsEnd region room)
    {closure : Closure}
    {arguments : List Value}
    {machine : Machine}
    (allows : region.Allows room machine)
    (known : region.KnowsClosure closure)
    (knownArguments : ∀ value ∈ arguments, region.Knows value) :
    Ends region room region.Knows fun fuel =>
      callFunction fuel closure arguments machine := by
  have knownBindings :
      ∀ name value,
        (parameterBindings closure.function arguments).lookup name =
            some value →
          region.Knows value :=
    fun _ _ found => knownArguments _ (Lexical.mem_of_parameterBindings found)
  have body :=
    allows.inNewFrame known.home knownBindings
      (fun _ allows =>
        executeAll_ends calls closure.function.body
          (closure.function.anyLoop_body.trans known.loopFree) allows)
  refine (body.bind (fun _ flow machine =>
    if closure.isInitializer then
      .done (machine.receiverOf closure) machine
    else
      .done flow.result machine) ?_).spend fun _ => rfl
  intro flow after allows knownFlow
  cases closure.isInitializer with
  | true =>
      exact .now (.done (after.receiverOf closure) after)
        ⟨allows, allows.covers.knows_getD known.home _⟩
  | false =>
      exact .now (.done flow.result after) ⟨allows, knownFlow⟩

/-- Known callables come to their end when the calls in them do. -/
theorem call_ends
    (calls : CallsEnd region room)
    {callable : Callable}
    {arguments : List Value}
    {machine : Machine}
    (allows : region.Allows room machine)
    (known : region.KnowsCallable callable)
    (knownArguments : ∀ value ∈ arguments, region.Knows value) :
    Ends region room region.Knows fun fuel =>
      call fuel callable arguments machine := by
  cases callable with
  | native host =>
      exact (Ends.now _ (allows.callNative host arguments)).spend fun _ => rfl
  | function closure =>
      exact (callFunction_ends calls allows known knownArguments).spend
        fun _ => rfl
  | classValue members =>
      have made :
          region.Allows room (machine.makeObject members).2 :=
        allows.change (allows.covers.makeObject members) rfl rfl
      have knownObject :
          region.Knows (.object (machine.makeObject members).1) :=
        ⟨allows.covers.newObjects _ le_rfl, known⟩
      cases isInitializer : members.initializer? with
      | none =>
          refine (Ends.now
            (.done (.object (machine.makeObject members).1)
              (machine.makeObject members).2)
            ⟨made, knownObject⟩).spend fun fuel => ?_
          rw [call]
          simp only [isInitializer]
      | some initializer =>
          obtain ⟨covers, bound⟩ :=
            made.covers.bindMethod (known _ _ isInitializer) knownObject
          have ends :=
            callFunction_ends calls (made.change covers rfl rfl) bound
              knownArguments
          refine (ends.bind _ fun _ after allows _ =>
            .now (.done (Value.object (machine.makeObject members).1)
              after) ⟨allows, knownObject⟩).spend fun fuel => ?_
          rw [call]
          simp only [isInitializer]

/-- All calls come to their end: each one leaves room for fewer calls inside of
it. -/
theorem callsEnd
    (region : Region)
    (room : Nat) :
    CallsEnd region room := by
  induction room with
  | zero =>
      intro callable arguments machine allows notFull _ _
      obtain ⟨limit, isLimit, few⟩ := allows.limited
      rw [isFull, isLimit] at notFull
      simp at notFull
      omega
  | succ room calls =>
      intro callable arguments machine allows _ known knownArguments
      obtain ⟨limit, isLimit, few⟩ := allows.limited
      have inside :
          region.Allows room { machine with depth := machine.depth + 1 } :=
        ⟨allows.covers.adjust _ _ _, limit, isLimit, by
          show limit ≤ machine.depth + 1 + room
          omega⟩
      refine (call_ends calls inside known knownArguments).mapMachine ?_
      rintro after ⟨covers, limit, isLimit, few⟩
      exact ⟨covers.adjust _ _ _, limit, isLimit, by
        show limit ≤ after.depth - 1 + (room + 1)
        omega⟩

/-- Statements without loops at the top level come to their end. -/
theorem interpret_ends :
    (stmts : List Stmt) →
    Stmt.anyLoop stmts = false →
    ∀ {machine : Machine},
      region.Allows room machine →
      Ends region room (fun _ => True) fun fuel =>
        interpret fuel stmts machine
  | [], _, machine, allows =>
      Ends.now (.done () machine) ⟨allows, trivial⟩
  | first :: rest, loopFree, _, allows => by
      rw [Stmt.anyLoop, Bool.or_eq_false_iff] at loopFree
      exact (execute_ends (callsEnd region room) first loopFree.1 allows).bind _
        fun _ _ allows _ => interpret_ends rest loopFree.2 allows

/-- A source text without problems and without loops comes to its end on every
reachable machine that has a bound on calls and stores no loops: from some bound on
the run has one ending, success or a fault.  The machine behind it stores no loops
and has the same bound on calls, so that the next text may follow. -/
theorem runSource_ends
    {machine : Machine}
    (reachable : machine.Reachable)
    {limit : Nat}
    (limited : machine.callLimit = some limit)
    (stored : machine.StoresNoLoop)
    {source : Text}
    (parsed : (Program.ofSource source).problems = [])
    (analysed :
      (Resolution.ofStatements (Program.ofSource source).statements).problems =
        [])
    (loopFree : Stmt.anyLoop (Program.ofSource source).statements = false) :
    ∃ bound ending after,
      (∀ fuel,
        bound ≤ fuel → machine.runSource fuel source = (ending, after)) ∧
        (ending = .finished ∨
          ∃ fault, ending = .failed (.stopped fault)) ∧
        after.StoresNoLoop ∧
        after.callLimit = some limit := by
  have accepts := Program.accepts_of_problems parsed
  have allows : (Region.ofMachine machine).Allows limit machine :=
    ⟨Region.ofMachine_covers stored, limit, limited, Nat.le_add_left _ _⟩
  obtain ⟨bound, outcome, settles, isOutcome⟩ :=
    interpret_ends (Site.outermost.resolveStmts
      (Program.ofSource source).statements)
      ((Stmt.anyLoop_resolveStmts _ _).trans loopFree) allows
  have unwinds : outcome.Unwinds machine := by
    rw [← isOutcome bound le_rfl]
    exact interpret_unwinds bound _ machine
  have ends (fuel : Nat) (enough : bound ≤ fuel) :
      machine.runSource fuel source = (outcome.split machine).2 := by
    rw [runSource_of_accepts accepts analysed, ← isOutcome fuel enough]
    rfl
  cases outcome with
  | done value after =>
      exact ⟨bound, .finished, after, ends, .inl rfl,
        settles.1.covers.storesNoLoop, unwinds.callLimit.trans limited⟩
  | stopped fault after =>
      exact ⟨bound, .failed (.stopped fault), after, ends, .inr ⟨fault, rfl⟩,
        settles.covers.storesNoLoop, unwinds.callLimit.trans limited⟩
  | broken breakage after =>
      have whole := reachable.not_broken bound source breakage
      rw [ends bound le_rfl] at whole
      exact (whole rfl).elim
  | exhausted =>
      exact settles.elim

/-- The host functions are no functions of a program. -/
theorem standard_storesNoLoop : standard.StoresNoLoop := by
  let region : Region := { frames := fun _ => True, objects := fun _ => True }
  have nothing : (bare.frames).Holds region.Knows := by
    intro frame name value found
    unfold bare at found
    rw [Frames.local?_push] at found
    split at found <;> cases found
  have bound : standard.frames.Holds region.Knows :=
    (nothing.define globals (Text.utf8 "clock")
      (show region.Knows (.native .clock) from trivial)).define globals
        (Text.utf8 "str") (show region.Knows (.native .str) from trivial)
  have covers : region.Covers standard :=
    { globals := trivial
      current := trivial
      newFrames := fun _ _ => trivial
      newObjects := fun _ _ => trivial
      around := fun _ _ _ _ => trivial
      bound := fun frame name value _ found => bound frame name value found
      fields := fun _ _ _ _ _ stored _ => nomatch stored }
  exact covers.storesNoLoop

/-- A text in which an initializer and a function that is kept in a field call each
other for ever. -/
def runawayText : Text :=
  Text.utf8 "class A { init(f) { this.f = f; f(this); } }
  fun g(a) { A(a.f); } A(g);"

/-- The usual bound on calls stops it. -/
theorem runSource_ends_runawayText :
    standard.Reachable ∧
      standard.callLimit = some 3000 ∧
      Stmt.anyLoop (Program.ofSource runawayText).statements = false ∧
      ∃ bound ending after,
        (∀ fuel,
          bound ≤ fuel →
            standard.runSource fuel runawayText = (ending, after)) ∧
          (ending = .finished ∨
            ∃ fault, ending = .failed (.stopped fault)) ∧
          after.StoresNoLoop ∧
          after.callLimit = some 3000 := by
  have parsed : (Program.ofSource runawayText).problems = [] :=
    List.isEmpty_iff.mp (by decide +kernel)
  have analysed :
      (Resolution.ofStatements
          (Program.ofSource runawayText).statements).problems =
        [] :=
    List.isEmpty_iff.mp (by decide +kernel)
  have loopFree :
      Stmt.anyLoop (Program.ofSource runawayText).statements = false := by
    decide +kernel
  exact ⟨.standard, rfl, loopFree,
    runSource_ends .standard rfl standard_storesNoLoop parsed analysed loopFree⟩

end Machine

end Script
