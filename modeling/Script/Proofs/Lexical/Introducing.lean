import Script.Proofs.Lexical.Analysed
import Script.Proofs.Lexical.Preservation

namespace Script

/-!
# New global names

A name comes into the global frame when a statement at the top level declares it,
and in no other way: the frame of an assignment is found and is not the global
one, or the name is a global one already, and whatever stands in a function or in
a block defines its names in a frame of its own.  The proof is one induction over
the bound of all watched functions together; what holds between two pieces is what
the runs preserve.
-/

/-- The machine behind an outcome, if the piece came to its end. -/
def Outcome.machine? : Outcome α → Option Machine
  | .done _ machine =>
      some machine
  | .stopped _ machine =>
      some machine
  | .broken _ machine =>
      some machine
  | .exhausted =>
      none

/-- The name that a statement declares in the scope around it, if it declares
one. -/
def Stmt.declared (stmt : Stmt) : List Text :=
  (stmt.declaredName?.map Token.lexeme).toList

/-- Whether a name is in the global frame. -/
def Machine.HasGlobal
    (machine : Machine)
    (name : Text) :
    Prop :=
  (machine.frames.local? Machine.globals name).isSome = true

instance (machine : Machine) (name : Text) :
    Decidable (machine.HasGlobal name) :=
  inferInstanceAs (Decidable (_ = true))

/-- No names but the given ones are new in the global frame. -/
def Machine.Introduces
    (before : Machine)
    (names : List Text)
    (after : Machine) :
    Prop :=
  ∀ name, after.HasGlobal name → before.HasGlobal name ∨ name ∈ names

/-- Whatever machine an outcome leaves, no names but the given ones are new in its
global frame. -/
def Outcome.Introduces
    (before : Machine)
    (names : List Text)
    (outcome : Outcome α) :
    Prop :=
  ∀ after ∈ outcome.machine?, before.Introduces names after

namespace Machine

variable {before middle after : Machine} {names : List Text}

theorem Introduces.same
    (frames : after.frames = before.frames)
    (names : List Text) :
    before.Introduces names after := by
  intro name has
  rw [HasGlobal, frames] at has
  exact .inl has

theorem Introduces.trans
    (earlier : before.Introduces [] middle)
    (later : middle.Introduces names after) :
    before.Introduces names after := by
  intro name has
  rcases later name has with already | new
  · exact .inl ((earlier name already).resolve_right List.not_mem_nil)
  · exact .inr new

/-- A name that is defined in the global frame is the only one that may be new. -/
theorem introduces_define
    (machine : Machine)
    (name : Text)
    (value : Value) :
    machine.Introduces [name] (machine.define name value) := by
  intro other has
  rw [HasGlobal, define, Frames.local?_define] at has
  split at has
  · rename_i same
    exact .inr (List.mem_singleton.mpr same.2.1)
  · exact .inl has

/-- A name that is defined in another frame is no global one. -/
theorem introduces_inside
    (machine : Machine)
    {frame : Nat}
    (inside : frame ≠ globals)
    (name : Text)
    (value : Value) :
    machine.Introduces []
      { machine with frames := machine.frames.define frame name value } := by
  intro other has
  rw [HasGlobal, Frames.local?_define, if_neg (fun same => inside same.1.symm)]
    at has
  exact .inl has

/-- A global name that gets a value was one before. -/
theorem introduces_known
    (machine : Machine)
    {name : Text}
    (known : machine.HasGlobal name)
    (value : Value) :
    machine.Introduces []
      { machine with frames := machine.frames.define globals name value } := by
  intro other has
  rw [HasGlobal, Frames.local?_define] at has
  split at has
  · rename_i same
    exact .inl (same.2.1 ▸ known)
  · exact .inl has

/-- A frame that is made is not the global one. -/
theorem introduces_push
    (machine : Machine)
    (ordered : machine.frames.Ordered)
    (parent : Option Nat)
    (bindings : Bindings)
    (current : Nat) :
    machine.Introduces []
      { machine with
        frames := machine.frames.push parent bindings
        current } := by
  intro other has
  have positive := ordered.positive
  rw [HasGlobal, Frames.local?_push, if_neg (by unfold globals; omega)] at has
  exact .inl has

/-- Binding a method makes a frame. -/
theorem introduces_bindMethod
    (machine : Machine)
    (ordered : machine.frames.Ordered)
    (method : Closure)
    (receiver : Object) :
    machine.Introduces [] (machine.bindMethod method receiver).2 :=
  (machine.introduces_push ordered (some method.frame)
    [(Text.utf8 "this", .object receiver)] machine.current).trans
    (.same rfl [])

end Machine

theorem Outcome.Introduces.exhausted
    (before : Machine)
    (names : List Text) :
    (Outcome.exhausted : Outcome α).Introduces before names := by
  intro after left
  cases left

/-- An outcome of a machine with no more global names than before. -/
theorem Outcome.Introduces.behind
    {before middle : Machine}
    {names : List Text}
    {outcome : Outcome α}
    (earlier : before.Introduces [] middle)
    (later : outcome.Introduces middle names) :
    outcome.Introduces before names :=
  fun after left => earlier.trans (later after left)

namespace Lexical

/-- The names that a statement at a position may bring into the global frame. -/
def Position.introduced
    (position : Position)
    (stmt : Stmt) :
    List Text :=
  if position.levels.isEmpty then
    stmt.declared
  else
    []

namespace Watched

variable {before : Machine} {log : Log} {names : List Text}

theorem introduces_bind
    {watched : Watched α}
    {condition : α → Machine → Log → Prop}
    {entries : List Entry}
    {next : α → Machine → Log → Watched β}
    (runs : watched.Runs before log condition entries)
    (first : watched.outcome.Introduces before [])
    (second :
      ∀ value after last,
        Goes before log after last →
        after.current = before.current →
        condition value after last →
        (next value after last).outcome.Introduces after names) :
    (watched.bind next).outcome.Introduces before names := by
  have keeps := runs.keeps
  cases watched with
  | mk outcome last =>
      cases outcome with
      | done value after =>
          obtain ⟨goes, current, holds⟩ := keeps
          intro final left
          exact (first after rfl).trans
            (second value after last goes current holds final left)
      | stopped fault after =>
          rintro final ⟨⟩
          exact (first after rfl).trans (.same rfl names)
      | broken =>
          exact keeps.elim
      | exhausted =>
          exact .exhausted _ _

theorem introduces_done
    (value : α)
    (log : Log)
    (same : before.Introduces names after) :
    ({ outcome := .done value after, log } : Watched α).outcome.Introduces
      before names := by
  rintro final ⟨⟩
  exact same

theorem introduces_stopped
    (fault : Fault)
    (log : Log) :
    ({ outcome := .stopped fault before, log } :
      Watched α).outcome.Introduces before names := by
  rintro final ⟨⟩
  exact .same rfl names

/-- What a piece of program does in a frame of its own, it does not do in the
global one. -/
theorem introduces_newFrame
    {parent : Nat}
    {bindings : Bindings}
    {position : Position}
    {form : ScopeForm}
    {inside : List Text}
    {body : Machine → Log → Watched α}
    (sound : Sound log before)
    (opens : Opens log before parent bindings position inside)
    (introduces :
      ∀ inner last,
        Sound last inner →
        Stands last inner (position.enter form inside) →
        (body inner last).outcome.Introduces inner []) :
    (watchNewFrame before log parent bindings
      (Log.innermost (position.enter form inside))
      body).outcome.Introduces before [] := by
  obtain ⟨goes, stands⟩ := opens.enter sound form
  have introduces := introduces _ _ goes.sound stands
  have pushed :=
    before.introduces_push sound.ordered (some parent) bindings
      before.frames.size
  unfold watchNewFrame Watched.mapMachine
  simp only
  revert introduces
  cases body _ _ with
  | mk outcome last =>
      intro introduces
      cases outcome with
      | done value after | stopped fault after | broken breakage after =>
          rintro final ⟨⟩
          exact pushed.trans (introduces after rfl)
      | exhausted =>
          exact .exhausted _ _

theorem introduces_duringCall
    {call : Machine → Log → Watched α}
    (inside :
      (call { before with depth := before.depth + 1 } log).outcome.Introduces
        { before with depth := before.depth + 1 } []) :
    (watchDuringCall before log call).outcome.Introduces before [] := by
  unfold watchDuringCall Watched.mapMachine
  revert inside
  cases call _ _ with
  | mk outcome last =>
      intro inside
      cases outcome with
      | done value after | stopped fault after | broken breakage after =>
          rintro final ⟨⟩
          exact inside after rfl
      | exhausted =>
          exact .exhausted _ _

end Watched

/-- An assignment at a distance is not in the global frame, and one without a
distance gives a value to a name that is there already. -/
theorem introduces_assign
    {machine : Machine}
    {name : Token}
    {distance : Option Nat}
    (inside :
      ∀ steps frame,
        distance = some steps →
        machine.frames.ancestor? (some machine.current) steps =
          some (some frame) →
        frame ≠ Machine.globals)
    (value : Value) :
    (machine.assign name distance value).Introduces machine [] := by
  cases distance with
  | none =>
      unfold Machine.assign Machine.writeGlobal
      simp only
      split
      · rename_i holder found
        obtain rfl := Frames.eq_globals_of_holder? found
        have known := List.find?_some found
        rintro after ⟨⟩
        exact machine.introduces_known known value
      · rintro after ⟨⟩
        exact .same rfl []
  | some steps =>
      unfold Machine.assign
      simp only
      split
      · rename_i frame found
        rintro after ⟨⟩
        exact machine.introduces_inside (inside steps frame rfl found) _ value
      · rintro after ⟨⟩
        exact .same rfl []

/-- An assignment that analysis and evaluation agree about brings no name into the
global frame. -/
theorem Use.Agrees.introduces
    {log : Log}
    {use : Use}
    (agrees : use.Agrees log)
    (value : Value) :
    (use.machine.assign use.name use.distance value).Introduces
      use.machine [] := by
  unfold Use.Agrees at agrees
  refine introduces_assign (fun steps frame some found => ?_) value
  rw [some] at agrees
  obtain ⟨level, made, finds⟩ := agrees
  have same := finds.found.symm.trans found
  rw [Option.some.injEq, Option.some.injEq] at same
  exact same ▸ finds.notGlobal

/-- An assignment in any tree brings no name into the global frame. -/
theorem Use.Right.introduces
    {log : Log}
    {use : Use}
    (right : use.Right log)
    (value : Value) :
    (use.machine.assign use.name use.distance value).Introduces
      use.machine [] := by
  cases resolved : use.position.origin.resolved with
  | true =>
      exact (right.agrees resolved).introduces value
  | false =>
      refine introduces_assign (fun steps frame some _ => ?_) value
      rw [right.plain resolved] at some
      cases some

/-- The branches of a conditional and the body of a loop declare nothing in an
analysed tree. -/
theorem Occurs.branches
    {position : Position}
    {condition : Expr}
    {consequent : Stmt}
    {alternative : Option Stmt}
    (occurs :
      Occurs position (.stmt (.conditional condition consequent alternative)))
    (tree : position.origin.IsAnalysed) :
    consequent.declaredName? = none ∧
      ∀ branch ∈ alternative, branch.declaredName? = none := by
  obtain ⟨-, site, -, resolves⟩ := occurs.traced tree rfl
  exact ⟨resolves.conditional.1.2,
    fun branch member => (resolves.conditional.2 branch member).2⟩

theorem Occurs.body
    {position : Position}
    {condition : Expr}
    {body : Stmt}
    (occurs : Occurs position (.stmt (.loop condition body)))
    (tree : position.origin.IsAnalysed) :
    body.declaredName? = none := by
  obtain ⟨-, site, -, resolves⟩ := occurs.traced tree rfl
  exact resolves.loop.2

/-- A position at the top level is one of an analysed tree. -/
def Position.IsSettled (position : Position) : Prop :=
  position.levels = [] → position.origin.IsAnalysed

namespace Position

variable {position : Position}

/-- What declares nothing introduces nothing. -/
theorem introduced_eq_nil
    {stmt : Stmt}
    (declaresNothing :
      position.levels = [] → stmt.declaredName? = none) :
    position.introduced stmt = [] := by
  unfold introduced
  split
  · rename_i topLevel
    rw [Stmt.declared, declaresNothing (List.isEmpty_iff.mp topLevel)]
    rfl
  · rfl

/-- A declaration opens and closes no scope. -/
theorem declaring_inside
    (position : Position)
    (inside : position.levels ≠ [])
    (stmt : Stmt) :
    (position.declaring stmt).levels ≠ [] := by
  unfold declaring declare
  split
  · split
    · exact inside
    · exact List.cons_ne_nil _ _
  · exact inside

/-- A declaration introduces its name at the top level only. -/
theorem introduces_define
    {log : Log}
    {machine : Machine}
    {name : Token}
    {stmt : Stmt}
    (stands : Stands log machine position)
    (declares : stmt.declaredName? = some name)
    (value : Value) :
    machine.Introduces (position.introduced stmt)
      (machine.define name.lexeme value) := by
  unfold introduced
  cases levels : position.levels with
  | nil =>
      rw [Stmt.declared, declares]
      exact machine.introduces_define name.lexeme value
  | cons level outer =>
      have chain := stands.chain
      rw [levels] at chain
      exact machine.introduces_inside chain.1 name.lexeme value

end Position

/-- What the watched functions bring into the global frame within a bound. -/
structure Confine (fuel : Nat) : Prop where
  expr :
    ∀ {position expr machine log},
      Sound log machine →
      Stands log machine position →
      Occurs position (.expr expr) →
      (watchExpr fuel position expr machine log).outcome.Introduces machine []
  exprs :
    ∀ {position exprs machine log},
      Sound log machine →
      Stands log machine position →
      (∀ expr ∈ exprs, Occurs position (.expr expr)) →
      (watchExprs fuel position exprs machine log).outcome.Introduces
        machine []
  call :
    ∀ {callable arguments machine log},
      Sound log machine →
      GoodCallable log machine callable →
      callable.arity = (arguments.length : Int) →
      (∀ argument ∈ arguments, Good log machine argument) →
      (watchCall fuel callable arguments machine log).outcome.Introduces
        machine []
  function :
    ∀ {closure arguments machine log},
      Sound log machine →
      Homed log machine closure →
      closure.arity = arguments.length →
      (∀ argument ∈ arguments, Good log machine argument) →
      (watchFunction fuel closure arguments machine log).outcome.Introduces
        machine []
  stmt :
    ∀ {position stmt machine log},
      Sound log machine →
      Stands log machine position →
      Occurs position (.stmt stmt) →
      position.IsSettled →
      (watchStmt fuel position stmt machine log).outcome.Introduces machine
        (position.introduced stmt)
  stmts :
    ∀ {position stmts machine log},
      Sound log machine →
      Stands log machine position →
      Occurs position (.stmts stmts) →
      position.levels ≠ [] →
      (watchStmts fuel position stmts machine log).outcome.Introduces
        machine []
  loop :
    ∀ {position condition body machine log},
      Sound log machine →
      Stands log machine position →
      Occurs position (.stmt (.loop condition body)) →
      position.IsSettled →
      (watchLoop fuel position condition body machine log).outcome.Introduces
        machine []

namespace Confine

variable {fuel : Nat} {log : Log} {machine : Machine} {position : Position}

section Values

variable {names : List Text}

/-- A piece that goes on from the value of an expression. -/
theorem bind_expr
    (smaller : Confine fuel)
    {expr : Expr}
    {next : Value → Machine → Log → Watched α}
    (sound : Sound log machine)
    (stands : Stands log machine position)
    (occurs : Occurs position (.expr expr))
    (second :
      ∀ value after last,
        Goes machine log after last →
        after.current = machine.current →
        GoodValue value after last →
        (next value after last).outcome.Introduces after names) :
    ((watchExpr fuel position expr machine log).bind
      next).outcome.Introduces machine names :=
  Watched.introduces_bind ((preserves fuel).expr sound stands occurs)
    (smaller.expr sound stands occurs) second

/-- A piece that goes on from the values of expressions in a row. -/
theorem bind_exprs
    (smaller : Confine fuel)
    {exprs : List Expr}
    {next : List Value → Machine → Log → Watched α}
    (sound : Sound log machine)
    (stands : Stands log machine position)
    (occurs : ∀ expr ∈ exprs, Occurs position (.expr expr))
    (second :
      ∀ values after last,
        Goes machine log after last →
        after.current = machine.current →
        (∀ value ∈ values, Good last after value) →
        (next values after last).outcome.Introduces after names) :
    ((watchExprs fuel position exprs machine log).bind
      next).outcome.Introduces machine names :=
  Watched.introduces_bind ((preserves fuel).exprs sound stands occurs)
    (smaller.exprs sound stands occurs) second

end Values

theorem expr_succ
    (smaller : Confine fuel)
    {expr : Expr}
    (sound : Sound log machine)
    (stands : Stands log machine position)
    (occurs : Occurs position (.expr expr)) :
    (watchExpr (fuel + 1) position expr machine log).outcome.Introduces
      machine [] := by
  have settles (machine : Machine) (operator : Token)
      (result : Except FaultCause Value) :
      (machine.settle operator result).Introduces machine [] := by
    cases result <;> rintro after ⟨⟩ <;> exact .same rfl []
  have reads (name : Token) (distance : Option Nat) :
      (machine.read name distance).Introduces machine [] := by
    unfold Machine.read Machine.readGlobal
    split <;> split <;> rintro after ⟨⟩ <;> exact .same rfl []
  rw [watchExpr.eq_def]
  cases expr with
  | literal value =>
      exact Watched.introduces_done _ _ (.same rfl [])
  | group inner =>
      exact smaller.expr sound stands occurs.grouped
  | unary operator operand =>
      exact smaller.bind_expr sound stands occurs.unaryOperand
        fun value after _ _ _ _ => settles after operator _
  | binary left operator right =>
      refine smaller.bind_expr sound stands occurs.binaryLeft
        fun leftValue afterLeft logLeft goesLeft currentLeft _ => ?_
      have standsLeft := stands.extend goesLeft.extended currentLeft
      exact smaller.bind_expr goesLeft.sound standsLeft occurs.binaryRight
        fun rightValue afterRight _ _ _ _ => settles afterRight operator _
  | logical left operator right =>
      refine smaller.bind_expr sound stands occurs.logicalLeft
        fun leftValue afterLeft logLeft goesLeft currentLeft _ => ?_
      have standsLeft := stands.extend goesLeft.extended currentLeft
      split
      · exact Watched.introduces_done _ _ (.same rfl [])
      · exact smaller.expr goesLeft.sound standsLeft occurs.logicalRight
  | reference name distance | receiver name distance =>
      exact reads name distance
  | assign name value distance =>
      have noted := assignment_goes sound stands occurs
      have standsNoted := stands.extend noted.extended rfl
      refine smaller.bind_expr noted.sound standsNoted occurs.assigned
        fun result after last goes current _ => ?_
      have standsAfter := standsNoted.extend goes.extended current
      exact (assignment_right goes.sound standsAfter occurs).introduces result
  | call callee closing arguments =>
      refine smaller.bind_expr sound stands occurs.callee
        fun value afterCallee logCallee goesCallee currentCallee good => ?_
      have standsCallee := stands.extend goesCallee.extended currentCallee
      refine smaller.bind_exprs goesCallee.sound standsCallee
        (fun argument member => occurs.argument member)
        fun values after last goes current goodValues => ?_
      have goodCallee := Good.extend goes.extended good
      cases called : after.callee value values.length with
      | error cause =>
          exact Watched.introduces_stopped _ _
      | ok callable =>
          obtain ⟨goodCallable, arity⟩ := callee_good goodCallee called
          have entered :
              Goes after last { after with depth := after.depth + 1 } last :=
            .same goes.sound rfl rfl le_rfl
          exact Watched.introduces_duringCall
            (smaller.call entered.sound
              (goodCallable.extend entered.extended) arity
              fun argument member =>
                (goodValues argument member).extend entered.extended)
  | property object name =>
      refine smaller.bind_expr sound stands occurs.propertyObject
        fun value after last goes current good => ?_
      cases value with
      | object object =>
          unfold Machine.getProperty
          simp only
          split
          · exact Watched.introduces_done _ [] (.same rfl [])
          · split
            · exact Watched.introduces_done _ []
                (after.introduces_bindMethod goes.sound.ordered _ object)
            · exact Watched.introduces_stopped _ []
      | _ =>
          exact Watched.introduces_stopped _ _
  | setProperty object name value =>
      refine smaller.bind_expr sound stands occurs.fieldObject
        fun target afterObject logObject goesObject currentObject good => ?_
      have standsObject := stands.extend goesObject.extended currentObject
      cases target with
      | object object =>
          exact smaller.bind_expr goesObject.sound standsObject occurs.fieldValue
            fun value after last goes _ _ =>
              Watched.introduces_done _ _ (.same rfl [])
      | _ =>
          exact Watched.introduces_stopped _ _
  | missing =>
      rintro after ⟨⟩
      exact .same rfl []

theorem exprs_succ
    (smaller : Confine fuel)
    {exprs : List Expr}
    (sound : Sound log machine)
    (stands : Stands log machine position)
    (occurs : ∀ expr ∈ exprs, Occurs position (.expr expr)) :
    (watchExprs (fuel + 1) position exprs machine log).outcome.Introduces
      machine [] := by
  rw [watchExprs.eq_def]
  cases exprs with
  | nil =>
      exact Watched.introduces_done _ _ (.same rfl [])
  | cons first rest =>
      refine smaller.bind_expr sound stands (occurs first List.mem_cons_self)
        fun value afterFirst logFirst goesFirst currentFirst good => ?_
      have standsFirst := stands.extend goesFirst.extended currentFirst
      exact smaller.bind_exprs goesFirst.sound standsFirst
        (fun expr member => occurs expr (List.mem_cons_of_mem _ member))
        fun values after last _ _ _ =>
          Watched.introduces_done _ _ (.same rfl [])

theorem call_succ
    (smaller : Confine fuel)
    {callable : Callable}
    {arguments : List Value}
    (sound : Sound log machine)
    (good : GoodCallable log machine callable)
    (arity : callable.arity = (arguments.length : Int))
    (goodArguments : ∀ argument ∈ arguments, Good log machine argument) :
    (watchCall (fuel + 1) callable arguments machine log).outcome.Introduces
      machine [] := by
  rw [watchCall.eq_def]
  cases callable with
  | native native =>
      cases native <;> exact Watched.introduces_done _ _ (.same rfl [])
  | function closure =>
      exact smaller.function sound good (Int.ofNat.inj arity) goodArguments
  | classValue members =>
      cases found : members.initializer? with
      | none =>
          simp only [found]
          exact Watched.introduces_done _ log (.same rfl [])
      | some initializer =>
          simp only [found]
          obtain ⟨bound, boundHomed, goodBound, -⟩ :=
            bindInitializer_goes sound good found goodArguments
          have takes := initializer_arity found (Int.ofNat.inj arity)
          refine Outcome.Introduces.behind
            (Machine.introduces_bindMethod (machine.makeObject members).2
              (Goes.makeObject sound members).sound.ordered initializer
              (machine.makeObject members).1) ?_
          exact Watched.introduces_bind
            ((preserves fuel).function bound.sound boundHomed takes goodBound)
            (smaller.function bound.sound boundHomed takes goodBound)
            fun _ after last _ _ _ =>
              Watched.introduces_done _ last (.same rfl [])

theorem function_succ
    (smaller : Confine fuel)
    {closure : Closure}
    {arguments : List Value}
    (sound : Sound log machine)
    (homed : Homed log machine closure)
    (arity : closure.arity = arguments.length)
    (goodArguments : ∀ argument ∈ arguments, Good log machine argument) :
    (watchFunction (fuel + 1) closure arguments machine log).outcome.Introduces
      machine [] := by
  rw [watchFunction.eq_def]
  obtain ⟨entered, opens, occurs⟩ :=
    enterFunction_goes sound homed arity goodArguments
  have ran :=
    Watched.Runs.newFrame entered.sound (by simp) opens
      (fun _ _ sound stands => (preserves fuel).stmts sound stands occurs)
      goodFlow_current
  have introduces :=
    Watched.introduces_newFrame entered.sound opens
      fun _ _ sound stands =>
        smaller.stmts sound stands occurs (List.cons_ne_nil _ _)
  refine Watched.introduces_bind ran introduces
    fun flow after last goes _ good => ?_
  split <;> exact Watched.introduces_done _ last (.same rfl [])

/-- A branch that declares nothing introduces nothing. -/
theorem branch
    (smaller : Confine fuel)
    {part : Nat}
    {stmt : Stmt}
    (sound : Sound log machine)
    (stands : Stands log machine position)
    (occurs : Occurs (position.inside part) (.stmt stmt))
    (settled : position.IsSettled)
    (declaresNothing : position.levels = [] → stmt.declaredName? = none) :
    (watchStmt fuel (position.inside part) stmt machine
      log).outcome.Introduces machine [] := by
  have nothing : (position.inside part).introduced stmt = [] :=
    Position.introduced_eq_nil declaresNothing
  rw [← nothing]
  exact smaller.stmt sound (stands.of_levels (position.inside part) rfl rfl)
    occurs settled

theorem stmt_succ
    (smaller : Confine fuel)
    {stmt : Stmt}
    (sound : Sound log machine)
    (stands : Stands log machine position)
    (occurs : Occurs position (.stmt stmt))
    (settled : position.IsSettled) :
    (watchStmt (fuel + 1) position stmt machine log).outcome.Introduces
      machine (position.introduced stmt) := by
  rw [watchStmt.eq_def]
  cases stmt with
  | expression value =>
      exact smaller.bind_expr sound stands occurs.expressionValue
        fun _ after last _ _ _ => Watched.introduces_done _ last (.same rfl _)
  | print value =>
      exact smaller.bind_expr sound stands occurs.printValue
        fun _ after last _ _ _ => Watched.introduces_done _ last (.same rfl _)
  | variableDecl name initial =>
      cases initial with
      | none =>
          exact Watched.introduces_done _ log
            (Position.introduces_define stands rfl .nil)
      | some initial =>
          have standsInitial := stands.initializing name.lexeme
          refine smaller.bind_expr sound standsInitial occurs.initializer
            fun value after last goes current _ => ?_
          have standsAfter := stands.extend goes.extended current
          exact Watched.introduces_done _ last
            (Position.introduces_define standsAfter rfl value)
  | block body =>
      have nothing : position.introduced (.block body) = [] :=
        Position.introduced_eq_nil fun _ => rfl
      rw [nothing]
      exact Watched.introduces_newFrame sound stands.opensBlock
        fun _ _ sound stands =>
          smaller.stmts sound stands occurs.blockBody (List.cons_ne_nil _ _)
  | conditional condition consequent alternative =>
      have nothing :
          position.introduced (.conditional condition consequent alternative) =
            [] :=
        Position.introduced_eq_nil fun _ => rfl
      rw [nothing]
      refine smaller.bind_expr sound stands occurs.condition
        fun value after last goes current _ => ?_
      have standsAfter := stands.extend goes.extended current
      split
      · exact smaller.branch goes.sound standsAfter occurs.consequent settled
          fun topLevel => (occurs.branches (settled topLevel)).1
      · cases alternative with
        | none =>
            exact Watched.introduces_done _ last (.same rfl [])
        | some alternative =>
            exact smaller.branch goes.sound standsAfter occurs.alternative
              settled fun topLevel =>
                (occurs.branches (settled topLevel)).2 alternative rfl
  | loop condition body =>
      have nothing : position.introduced (.loop condition body) = [] :=
        Position.introduced_eq_nil fun _ => rfl
      rw [nothing]
      exact smaller.loop sound stands occurs settled
  | functionDecl function =>
      exact Watched.introduces_done _ _
        (Position.introduces_define stands rfl _)
  | returning keyword value =>
      cases value with
      | none =>
          exact Watched.introduces_done _ log (.same rfl _)
      | some value =>
          exact smaller.bind_expr sound stands occurs.returnValue
            fun _ after last _ _ _ =>
              Watched.introduces_done _ last (.same rfl _)
  | classDecl name methods =>
      obtain ⟨made, frames, current, -⟩ :=
        makeMethods_goes sound occurs.classMethods
      have standsMade :
          Stands (Log.declareMethods machine.identities
              (position.declare name.lexeme).inClass log methods)
            { (machine.makeMethods methods).2 with
              identities := (machine.makeMethods methods).2.identities + 1 }
            position :=
        ⟨(stands.extend made.extended current).began,
          (stands.extend made.extended current).chain⟩
      refine Watched.introduces_done _ _ ?_
      exact (Machine.Introduces.same frames []).trans
        (Position.introduces_define standsMade rfl _)
  | missing =>
      rintro after ⟨⟩
      exact .same rfl _

theorem stmts_succ
    (smaller : Confine fuel)
    {stmts : List Stmt}
    (sound : Sound log machine)
    (stands : Stands log machine position)
    (occurs : Occurs position (.stmts stmts))
    (inside : position.levels ≠ []) :
    (watchStmts (fuel + 1) position stmts machine log).outcome.Introduces
      machine [] := by
  rw [watchStmts.eq_def]
  cases stmts with
  | nil =>
      exact Watched.introduces_done _ log (.same rfl [])
  | cons first rest =>
      have ran :=
        smaller.stmt sound stands occurs.firstStatement
          fun topLevel => (inside topLevel).elim
      rw [Position.introduced_eq_nil fun topLevel => (inside topLevel).elim]
        at ran
      refine Watched.introduces_bind
        ((preserves fuel).stmt sound stands occurs.firstStatement) ran
        fun flow after last goes current holds => ?_
      cases flow with
      | normal =>
          exact smaller.stmts goes.sound (holds.2 rfl).next
            occurs.laterStatements
            (by simpa using position.declaring_inside inside first)
      | returning value =>
          exact Watched.introduces_done _ last (.same rfl [])

theorem loop_succ
    (smaller : Confine fuel)
    {condition : Expr}
    {body : Stmt}
    (sound : Sound log machine)
    (stands : Stands log machine position)
    (occurs : Occurs position (.stmt (.loop condition body)))
    (settled : position.IsSettled) :
    (watchLoop (fuel + 1) position condition body machine log).outcome.Introduces
      machine [] := by
  rw [watchLoop.eq_def]
  refine smaller.bind_expr sound stands occurs.loopCondition
    fun value after last goes current _ => ?_
  have standsAfter := stands.extend goes.extended current
  split
  · refine Watched.introduces_bind
      ((preserves fuel).branch goes.sound standsAfter occurs.loopBody)
      (smaller.branch goes.sound standsAfter occurs.loopBody settled
        fun topLevel => occurs.body (settled topLevel))
      fun flow afterBody logBody goesBody _ holds => ?_
    cases flow with
    | normal =>
        exact smaller.loop goesBody.sound (holds.2 rfl) occurs settled
    | returning value =>
        exact Watched.introduces_done _ logBody (.same rfl [])
  · exact Watched.introduces_done _ last (.same rfl [])

end Confine

/-- Watched evaluation brings only declared names into the global frame, within
every bound. -/
theorem confine (fuel : Nat) : Confine fuel := by
  induction fuel with
  | zero =>
      constructor <;> intros
      · rw [watchExpr]
        exact .exhausted _ _
      · rw [watchExprs]
        exact .exhausted _ _
      · rw [watchCall]
        exact .exhausted _ _
      · rw [watchFunction]
        exact .exhausted _ _
      · rw [watchStmt]
        exact .exhausted _ _
      · rw [watchStmts]
        exact .exhausted _ _
      · rw [watchLoop]
        exact .exhausted _ _
  | succ fuel inductionHypothesis =>
      exact
        { expr := inductionHypothesis.expr_succ
          exprs := inductionHypothesis.exprs_succ
          call := inductionHypothesis.call_succ
          function := inductionHypothesis.function_succ
          stmt := inductionHypothesis.stmt_succ
          stmts := inductionHypothesis.stmts_succ
          loop := inductionHypothesis.loop_succ }

end Lexical

end Script
