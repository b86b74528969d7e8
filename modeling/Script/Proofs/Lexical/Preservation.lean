import Script.Proofs.Lexical.Call
import Script.Proofs.Receiver.Trail

namespace Script.Lexical

/-!
# Watched evaluation keeps the invariant

Whatever code that is as it should be does, the machine behind it is sound and
has the current frame it had before, the run is never broken, and its account is
true.  The proof is one induction over the bound of all functions together; the
cases of expressions and statements follow the tree.
-/

/-- What the watched functions preserve within a bound. -/
structure Preserves (fuel : Nat) : Prop where
  expr :
    ∀ {position expr machine log},
      Sound log machine →
      Stands log machine position →
      Occurs position (.expr expr) →
      (watchExpr fuel position expr machine log).Runs machine log GoodValue
        (accountExpr fuel position expr machine log)
  exprs :
    ∀ {position exprs machine log},
      Sound log machine →
      Stands log machine position →
      (∀ expr ∈ exprs, Occurs position (.expr expr)) →
      (watchExprs fuel position exprs machine log).Runs machine log
        (fun values after last => ∀ value ∈ values, Good last after value)
        (accountExprs fuel position exprs machine log)
  call :
    ∀ {callable arguments machine log},
      Sound log machine →
      GoodCallable log machine callable →
      callable.arity = (arguments.length : Int) →
      (∀ argument ∈ arguments, Good log machine argument) →
      (watchCall fuel callable arguments machine log).Runs machine log
        GoodValue (accountCall fuel callable arguments machine log)
  function :
    ∀ {closure arguments machine log},
      Sound log machine →
      Homed log machine closure →
      closure.arity = arguments.length →
      (∀ argument ∈ arguments, Good log machine argument) →
      (watchFunction fuel closure arguments machine log).Runs machine log
        GoodValue (accountFunction fuel closure arguments machine log)
  stmt :
    ∀ {position stmt machine log},
      Sound log machine →
      Stands log machine position →
      Occurs position (.stmt stmt) →
      (watchStmt fuel position stmt machine log).Runs machine log
        (fun flow after last =>
          GoodFlow flow after last ∧
            (flow = .normal → Stands last after (position.declaring stmt)))
        (accountStmt fuel position stmt machine log)
  stmts :
    ∀ {position stmts machine log},
      Sound log machine →
      Stands log machine position →
      Occurs position (.stmts stmts) →
      (watchStmts fuel position stmts machine log).Runs machine log GoodFlow
        (accountStmts fuel position stmts machine log)
  loop :
    ∀ {position condition body machine log},
      Sound log machine →
      Stands log machine position →
      Occurs position (.stmt (.loop condition body)) →
      (watchLoop fuel position condition body machine log).Runs machine log
        GoodFlow (accountLoop fuel position condition body machine log)

namespace Preserves

variable {fuel : Nat} {log : Log} {machine : Machine} {position : Position}

theorem expr_succ
    (smaller : Preserves fuel)
    {expr : Expr}
    (sound : Sound log machine)
    (stands : Stands log machine position)
    (occurs : Occurs position (.expr expr)) :
    (watchExpr (fuel + 1) position expr machine log).Runs machine log GoodValue
      (accountExpr (fuel + 1) position expr machine log) := by
  rw [watchExpr.eq_def, accountExpr.eq_def]
  cases expr with
  | literal value =>
      exact .quiet (.done (.refl sound) rfl (good_ofLiteral log machine value))
        (.refl log)
  | reference name distance =>
      exact .quiet
        (read_keeps sound _ (reference_right sound stands occurs) rfl)
        (.note log rfl)
  | group inner =>
      exact smaller.expr sound stands occurs.grouped
  | unary operator operand =>
      refine (smaller.expr sound stands occurs.unaryOperand).bind_quiet
        fun value after last goes _ _ => ?_
      exact .quiet
        (settle_keeps goes.sound operator
          (unary_harmless (sound.fits stands occurs) value))
        (.refl _)
  | binary left operator right =>
      refine (smaller.expr sound stands occurs.binaryLeft).bind
        fun leftValue afterLeft logLeft goesLeft currentLeft _ => ?_
      have standsLeft := stands.extend goesLeft.extended currentLeft
      refine (smaller.expr goesLeft.sound standsLeft
        occurs.binaryRight).bind_quiet
        fun rightValue afterRight logRight goesRight _ _ => ?_
      exact .quiet
        (settle_keeps goesRight.sound operator
          (binary_harmless (sound.fits stands occurs) leftValue
            rightValue))
        (.refl _)
  | logical left operator right =>
      refine (smaller.expr sound stands occurs.logicalLeft).bind
        fun leftValue afterLeft logLeft goesLeft currentLeft good => ?_
      have standsLeft := stands.extend goesLeft.extended currentLeft
      split
      · exact .quiet (.done (.refl goesLeft.sound) rfl good)
          (.refl _)
      · exact smaller.expr goesLeft.sound standsLeft occurs.logicalRight
  | receiver keyword distance =>
      exact read_runs sound _ (receiver_right sound stands occurs)
        ⟨rfl, sound.fits stands occurs, occurs, stands, sound.ordered⟩
        rfl
  | assign name value distance =>
      -- The use is noted twice: before its value is known, and where it is made.
      have noted := assignment_goes sound stands occurs
      have standsNoted := stands.extend noted.extended rfl
      refine .after noted rfl (.note log rfl) ?_
      refine (smaller.expr noted.sound standsNoted occurs.assigned).bind_quiet
        fun result after last goes current good => ?_
      have standsAfter := standsNoted.extend goes.extended current
      exact .quiet
        (assign_keeps goes.sound _
          (assignment_right goes.sound standsAfter occurs) rfl rfl good)
        (.note last rfl)
  | call callee closing arguments =>
      refine (smaller.expr sound stands occurs.callee).bind
        fun value afterCallee logCallee goesCallee currentCallee good => ?_
      have standsCallee := stands.extend goesCallee.extended currentCallee
      refine (smaller.exprs goesCallee.sound standsCallee
        fun argument member => occurs.argument member).bind
        fun values after last goes current goodValues => ?_
      have goodCallee := Good.extend goes.extended good
      cases called : after.callee value values.length with
      | error cause =>
          exact .quiet (.stopped goes.sound (callee_harmless called))
            (.refl _)
      | ok callable =>
          obtain ⟨goodCallable, arity⟩ := callee_good goodCallee called
          refine .duringCall goes.sound ?_ goodValue_depth
          intro inner goesInner _
          exact smaller.call goesInner.sound
            (goodCallable.extend goesInner.extended) arity
            fun argument member =>
              (goodValues argument member).extend goesInner.extended
  | property object name =>
      refine (smaller.expr sound stands occurs.propertyObject).bind
        fun value after last goes _ good => ?_
      cases value with
      | object object =>
          exact getProperty_runs goes.sound good name
      | _ =>
          exact .quiet (.stopped goes.sound (by simp)) (.refl _)
  | setProperty object name value =>
      refine (smaller.expr sound stands occurs.fieldObject).bind
        fun target afterObject logObject goesObject currentObject good => ?_
      have standsObject := stands.extend goesObject.extended currentObject
      cases target with
      | object object =>
          refine (smaller.expr goesObject.sound standsObject
            occurs.fieldValue).bind_quiet
            fun value after last goes _ goodValue => ?_
          have stored := Goes.setField goes.sound object name.lexeme goodValue
          exact .quiet
            (.done stored rfl (Good.extend stored.extended goodValue))
            (.refl _)
      | _ =>
          exact .quiet (.stopped goesObject.sound (by simp))
            (.refl _)
  | missing =>
      exact (sound.fits stands occurs).elim

theorem exprs_succ
    (smaller : Preserves fuel)
    {exprs : List Expr}
    (sound : Sound log machine)
    (stands : Stands log machine position)
    (occurs : ∀ expr ∈ exprs, Occurs position (.expr expr)) :
    (watchExprs (fuel + 1) position exprs machine log).Runs machine log
      (fun values after last => ∀ value ∈ values, Good last after value)
      (accountExprs (fuel + 1) position exprs machine log) := by
  rw [watchExprs.eq_def, accountExprs.eq_def]
  cases exprs with
  | nil =>
      exact .quiet (.done (.refl sound) rfl (by simp)) (.refl _)
  | cons first rest =>
      refine (smaller.expr sound stands (occurs first (by simp))).bind
        fun value afterFirst logFirst goesFirst currentFirst good => ?_
      have standsFirst := stands.extend goesFirst.extended currentFirst
      have restOccurs : ∀ expr ∈ rest, Occurs position (.expr expr) :=
        fun expr member => occurs expr (List.mem_cons_of_mem _ member)
      refine (smaller.exprs goesFirst.sound standsFirst
        restOccurs).bind_quiet fun values after last goes _ goodValues => ?_
      refine .quiet (.done (.refl goes.sound) rfl ?_) (.refl _)
      intro item member
      rcases List.mem_cons.mp member with rfl | member
      · exact Good.extend goes.extended good
      · exact goodValues item member

/-- Calling a class gives the object that it makes. -/
theorem construct
    (smaller : Preserves fuel)
    {members : ClassValue}
    {arguments : List Value}
    (sound : Sound log machine)
    (homed : MembersHomed log machine members)
    (arity : members.arity = arguments.length)
    (goodArguments : ∀ argument ∈ arguments, Good log machine argument) :
    (watchCall (fuel + 1) (.classValue members) arguments machine log).Runs
      machine log
      (fun value after last =>
        GoodValue value after last ∧
          value = .object (machine.makeObject members).1)
      (accountMakeObject members machine log fun bound machine log =>
        accountFunction fuel bound arguments machine log) := by
  rw [watchCall.eq_def]
  unfold accountMakeObject
  have made := Goes.makeObject sound members
  have goodObject := good_makeObject sound homed
  cases found : members.initializer? with
  | none =>
      simp only [found]
      exact .quiet ⟨made, rfl, goodObject, rfl⟩ (.refl _)
  | some initializer =>
      simp only [found]
      obtain ⟨bound, boundHomed, goodBound, objectBound⟩ :=
        bindInitializer_goes sound homed found goodArguments
      refine .after made rfl (.refl _) ?_
      refine .after_entry bound rfl
        (binding_follows made.sound (goodObject.2.method found) goodObject) ?_
      have takes := initializer_arity found arity
      refine (smaller.function bound.sound boundHomed takes
        goodBound).bind_quiet fun _ after last goesOn _ _ => ?_
      exact .quiet
        (.done (.refl goesOn.sound) rfl
          ⟨objectBound.extend goesOn.extended, rfl⟩)
        (.refl _)

theorem call_succ
    (smaller : Preserves fuel)
    {callable : Callable}
    {arguments : List Value}
    (sound : Sound log machine)
    (good : GoodCallable log machine callable)
    (arity : callable.arity = (arguments.length : Int))
    (goodArguments : ∀ argument ∈ arguments, Good log machine argument) :
    (watchCall (fuel + 1) callable arguments machine log).Runs machine log
      GoodValue (accountCall (fuel + 1) callable arguments machine log) := by
  rw [accountCall.eq_def]
  cases callable with
  | native native =>
      rw [watchCall.eq_def]
      have noted :
          Goes machine log machine (.asked native arguments.length :: log) :=
        .note sound rfl arity
      cases native with
      | clock =>
          exact .quiet
            (.done (noted.trans (.same noted.sound rfl rfl le_rfl)) rfl trivial)
            (.note log rfl)
      | str | custom =>
          exact .quiet (.done noted rfl trivial) (.note log rfl)
  | function closure =>
      rw [watchCall.eq_def]
      exact smaller.function sound good (Int.ofNat.inj arity) goodArguments
  | classValue members =>
      have ran :=
        smaller.construct sound good (Int.ofNat.inj arity) goodArguments
      have listed :=
        ran.then_entry (.constructed members arguments machine)
          fun value after last holds => by
            rw [holds.2]
            exact makeObject_constructs sound members goodArguments
      exact listed.weaken fun _ _ _ _ _ holds => holds.1

theorem function_succ
    (smaller : Preserves fuel)
    {closure : Closure}
    {arguments : List Value}
    (sound : Sound log machine)
    (homed : Homed log machine closure)
    (arity : closure.arity = arguments.length)
    (goodArguments : ∀ argument ∈ arguments, Good log machine argument) :
    (watchFunction (fuel + 1) closure arguments machine log).Runs machine log
      GoodValue
      (accountFunction (fuel + 1) closure arguments machine log) := by
  obtain ⟨entered, opens, occurs⟩ :=
    enterFunction_goes sound homed arity goodArguments
  have ran :
      (watchFunction (fuel + 1) closure arguments machine log).Runs machine log
        (fun value after last =>
          GoodValue value after last ∧
            (closure.isInitializer = true →
              value = after.receiverOf closure))
        (accountNewFrame machine (.entered closure arguments.length :: log)
          closure.frame
          (Machine.parameterBindings closure.function arguments)
          (Log.innermost ((log.home closure).inFunction closure.function))
          fun machine log =>
            accountStmts fuel ((log.home closure).inFunction closure.function)
              closure.function.body machine log) := by
    rw [watchFunction.eq_def]
    refine .after entered rfl (.note log rfl) ?_
    refine (Watched.Runs.newFrame entered.sound (by simp) opens
      (fun _ _ sound stands => smaller.stmts sound stands occurs)
      goodFlow_current).bind_quiet fun flow after last goes _ good => ?_
    split
    · exact .quiet
        (.done (.refl goes.sound) rfl
          ⟨good_receiverOf goes.sound closure, fun _ => rfl⟩)
        (.refl _)
    · rename_i ordinary
      exact .quiet
        (.done (.refl goes.sound) rfl
          ⟨good, fun initializes => (ordinary initializes).elim⟩)
        (.refl _)
  rw [accountFunction.eq_def]
  have listed :=
    ran.then_entry (.returned closure) fun value after last holds => holds.2
  exact listed.weaken fun _ _ _ _ _ holds => holds.1

/-- A branch of a statement, which has the scopes of the statement. -/
theorem branch
    (smaller : Preserves fuel)
    {part : Nat}
    {stmt : Stmt}
    (sound : Sound log machine)
    (stands : Stands log machine position)
    (occurs : Occurs (position.inside part) (.stmt stmt)) :
    (watchStmt fuel (position.inside part) stmt machine log).Runs machine log
      (fun flow after last =>
        GoodFlow flow after last ∧
          (flow = .normal → Stands last after position))
      (accountStmt fuel (position.inside part) stmt machine log) :=
  (smaller.stmt sound (stands.of_levels (position.inside part) rfl rfl)
    occurs).weaken fun _ _ _ goes current good =>
      ⟨good.1, fun _ => stands.extend goes.extended current⟩

theorem stmt_succ
    (smaller : Preserves fuel)
    {stmt : Stmt}
    (sound : Sound log machine)
    (stands : Stands log machine position)
    (occurs : Occurs position (.stmt stmt)) :
    (watchStmt (fuel + 1) position stmt machine log).Runs machine log
      (fun flow after last =>
        GoodFlow flow after last ∧
          (flow = .normal → Stands last after (position.declaring stmt)))
      (accountStmt (fuel + 1) position stmt machine log) := by
  rw [watchStmt.eq_def, accountStmt.eq_def]
  have inBody := occurs.nested.2
  cases stmt with
  | expression value =>
      refine (smaller.expr sound stands occurs.expressionValue).bind_quiet
        fun _ after last goes current _ => ?_
      exact .quiet
        (.done (.refl goes.sound) rfl
          ⟨trivial, fun _ => stands.extend goes.extended current⟩)
        (.refl _)
  | print value =>
      refine (smaller.expr sound stands occurs.printValue).bind_quiet
        fun result after last goes current _ => ?_
      have printed :
          Goes after last (after.print result.display) last :=
        .same goes.sound rfl rfl le_rfl
      exact .quiet
        (.done printed rfl
          ⟨trivial,
            fun _ => stands.extend (goes.trans printed).extended current⟩)
        (.refl _)
  | variableDecl name initial =>
      cases initial with
      | none =>
          have free := stands.not_holdsReceiver inBody
          exact .quiet
            (.done (.define sound free _ _ trivial) rfl
              ⟨trivial, fun _ => stands.define sound inBody name.lexeme .nil⟩)
            (.refl _)
      | some initial =>
          refine (smaller.expr sound (stands.initializing name.lexeme)
            occurs.initializer).bind_quiet
            fun value after last goes current good => ?_
          have standsAfter := stands.extend goes.extended current
          have free := standsAfter.not_holdsReceiver inBody
          have goodDefined : Good last (after.define name.lexeme value) value :=
            Good.extend (.define after free name.lexeme value) good
          exact .quiet
            (.done (.define goes.sound free _ _ goodDefined) rfl
              ⟨trivial, fun _ =>
                standsAfter.define goes.sound inBody name.lexeme value⟩)
            (.refl _)
  | block body =>
      have ran :=
        Watched.Runs.newFrame sound (by simp) stands.opensBlock
          (fun _ _ sound stands => smaller.stmts sound stands occurs.blockBody)
          goodFlow_current
      exact ran.weaken fun flow after last goes current good =>
        ⟨good, fun _ => stands.extend goes.extended current⟩
  | conditional condition consequent alternative =>
      refine (smaller.expr sound stands occurs.condition).bind
        fun value after last goes current _ => ?_
      have standsAfter := stands.extend goes.extended current
      split
      · exact smaller.branch goes.sound standsAfter occurs.consequent
      · cases alternative with
        | none =>
            exact .quiet
              (.done (.refl goes.sound) rfl ⟨trivial, fun _ => standsAfter⟩)
              (.refl _)
        | some alternative =>
            exact smaller.branch goes.sound standsAfter occurs.alternative
  | loop condition body =>
      exact (smaller.loop sound stands occurs).weaken
        fun flow after last goes current good =>
          ⟨good, fun _ => stands.extend goes.extended current⟩
  | functionDecl function =>
      obtain ⟨goes, standsAfter⟩ := declareFunction_goes sound stands occurs
      exact .quiet (.done goes rfl ⟨trivial, fun _ => standsAfter⟩)
        (.note log rfl)
  | returning keyword value =>
      cases value with
      | none =>
          exact .quiet
            (.done (.refl sound) rfl
              ⟨trivial, fun impossible => by cases impossible⟩)
            (.refl _)
      | some value =>
          refine (smaller.expr sound stands occurs.returnValue).bind_quiet
            fun result after last goes _ good => ?_
          exact .quiet
            (.done (.refl goes.sound) rfl
              ⟨good, fun impossible => by cases impossible⟩)
            (.refl _)
  | classDecl name methods =>
      obtain ⟨goes, standsAfter⟩ := declareClass_goes sound stands occurs
      have current := (makeMethods_goes sound occurs.classMethods).2.2.1
      exact .quiet (.done goes current ⟨trivial, fun _ => standsAfter⟩)
        (declareMethods_same _ _ log methods)
  | missing =>
      exact (sound.fits stands occurs).elim

theorem stmts_succ
    (smaller : Preserves fuel)
    {stmts : List Stmt}
    (sound : Sound log machine)
    (stands : Stands log machine position)
    (occurs : Occurs position (.stmts stmts)) :
    (watchStmts (fuel + 1) position stmts machine log).Runs machine log
      GoodFlow (accountStmts (fuel + 1) position stmts machine log) := by
  rw [watchStmts.eq_def, accountStmts.eq_def]
  cases stmts with
  | nil =>
      exact .quiet (.done (.refl sound) rfl trivial) (.refl _)
  | cons first rest =>
      refine (smaller.stmt sound stands occurs.firstStatement).bind
        fun flow after last goes current holds => ?_
      -- A name that the first statement declares is bound before the next one.
      cases flow with
      | normal =>
          exact smaller.stmts goes.sound (holds.2 rfl).next
            occurs.laterStatements
      | returning value =>
          exact .quiet (.done (.refl goes.sound) rfl holds.1)
            (.refl _)

theorem loop_succ
    (smaller : Preserves fuel)
    {condition : Expr}
    {body : Stmt}
    (sound : Sound log machine)
    (stands : Stands log machine position)
    (occurs : Occurs position (.stmt (.loop condition body))) :
    (watchLoop (fuel + 1) position condition body machine log).Runs machine
      log GoodFlow
      (accountLoop (fuel + 1) position condition body machine log) := by
  rw [watchLoop.eq_def, accountLoop.eq_def]
  refine (smaller.expr sound stands occurs.loopCondition).bind
    fun value after last goes current _ => ?_
  have standsAfter := stands.extend goes.extended current
  split
  · refine (smaller.branch goes.sound standsAfter occurs.loopBody).bind
      fun flow afterBody logBody goesBody _ holds => ?_
    cases flow with
    | normal =>
        exact smaller.loop goesBody.sound (holds.2 rfl) occurs
    | returning value =>
        exact .quiet (.done (.refl goesBody.sound) rfl holds.1)
          (.refl _)
  · exact .quiet (.done (.refl goes.sound) rfl trivial) (.refl _)

end Preserves

/-- Watched evaluation keeps the invariant and gives a true account, within every
bound. -/
theorem preserves (fuel : Nat) : Preserves fuel := by
  induction fuel with
  | zero =>
      constructor <;> intros
      · rw [watchExpr]
        exact .exhausted ‹_›
      · rw [watchExprs]
        exact .exhausted ‹_›
      · rw [watchCall]
        exact .exhausted ‹_›
      · rw [watchFunction]
        exact .exhausted ‹_›
      · rw [watchStmt]
        exact .exhausted ‹_›
      · rw [watchStmts]
        exact .exhausted ‹_›
      · rw [watchLoop]
        exact .exhausted ‹_›
  | succ fuel inductionHypothesis =>
      exact
        { expr := inductionHypothesis.expr_succ
          exprs := inductionHypothesis.exprs_succ
          call := inductionHypothesis.call_succ
          function := inductionHypothesis.function_succ
          stmt := inductionHypothesis.stmt_succ
          stmts := inductionHypothesis.stmts_succ
          loop := inductionHypothesis.loop_succ }

/-- A watched program keeps the invariant and gives a true account. -/
theorem watchProgram_runs
    (fuel : Nat)
    {position : Position}
    {stmts : List Stmt}
    {machine : Machine}
    {log : Log}
    (sound : Sound log machine)
    (stands : Stands log machine position)
    (topLevel : position.levels = [])
    (occurs : Occurs position (.stmts stmts)) :
    (watchProgram fuel position stmts machine log).Runs machine log
      (fun _ _ _ => True) (accountProgram fuel position stmts machine log) := by
  induction stmts generalizing position machine log with
  | nil =>
      exact .quiet (.done (.refl sound) rfl trivial) (.refl _)
  | cons first rest inductionHypothesis =>
      refine ((preserves fuel).stmt sound stands occurs.firstStatement).bind
        fun flow after last goes current _ => ?_
      have unmoved := position.declaring_top topLevel first
      have laterOccurs := occurs.laterStatements
      rw [unmoved] at laterOccurs ⊢
      exact inductionHypothesis goes.sound
        (stands.extend goes.extended current).next (by simpa using topLevel)
        laterOccurs

end Script.Lexical
