import Script.Proofs.Renaming.Scope

namespace Script.Site

/-!
# Resolving a renamed program

When scope analysis has no complaints about a program, it has none about the
program with a variable renamed, and it fills in the distances that are there
already.
-/

variable {names : Renaming} {marks : Marks} {site other : Site}

/-- The names that a statement declares do not depend on its distances. -/
theorem after_resolveStmt
    (site analysed : Site) :
    (stmt : Stmt) →
    site.after (analysed.resolveStmt stmt) = site.after stmt
  | .expression _ | .print _ | .variableDecl _ _ | .block _ | .returning _ _
  | .classDecl _ _ | .missing => by
      simp [resolveStmt, after]
  | .functionDecl { name, parameters, body } => by
      simp [resolveStmt, resolveFunction, after]
  | .conditional _ consequent none => by
      simp [resolveStmt, after, after_resolveStmt site analysed consequent]
  | .conditional _ consequent (some alternative) => by
      simp [resolveStmt, after, after_resolveStmt site analysed consequent,
        after_resolveStmt (site.after consequent) _ alternative]
  | .loop _ body => by
      simp [resolveStmt, after, after_resolveStmt site analysed body]

theorem name_resolveFunction
    (site : Site)
    (enclosure : Enclosure)
    (function : FunctionDecl) :
    (site.resolveFunction enclosure function).name = function.name := by
  cases function
  rfl

/-- A renamed method is of the kind that it was. -/
theorem methodEnclosure_renamed
    {enclosure : Enclosure}
    {function changed : FunctionDecl}
    (renamed :
      (site.resolveFunction enclosure function).Aligned (some names) marks.outline
        changed) :
    methodEnclosure changed = methodEnclosure function := by
  unfold methodEnclosure
  rw [renamed.name_eq, name_resolveFunction]

/-- Behind a resolved statement and what it is renamed to. -/
theorem Renamed.after_resolved
    (renamed : site.Renamed names marks other)
    {stmt changed : Stmt}
    (stmtRenamed : (site.resolveStmt stmt).Aligned (some names) marks.outline changed) :
    (site.after stmt).Renamed names marks (other.after changed) := by
  have behind := renamed.after (site.resolveStmt stmt) stmtRenamed
  rwa [after_resolveStmt] at behind

mutual

/-- A renamed expression is resolved already, and without problems. -/
theorem resolveExpr_renamed
    (proper : names.IsProper)
    (places : site.Renamed names marks other) :
    (expr : Expr) →
    {changed : Expr} →
    site.exprProblems expr = [] →
    (site.resolveExpr expr).Aligned (some names) marks.outline changed →
    other.resolveExpr changed = changed ∧ other.exprProblems changed = []
  | .literal _, _, _, renamed => by
      cases renamed
      exact ⟨rfl, rfl⟩
  | .group inner, _, silent, renamed => by
      cases renamed with
      | group innerRenamed =>
          have inside := resolveExpr_renamed proper places inner silent
            innerRenamed
          simp [resolveExpr, exprProblems, inside]
  | .unary _ operand, _, silent, renamed => by
      cases renamed with
      | unary _ operandRenamed =>
          have inside := resolveExpr_renamed proper places operand silent
            operandRenamed
          simp [resolveExpr, exprProblems, inside]
  | .binary left _ right, _, silent, renamed => by
      obtain ⟨leftSilent, rightSilent⟩ := List.append_eq_nil_iff.mp silent
      cases renamed with
      | binary _ leftRenamed rightRenamed =>
          have first := resolveExpr_renamed proper places left leftSilent
            leftRenamed
          have second := resolveExpr_renamed proper places right rightSilent
            rightRenamed
          simp [resolveExpr, exprProblems, first, second]
  | .logical left _ right, _, silent, renamed => by
      obtain ⟨leftSilent, rightSilent⟩ := List.append_eq_nil_iff.mp silent
      cases renamed with
      | logical _ leftRenamed rightRenamed =>
          have first := resolveExpr_renamed proper places left leftSilent
            leftRenamed
          have second := resolveExpr_renamed proper places right rightSilent
            rightRenamed
          simp [resolveExpr, exprProblems, first, second]
  | .reference name _, _, silent, renamed => by
      cases renamed with
      | reference meets avoids =>
          obtain ⟨rfl, rfl⟩ := Marks.eq_of_meetsOption meets
          have same := places.distance? proper avoids.ne
          have pending := places.isPending proper avoids.ne
          simp only [exprProblems, ite_eq_right_iff, List.cons_ne_nil,
            imp_false] at silent
          simp [resolveExpr, exprProblems, same, pending, silent]
  | .assign name value _, _, silent, renamed => by
      cases renamed with
      | assign valueRenamed meets avoids =>
          obtain ⟨rfl, rfl⟩ := Marks.eq_of_meetsOption meets
          have inside := resolveExpr_renamed proper places value silent
            valueRenamed
          have same := places.distance? proper avoids.ne
          simp [resolveExpr, exprProblems, same, inside]
  | .call callee _ arguments, _, silent, renamed => by
      obtain ⟨calleeSilent, argumentsSilent⟩ :=
        List.append_eq_nil_iff.mp silent
      cases renamed with
      | call _ calleeRenamed argumentsRenamed =>
          have first := resolveExpr_renamed proper places callee calleeSilent
            calleeRenamed
          have second := resolveExprs_renamed proper places arguments
            argumentsSilent argumentsRenamed
          simp [resolveExpr, exprProblems, first, second]
  | .property object _, _, silent, renamed => by
      cases renamed with
      | property _ objectRenamed =>
          have inside := resolveExpr_renamed proper places object silent
            objectRenamed
          simp [resolveExpr, exprProblems, inside]
  | .setProperty object _ value, _, silent, renamed => by
      obtain ⟨valueSilent, objectSilent⟩ := List.append_eq_nil_iff.mp silent
      cases renamed with
      | setProperty _ objectRenamed valueRenamed =>
          have first := resolveExpr_renamed proper places object objectSilent
            objectRenamed
          have second := resolveExpr_renamed proper places value valueSilent
            valueRenamed
          simp [resolveExpr, exprProblems, first, second]
  | .receiver _ _, _, silent, renamed => by
      cases renamed with
      | receiver meets _ =>
          obtain ⟨rfl, rfl⟩ := Marks.eq_of_meetsOption meets
          simp only [exprProblems, ite_eq_left_iff, List.cons_ne_nil,
            imp_false] at silent
          simp [resolveExpr, exprProblems, places.receiverDistance? proper,
            places.inClass, Decidable.not_not.mp silent]
  | .missing, _, _, renamed => by
      cases renamed
      exact ⟨rfl, rfl⟩

theorem resolveExprs_renamed
    (proper : names.IsProper)
    (places : site.Renamed names marks other) :
    (exprs : List Expr) →
    {changed : List Expr} →
    site.exprsProblems exprs = [] →
    Expr.AllAligned (some names) marks.outline (site.resolveExprs exprs) changed →
    other.resolveExprs changed = changed ∧ other.exprsProblems changed = []
  | [], _, _, renamed => by
      cases renamed
      exact ⟨rfl, rfl⟩
  | first :: rest, _, silent, renamed => by
      obtain ⟨firstSilent, restSilent⟩ := List.append_eq_nil_iff.mp silent
      cases renamed with
      | cons firstRenamed restRenamed =>
          have here := resolveExpr_renamed proper places first firstSilent
            firstRenamed
          have later := resolveExprs_renamed proper places rest restSilent
            restRenamed
          simp [resolveExprs, exprsProblems, here, later]

end

theorem mapExpr_renamed
    (proper : names.IsProper)
    (places : site.Renamed names marks other)
    {value changed : Option Expr}
    (silent : site.optionalProblems value = [])
    (renamed :
      Expr.OptionAligned (some names) marks.outline (value.map site.resolveExpr) changed) :
    changed.map other.resolveExpr = changed ∧
      other.optionalProblems changed = [] := by
  cases value with
  | none =>
      cases renamed
      exact ⟨rfl, rfl⟩
  | some expr =>
      cases renamed with
      | present exprRenamed =>
          have inside := resolveExpr_renamed proper places expr silent
            exprRenamed
          simp [optionalProblems, inside]

/-- A name that could be declared can be declared under the name it is given. -/
theorem declarationProblems_token
    (proper : names.IsProper)
    (places : site.Renamed names marks other)
    {name : Token}
    {marked : Bool}
    (common : marks.outline.Common marked)
    (avoids : Change.Avoids (some names) marks.outline name.lexeme)
    (silent : site.declarationProblems name = []) :
    other.declarationProblems (Change.token (some names) marked name) = [] := by
  obtain rfl := Marks.eq_of_common common
  simp only [declarationProblems, ite_eq_right_iff, List.cons_ne_nil,
    imp_false] at silent ⊢
  rwa [Change.token_lexeme, Change.name_some,
    places.hasInnermost proper avoids.ne]

theorem declarationProblems_keeps
    (proper : names.IsProper)
    (places : site.Renamed names marks other)
    {name : Token}
    {marked : Bool}
    (common : marks.outline.Common marked)
    (keeps : Change.Keeps (some names) marks.outline marked name.lexeme)
    (silent : site.declarationProblems name = []) :
    other.declarationProblems name = [] := by
  have declared :=
    declarationProblems_token proper places common keeps.avoids silent
  rwa [keeps.token] at declared

theorem parameterProblems_renamed
    (proper : names.IsProper)
    {marked : Bool}
    (places : site.Renamed names (marked :: marks) other)
    {parameters : List Token}
    (avoids :
      ∀ parameter ∈ parameters,
        Change.Avoids (some names) (Marks.outline (marked :: marks))
          parameter.lexeme)
    (silent : site.parameterProblems parameters = []) :
    other.parameterProblems
        (parameters.map (Change.token (some names) marked)) =
      [] := by
  induction parameters generalizing site other with
  | nil =>
      rfl
  | cons first rest inductionHypothesis =>
      obtain ⟨firstSilent, restSilent⟩ := List.append_eq_nil_iff.mp silent
      have firstAvoids := avoids first List.mem_cons_self
      rw [List.map_cons, parameterProblems, List.append_eq_nil_iff]
      exact ⟨declarationProblems_token proper places
          (Marks.common (marked :: marks)) firstAvoids firstSilent,
        inductionHypothesis (places.bind firstAvoids.ne true)
          (fun parameter member =>
            avoids parameter (List.mem_cons_of_mem first member))
          restSilent⟩

/-- A `return` is where it was, with a value if it had one. -/
theorem returnProblems_renamed
    (places : site.Renamed names marks other)
    (keyword : Token)
    {value changed : Option Expr}
    (renamed :
      Expr.OptionAligned (some names) marks.outline (value.map site.resolveExpr) changed) :
    other.returnProblems keyword changed.isSome =
      site.returnProblems keyword value.isSome := by
  have same : changed.isSome = value.isSome := by
    cases value with
    | none =>
        cases renamed
        rfl
    | some expr =>
        cases renamed
        rfl
  unfold returnProblems
  rw [places.enclosure, same]

mutual

/-- A renamed statement is resolved already, and without problems. -/
theorem resolveStmt_renamed
    {marks : Marks}
    {site other : Site}
    (proper : names.IsProper)
    (places : site.Renamed names marks other) :
    (stmt : Stmt) →
    {changed : Stmt} →
    site.stmtProblems stmt = [] →
    (site.resolveStmt stmt).Aligned (some names) marks.outline changed →
    other.resolveStmt changed = changed ∧ other.stmtProblems changed = []
  | .expression value, _, silent, renamed => by
      cases renamed with
      | expression valueRenamed =>
          have inside := resolveExpr_renamed proper places value silent
            valueRenamed
          simp [resolveStmt, stmtProblems, inside]
  | .print value, _, silent, renamed => by
      cases renamed with
      | print valueRenamed =>
          have inside := resolveExpr_renamed proper places value silent
            valueRenamed
          simp [resolveStmt, stmtProblems, inside]
  | .variableDecl name initial, _, silent, renamed => by
      obtain ⟨nameSilent, initialSilent⟩ := List.append_eq_nil_iff.mp silent
      cases renamed with
      | variableDecl common avoids initialRenamed =>
          have declared := declarationProblems_token proper places common avoids
            nameSilent
          obtain rfl := Marks.eq_of_common common
          have inside := mapExpr_renamed proper (places.bind avoids.ne false)
            initialSilent initialRenamed
          rw [← names.token_lexeme] at inside
          rw [Change.token_some] at declared ⊢
          simp only [resolveStmt, stmtProblems, inside, declared,
            List.append_nil, and_self]
  | .block body, _, silent, renamed => by
      cases renamed with
      | block marked bodyRenamed =>
          have inside := resolveStmts_renamed proper (places.inBlock marked)
            body silent bodyRenamed
          simp [resolveStmt, stmtProblems, inside]
  | .conditional condition consequent none, _, silent, renamed => by
      obtain ⟨conditionSilent, consequentSilent⟩ :=
        List.append_eq_nil_iff.mp silent
      cases renamed with
      | conditional conditionRenamed consequentRenamed =>
          have first := resolveExpr_renamed proper places condition
            conditionSilent conditionRenamed
          have second := resolveStmt_renamed proper places consequent
            consequentSilent consequentRenamed
          simp [resolveStmt, stmtProblems, first, second]
  | .conditional condition consequent (some alternative), _, silent,
      renamed => by
      obtain ⟨restSilent, alternativeSilent⟩ :=
        List.append_eq_nil_iff.mp silent
      obtain ⟨conditionSilent, consequentSilent⟩ :=
        List.append_eq_nil_iff.mp restSilent
      cases renamed with
      | choice conditionRenamed consequentRenamed alternativeRenamed =>
          have first := resolveExpr_renamed proper places condition
            conditionSilent conditionRenamed
          have second := resolveStmt_renamed proper places consequent
            consequentSilent consequentRenamed
          have third := resolveStmt_renamed proper
            (places.after_resolved consequentRenamed) alternative
            alternativeSilent alternativeRenamed
          simp [resolveStmt, stmtProblems, first, second, third]
  | .loop condition body, _, silent, renamed => by
      obtain ⟨conditionSilent, bodySilent⟩ := List.append_eq_nil_iff.mp silent
      cases renamed with
      | loop conditionRenamed bodyRenamed =>
          have first := resolveExpr_renamed proper places condition
            conditionSilent conditionRenamed
          have second := resolveStmt_renamed proper places body bodySilent
            bodyRenamed
          simp [resolveStmt, stmtProblems, first, second]
  | .functionDecl function, _, silent, renamed => by
      obtain ⟨nameSilent, functionSilent⟩ := List.append_eq_nil_iff.mp silent
      cases renamed with
      | functionDecl common keeps functionRenamed =>
          rw [name_resolveFunction] at keeps
          have bound := places.bind_keeps common keeps true
          have inside := resolveFunction_renamed proper bound .function
            function functionSilent functionRenamed
          have declared := declarationProblems_keeps proper places common
            keeps nameSilent
          have same : _ = function.name :=
            functionRenamed.name_eq.trans (name_resolveFunction ..)
          rw [← same] at inside declared
          exact ⟨congrArg Stmt.functionDecl inside.1,
            List.append_eq_nil_iff.mpr ⟨declared, inside.2⟩⟩
  | .returning keyword value, _, silent, renamed => by
      obtain ⟨keywordSilent, valueSilent⟩ := List.append_eq_nil_iff.mp silent
      cases renamed with
      | returning _ valueRenamed =>
          have inside := mapExpr_renamed proper places valueSilent valueRenamed
          have around := returnProblems_renamed places keyword valueRenamed
          simp only [resolveStmt, stmtProblems, inside, around, keywordSilent,
            List.append_nil, and_self]
  | .classDecl name methods, _, silent, renamed => by
      obtain ⟨nameSilent, methodsSilent⟩ := List.append_eq_nil_iff.mp silent
      cases renamed with
      | classDecl common keeps methodsRenamed =>
          have bound := places.bind_keeps common keeps true
          have inside := resolveMethods_renamed proper
            (bound.inClassBody proper) methods methodsSilent methodsRenamed
          have declared := declarationProblems_keeps proper places common
            keeps nameSilent
          simp only [resolveStmt, stmtProblems, inside, declared,
            List.append_nil, and_self]
  | .missing, _, _, renamed => by
      cases renamed
      exact ⟨rfl, rfl⟩
termination_by structural stmt => stmt

theorem resolveStmts_renamed
    {marks : Marks}
    {site other : Site}
    (proper : names.IsProper)
    (places : site.Renamed names marks other) :
    (stmts : List Stmt) →
    {changed : List Stmt} →
    site.stmtsProblems stmts = [] →
    Stmt.AllAligned (some names) marks.outline (site.resolveStmts stmts) changed →
    other.resolveStmts changed = changed ∧ other.stmtsProblems changed = []
  | [], _, _, renamed => by
      cases renamed
      exact ⟨rfl, rfl⟩
  | first :: rest, _, silent, renamed => by
      obtain ⟨firstSilent, restSilent⟩ := List.append_eq_nil_iff.mp silent
      cases renamed with
      | cons firstRenamed restRenamed =>
          have here := resolveStmt_renamed proper places first firstSilent
            firstRenamed
          have later := resolveStmts_renamed proper
            (places.after_resolved firstRenamed) rest restSilent restRenamed
          simp [resolveStmts, stmtsProblems, here, later]
termination_by structural stmts => stmts

/-- A renamed function is resolved already, and without problems. -/
theorem resolveFunction_renamed
    {marks : Marks}
    {site other : Site}
    (proper : names.IsProper)
    (places : site.Renamed names marks other)
    (enclosure : Enclosure) :
    (function : FunctionDecl) →
    {changed : FunctionDecl} →
    site.functionProblems enclosure function = [] →
    (site.resolveFunction enclosure function).Aligned (some names) marks.outline
        changed →
    other.resolveFunction enclosure changed = changed ∧
      other.functionProblems enclosure changed = []
  | { name, parameters, body }, _, silent, renamed => by
      obtain ⟨parametersSilent, bodySilent⟩ :=
        List.append_eq_nil_iff.mp silent
      cases renamed with
      | mk marked _ avoids bodyRenamed =>
          have inside := resolveStmts_renamed proper
            (places.inFunction enclosure avoids) body bodySilent bodyRenamed
          have declared := parameterProblems_renamed proper
            (places.inBlock marked) avoids parametersSilent
          rw [Change.token_some] at declared ⊢
          simp [resolveFunction, functionProblems, inside, declared]
termination_by structural function => function

theorem resolveMethods_renamed
    {marks : Marks}
    {site other : Site}
    (proper : names.IsProper)
    (places : site.Renamed names marks other) :
    (methods : List FunctionDecl) →
    {changed : List FunctionDecl} →
    site.methodProblems methods = [] →
    FunctionDecl.AllAligned (some names) marks.outline (site.resolveMethods methods)
      changed →
    other.resolveMethods changed = changed ∧
      other.methodProblems changed = []
  | [], _, _, renamed => by
      cases renamed
      exact ⟨rfl, rfl⟩
  | first :: rest, _, silent, renamed => by
      obtain ⟨firstSilent, restSilent⟩ := List.append_eq_nil_iff.mp silent
      cases renamed with
      | cons firstRenamed restRenamed =>
          have here := resolveFunction_renamed proper places
            (methodEnclosure first) first firstSilent firstRenamed
          have later := resolveMethods_renamed proper places rest restSilent
            restRenamed
          rw [← methodEnclosure_renamed firstRenamed] at here
          simp [resolveMethods, methodProblems, here, later]
termination_by structural methods => methods

end

end Script.Site
