import Script.Proofs.Lexical.Analysed
import Script.Proofs.Renaming.Marks

namespace Script

/-!
# Renaming a declared variable

A program without problems declares no name twice in a scope.  When the chosen
scopes declare the old name as a variable or as a parameter, no function or class
has it there, and so the program with the variable renamed differs from the program
by a renaming.
-/

namespace Stmt

/-- The name of the function or class that a statement declares. -/
def definedName? : Stmt → Option Token
  | .functionDecl function =>
      some function.name
  | .classDecl name _ =>
      some name
  | _ =>
      none

theorem declaredName?_of_definedName?
    {stmt : Stmt}
    {name : Token}
    (defined : stmt.definedName? = some name) :
    stmt.declaredName? = some name := by
  cases stmt with
  | functionDecl | classDecl =>
      exact defined
  | _ =>
      cases defined

theorem declaredName?_of_variableName?
    {stmt : Stmt}
    {name : Token}
    (declares : stmt.variableName? = some name) :
    stmt.declaredName? = some name := by
  cases stmt with
  | variableDecl =>
      exact declares
  | _ =>
      cases declares

theorem variableName?_resolveStmt
    (site : Site)
    (stmt : Stmt) :
    (site.resolveStmt stmt).variableName? = stmt.variableName? := by
  cases stmt with
  | conditional condition consequent alternative =>
      rw [Lexical.resolveStmt_conditional]
      rfl
  | _ =>
      rfl

end Stmt

namespace Site

variable {site : Site} {name : Text}

theorem scopes_bind
    (site : Site)
    (name : Text)
    (ready : Bool) :
    (site.bind name ready).scopes = [] ↔ site.scopes = [] := by
  unfold bind
  split
  · rfl
  · rename_i scopes
    simp [scopes]

theorem hasInnermost_bind
    (other : Text)
    (ready : Bool)
    (found : site.hasInnermost name = true) :
    (site.bind other ready).hasInnermost name = true := by
  rcases site with ⟨scopes, enclosure, inClass⟩
  cases scopes with
  | nil =>
      cases found
  | cons scope outer =>
      simp only [hasInnermost, bind, Scope.declares, List.lookup_cons]
      split
      · rfl
      · exact found

theorem hasInnermost_bind_self
    (inside : site.scopes ≠ [])
    (name : Text)
    (ready : Bool) :
    (site.bind name ready).hasInnermost name = true := by
  rcases site with ⟨scopes, enclosure, inClass⟩
  cases scopes with
  | nil =>
      exact (inside rfl).elim
  | cons scope outer =>
      simp [hasInnermost, bind, Scope.declares]

/-- A statement closes no scope. -/
theorem scopes_after :
    (stmt : Stmt) →
    (site : Site) →
    ((site.after stmt).scopes = [] ↔ site.scopes = [])
  | .expression _, _ | .print _, _ | .block _, _ | .returning _ _, _
  | .missing, _ => by
      rfl
  | .variableDecl _ _, site | .functionDecl _, site | .classDecl _ _, site =>
      scopes_bind site _ true
  | .conditional _ consequent none, site =>
      scopes_after consequent site
  | .conditional _ consequent (some alternative), site =>
      (scopes_after alternative (site.after consequent)).trans
        (scopes_after consequent site)
  | .loop _ body, site =>
      scopes_after body site

/-- A scope keeps its names. -/
theorem hasInnermost_after
    {name : Text} :
    (stmt : Stmt) →
    {site : Site} →
    site.hasInnermost name = true →
    (site.after stmt).hasInnermost name = true
  | .expression _, _, found | .print _, _, found | .block _, _, found
  | .returning _ _, _, found | .missing, _, found =>
      found
  | .variableDecl _ _, _, found | .functionDecl _, _, found
  | .classDecl _ _, _, found =>
      hasInnermost_bind _ true found
  | .conditional _ consequent none, _, found =>
      hasInnermost_after consequent found
  | .conditional _ consequent (some alternative), _, found =>
      hasInnermost_after alternative (hasInnermost_after consequent found)
  | .loop _ body, _, found =>
      hasInnermost_after body found

/-- Behind a declaration the scope has its name. -/
theorem hasInnermost_declared
    (inside : site.scopes ≠ [])
    {stmt : Stmt}
    {name : Token}
    (declared : stmt.declaredName? = some name) :
    (site.after stmt).hasInnermost name.lexeme = true := by
  cases stmt with
  | variableDecl | functionDecl | classDecl =>
      cases declared
      exact hasInnermost_bind_self inside _ true
  | _ =>
      cases declared

/-- What is declared without a problem was not declared before. -/
theorem hasInnermost_of_stmtProblems
    {stmt : Stmt}
    {name : Token}
    (silent : site.stmtProblems stmt = [])
    (declared : stmt.declaredName? = some name) :
    site.hasInnermost name.lexeme = false := by
  have unproblematic : site.declarationProblems name = [] := by
    cases stmt with
    | variableDecl | functionDecl | classDecl =>
        cases declared
        exact (List.append_eq_nil_iff.mp silent).1
    | _ =>
        cases declared
  simpa [declarationProblems] using unproblematic

/-- A name that the scope has already is not declared again. -/
theorem declared_ne
    {stmts : List Stmt}
    (silent : site.stmtsProblems stmts = [])
    (found : site.hasInnermost name = true)
    {stmt : Stmt}
    (member : stmt ∈ stmts)
    {declared : Token}
    (declares : stmt.declaredName? = some declared) :
    declared.lexeme ≠ name := by
  induction stmts generalizing site with
  | nil =>
      cases member
  | cons first rest inductionHypothesis =>
      obtain ⟨firstSilent, restSilent⟩ := List.append_eq_nil_iff.mp silent
      rcases List.mem_cons.mp member with rfl | member
      · rintro rfl
        rw [hasInnermost_of_stmtProblems firstSilent declares] at found
        cases found
      · exact inductionHypothesis restSilent (hasInnermost_after first found)
          member

/-- A scope declares a name in one statement only. -/
theorem declared_once
    {stmts : List Stmt}
    (inside : site.scopes ≠ [])
    (silent : site.stmtsProblems stmts = [])
    {stmt other : Stmt}
    (member : stmt ∈ stmts)
    (otherMember : other ∈ stmts)
    {declared otherDeclared : Token}
    (declares : stmt.declaredName? = some declared)
    (otherDeclares : other.declaredName? = some otherDeclared)
    (same : declared.lexeme = otherDeclared.lexeme) :
    stmt = other := by
  induction stmts generalizing site with
  | nil =>
      cases member
  | cons first rest inductionHypothesis =>
      obtain ⟨_, restSilent⟩ := List.append_eq_nil_iff.mp silent
      rcases List.mem_cons.mp member with rfl | later <;>
        rcases List.mem_cons.mp otherMember with rfl | otherLater
      · rfl
      · exact (declared_ne restSilent (hasInnermost_declared inside declares)
          otherLater otherDeclares same.symm).elim
      · exact (declared_ne restSilent
          (hasInnermost_declared inside otherDeclares) later declares
          same).elim
      · exact inductionHypothesis (mt (scopes_after first site).mp inside)
          restSilent later otherLater

/-- A variable of resolved statements is declared in one of the statements. -/
theorem mem_declarations_resolveStmts
    {stmts : List Stmt}
    {name : Token}
    (member :
      name ∈ (site.resolveStmts stmts).filterMap Stmt.variableName?) :
    ∃ stmt ∈ stmts, stmt.variableName? = some name := by
  induction stmts generalizing site with
  | nil =>
      cases member
  | cons first rest inductionHypothesis =>
      obtain ⟨resolved, found, declares⟩ := List.mem_filterMap.mp member
      rcases List.mem_cons.mp found with rfl | found
      · rw [Stmt.variableName?_resolveStmt] at declares
        exact ⟨first, List.mem_cons_self, declares⟩
      · obtain ⟨stmt, later, same⟩ :=
          inductionHypothesis (List.mem_filterMap.mpr ⟨_, found, declares⟩)
        exact ⟨stmt, List.mem_cons_of_mem first later, same⟩

/-- Parameters are names of the scope of a function. -/
theorem hasInnermost_inFunction
    (site : Site)
    (enclosure : Enclosure)
    {parameters : List Token}
    {parameter : Token}
    (member : parameter ∈ parameters) :
    (site.inFunction enclosure parameters).hasInnermost parameter.lexeme =
      true := by
  have scopes :=
    (Lexical.SiteAt.foldl_bind { site.enter [] with enclosure } parameters []
      site.scopes rfl).1
  have found : parameter.lexeme ∈ (parameters.map Token.lexeme).reverse :=
    List.mem_reverse.mpr (List.mem_map_of_mem member)
  unfold hasInnermost inFunction
  rw [scopes, List.append_nil]
  simp only [Scope.declares, Lexical.lookup_ready, if_pos found,
    Option.isSome_some]

theorem scopes_inFunction
    (site : Site)
    (enclosure : Enclosure)
    (parameters : List Token) :
    (site.inFunction enclosure parameters).scopes ≠ [] := by
  have scopes :=
    (Lexical.SiteAt.foldl_bind { site.enter [] with enclosure } parameters []
      site.scopes rfl).1
  unfold inFunction
  rw [scopes]
  exact List.cons_ne_nil _ _

end Site

namespace Renaming

variable (names : Renaming)

/-- A scope declares the old name, as a variable or as a parameter. -/
def DeclaredBy (scope? : Option LocalScope) : Prop :=
  ∃ scope,
    scope? = some scope ∧ ∃ name ∈ scope.declarations, name.lexeme = names.old

/-- In a marked scope no function and no class of some statements has the old
name. -/
def Spares
    (marks : Marks)
    (stmts : List Stmt) :
    Prop :=
  marks.innermost = true →
    ∀ stmt ∈ stmts, ∀ name, stmt.definedName? = some name →
      name.lexeme ≠ names.old

theorem Spares.mono
    {names : Renaming}
    {marks : Marks}
    {stmts others : List Stmt}
    (spares : names.Spares marks stmts)
    (subset : others ⊆ stmts) :
    names.Spares marks others :=
  fun marked stmt member => spares marked stmt (subset member)

/-- Tokens that scanning makes, none of which has the new name. -/
def IsKnown (token : Token) : Prop :=
  Lexical.SpelledToken token ∧ token.lexeme ≠ names.new

variable {names} {marks : Marks}

theorem IsKnown.avoids
    {outline : Outline}
    {token : Token}
    (known : names.IsKnown token) :
    Change.Avoids (some names) outline token.lexeme := by
  rintro _ _ _ ⟨⟩ _
  exact known.2

/-- The name of the receiver stays wherever it is used. -/
theorem IsKnown.keeps_receiver
    (proper : names.IsProper)
    {outline : Outline}
    {keyword : Token}
    (known : names.IsKnown keyword)
    (kind : keyword.kind = .keyword .thisWord)
    (marked : Bool) :
    Change.Keeps (some names) outline marked keyword.lexeme := by
  refine ⟨known.avoids, ?_⟩
  rw [Lexical.lexeme_eq_receiverName known.1 kind]
  exact proper.change.name_receiver marked

theorem Spares.keeps
    {stmt : Stmt}
    (spares : names.Spares marks [stmt])
    {name : Token}
    (defined : stmt.definedName? = some name)
    (known : names.IsKnown name) :
    Change.Keeps (some names) marks.outline marks.innermost name.lexeme := by
  refine ⟨known.avoids, ?_⟩
  cases marked : marks.innermost with
  | false =>
      exact names.name_false name.lexeme
  | true =>
      exact Renaming.name_of_ne
        (spares marked stmt List.mem_cons_self name defined) true

/-- What declares nothing has no function or class of the old name. -/
theorem spares_of_declaredName?
    {stmt : Stmt}
    (declaresNothing : stmt.declaredName? = none) :
    names.Spares marks [stmt] := by
  intro _ member found name defined
  obtain rfl := List.mem_singleton.mp found
  rw [Stmt.declaredName?_of_definedName? defined] at declaresNothing
  cases declaresNothing

/-- A scope that declares the old name as a variable has no function or class of
this name. -/
theorem spares_body
    {site : Site}
    {parameters : List Token}
    {body : List Stmt}
    {marked : Bool}
    (inside : site.scopes ≠ [])
    (silent : site.stmtsProblems body = [])
    (bound :
      ∀ parameter ∈ parameters,
        site.hasInnermost parameter.lexeme = true)
    (declared :
      marked = true →
      names.DeclaredBy
        (some { parameters, body := site.resolveStmts body })) :
    names.Spares (marked :: marks) body := by
  intro isMarked stmt member name defined same
  have declares := Stmt.declaredName?_of_definedName? defined
  obtain ⟨scope, found, old, isVariable, isOld⟩ := declared isMarked
  cases found
  have sameName : name.lexeme = old.lexeme := same.trans isOld.symm
  rcases List.mem_append.mp isVariable with isParameter | isDeclared
  · exact Site.declared_ne silent (bound old isParameter) member declares
      sameName
  · obtain ⟨other, otherMember, isOther⟩ :=
      Site.mem_declarations_resolveStmts isDeclared
    obtain rfl := Site.declared_once inside silent member otherMember declares
      (Stmt.declaredName?_of_variableName? isOther) sameName
    cases stmt with
    | functionDecl | classDecl =>
        cases isOther
    | _ =>
        cases defined

end Renaming

section Rename

variable {names : Renaming}

/-- Expressions one by one. -/
theorem Expr.allRenamed_renameAll
    {marks : Marks}
    {exprs : List Expr}
    (each :
      ∀ expr ∈ exprs,
        expr.Aligned (some names) marks.outline (expr.rename names marks)) :
    Expr.AllAligned (some names) marks.outline exprs
      (Expr.renameAll names marks exprs) := by
  induction exprs with
  | nil =>
      exact .nil
  | cons first rest inductionHypothesis =>
      exact .cons (each first List.mem_cons_self)
        (inductionHypothesis
          fun expr member => each expr (List.mem_cons_of_mem first member))

/-- The uses in an expression are renamed. -/
theorem Expr.WellFormed.renamed
    (proper : names.IsProper)
    {expr : Expr}
    (formed : expr.WellFormed names.IsKnown)
    (site : Site)
    (marks : Marks) :
    (site.resolveExpr expr).Aligned (some names) marks.outline
      ((site.resolveExpr expr).rename names marks) := by
  induction formed with
  | literal value =>
      exact .literal value
  | group _ inner =>
      exact .group inner
  | unary _ _ _ operand =>
      exact .unary _ operand
  | binary _ _ _ _ left right =>
      exact .binary _ left right
  | logical _ _ _ _ left right =>
      exact .logical _ left right
  | reference known _ =>
      exact .reference (marks.meetsOption _) known.avoids
  | assign known _ _ value =>
      exact .assign value (marks.meetsOption _) known.avoids
  | call _ _ _ _ callee arguments =>
      refine .call _ callee (Expr.allRenamed_renameAll ?_)
      rw [Lexical.resolveExprs_eq_map]
      intro expr member
      obtain ⟨argument, found, rfl⟩ := List.mem_map.mp member
      exact arguments argument found
  | property _ _ _ object =>
      exact .property _ object
  | setProperty _ _ _ _ object value =>
      exact .setProperty _ object value
  | receiver known kind =>
      exact .receiver (marks.meetsOption _)
        (known.keeps_receiver proper kind _)

theorem Expr.WellFormed.optionRenamed
    (proper : names.IsProper)
    {value : Option Expr}
    (formed : ∀ expr ∈ value, expr.WellFormed names.IsKnown)
    (site : Site)
    (marks : Marks) :
    Expr.OptionAligned (some names) marks.outline (value.map site.resolveExpr)
      ((value.map site.resolveExpr).map (Expr.rename names marks)) := by
  cases value with
  | none =>
      exact .absent
  | some expr =>
      exact .present ((formed expr rfl).renamed proper site marks)

/-- A statement differs by a renaming from what it is renamed to, wherever it
stands without problems. -/
def Stmt.RenamesWell
    (names : Renaming)
    (stmt : Stmt) :
    Prop :=
  ∀ (site : Site) (chosen : ScopeSet) (marks : Marks),
    site.stmtProblems stmt = [] →
    (∀ address, chosen address = true →
      names.DeclaredBy ((site.resolveStmt stmt).scopeAt? address)) →
    names.Spares marks [stmt] →
    (site.resolveStmt stmt).Aligned (some names) marks.outline
      ((site.resolveStmt stmt).rename names chosen marks)

theorem Stmt.renameAll_renamed
    {stmts : List Stmt}
    (each : ∀ stmt ∈ stmts, stmt.RenamesWell names)
    (site : Site)
    (chosen : ScopeSet)
    (marks : Marks)
    (silent : site.stmtsProblems stmts = [])
    (declared :
      ∀ part address, chosen (part :: address) = true →
        names.DeclaredBy
          (Stmt.scopeAmong? (site.resolveStmts stmts) (part :: address)))
    (spares : names.Spares marks stmts) :
    Stmt.AllAligned (some names) marks.outline (site.resolveStmts stmts)
      (Stmt.renameAll names chosen marks (site.resolveStmts stmts)) := by
  induction stmts generalizing site chosen with
  | nil =>
      exact .nil
  | cons first rest inductionHypothesis =>
      obtain ⟨firstSilent, restSilent⟩ := List.append_eq_nil_iff.mp silent
      refine .cons ?_ ?_
      · exact each first List.mem_cons_self site (chosen.inside 0) marks
          firstSilent (declared 0) (spares.mono (by simp))
      · exact inductionHypothesis
          (fun stmt member => each stmt (List.mem_cons_of_mem first member))
          (site.after first) chosen.beyond restSilent
          (fun part => declared (part + 1))
          (spares.mono (List.subset_cons_self first rest))

/-- The body of a scope whose parameters are bound. -/
theorem Stmt.body_renamed
    {body : List Stmt}
    (each : ∀ stmt ∈ body, stmt.RenamesWell names)
    {site : Site}
    (parameters : List Token)
    {chosen : ScopeSet}
    (marks : Marks)
    (inside : site.scopes ≠ [])
    (silent : site.stmtsProblems body = [])
    (bound :
      ∀ parameter ∈ parameters, site.hasInnermost parameter.lexeme = true)
    (here :
      chosen [] = true →
      names.DeclaredBy (some { parameters, body := site.resolveStmts body }))
    (declared :
      ∀ part address, chosen (part :: address) = true →
        names.DeclaredBy
          (Stmt.scopeAmong? (site.resolveStmts body) (part :: address))) :
    Stmt.AllAligned (some names) (Marks.outline (chosen [] :: marks))
      (site.resolveStmts body)
      (Stmt.renameAll names chosen (chosen [] :: marks)
        (site.resolveStmts body)) :=
  Stmt.renameAll_renamed each site chosen _ silent declared
    (Renaming.spares_body inside silent bound here)

theorem FunctionDecl.rename_renamed
    {function : FunctionDecl}
    (named : function.WellNamed names.IsKnown)
    (each : ∀ stmt ∈ function.body, stmt.RenamesWell names)
    (site : Site)
    (enclosure : Enclosure)
    (chosen : ScopeSet)
    (marks : Marks)
    (silent : site.functionProblems enclosure function = [])
    (declared :
      ∀ address, chosen address = true →
        names.DeclaredBy
          ((site.resolveFunction enclosure function).scopeAt? address)) :
    (site.resolveFunction enclosure function).Aligned (some names)
      marks.outline
      ((site.resolveFunction enclosure function).rename names chosen
        marks) := by
  rcases function with ⟨name, parameters, body⟩
  obtain ⟨-, bodySilent⟩ := List.append_eq_nil_iff.mp silent
  exact .mk (chosen []) name
    (fun parameter member => (named.parametersKnown parameter member).avoids)
    (Stmt.body_renamed each parameters marks
      (Site.scopes_inFunction site enclosure parameters) bodySilent
      (fun parameter => Site.hasInnermost_inFunction site enclosure)
      (declared []) fun part address => declared (part :: address))

theorem FunctionDecl.renameAll_renamed
    {methods : List FunctionDecl}
    (named : ∀ method ∈ methods, method.WellNamed names.IsKnown)
    (each :
      ∀ method ∈ methods, ∀ stmt ∈ method.body, stmt.RenamesWell names)
    (site : Site)
    (chosen : ScopeSet)
    (marks : Marks)
    (silent : site.methodProblems methods = [])
    (declared :
      ∀ address, chosen address = true →
        names.DeclaredBy
          (FunctionDecl.scopeAmong? (site.resolveMethods methods) address)) :
    FunctionDecl.AllAligned (some names) marks.outline
      (site.resolveMethods methods)
      (FunctionDecl.renameAll names chosen marks
        (site.resolveMethods methods)) := by
  induction methods generalizing chosen with
  | nil =>
      exact .nil
  | cons first rest inductionHypothesis =>
      obtain ⟨firstSilent, restSilent⟩ := List.append_eq_nil_iff.mp silent
      refine .cons ?_ ?_
      · exact FunctionDecl.rename_renamed (named first List.mem_cons_self)
          (each first List.mem_cons_self) site (Site.methodEnclosure first)
          (chosen.inside 0) marks firstSilent fun address => declared _
      · refine inductionHypothesis
          (fun method member => named method (List.mem_cons_of_mem first member))
          (fun method member => each method (List.mem_cons_of_mem first member))
          chosen.beyond restSilent fun address isChosen => ?_
        cases address with
        | nil =>
            cases isChosen
        | cons part address =>
            exact declared ((part + 1) :: address) isChosen

/-- Every well-formed statement is renamed well. -/
theorem Stmt.WellFormed.renamesWell
    (proper : names.IsProper)
    {stmt : Stmt}
    (formed : stmt.WellFormed names.IsKnown) :
    stmt.RenamesWell names := by
  induction formed with
  | expression value =>
      intro site chosen marks _ _ _
      exact .expression (value.renamed proper site marks)
  | print value =>
      intro site chosen marks _ _ _
      exact .print (value.renamed proper site marks)
  | variableDecl known _ value =>
      intro site chosen marks _ _ _
      exact .variableDecl marks.common known.avoids
        (Expr.WellFormed.optionRenamed proper value _ marks)
  | @block body _ each =>
      intro site chosen marks silent declared _
      exact .block (chosen [])
        (Stmt.body_renamed each [] marks
          (List.cons_ne_nil [] site.scopes) silent nofun (declared [])
          fun part address => declared (part :: address))
  | @conditional condition consequent alternative conditionFormed _
      consequentNone _ alternativeNone consequentWell alternativeWell =>
      intro site chosen marks silent declared _
      cases alternative with
      | none =>
          obtain ⟨-, consequentSilent⟩ := List.append_eq_nil_iff.mp silent
          exact .conditional (conditionFormed.renamed proper site marks)
            (consequentWell site (chosen.inside 0) marks consequentSilent
              (fun address => declared (0 :: address))
              (Renaming.spares_of_declaredName? consequentNone))
      | some alternative =>
          obtain ⟨restSilent, alternativeSilent⟩ :=
            List.append_eq_nil_iff.mp silent
          obtain ⟨-, consequentSilent⟩ :=
            List.append_eq_nil_iff.mp restSilent
          exact .choice (conditionFormed.renamed proper site marks)
            (consequentWell site (chosen.inside 0) marks consequentSilent
              (fun address => declared (0 :: address))
              (Renaming.spares_of_declaredName? consequentNone))
            (alternativeWell alternative rfl (site.after consequent)
              (chosen.inside 1) marks alternativeSilent
              (fun address => declared (1 :: address))
              (Renaming.spares_of_declaredName? (alternativeNone _ rfl)))
  | loop condition _ bodyNone bodyWell =>
      intro site chosen marks silent declared _
      obtain ⟨-, bodySilent⟩ := List.append_eq_nil_iff.mp silent
      exact .loop (condition.renamed proper site marks)
        (bodyWell site (chosen.inside 0) marks bodySilent
          (fun address => declared (0 :: address))
          (Renaming.spares_of_declaredName? bodyNone))
  | @functionDecl function named _ each =>
      intro site chosen marks silent declared spares
      obtain ⟨-, functionSilent⟩ := List.append_eq_nil_iff.mp silent
      refine .functionDecl marks.common ?_
        (FunctionDecl.rename_renamed named each _ .function chosen marks
          functionSilent declared)
      cases function
      exact spares.keeps rfl named.nameKnown
  | returning _ _ value =>
      intro site chosen marks _ _ _
      exact .returning _
        (Expr.WellFormed.optionRenamed proper value site marks)
  | classDecl known _ named _ each =>
      intro site chosen marks silent declared spares
      obtain ⟨-, methodsSilent⟩ := List.append_eq_nil_iff.mp silent
      exact .classDecl marks.common (spares.keeps rfl known)
        (FunctionDecl.renameAll_renamed named each _ chosen (false :: marks)
          methodsSilent declared)

end Rename

section Named

variable {known : Token → Prop}

/-- The variables of a scope have names that are known. -/
def LocalScope.IsNamed
    (known : Token → Prop)
    (scope : LocalScope) :
    Prop :=
  ∀ name ∈ scope.declarations, known name ∧ name.kind = .identifier

/-- The scopes inside of a resolved statement have known names. -/
def Stmt.NamesScopes
    (known : Token → Prop)
    (stmt : Stmt) :
    Prop :=
  ∀ (site : Site) (address : Address) (scope : LocalScope),
    (site.resolveStmt stmt).scopeAt? address = some scope →
    scope.IsNamed known

theorem Stmt.WellFormed.named
    {stmt : Stmt}
    (formed : stmt.WellFormed known)
    {name : Token}
    (declares : stmt.variableName? = some name) :
    known name ∧ name.kind = .identifier := by
  cases formed with
  | variableDecl isKnown kind _ =>
      cases declares
      exact ⟨isKnown, kind⟩
  | _ =>
      cases declares

theorem LocalScope.isNamed_body
    (parameters : List Token)
    {body : List Stmt}
    (named :
      ∀ parameter ∈ parameters, known parameter ∧ parameter.kind = .identifier)
    (formed : ∀ stmt ∈ body, stmt.WellFormed known)
    (site : Site) :
    LocalScope.IsNamed known
      { parameters, body := site.resolveStmts body } := by
  intro name member
  rcases List.mem_append.mp member with isParameter | isDeclared
  · exact named name isParameter
  · obtain ⟨stmt, found, declares⟩ := Site.mem_declarations_resolveStmts isDeclared
    exact (formed stmt found).named declares

theorem Stmt.scopeAmong?_named
    {stmts : List Stmt}
    (each : ∀ stmt ∈ stmts, stmt.NamesScopes known)
    (site : Site)
    {address : Address}
    {scope : LocalScope}
    (found :
      Stmt.scopeAmong? (site.resolveStmts stmts) address = some scope) :
    scope.IsNamed known := by
  induction stmts generalizing site address with
  | nil =>
      cases found
  | cons first rest inductionHypothesis =>
      rcases address with _ | ⟨_ | part, address⟩
      · cases found
      · exact each first List.mem_cons_self site address scope found
      · exact inductionHypothesis
          (fun stmt member => each stmt (List.mem_cons_of_mem first member))
          (site.after first) found

theorem FunctionDecl.scopeAt?_named
    {function : FunctionDecl}
    (named : function.WellNamed known)
    (formed : ∀ stmt ∈ function.body, stmt.WellFormed known)
    (each : ∀ stmt ∈ function.body, stmt.NamesScopes known)
    (site : Site)
    (enclosure : Enclosure)
    {address : Address}
    {scope : LocalScope}
    (found :
      (site.resolveFunction enclosure function).scopeAt? address =
        some scope) :
    scope.IsNamed known := by
  rcases function with ⟨name, parameters, body⟩
  cases address with
  | nil =>
      cases found
      exact LocalScope.isNamed_body parameters
        (fun parameter member =>
          ⟨named.parametersKnown parameter member,
            named.parametersKind parameter member⟩)
        formed _
  | cons part address =>
      exact Stmt.scopeAmong?_named each _ found

theorem FunctionDecl.scopeAmong?_named
    {methods : List FunctionDecl}
    (named : ∀ method ∈ methods, method.WellNamed known)
    (formed :
      ∀ method ∈ methods, ∀ stmt ∈ method.body, stmt.WellFormed known)
    (each :
      ∀ method ∈ methods, ∀ stmt ∈ method.body, stmt.NamesScopes known)
    (site : Site)
    {address : Address}
    {scope : LocalScope}
    (found :
      FunctionDecl.scopeAmong? (site.resolveMethods methods) address =
        some scope) :
    scope.IsNamed known := by
  induction methods generalizing address with
  | nil =>
      cases found
  | cons first rest inductionHypothesis =>
      rcases address with _ | ⟨_ | part, address⟩
      · cases found
      · exact FunctionDecl.scopeAt?_named (named first List.mem_cons_self)
          (formed first List.mem_cons_self) (each first List.mem_cons_self)
          site _ found
      · exact inductionHypothesis
          (fun method member => named method (List.mem_cons_of_mem _ member))
          (fun method member => formed method (List.mem_cons_of_mem _ member))
          (fun method member => each method (List.mem_cons_of_mem _ member))
          found

/-- The scopes inside of a well-formed statement have known names. -/
theorem Stmt.WellFormed.namesScopes
    {stmt : Stmt}
    (formed : stmt.WellFormed known) :
    stmt.NamesScopes known := by
  induction formed with
  | expression | print | variableDecl | returning =>
      intro site address scope found
      cases found
  | block formed each =>
      intro site address scope found
      cases address with
      | nil =>
          cases found
          exact LocalScope.isNamed_body [] (by simp) formed _
      | cons part address =>
          exact Stmt.scopeAmong?_named each _ found
  | @conditional _ _ alternative _ _ _ _ _ consequentNames alternativeNames =>
      intro site address scope found
      rcases address with _ | ⟨_ | _ | part, address⟩
      · cases alternative <;> cases found
      · cases alternative <;> exact consequentNames site address scope found
      · cases alternative with
        | none =>
            cases found
        | some alternative =>
            exact alternativeNames alternative rfl _ address scope found
      · cases alternative <;> cases found
  | loop _ _ _ bodyNames =>
      intro site address scope found
      rcases address with _ | ⟨_ | part, address⟩
      · cases found
      · exact bodyNames site address scope found
      · cases found
  | functionDecl named formed each =>
      intro site address scope found
      exact FunctionDecl.scopeAt?_named named formed each _ .function found
  | classDecl _ _ named formed each =>
      intro site address scope found
      exact FunctionDecl.scopeAmong?_named named formed each _ found

end Named

end Script
