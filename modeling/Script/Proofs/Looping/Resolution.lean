import Script.Proofs.Alignment.Tree
import Script.Proofs.Lexical.Analysed

namespace Script

/-!
# Scope analysis in scopes of which some are empty

A well-formed statement that is resolved at two places gives aligned trees, when the
scopes around the places are the same but for some that have no names.  A name is found
at distances that lead to the same scope, for a scope without names is passed over.
-/

/-- The scopes around two places have an outline. -/
inductive Outline.Fits : Outline → List Scope → List Scope → Prop where
  | rest
      (scopes : List Scope) :
      Outline.Fits [] scopes scopes
  | both
      {outline : Outline}
      {scopes others : List Scope}
      (scope : Scope) :
      outline.Fits scopes others →
      Outline.Fits (.both false :: outline) (scope :: scopes) (scope :: others)
  | left
      {outline : Outline}
      {scopes others : List Scope} :
      outline.Fits scopes others →
      Outline.Fits (.left :: outline) ([] :: scopes) others
  | right
      {outline : Outline}
      {scopes others : List Scope} :
      outline.Fits scopes others →
      Outline.Fits (.right :: outline) scopes ([] :: others)

/-- Both distances are one scope further. -/
theorem Outline.MeetsOption.both
    {outline : Outline}
    {distance other : Option Nat}
    (meets : outline.MeetsOption distance other false) :
    Outline.MeetsOption (.both false :: outline) (distance.map (· + 1))
      (other.map (· + 1)) false := by
  cases meets with
  | global =>
      exact .global
  | «local» meets =>
      exact .local (.both false meets)

theorem Outline.MeetsOption.left
    {outline : Outline}
    {distance other : Option Nat}
    (meets : outline.MeetsOption distance other false) :
    Outline.MeetsOption (.left :: outline) (distance.map (· + 1)) other
      false := by
  cases meets with
  | global =>
      exact .global
  | «local» meets =>
      exact .local (.left meets)

theorem Outline.MeetsOption.right
    {outline : Outline}
    {distance other : Option Nat}
    (meets : outline.MeetsOption distance other false) :
    Outline.MeetsOption (.right :: outline) distance (other.map (· + 1))
      false := by
  cases meets with
  | global =>
      exact .global
  | «local» meets =>
      exact .local (.right meets)

/-- A name is found in the same scope. -/
theorem Outline.Fits.findIdx?
    {outline : Outline}
    {scopes others : List Scope}
    (fits : outline.Fits scopes others)
    (name : Text) :
    outline.MeetsOption (scopes.findIdx? (·.declares name))
      (others.findIdx? (·.declares name)) false := by
  induction fits with
  | rest scopes =>
      exact .refl (by simp) _
  | both scope _ inductionHypothesis =>
      rw [List.findIdx?_cons, List.findIdx?_cons]
      split
      · exact .local (.here false _)
      · exact inductionHypothesis.both
  | left _ inductionHypothesis =>
      rw [List.findIdx?_cons]
      exact inductionHypothesis.left
  | right _ inductionHypothesis =>
      rw [List.findIdx?_cons]
      exact inductionHypothesis.right

namespace Site

/-- Two places with the same scopes but for some without names. -/
structure Beside
    (outline : Outline)
    (site other : Site) :
    Prop where
  scopes : outline.Fits site.scopes other.scopes
  inClass : other.inClass = site.inClass

namespace Beside

variable {outline : Outline} {site other : Site}

theorem refl (site : Site) : site.Beside [] site :=
  ⟨.rest _, rfl⟩

theorem distance?
    (beside : site.Beside outline other)
    (name : Text) :
    outline.MeetsOption (site.distance? name) (other.distance? name) false :=
  beside.scopes.findIdx? name

theorem receiverDistance?
    (beside : site.Beside outline other) :
    outline.MeetsOption site.receiverDistance? other.receiverDistance?
      false := by
  unfold Site.receiverDistance?
  rw [beside.inClass]
  split
  · exact beside.distance? receiverName
  · exact .global

/-- The innermost scope gets a name when both places have it. -/
theorem bind
    (beside : site.Beside outline other)
    (common : outline.Common false)
    (name : Text)
    (ready : Bool) :
    (site.bind name ready).Beside outline (other.bind name ready) := by
  obtain ⟨scopes, enclosure, inClass⟩ := site
  obtain ⟨others, otherEnclosure, otherInClass⟩ := other
  obtain ⟨fits, sameClass⟩ := beside
  dsimp only at fits sameClass
  cases fits with
  | rest =>
      cases scopes with
      | nil =>
          exact ⟨.rest _, sameClass⟩
      | cons scope outer =>
          exact ⟨.rest _, sameClass⟩
  | both scope outer =>
      exact ⟨.both _ outer, sameClass⟩
  | left =>
      exact (common.head_ne_left rfl).elim
  | right =>
      exact (common.head_ne_right rfl).elim

theorem enter
    (beside : site.Beside outline other)
    (scope : Scope) :
    (site.enter scope).Beside (.both false :: outline) (other.enter scope) :=
  ⟨.both scope beside.scopes, beside.inClass⟩

theorem enterLeft
    (beside : site.Beside outline other) :
    (site.enter []).Beside (.left :: outline) other :=
  ⟨.left beside.scopes, beside.inClass⟩

theorem enterRight
    (beside : site.Beside outline other) :
    site.Beside (.right :: outline) (other.enter []) :=
  ⟨.right beside.scopes, beside.inClass⟩

theorem foldl_bind
    (beside : site.Beside outline other)
    (common : outline.Common false)
    (parameters : List Token) :
    (parameters.foldl
      (fun site parameter => site.bind parameter.lexeme true) site).Beside
      outline
      (parameters.foldl
        (fun site parameter => site.bind parameter.lexeme true) other) := by
  induction parameters generalizing site other with
  | nil =>
      exact beside
  | cons first rest inductionHypothesis =>
      exact inductionHypothesis (beside.bind common first.lexeme true)

theorem inFunction
    (beside : site.Beside outline other)
    (enclosure : Enclosure)
    (parameters : List Token) :
    (site.inFunction enclosure parameters).Beside (.both false :: outline)
      (other.inFunction enclosure parameters) := by
  have entered := beside.enter []
  have inside :
      Site.Beside (.both false :: outline) { site.enter [] with enclosure }
        { other.enter [] with enclosure } :=
    ⟨entered.scopes, entered.inClass⟩
  exact inside.foldl_bind (Outline.common_both false outline) parameters

theorem inClassBody
    (beside : site.Beside outline other) :
    site.inClassBody.Beside (.both false :: outline) other.inClassBody :=
  ⟨(beside.enter [(receiverName, true)]).scopes, rfl⟩

/-- The places behind a statement that may stand there. -/
theorem after
    {known : Token → Prop}
    {stmt : Stmt}
    (beside : site.Beside outline other)
    (formed : stmt.WellFormed known)
    (fitting : stmt.declaredName?.isSome → outline.Common false) :
    (site.after stmt).Beside outline (other.after stmt) := by
  rw [Lexical.after_eq formed, Lexical.after_eq formed]
  cases declared : stmt.declaredName? with
  | none =>
      exact beside
  | some name =>
      exact beside.bind (fitting (by simp [declared])) name.lexeme true

mutual

theorem resolveExpr
    (beside : site.Beside outline other) :
    (expr : Expr) →
    (site.resolveExpr expr).Aligned none outline (other.resolveExpr expr)
  | .literal value =>
      .literal value
  | .group inner =>
      .group (resolveExpr beside inner)
  | .unary operator operand =>
      .unary operator (resolveExpr beside operand)
  | .binary left operator right =>
      .binary operator (resolveExpr beside left) (resolveExpr beside right)
  | .logical left operator right =>
      .logical operator (resolveExpr beside left) (resolveExpr beside right)
  | .reference name _ =>
      .reference (beside.distance? name.lexeme) (Change.avoids_none outline _)
  | .assign name value _ =>
      .assign (resolveExpr beside value) (beside.distance? name.lexeme)
        (Change.avoids_none outline _)
  | .call callee closing arguments =>
      .call closing (resolveExpr beside callee) (resolveExprs beside arguments)
  | .property object name =>
      .property name (resolveExpr beside object)
  | .setProperty object name value =>
      .setProperty name (resolveExpr beside object) (resolveExpr beside value)
  | .receiver _ _ =>
      .receiver beside.receiverDistance? (Change.keeps_none outline false _)
  | .missing =>
      .missing

theorem resolveExprs
    (beside : site.Beside outline other) :
    (exprs : List Expr) →
    Expr.AllAligned none outline (site.resolveExprs exprs)
      (other.resolveExprs exprs)
  | [] =>
      .nil
  | first :: rest =>
      .cons (resolveExpr beside first) (resolveExprs beside rest)

end

theorem mapExpr
    (beside : site.Beside outline other)
    (value : Option Expr) :
    Expr.OptionAligned none outline (value.map site.resolveExpr)
      (value.map other.resolveExpr) := by
  cases value with
  | none =>
      exact .absent
  | some value =>
      exact .present (beside.resolveExpr value)

/-- A statement gives aligned trees wherever it may stand. -/
def Aligns (stmt : Stmt) : Prop :=
  ∀ {outline : Outline} {site other : Site},
    site.Beside outline other →
    (stmt.declaredName?.isSome → outline.Common false) →
    (site.resolveStmt stmt).Aligned none outline (other.resolveStmt stmt)

theorem resolveStmts
    {known : Token → Prop}
    {stmts : List Stmt}
    (beside : site.Beside outline other)
    (common : outline.Common false)
    (formed : ∀ stmt ∈ stmts, stmt.WellFormed known)
    (each : ∀ stmt ∈ stmts, Aligns stmt) :
    Stmt.AllAligned none outline (site.resolveStmts stmts)
      (other.resolveStmts stmts) := by
  induction stmts generalizing site other with
  | nil =>
      exact .nil
  | cons first rest inductionHypothesis =>
      obtain ⟨firstFormed, restFormed⟩ := List.forall_mem_cons.mp formed
      obtain ⟨firstAligns, restAlign⟩ := List.forall_mem_cons.mp each
      exact .cons (firstAligns beside fun _ => common)
        (inductionHypothesis (beside.after firstFormed fun _ => common)
          restFormed restAlign)

theorem resolveFunction
    {known : Token → Prop}
    {function : FunctionDecl}
    (beside : site.Beside outline other)
    (enclosure : Enclosure)
    (formed : ∀ stmt ∈ function.body, stmt.WellFormed known)
    (each : ∀ stmt ∈ function.body, Aligns stmt) :
    (site.resolveFunction enclosure function).Aligned none outline
      (other.resolveFunction enclosure function) := by
  obtain ⟨name, parameters, body⟩ := function
  exact .unmarked name (fun _ _ => Change.avoids_none _ _)
    ((beside.inFunction enclosure parameters).resolveStmts
      (Outline.common_both false outline) formed each)

theorem resolveMethods
    {known : Token → Prop}
    {methods : List FunctionDecl}
    (beside : site.Beside outline other)
    (formed :
      ∀ method ∈ methods, ∀ stmt ∈ method.body, stmt.WellFormed known)
    (each : ∀ method ∈ methods, ∀ stmt ∈ method.body, Aligns stmt) :
    FunctionDecl.AllAligned none outline (site.resolveMethods methods)
      (other.resolveMethods methods) := by
  induction methods with
  | nil =>
      exact .nil
  | cons first rest inductionHypothesis =>
      obtain ⟨firstFormed, restFormed⟩ := List.forall_mem_cons.mp formed
      obtain ⟨firstAligns, restAlign⟩ := List.forall_mem_cons.mp each
      exact .cons
        (beside.resolveFunction (methodEnclosure first) firstFormed firstAligns)
        (inductionHypothesis restFormed restAlign)

/-- Every well-formed statement gives aligned trees wherever it may stand. -/
theorem resolveStmt
    {known : Token → Prop}
    {stmt : Stmt}
    (formed : stmt.WellFormed known) :
    Aligns stmt := by
  induction formed with
  | expression =>
      exact fun beside _ => .expression (beside.resolveExpr _)
  | print =>
      exact fun beside _ => .print (beside.resolveExpr _)
  | @variableDecl name initial =>
      intro outline site other beside fitting
      have common := fitting rfl
      exact .variableDecl common (Change.avoids_none outline name.lexeme)
        ((beside.bind common name.lexeme false).mapExpr initial)
  | block formed each =>
      exact fun beside _ =>
        .block false
          ((beside.enter []).resolveStmts (Outline.common_both false _) formed
            each)
  | @conditional _ _ alternative _ formed consequentNone _ alternativeNone
      consequent alternatives =>
      intro outline site other beside _
      have first :=
        consequent beside fun declares => by simp [consequentNone] at declares
      cases alternative with
      | none =>
          exact .conditional (beside.resolveExpr _) first
      | some alternative =>
          have between :=
            beside.after formed
              fun declares => by simp [consequentNone] at declares
          exact .choice (beside.resolveExpr _) first
            (alternatives alternative rfl between
              fun declares => by
                simp [alternativeNone alternative rfl] at declares)
  | loop _ _ bodyNone body =>
      exact fun beside _ =>
        .loop (beside.resolveExpr _)
          (body beside fun declares => by simp [bodyNone] at declares)
  | @functionDecl function _ formed each =>
      intro outline site other beside fitting
      have common := fitting rfl
      exact .functionDecl common (Change.keeps_none outline false _)
        ((beside.bind common function.name.lexeme true).resolveFunction
          .function formed each)
  | @returning keyword value =>
      exact fun beside _ => .returning keyword (beside.mapExpr value)
  | @classDecl name methods _ _ _ formed each =>
      intro outline site other beside fitting
      have common := fitting rfl
      exact .classDecl common (Change.keeps_none outline false name.lexeme)
        ((beside.bind common name.lexeme true).inClassBody.resolveMethods
          formed each)

end Beside

end Site

end Script
