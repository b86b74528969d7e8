import Script.Proofs.Lexical.Invariant
import Script.Proofs.Token.Spelling
import Script.Scope.Resolution

namespace Script.Lexical

/-!
# Trees with and without distances

Two kinds of tree are as they should be: trees as parsing makes them, which have
no distances, and trees without problems in which scope analysis has filled the
distances in.  For the second kind it is shown that the analysis, walking down to
a position, has the scopes of that position.
-/

/-- The names of tokens that the scanner makes. -/
def SpelledToken (token : Token) : Prop :=
  token.kind.Spells token.lexeme

/-- No name is spelled like the receiver. -/
theorem lexeme_ne_receiverName
    {name : Token}
    (spelled : SpelledToken name)
    (kind : name.kind = .identifier) :
    name.lexeme ≠ Position.receiverName := by
  intro same
  have none := spelled.name kind
  rw [same] at none
  revert none
  decide

theorem lexeme_eq_receiverName
    {keyword : Token}
    (spelled : SpelledToken keyword)
    (kind : keyword.kind = .keyword .thisWord) :
    keyword.lexeme = Position.receiverName :=
  Keyword.eq_spelling_of_ofText? (spelled.keyword .thisWord kind)

section Raw

/-- Code is well formed in all its parts. -/
def Formed : Code → Prop
  | .expr expr =>
      expr.WellFormed SpelledToken
  | .stmt stmt =>
      stmt.WellFormed SpelledToken
  | .stmts stmts =>
      ∀ stmt ∈ stmts, stmt.WellFormed SpelledToken
  | .function function =>
      function.WellFormed SpelledToken
  | .methods methods =>
      ∀ method ∈ methods, method.WellFormed SpelledToken

/-- The parts of a well-formed tree are well formed. -/
theorem Occurs.formed
    {position : Position}
    {code : Code}
    (occurs : Occurs position code)
    (formed :
      ∀ stmt ∈ position.origin.statements, stmt.WellFormed SpelledToken) :
    Formed code := by
  induction occurs with
  | program origin =>
      exact formed
  | firstStatement _ whole =>
      exact whole formed _ List.mem_cons_self
  | laterStatements _ whole =>
      intro stmt member
      exact whole (by simpa using formed) stmt (List.mem_cons_of_mem _ member)
  | expressionValue _ whole | printValue _ whole | condition _ whole
  | loopCondition _ whole | returnValue _ whole =>
      exact Stmt.WellFormed.value (whole formed) (by simp [Stmt.values])
  | initializer _ whole =>
      cases whole (by simpa using formed) with
      | variableDecl _ _ initial =>
          exact initial _ rfl
  | blockBody _ whole =>
      cases whole formed with
      | block body =>
          exact body
  | consequent _ whole =>
      cases whole formed with
      | conditional _ consequent _ _ _ =>
          exact consequent
  | alternative _ whole =>
      cases whole formed with
      | conditional _ _ _ alternative _ =>
          exact alternative _ rfl
  | loopBody _ whole =>
      cases whole formed with
      | loop _ body _ =>
          exact body
  | functionDecl _ whole =>
      cases whole (by simpa using formed) with
      | functionDecl named body =>
          exact ⟨named, body⟩
  | functionBody _ whole =>
      exact (whole formed).body
  | @classMethods position _ _ _ whole =>
      have atClass :
          ∀ stmt ∈ position.origin.statements,
            stmt.WellFormed SpelledToken := by
        simpa [Position.inClass, Position.enter] using formed
      cases whole atClass with
      | classDecl _ _ named bodies =>
          intro method member
          exact ⟨named method member, bodies method member⟩
  | firstMethod _ whole =>
      exact whole formed _ List.mem_cons_self
  | laterMethods _ whole =>
      intro method member
      exact whole (by simpa using formed) method
        (List.mem_cons_of_mem _ member)
  | grouped _ whole | unaryOperand _ whole | binaryLeft _ whole
  | binaryRight _ whole | logicalLeft _ whole | logicalRight _ whole
  | assigned _ whole | callee _ whole | propertyObject _ whole
  | fieldObject _ whole | fieldValue _ whole =>
      exact Expr.WellFormed.operand (whole formed) (by simp [Expr.operands])
  | argument _ member whole =>
      exact Expr.WellFormed.operand (whole formed)
        (List.mem_cons_of_mem _ member)

/-- A well-formed tree that was not analysed is as it should be. -/
theorem fits_of_wellFormed
    {origin : Origin}
    (raw : origin.resolved = false)
    (formed :
      ∀ stmt ∈ origin.statements, stmt.WellFormed SpelledToken) :
    origin.Fits := by
  rintro position code rfl occurs
  have parts := occurs.formed formed
  cases code with
  | expr expr =>
      cases parts with
      | unary _ kind _ =>
          exact kind
      | binary _ _ kind _ =>
          exact kind
      | reference spelled kind =>
          exact ⟨lexeme_ne_receiverName spelled kind, by simp [raw],
            fun _ => rfl⟩
      | assign spelled kind _ =>
          exact ⟨lexeme_ne_receiverName spelled kind, by simp [raw],
            fun _ => rfl⟩
      | receiver _ _ =>
          exact ⟨by simp [raw], fun _ => rfl⟩
      | literal | group | logical | call | property | setProperty =>
          trivial
  | stmt stmt =>
      cases parts <;> trivial
  | stmts | function | methods =>
      trivial

end Raw

section Scopes

/-- A scope as scope analysis has it. -/
def Level.scope (level : Level) : Scope :=
  level.pending.toList.map (·, false) ++ level.names.map (·, true)

theorem lookup_ready
    (names : List Text)
    (name : Text) :
    List.lookup name (names.map fun declared => (declared, true)) =
      if name ∈ names then some true else none := by
  induction names with
  | nil =>
      rfl
  | cons first rest inductionHypothesis =>
      rw [List.map_cons, List.lookup_cons, inductionHypothesis]
      by_cases same : name = first
      · simp [same]
      · have differs : (name == first) = false := by
          simpa using same
        simp [differs, same]

/-- A scope of the analysis has the names that the level declares. -/
theorem declares_scope
    (level : Level)
    (name : Text) :
    level.scope.declares name = level.declares name := by
  unfold Scope.declares Level.scope Level.declares
  cases level.pending with
  | none =>
      simp only [Option.toList_none, List.map_nil, List.nil_append,
        lookup_ready]
      by_cases member : name ∈ level.names <;> simp [member]
  | some pending =>
      simp only [Option.toList_some, List.map_cons, List.map_nil,
        List.singleton_append, List.lookup_cons, lookup_ready]
      by_cases same : name = pending
      · simp [same]
      · have differs : (name == pending) = false := by
          simpa using same
        by_cases member : name ∈ level.names <;>
          simp [differs, member, Ne.symm same]

/-- A place as scope analysis sees it is a position: it has the scopes of the
position and is in a class only if there is a receiver. -/
structure SiteAt
    (site : Site)
    (position : Position) :
    Prop where
  scopes : site.scopes = position.levels.map Level.scope
  receiver :
    site.inClass = true →
    ∃ level ∈ position.levels,
      level.declares Position.receiverName = true

/-- No initializer is around the position. -/
def Settled (position : Position) : Prop :=
  ∀ level ∈ position.levels, level.pending = none

namespace SiteAt

variable {site : Site} {position : Position}

/-- The distance that the analysis finds is that of the nearest declaration. -/
theorem distance?_eq
    (standing : SiteAt site position)
    (name : Text) :
    site.distance? name = position.nearest? name := by
  unfold Site.distance? Position.nearest?
  rw [standing.scopes, List.findIdx?_map]
  congr 1
  funext level
  exact declares_scope level name

theorem bind
    (standing : SiteAt site position)
    (settled : Settled position)
    (name : Text) :
    SiteAt (site.bind name true) (position.declare name) := by
  unfold Site.bind Position.declare
  have scopes := standing.scopes
  cases levels : position.levels with
  | nil =>
      rw [levels] at scopes
      simp only [List.map_nil] at scopes
      simp only [scopes]
      exact standing
  | cons level outer =>
      rw [levels] at scopes
      have ready := settled level (by simp [levels])
      simp only [List.map_cons] at scopes
      simp only [scopes]
      refine ⟨by simp [Level.scope, ready], fun inClass => ?_⟩
      obtain ⟨found, member, declares⟩ := standing.receiver inClass
      rw [levels] at member
      rcases List.mem_cons.mp member with rfl | member
      · refine ⟨_, List.mem_cons_self, ?_⟩
        revert declares
        simp only [Level.declares, List.contains_cons, Bool.or_eq_true]
        tauto
      · exact ⟨found, List.mem_cons_of_mem _ member, declares⟩

theorem pend
    (standing : SiteAt site position)
    (settled : Settled position)
    (name : Text) :
    SiteAt (site.bind name false) (position.initializing name) := by
  unfold Site.bind Position.initializing
  have scopes := standing.scopes
  cases levels : position.levels with
  | nil =>
      rw [levels] at scopes
      simp only [List.map_nil] at scopes
      simp only [scopes]
      exact standing
  | cons level outer =>
      rw [levels] at scopes
      have ready := settled level (by simp [levels])
      simp only [List.map_cons] at scopes
      simp only [scopes]
      refine ⟨by simp [Level.scope, ready], fun inClass => ?_⟩
      obtain ⟨found, member, declares⟩ := standing.receiver inClass
      rw [levels] at member
      rcases List.mem_cons.mp member with rfl | member
      · refine ⟨_, List.mem_cons_self, ?_⟩
        revert declares
        simp only [Level.declares, ready, Bool.or_eq_true]
        rintro (declared | impossible)
        · exact .inl declared
        · cases impossible
      · exact ⟨found, List.mem_cons_of_mem _ member, declares⟩

/-- A scope that is entered with ready names. -/
theorem enter
    (standing : SiteAt site position)
    (form : ScopeForm)
    (names : List Text) :
    SiteAt (site.enter (names.map (·, true))) (position.enter form names) := by
  unfold Site.enter Position.enter
  refine ⟨?_, fun inClass => ?_⟩
  · simp [Level.scope, standing.scopes]
  · obtain ⟨level, member, declares⟩ := standing.receiver inClass
    exact ⟨level, List.mem_cons_of_mem _ member, declares⟩

/-- Parameters are bound one after the other in the scope of the function. -/
theorem foldl_bind
    (site : Site)
    (parameters : List Token)
    (scope : Scope)
    (outer : List Scope)
    (shape : site.scopes = scope :: outer) :
    (parameters.foldl (fun site parameter => site.bind parameter.lexeme true)
        site).scopes =
        ((parameters.map Token.lexeme).reverse.map (·, true) ++ scope) ::
          outer ∧
      (parameters.foldl (fun site parameter => site.bind parameter.lexeme true)
        site).inClass = site.inClass := by
  induction parameters generalizing site scope with
  | nil =>
      exact ⟨by simpa using shape, rfl⟩
  | cons parameter rest inductionHypothesis =>
      have bound :
          (site.bind parameter.lexeme true).scopes =
            ((parameter.lexeme, true) :: scope) :: outer := by
        unfold Site.bind
        rw [shape]
      have sameClass :
          (site.bind parameter.lexeme true).inClass = site.inClass := by
        unfold Site.bind
        split <;> rfl
      obtain ⟨scopes, inClass⟩ := inductionHypothesis _ _ bound
      refine ⟨?_, inClass.trans sameClass⟩
      rw [List.foldl_cons, scopes]
      simp

theorem inFunction
    (standing : SiteAt site position)
    (enclosure : Enclosure)
    (function : FunctionDecl) :
    SiteAt (site.inFunction enclosure function.parameters)
      (position.inFunction function) := by
  have entered :=
    standing.enter .function (function.parameters.map Token.lexeme).reverse
  obtain ⟨scopes, inClass⟩ :=
    foldl_bind { site.enter [] with enclosure } function.parameters []
      site.scopes rfl
  refine ⟨?_, fun isInClass => ?_⟩
  · unfold Site.inFunction Position.inFunction
    rw [scopes, List.append_nil, ← entered.scopes]
    rfl
  · unfold Site.inFunction at isInClass
    rw [inClass] at isInClass
    exact entered.receiver isInClass

theorem inClassBody
    (standing : SiteAt site position) :
    SiteAt site.inClassBody position.inClass := by
  refine ⟨(standing.enter .receiver [Position.receiverName]).scopes,
    fun _ => ⟨_, List.mem_cons_self, ?_⟩⟩
  simp [Level.declares]

end SiteAt

namespace Settled

variable {position : Position}

theorem declare
    (settled : Settled position)
    (name : Text) :
    Settled (position.declare name) := by
  unfold Position.declare
  split
  · exact settled
  · rename_i first outer levels
    intro level member
    rcases List.mem_cons.mp member with rfl | member
    · exact settled first (by simp [levels])
    · exact settled level (by simp [levels, member])

theorem declaring
    (settled : Settled position)
    (stmt : Stmt) :
    Settled (position.declaring stmt) := by
  unfold Position.declaring
  split
  · exact settled.declare _
  · exact settled

theorem enter
    (settled : Settled position)
    (form : ScopeForm)
    (names : List Text) :
    Settled (position.enter form names) := by
  intro level member
  rcases List.mem_cons.mp member with rfl | member
  · rfl
  · exact settled level member

theorem next
    (settled : Settled position) :
    Settled position.next := by
  unfold Settled
  rw [Position.levels_next]
  exact settled

end Settled

/-- A place that is a position is one on any path with these scopes. -/
theorem SiteAt.of_levels
    {site : Site}
    {position other : Position}
    (standing : SiteAt site position)
    (levels : other.levels = position.levels) :
    SiteAt site other :=
  ⟨levels ▸ standing.scopes, levels ▸ standing.receiver⟩

/-- Behind a well-formed statement the innermost scope has the name that the
statement declares. -/
theorem after_eq
    {known : Token → Prop}
    {stmt : Stmt}
    (formed : stmt.WellFormed known)
    (site : Site) :
    site.after stmt =
      match stmt.declaredName? with
      | some name =>
          site.bind name.lexeme true
      | none =>
          site := by
  induction formed generalizing site with
  | @conditional condition consequent alternative _ _ consequentNone _
      alternativeNone consequentAfter alternativeAfter =>
      have consequentSame := consequentAfter site
      rw [consequentNone] at consequentSame
      cases alternative with
      | none =>
          rw [Site.after]
          exact consequentSame
      | some alternative =>
          have alternativeSame := alternativeAfter alternative rfl site
          rw [alternativeNone alternative rfl] at alternativeSame
          rw [Site.after, consequentSame]
          exact alternativeSame
  | loop _ _ bodyNone body =>
      have bodySame := body site
      rw [bodyNone] at bodySame
      rw [Site.after]
      exact bodySame
  | _ =>
      rfl

theorem SiteAt.after
    {site : Site}
    {position : Position}
    (standing : SiteAt site position)
    (settled : Settled position)
    {stmt : Stmt}
    (formed : stmt.WellFormed SpelledToken) :
    SiteAt (site.after stmt) (position.declaring stmt) := by
  rw [after_eq formed]
  unfold Position.declaring
  cases stmt.declaredName? with
  | some name =>
      exact standing.bind settled name.lexeme
  | none =>
      exact standing

end Scopes

section Resolved

theorem resolveStmt_conditional
    (site : Site)
    (condition : Expr)
    (consequent : Stmt)
    (alternative : Option Stmt) :
    site.resolveStmt (.conditional condition consequent alternative) =
      .conditional (site.resolveExpr condition) (site.resolveStmt consequent)
        (alternative.map (site.after consequent).resolveStmt) := by
  cases alternative <;> rfl

theorem stmtProblems_conditional
    (site : Site)
    (condition : Expr)
    (consequent : Stmt)
    (alternative : Option Stmt) :
    site.stmtProblems (.conditional condition consequent alternative) =
      site.exprProblems condition ++ site.stmtProblems consequent ++
        (alternative.map (site.after consequent).stmtProblems).getD [] := by
  cases alternative <;> simp [Site.stmtProblems]

/-- Resolving a statement keeps the name that it declares. -/
theorem declaredName?_resolveStmt
    (site : Site)
    (stmt : Stmt) :
    (site.resolveStmt stmt).declaredName? = stmt.declaredName? := by
  cases stmt with
  | conditional condition consequent alternative =>
      rw [resolveStmt_conditional]
      rfl
  | functionDecl function =>
      cases function
      rfl
  | _ =>
      rfl

theorem resolveExprs_eq_map
    (site : Site)
    (exprs : List Expr) :
    site.resolveExprs exprs = exprs.map site.resolveExpr := by
  induction exprs with
  | nil =>
      rfl
  | cons first rest inductionHypothesis =>
      rw [Site.resolveExprs, inductionHypothesis, List.map_cons]

theorem exprsProblems_eq_nil
    {site : Site}
    {exprs : List Expr}
    (silent : site.exprsProblems exprs = [])
    {expr : Expr}
    (member : expr ∈ exprs) :
    site.exprProblems expr = [] := by
  induction exprs with
  | nil =>
      cases member
  | cons first rest inductionHypothesis =>
      rw [Site.exprsProblems, List.append_eq_nil_iff] at silent
      rcases List.mem_cons.mp member with rfl | member
      · exact silent.1
      · exact inductionHypothesis silent.2 member

/-- Code that scope analysis made of well-formed code without problems, at the
given place. -/
def Resolves
    (site : Site) :
    Code → Prop
  | .expr expr =>
      ∃ plain,
        expr = site.resolveExpr plain ∧
          plain.WellFormed SpelledToken ∧
          site.exprProblems plain = []
  | .stmt stmt =>
      ∃ plain,
        stmt = site.resolveStmt plain ∧
          plain.WellFormed SpelledToken ∧
          site.stmtProblems plain = []
  | .stmts stmts =>
      ∃ plain,
        stmts = site.resolveStmts plain ∧
          (∀ stmt ∈ plain, stmt.WellFormed SpelledToken) ∧
          site.stmtsProblems plain = []
  | .function function =>
      ∃ plain enclosure,
        function = site.resolveFunction enclosure plain ∧
          plain.WellFormed SpelledToken ∧
          site.functionProblems enclosure plain = []
  | .methods methods =>
      ∃ plain,
        methods = site.resolveMethods plain ∧
          (∀ method ∈ plain, method.WellFormed SpelledToken) ∧
          site.methodProblems plain = []

section Parts

variable {site : Site}

theorem operands_resolveExpr
    (site : Site)
    (expr : Expr) :
    (site.resolveExpr expr).operands =
      expr.operands.map site.resolveExpr := by
  cases expr with
  | call callee closing arguments =>
      simp only [Site.resolveExpr, Expr.operands, resolveExprs_eq_map,
        List.map_cons]
  | _ =>
      rfl

theorem values_resolveStmt
    (site : Site)
    (stmt : Stmt) :
    (site.resolveStmt stmt).values = stmt.values.map site.resolveExpr := by
  cases stmt with
  | conditional condition consequent alternative =>
      rw [resolveStmt_conditional]
      rfl
  | returning keyword value =>
      cases value <;> rfl
  | _ =>
      rfl

theorem exprProblems_operand
    {expr operand : Expr}
    (silent : site.exprProblems expr = [])
    (member : operand ∈ expr.operands) :
    site.exprProblems operand = [] := by
  cases expr with
  | group | unary | assign | property =>
      obtain rfl := List.mem_singleton.mp member
      exact silent
  | binary | logical =>
      obtain ⟨left, right⟩ := List.append_eq_nil_iff.mp silent
      rcases List.mem_cons.mp member with rfl | member
      · exact left
      · obtain rfl := List.mem_singleton.mp member
        exact right
  | setProperty =>
      obtain ⟨value, object⟩ := List.append_eq_nil_iff.mp silent
      rcases List.mem_cons.mp member with rfl | member
      · exact object
      · obtain rfl := List.mem_singleton.mp member
        exact value
  | call =>
      obtain ⟨callee, arguments⟩ := List.append_eq_nil_iff.mp silent
      rcases List.mem_cons.mp member with rfl | member
      · exact callee
      · exact exprsProblems_eq_nil arguments member
  | literal | reference | receiver | missing =>
      cases member

theorem stmtProblems_value
    {stmt : Stmt}
    {value : Expr}
    (silent : site.stmtProblems stmt = [])
    (member : value ∈ stmt.values) :
    site.exprProblems value = [] := by
  cases stmt with
  | expression | print =>
      obtain rfl := List.mem_singleton.mp member
      exact silent
  | conditional condition consequent alternative =>
      obtain rfl := List.mem_singleton.mp member
      rw [stmtProblems_conditional, List.append_assoc] at silent
      exact (List.append_eq_nil_iff.mp silent).1
  | loop =>
      obtain rfl := List.mem_singleton.mp member
      exact (List.append_eq_nil_iff.mp silent).1
  | returning keyword result =>
      obtain rfl := Option.mem_toList.mp member
      exact (List.append_eq_nil_iff.mp silent).2
  | variableDecl | block | functionDecl | classDecl | missing =>
      cases member

theorem Resolves.operand
    {expr operand : Expr}
    (resolves : Resolves site (.expr expr))
    (member : operand ∈ expr.operands) :
    Resolves site (.expr operand) := by
  obtain ⟨plain, rfl, formed, silent⟩ := resolves
  rw [operands_resolveExpr] at member
  obtain ⟨part, inside, rfl⟩ := List.mem_map.mp member
  exact ⟨part, rfl, formed.operand inside, exprProblems_operand silent inside⟩

theorem Resolves.value
    {stmt : Stmt}
    {value : Expr}
    (resolves : Resolves site (.stmt stmt))
    (member : value ∈ stmt.values) :
    Resolves site (.expr value) := by
  obtain ⟨plain, rfl, formed, silent⟩ := resolves
  rw [values_resolveStmt] at member
  obtain ⟨part, inside, rfl⟩ := List.mem_map.mp member
  exact ⟨part, rfl, formed.value inside, stmtProblems_value silent inside⟩

theorem Resolves.initializer
    {name : Token}
    {initial : Expr}
    (resolves : Resolves site (.stmt (.variableDecl name (some initial)))) :
    name.lexeme ≠ Position.receiverName ∧
      Resolves (site.bind name.lexeme false) (.expr initial) := by
  obtain ⟨plain, shape, formed, silent⟩ := resolves
  cases formed with
  | variableDecl spelled kind initialFormed =>
      obtain ⟨rfl, found⟩ := Stmt.variableDecl.inj shape
      obtain ⟨part, rfl, rfl⟩ := Option.map_eq_some_iff.mp found.symm
      exact ⟨lexeme_ne_receiverName spelled kind, part, rfl,
        initialFormed part rfl, (List.append_eq_nil_iff.mp silent).2⟩
  | conditional =>
      rw [resolveStmt_conditional] at shape
      cases shape
  | _ =>
      cases shape

theorem Resolves.block
    {body : List Stmt}
    (resolves : Resolves site (.stmt (.block body))) :
    Resolves (site.enter []) (.stmts body) := by
  obtain ⟨plain, shape, formed, silent⟩ := resolves
  unfold Site.resolveStmt at shape
  split at shape <;> cases shape
  cases formed with
  | block bodyFormed =>
      exact ⟨_, rfl, bodyFormed, silent⟩

/-- The branches of a conditional are resolved at its own place, since they declare
nothing. -/
theorem Resolves.conditional
    {condition : Expr}
    {consequent : Stmt}
    {alternative : Option Stmt}
    (resolves :
      Resolves site (.stmt (.conditional condition consequent alternative))) :
    (Resolves site (.stmt consequent) ∧ consequent.declaredName? = none) ∧
      ∀ branch ∈ alternative,
        Resolves site (.stmt branch) ∧ branch.declaredName? = none := by
  obtain ⟨plain, shape, formed, silent⟩ := resolves
  cases formed with
  | conditional _ consequentFormed consequentNone alternativeFormed
      alternativeNone =>
      rw [resolveStmt_conditional] at shape
      cases shape
      rw [stmtProblems_conditional, after_eq consequentFormed,
        consequentNone] at silent
      obtain ⟨before, alternativeSilent⟩ := List.append_eq_nil_iff.mp silent
      refine ⟨⟨⟨_, rfl, consequentFormed,
        (List.append_eq_nil_iff.mp before).2⟩, ?_⟩, fun branch member => ?_⟩
      · rw [declaredName?_resolveStmt, consequentNone]
      · rw [after_eq consequentFormed, consequentNone] at member
        obtain ⟨plainBranch, rfl, rfl⟩ := Option.map_eq_some_iff.mp member
        refine ⟨⟨plainBranch, rfl, alternativeFormed plainBranch rfl,
          alternativeSilent⟩, ?_⟩
        rw [declaredName?_resolveStmt, alternativeNone plainBranch rfl]
  | _ =>
      cases shape

theorem Resolves.loop
    {condition : Expr}
    {body : Stmt}
    (resolves : Resolves site (.stmt (.loop condition body))) :
    Resolves site (.stmt body) ∧ body.declaredName? = none := by
  obtain ⟨plain, shape, formed, silent⟩ := resolves
  unfold Site.resolveStmt at shape
  split at shape <;> cases shape
  cases formed with
  | loop _ bodyFormed bodyNone =>
      refine ⟨⟨_, rfl, bodyFormed, (List.append_eq_nil_iff.mp silent).2⟩, ?_⟩
      rw [declaredName?_resolveStmt, bodyNone]

theorem Resolves.functionDecl
    {function : FunctionDecl}
    (resolves : Resolves site (.stmt (.functionDecl function))) :
    Resolves (site.bind function.name.lexeme true) (.function function) := by
  obtain ⟨plain, shape, formed, silent⟩ := resolves
  unfold Site.resolveStmt at shape
  split at shape <;> cases shape
  cases formed with
  | functionDecl named body =>
      rename_i function
      cases function
      exact ⟨_, .function, rfl, ⟨named, body⟩,
        (List.append_eq_nil_iff.mp silent).2⟩

theorem Resolves.classDecl
    {name : Token}
    {methods : List FunctionDecl}
    (resolves : Resolves site (.stmt (.classDecl name methods))) :
    Resolves (site.bind name.lexeme true).inClassBody (.methods methods) := by
  obtain ⟨plain, shape, formed, silent⟩ := resolves
  unfold Site.resolveStmt at shape
  split at shape <;> cases shape
  cases formed with
  | classDecl _ _ named bodies =>
      exact ⟨_, rfl,
        fun method member => ⟨named method member, bodies method member⟩,
        (List.append_eq_nil_iff.mp silent).2⟩

/-- The name that a statement declares is spelled like no receiver. -/
theorem Resolves.declaredName
    {stmt : Stmt}
    (resolves : Resolves site (.stmt stmt))
    (name : Token)
    (declares : name ∈ stmt.declaredName?) :
    name.lexeme ≠ Position.receiverName := by
  obtain ⟨plain, rfl, formed, -⟩ := resolves
  rw [declaredName?_resolveStmt] at declares
  cases formed with
  | variableDecl spelled kind _ =>
      cases declares
      exact lexeme_ne_receiverName spelled kind
  | functionDecl named _ =>
      cases declares
      exact lexeme_ne_receiverName named.nameKnown named.nameKind
  | classDecl spelled kind _ _ =>
      cases declares
      exact lexeme_ne_receiverName spelled kind
  | _ =>
      cases declares

/-- The parameters of a function are spelled like no receiver. -/
theorem Resolves.parameter
    {function : FunctionDecl}
    (resolves : Resolves site (.function function))
    (parameter : Token)
    (member : parameter ∈ function.parameters) :
    parameter.lexeme ≠ Position.receiverName := by
  obtain ⟨plain, enclosure, rfl, ⟨named, -⟩, -⟩ := resolves
  cases plain
  exact lexeme_ne_receiverName (named.parametersKnown parameter member)
    (named.parametersKind parameter member)

end Parts

/-- Only the code of an initializer is inside of one, and its name is spelled
like no receiver. -/
def Ready
    (position : Position) :
    Code → Prop
  | .expr _ =>
      (∀ level ∈ position.levels.tail, level.pending = none) ∧
        ∀ level ∈ position.levels,
          level.pending ≠ some Position.receiverName
  | _ =>
      Settled position

/-- Scope analysis made the code at a position, having the scopes of that
position. -/
def Traced
    (position : Position)
    (code : Code) :
    Prop :=
  Ready position code ∧ ∃ site, SiteAt site position ∧ Resolves site code

theorem Settled.ready
    {position : Position}
    (settled : Settled position)
    (expr : Expr) :
    Ready position (.expr expr) := by
  refine ⟨fun level member => settled level (List.mem_of_mem_tail member),
    fun level member => ?_⟩
  rw [settled level member]
  simp

/-- In the initializer of a name only that name is pending. -/
theorem initializing_ready
    {position : Position}
    (settled : Settled position)
    {name : Text}
    (ordinary : name ≠ Position.receiverName)
    (expr : Expr) :
    Ready (position.initializing name) (.expr expr) := by
  unfold Position.initializing
  split
  · exact settled.ready expr
  · rename_i first outer levels
    have outerSettled : ∀ level ∈ outer, level.pending = none :=
      fun level member => settled level (by simp [levels, member])
    refine ⟨outerSettled, fun level member => ?_⟩
    rcases List.mem_cons.mp member with rfl | member
    · simpa using ordinary
    · rw [outerSettled level member]
      simp

theorem Traced.operand
    {position : Position}
    {expr operand : Expr}
    (traced : Traced position (.expr expr))
    (member : operand ∈ expr.operands) :
    Traced position (.expr operand) := by
  obtain ⟨ready, site, standing, resolves⟩ := traced
  exact ⟨ready, site, standing, resolves.operand member⟩

theorem Traced.value
    {position : Position}
    {stmt : Stmt}
    {value : Expr}
    (traced : Traced position (.stmt stmt))
    (member : value ∈ stmt.values) :
    Traced position (.expr value) := by
  obtain ⟨settled, site, standing, resolves⟩ := traced
  exact ⟨settled.ready value, site, standing, resolves.value member⟩

/-- Scope analysis made a tree of a well-formed one without problems. -/
def Origin.IsAnalysed (origin : Origin) : Prop :=
  ∃ plain,
    origin.statements = Site.outermost.resolveStmts plain ∧
      (∀ stmt ∈ plain, stmt.WellFormed SpelledToken) ∧
      Site.outermost.stmtsProblems plain = []

/-- Scope analysis made the code at every position of an analysed tree. -/
theorem Occurs.traced
    {origin : Origin}
    (tree : origin.IsAnalysed)
    {position : Position}
    {code : Code}
    (occurs : Occurs position code)
    (same : position.origin = origin) :
    Traced position code := by
  induction occurs with
  | program origin =>
      obtain rfl := same
      obtain ⟨plain, shape, formed, silent⟩ := tree
      exact ⟨by simp [Ready, Settled, Position.top], Site.outermost,
        ⟨rfl, by simp [Site.outermost]⟩, plain, shape, formed, silent⟩
  | firstStatement _ whole =>
      obtain ⟨settled, site, standing, plain, shape, formed, silent⟩ :=
        whole same
      cases plain with
      | nil =>
          cases shape
      | cons first rest =>
          obtain ⟨rfl, rfl⟩ := List.cons.inj shape
          exact ⟨settled, site, standing, first, rfl,
            formed first List.mem_cons_self,
            (List.append_eq_nil_iff.mp silent).1⟩
  | laterStatements _ whole =>
      obtain ⟨settled, site, standing, plain, shape, formed, silent⟩ :=
        whole (by simpa using same)
      cases plain with
      | nil =>
          cases shape
      | cons first rest =>
          obtain ⟨rfl, rfl⟩ := List.cons.inj shape
          have firstFormed := formed first List.mem_cons_self
          have after := standing.after settled firstFormed
          have declaringSame :
              ∀ position : Position,
                position.declaring (site.resolveStmt first) =
                  position.declaring first := by
            intro position
            unfold Position.declaring
            rw [declaredName?_resolveStmt]
          rw [declaringSame]
          exact ⟨(settled.declaring first).next, site.after first,
            after.of_levels (by simp), rest, rfl,
            fun stmt member => formed stmt (List.mem_cons_of_mem _ member),
            (List.append_eq_nil_iff.mp silent).2⟩
  | expressionValue _ whole | printValue _ whole | condition _ whole
  | loopCondition _ whole | returnValue _ whole =>
      exact (whole same).value (by simp [Stmt.values])
  | initializer _ whole =>
      obtain ⟨settled, site, standing, resolves⟩ :=
        whole (by simpa using same)
      obtain ⟨ordinary, initial⟩ := resolves.initializer
      exact ⟨initializing_ready settled ordinary _, _,
        standing.pend settled _, initial⟩
  | blockBody _ whole =>
      obtain ⟨settled, site, standing, resolves⟩ := whole same
      exact ⟨settled.enter _ _, site.enter [], standing.enter .block [],
        resolves.block⟩
  | consequent _ whole =>
      obtain ⟨settled, site, standing, resolves⟩ := whole same
      exact ⟨settled, site, standing.of_levels rfl, resolves.conditional.1.1⟩
  | alternative _ whole =>
      obtain ⟨settled, site, standing, resolves⟩ := whole same
      exact ⟨settled, site, standing.of_levels rfl,
        (resolves.conditional.2 _ rfl).1⟩
  | loopBody _ whole =>
      obtain ⟨settled, site, standing, resolves⟩ := whole same
      exact ⟨settled, site, standing.of_levels rfl, resolves.loop.1⟩
  | functionDecl _ whole =>
      obtain ⟨settled, site, standing, resolves⟩ :=
        whole (by simpa using same)
      exact ⟨settled.declare _, _, standing.bind settled _,
        resolves.functionDecl⟩
  | functionBody _ whole =>
      obtain ⟨settled, site, standing, plain, enclosure, shape, formed,
        silent⟩ := whole same
      cases plain with
      | mk name parameters body =>
          cases shape
          exact ⟨settled.enter _ _, site.inFunction enclosure parameters,
            standing.inFunction enclosure
              (site.resolveFunction enclosure { name, parameters, body }),
            body, rfl, formed.body,
            (List.append_eq_nil_iff.mp silent).2⟩
  | classMethods _ whole =>
      obtain ⟨settled, site, standing, resolves⟩ :=
        whole (by simpa [Position.inClass, Position.enter] using same)
      exact ⟨(settled.declare _).enter _ _, _,
        (standing.bind settled _).inClassBody, resolves.classDecl⟩
  | firstMethod _ whole =>
      obtain ⟨settled, site, standing, plain, shape, formed, silent⟩ :=
        whole same
      cases plain with
      | nil =>
          cases shape
      | cons first rest =>
          obtain ⟨rfl, rfl⟩ := List.cons.inj shape
          exact ⟨settled, site, standing, first, _, rfl,
            formed first List.mem_cons_self,
            (List.append_eq_nil_iff.mp silent).1⟩
  | laterMethods _ whole =>
      obtain ⟨settled, site, standing, plain, shape, formed, silent⟩ :=
        whole (by simpa using same)
      cases plain with
      | nil =>
          cases shape
      | cons first rest =>
          obtain ⟨rfl, rfl⟩ := List.cons.inj shape
          exact ⟨settled.next, site, standing.of_levels (by simp), rest, rfl,
            fun method member =>
              formed method (List.mem_cons_of_mem _ member),
            (List.append_eq_nil_iff.mp silent).2⟩
  | grouped _ whole | unaryOperand _ whole | binaryLeft _ whole
  | binaryRight _ whole | logicalLeft _ whole | logicalRight _ whole
  | assigned _ whole | callee _ whole | propertyObject _ whole
  | fieldObject _ whole | fieldValue _ whole =>
      exact (whole same).operand (by simp [Expr.operands])
  | argument _ member whole =>
      exact (whole same).operand (List.mem_cons_of_mem _ member)

/-- No name in an analysed tree shadows a receiver. -/
theorem Occurs.unshadowed
    {origin : Origin}
    (tree : origin.IsAnalysed)
    {position : Position}
    {code : Code}
    (occurs : Occurs position code)
    (same : position.origin = origin) :
    position.Unshadowed := by
  induction occurs with
  | program =>
      simp [Position.Unshadowed, Position.top]
  | @laterStatements position _ _ around whole =>
      have sameAround : position.origin = origin := by
        simpa using same
      obtain ⟨-, site, -, resolves⟩ :=
        around.firstStatement.traced tree sameAround
      exact ((whole sameAround).declaring resolves.declaredName).of_levels
        (Position.levels_next _)
  | initializer _ whole =>
      exact (whole (by simpa using same)).initializing _
  | blockBody _ whole =>
      exact (whole same).enter (by simp)
  | @functionDecl position _ around whole =>
      have sameAround : position.origin = origin := by
        simpa using same
      obtain ⟨-, site, -, resolves⟩ := around.traced tree sameAround
      exact (whole sameAround).declare (resolves.declaredName _ rfl)
  | functionBody around whole =>
      obtain ⟨-, site, -, resolves⟩ := around.traced tree same
      refine (whole same).enter fun declared => ?_
      simp only [List.mem_reverse, List.mem_map] at declared
      obtain ⟨parameter, member, shadows⟩ := declared
      exact (resolves.parameter parameter member shadows).elim
  | @classMethods position _ _ around whole =>
      have sameAround : position.origin = origin := by
        simpa [Position.inClass, Position.enter] using same
      obtain ⟨-, site, -, resolves⟩ := around.traced tree sameAround
      exact ((whole sameAround).declare
        (resolves.declaredName _ rfl)).enter fun _ => rfl
  | laterMethods _ whole =>
      exact (whole (by simpa using same)).of_levels (Position.levels_next _)
  | firstStatement _ whole | expressionValue _ whole | printValue _ whole
  | condition _ whole | consequent _ whole | alternative _ whole
  | loopCondition _ whole | loopBody _ whole | returnValue _ whole
  | firstMethod _ whole | grouped _ whole | unaryOperand _ whole
  | binaryLeft _ whole | binaryRight _ whole | logicalLeft _ whole
  | logicalRight _ whole | assigned _ whole | callee _ whole
  | argument _ _ whole | propertyObject _ whole | fieldObject _ whole
  | fieldValue _ whole =>
      exact whole same

/-- A name that is read without a problem is not in its own initializer. -/
theorem SiteAt.not_pending
    {site : Site}
    {position : Position}
    (standing : SiteAt site position)
    (outerReady : ∀ level ∈ position.levels.tail, level.pending = none)
    {name : Token}
    {distance : Option Nat}
    (silent : site.exprProblems (.reference name distance) = []) :
    ∀ level ∈ position.levels, level.pending ≠ some name.lexeme := by
  have notPending : site.isPending name.lexeme = false := by
    by_contra pending
    simp [Site.exprProblems, pending] at silent
  have scopes := standing.scopes
  intro level member isPending
  cases levels : position.levels with
  | nil =>
      rw [levels] at member
      cases member
  | cons first outer =>
      rw [levels] at member scopes outerReady
      rcases List.mem_cons.mp member with rfl | member
      · unfold Site.isPending at notPending
        rw [scopes] at notPending
        simp [Level.scope, isPending] at notPending
      · rw [outerReady level member] at isPending
        cases isPending

/-- A tree without problems is as it should be once scope analysis has filled its
distances in. -/
theorem fits_of_resolution
    {origin : Origin}
    {plain : List Stmt}
    (resolved : origin.resolved = true)
    (shape :
      origin.statements = (Resolution.ofStatements plain).statements)
    (formed : ∀ stmt ∈ plain, stmt.WellFormed SpelledToken)
    (silent : (Resolution.ofStatements plain).problems = []) :
    origin.Fits := by
  intro position code same occurs
  have tree : origin.IsAnalysed := ⟨plain, shape, formed, silent⟩
  have traced := occurs.traced tree same
  have analysed : position.origin.resolved = true := same ▸ resolved
  cases code with
  | expr expr =>
      obtain ⟨⟨outerReady, noReceiver⟩, site, standing, plain, rfl, formed,
        silent⟩ := traced
      cases formed with
      | unary _ kind _ =>
          exact kind
      | binary _ _ kind _ =>
          exact kind
      | @reference name spelled kind =>
          refine ⟨lexeme_ne_receiverName spelled kind, fun _ =>
            ⟨standing.distance?_eq name.lexeme, ?_⟩, by simp [analysed]⟩
          exact standing.not_pending outerReady silent
      | @assign name _ spelled kind _ =>
          exact ⟨lexeme_ne_receiverName spelled kind,
            fun _ => standing.distance?_eq name.lexeme, by simp [analysed]⟩
      | @receiver keyword spelled kind =>
          have lexeme := lexeme_eq_receiverName spelled kind
          have inClass : site.inClass = true := by
            by_contra outside
            simp [Site.exprProblems, outside] at silent
          have distance :
              site.receiverDistance? = position.nearest? keyword.lexeme := by
            unfold Site.receiverDistance?
            rw [if_pos inClass, lexeme]
            exact standing.distance?_eq Position.receiverName
          have unshadowed := occurs.unshadowed tree same
          have nearest :=
            unshadowed.nearest?_receiverName occurs.nested.1 noReceiver
          rw [← lexeme, ← distance] at nearest
          refine ⟨fun _ => ⟨?_, distance, lexeme ▸ noReceiver, lexeme,
            nearest⟩, by simp [analysed]⟩
          rw [distance, lexeme]
          obtain ⟨level, member, declares⟩ := standing.receiver inClass
          intro missing
          have undeclared := List.findIdx?_eq_none_iff.mp missing level member
          rw [declares] at undeclared
          cases undeclared
      | literal | group | logical | call | property | setProperty =>
          trivial
  | stmt stmt =>
      obtain ⟨-, site, -, plain, rfl, formed, -⟩ := traced
      cases formed with
      | conditional =>
          rw [resolveStmt_conditional]
          trivial
      | _ =>
          trivial
  | stmts | function | methods =>
      trivial

end Resolved

end Script.Lexical
