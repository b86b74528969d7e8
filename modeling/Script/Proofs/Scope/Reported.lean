import Script.Proofs.Scope.Spot
import Script.Tree.Program
import Mathlib.Data.List.Infix

namespace Script

/-!
# The problems of scope analysis are those of the spots

Scope analysis walks through a program with the names of the scopes around it and
with what kind of function and whether a class it is in.  At each statement this is
what the surroundings of the statement and the spots before it say, so the problems
it finds are the problems of the spots, one for each spot with a problem.
-/

namespace Spot

variable (earlier : List Spot) (token : Token) (around : List Surrounding)

theorem problems_append (first second : List Spot) :
    problems earlier (first ++ second) =
      problems earlier first ++ problems (earlier ++ first) second := by
  induction first generalizing earlier with
  | nil =>
      simp [problems]
  | cons spot rest inductionHypothesis =>
      simp [problems, inductionHypothesis]

theorem problem?_reads :
    problem? earlier { token, deed := .reads, around } =
      if (Surrounding.scope? around).isSome = true ∧
          .initializer token.lexeme ∈ around then
        some .ownInitializer
      else
        none := by
  simp [problem?, ReturnsOutside, ReturnsFromInitializer, LacksClass,
    ReadsItself, Redeclares, Deed.isReturn, scope?]

theorem problem?_readsReceiver :
    problem? earlier { token, deed := .readsReceiver, around } =
      if Surrounding.classBody ∈ around then
        none
      else
        some .thisOutsideClass := by
  simp [problem?, ReturnsOutside, ReturnsFromInitializer, LacksClass,
    ReadsItself, Redeclares, Deed.isReturn]

theorem problem?_declares :
    problem? earlier { token, deed := .declares, around } =
      if (Surrounding.scope? around).isSome = true ∧
          ∃ other ∈ earlier,
            other.DeclaresIn (Surrounding.scope? around) token.lexeme then
        some .alreadyDeclared
      else
        none := by
  simp [problem?, ReturnsOutside, ReturnsFromInitializer, LacksClass,
    ReadsItself, Redeclares, Deed.isReturn, scope?]

theorem problem?_returns (hasValue : Bool) :
    problem? earlier { token, deed := .returns hasValue, around } =
      match Surrounding.function? around with
      | none =>
          some .returnOutsideFunction
      | some function =>
          if hasValue = true ∧ function.isInitializer = true then
            some .returnFromInitializer
          else
            none := by
  unfold Surrounding.function?
  cases found : around.find? (·.isFunction) with
  | none =>
      have outside : ∀ surrounding ∈ around, surrounding.isFunction = false := by
        simpa using List.find?_eq_none.mp found
      exact if_pos ⟨rfl, outside⟩
  | some function =>
      have inside : ¬∀ surrounding ∈ around, surrounding.isFunction = false := by
        intro outside
        have isFunction := List.find?_some found
        rw [outside function (List.mem_of_find?_eq_some found)] at isFunction
        cases isFunction
      simp [problem?, ReturnsOutside, ReturnsFromInitializer, LacksClass,
        ReadsItself, Redeclares, Deed.isReturn, inside, Surrounding.function?,
        found]

end Spot

section Places

/-- A spot in a scope at a path or further inside. -/
def Spot.IsInside
    (path : List Nat)
    (spot : Spot) :
    Prop :=
  ∃ scope inside,
    spot.scope? = some scope ∧ scope.path? = some inside ∧ path <:+ inside

theorem Spot.IsInside.of_cons
    {number : Nat}
    {path : List Nat}
    {spot : Spot}
    (isInside : spot.IsInside (number :: path)) :
    spot.IsInside path := by
  obtain ⟨scope, inside, here, isPath, further⟩ := isInside
  exact ⟨scope, inside, here, isPath, (List.suffix_cons number path).trans further⟩

/-- A spot is inside of one thing only at paths of one length. -/
theorem Spot.IsInside.eq_of_length
    {first second : List Nat}
    {spot : Spot}
    (isInside : spot.IsInside first)
    (alsoInside : spot.IsInside second)
    (sameLength : first.length = second.length) :
    first = second := by
  obtain ⟨scope, inside, here, isPath, further⟩ := isInside
  obtain ⟨other, path, isOther, isOtherPath, alsoFurther⟩ := alsoInside
  obtain rfl : scope = other := by
    simpa [here] using isOther
  obtain rfl : inside = path := by
    simpa [isPath] using isOtherPath
  exact (List.suffix_of_suffix_length_le further alsoFurther
    sameLength.le).eq_of_length sameLength

/-- What is around something with names of its own has a shorter path. -/
def Surrounding.Encloses
    (around : List Surrounding)
    (path : List Nat) :
    Prop :=
  ∀ scope ∈ scope? around, ∀ outside ∈ scope.path?,
    outside.length < path.length

theorem Surrounding.Encloses.here
    {around : List Surrounding}
    {scope : Surrounding}
    {path : List Nat}
    (isScope : scope.path? = some path)
    (number : Nat) :
    Surrounding.Encloses (scope :: around) (number :: path) := by
  intro other member outside isPath
  have here : Surrounding.scope? (scope :: around) = some scope := by
    simp [Surrounding.scope?, isScope]
  obtain rfl : scope = other := by
    simpa [here] using member
  obtain rfl : path = outside := by
    simpa [isScope] using isPath
  exact Nat.lt_succ_self _

theorem Surrounding.Encloses.cons
    {around : List Surrounding}
    {path : List Nat}
    {number : Nat}
    (encloses : Surrounding.Encloses around path) :
    Surrounding.Encloses around (number :: path) :=
  fun scope member outside isPath =>
    (encloses scope member outside isPath).trans (Nat.lt_succ_self _)

mutual

/-- The spots of an expression are all in the same place, and none of them declares
a name. -/
theorem Expr.around_of_mem_spots
    {around : List Surrounding}
    {spot : Spot} :
    (expr : Expr) →
    spot ∈ expr.spots around →
    spot.around = around ∧ spot.deed ≠ .declares
  | .literal _, member | .missing, member => by
      simp [Expr.spots] at member
  | .group inner, member | .unary _ inner, member | .assign _ inner _, member
  | .property inner _, member => by
      rw [Expr.spots] at member
      exact Expr.around_of_mem_spots inner member
  | .binary left _ right, member | .logical left _ right, member
  | .setProperty right _ left, member => by
      rw [Expr.spots] at member
      rcases List.mem_append.mp member with first | second
      · exact Expr.around_of_mem_spots left first
      · exact Expr.around_of_mem_spots right second
  | .reference _ _, member | .receiver _ _, member => by
      rw [Expr.spots] at member
      obtain rfl := List.mem_singleton.mp member
      exact ⟨rfl, nofun⟩
  | .call callee _ arguments, member => by
      rw [Expr.spots] at member
      rcases List.mem_append.mp member with first | second
      · exact Expr.around_of_mem_spots callee first
      · exact Expr.around_of_mem_allSpots arguments second

theorem Expr.around_of_mem_allSpots
    {around : List Surrounding}
    {spot : Spot} :
    (exprs : List Expr) →
    spot ∈ Expr.allSpots around exprs →
    spot.around = around ∧ spot.deed ≠ .declares
  | [], member => by
      simp [Expr.allSpots] at member
  | first :: rest, member => by
      rw [Expr.allSpots] at member
      rcases List.mem_append.mp member with here | later
      · exact Expr.around_of_mem_spots first here
      · exact Expr.around_of_mem_allSpots rest later

end

theorem Expr.around_of_mem_optionalSpots
    {around : List Surrounding}
    {spot : Spot}
    {value : Option Expr}
    (member : spot ∈ Expr.optionalSpots around value) :
    spot.around = around ∧ spot.deed ≠ .declares := by
  cases value with
  | none =>
      simp [Expr.optionalSpots] at member
  | some value =>
      exact value.around_of_mem_spots member

mutual

/-- The spots of a statement are in the scope around it or further inside. -/
theorem Stmt.scope_of_mem_spots
    (around : List Surrounding)
    (path : List Nat)
    {spot : Spot} :
    (stmt : Stmt) →
    spot ∈ stmt.spots around path →
    spot.scope? = Surrounding.scope? around ∨ spot.IsInside path
  | .expression value, member | .print value, member => by
      rw [Stmt.spots] at member
      exact .inl (congrArg Surrounding.scope? (value.around_of_mem_spots member).1)
  | .variableDecl name initial, member => by
      rw [Stmt.spots] at member
      rcases List.mem_cons.mp member with rfl | further
      · exact .inl rfl
      · have same := (Expr.around_of_mem_optionalSpots further).1
        exact .inl (by rw [Spot.scope?, same]; rfl)
  | .block body, member => by
      rw [Stmt.spots] at member
      exact .inr (Stmt.isInside_of_mem_allSpots rfl 0 body member)
  | .conditional condition consequent none, member => by
      rw [Stmt.spots] at member
      rcases List.mem_append.mp member with here | further
      · exact .inl
          (congrArg Surrounding.scope? (condition.around_of_mem_spots here).1)
      · exact (consequent.scope_of_mem_spots around (0 :: path) further).imp_right
          Spot.IsInside.of_cons
  | .conditional condition consequent (some alternative), member => by
      rw [Stmt.spots] at member
      rcases List.mem_append.mp member with before | further
      · rcases List.mem_append.mp before with here | further
        · exact .inl
            (congrArg Surrounding.scope? (condition.around_of_mem_spots here).1)
        · exact (consequent.scope_of_mem_spots around (0 :: path)
            further).imp_right Spot.IsInside.of_cons
      · exact (alternative.scope_of_mem_spots around (1 :: path)
          further).imp_right Spot.IsInside.of_cons
  | .loop condition body, member => by
      rw [Stmt.spots] at member
      rcases List.mem_append.mp member with here | further
      · exact .inl
          (congrArg Surrounding.scope? (condition.around_of_mem_spots here).1)
      · exact (body.scope_of_mem_spots around (0 :: path) further).imp_right
          Spot.IsInside.of_cons
  | .functionDecl function, member => by
      rw [Stmt.spots] at member
      rcases List.mem_cons.mp member with rfl | further
      · exact .inl rfl
      · exact .inr (function.isInside_of_mem_spots rfl further)
  | .returning keyword value, member => by
      rw [Stmt.spots] at member
      rcases List.mem_cons.mp member with rfl | further
      · exact .inl rfl
      · have same := (Expr.around_of_mem_optionalSpots further).1
        exact .inl (congrArg Surrounding.scope? same)
  | .classDecl name methods, member => by
      rw [Stmt.spots] at member
      rcases List.mem_cons.mp member with rfl | further
      · exact .inl rfl
      · exact .inr (FunctionDecl.isInside_of_mem_allSpots _ 0 path methods further)
  | .missing, member => by
      simp [Stmt.spots] at member

/-- The spots of the statements in a scope are in this scope or further inside. -/
theorem Stmt.isInside_of_mem_allSpots
    {around : List Surrounding}
    {scope : Surrounding}
    {path : List Nat}
    (isScope : scope.path? = some path)
    (number : Nat)
    {spot : Spot} :
    (stmts : List Stmt) →
    spot ∈ Stmt.allSpots (scope :: around) number path stmts →
    spot.IsInside path
  | [], member => by
      simp [Stmt.allSpots] at member
  | first :: rest, member => by
      rw [Stmt.allSpots] at member
      rcases List.mem_append.mp member with here | later
      · rcases first.scope_of_mem_spots (scope :: around) _ here with
          same | inside
        · refine ⟨scope, path, ?_, isScope, List.suffix_rfl⟩
          simp [same, Surrounding.scope?, isScope]
        · exact inside.of_cons
      · exact Stmt.isInside_of_mem_allSpots isScope _ rest later

/-- The spots of a function are in the scope of its body or further inside. -/
theorem FunctionDecl.isInside_of_mem_spots
    {around : List Surrounding}
    {scope : Surrounding}
    {path : List Nat}
    (isScope : scope.path? = some path)
    {spot : Spot} :
    (function : FunctionDecl) →
    spot ∈ function.spots (scope :: around) path →
    spot.IsInside path
  | { name, parameters, body }, member => by
      rw [FunctionDecl.spots] at member
      rcases List.mem_append.mp member with here | further
      · obtain ⟨parameter, -, rfl⟩ := List.mem_map.mp here
        refine ⟨scope, path, ?_, isScope, List.suffix_rfl⟩
        simp [Spot.scope?, Surrounding.scope?, isScope]
      · exact Stmt.isInside_of_mem_allSpots isScope 0 body further

/-- The spots of methods are in the scopes of their bodies or further inside. -/
theorem FunctionDecl.isInside_of_mem_allSpots
    (around : List Surrounding)
    (number : Nat)
    (path : List Nat)
    {spot : Spot} :
    (methods : List FunctionDecl) →
    spot ∈ FunctionDecl.allSpots around number path methods →
    spot.IsInside path
  | [], member => by
      simp [FunctionDecl.allSpots] at member
  | first :: rest, member => by
      rw [FunctionDecl.allSpots] at member
      rcases List.mem_append.mp member with here | later
      · exact (first.isInside_of_mem_spots rfl here).of_cons
      · exact FunctionDecl.isInside_of_mem_allSpots around _ path rest later

end

/-- The scope around is not further inside. -/
theorem Surrounding.Encloses.not_inside
    {around : List Surrounding}
    {path : List Nat}
    (encloses : Surrounding.Encloses around path)
    {spot : Spot}
    (same : spot.scope? = Surrounding.scope? around) :
    ¬spot.IsInside path := by
  rintro ⟨scope, inside, here, isPath, further⟩
  have shorter := encloses scope (same ▸ here) inside isPath
  exact absurd further.length_le (Nat.not_le.mpr shorter)

/-- A spot further inside declares nothing in the scope around. -/
theorem Surrounding.Encloses.quiet
    {around : List Surrounding}
    {path : List Nat}
    (encloses : Surrounding.Encloses around path)
    {spot : Spot}
    (isInside : spot.IsInside path)
    (name : Text) :
    ¬spot.DeclaresIn (Surrounding.scope? around) name :=
  fun declares => encloses.not_inside declares.2.2 isInside

end Places

/-- What is around an expression, as scope analysis has it there. -/
structure Site.Sees
    (site : Site)
    (around : List Surrounding) :
    Prop where
  inClass : site.inClass = true ↔ .classBody ∈ around
  pending :
    ∀ name,
      site.isPending name = true ↔
        (Surrounding.scope? around).isSome = true ∧ .initializer name ∈ around

/-- What is around a statement, as scope analysis has it there, and the names that
the spots before declare in the innermost scope. -/
structure Site.Stands
    (site : Site)
    (earlier : List Spot)
    (around : List Surrounding) :
    Prop where
  sees : site.Sees around
  outside : site.enclosure = .topLevel ↔ Surrounding.function? around = none
  initializing :
    site.enclosure = .initializer ↔
      ∃ function ∈ Surrounding.function? around,
        function.isInitializer = true
  isLocal : site.scopes ≠ [] ↔ (Surrounding.scope? around).isSome = true
  settled : ∀ name, .initializer name ∉ around
  declared :
    ∀ name,
      site.hasInnermost name = true ↔
        (Surrounding.scope? around).isSome = true ∧
          ∃ other ∈ earlier,
            other.DeclaresIn (Surrounding.scope? around) name

namespace Site

section Expressions

variable {site : Site} {around : List Surrounding}

mutual

/-- The problems of an expression are those of its spots. -/
theorem exprProblems_eq_spots
    (sees : site.Sees around)
    (earlier : List Spot) :
    (expr : Expr) →
    site.exprProblems expr = Spot.problems earlier (expr.spots around)
  | .literal _ | .missing => by
      simp [exprProblems, Expr.spots, Spot.problems]
  | .group inner => by
      simp [exprProblems, Expr.spots, exprProblems_eq_spots sees earlier inner]
  | .unary _ operand => by
      simp [exprProblems, Expr.spots, exprProblems_eq_spots sees earlier operand]
  | .binary left _ right | .logical left _ right => by
      rw [exprProblems, Expr.spots, Spot.problems_append,
        exprProblems_eq_spots sees earlier left,
        exprProblems_eq_spots sees _ right]
  | .reference name _ => by
      have pending := sees.pending name.lexeme
      rw [exprProblems, Expr.spots, Spot.problems, Spot.problems,
        Spot.problem?_reads]
      by_cases isPending : site.isPending name.lexeme = true
      · simp [isPending, pending.mp isPending]
      · rw [if_neg isPending, if_neg (mt pending.mpr isPending)]
        rfl
  | .assign _ value _ => by
      simp [exprProblems, Expr.spots, exprProblems_eq_spots sees earlier value]
  | .call callee _ arguments => by
      rw [exprProblems, Expr.spots, Spot.problems_append,
        exprProblems_eq_spots sees earlier callee,
        exprsProblems_eq_spots sees _ arguments]
  | .property object _ => by
      simp [exprProblems, Expr.spots, exprProblems_eq_spots sees earlier object]
  | .setProperty object _ value => by
      rw [exprProblems, Expr.spots, Spot.problems_append,
        exprProblems_eq_spots sees earlier value,
        exprProblems_eq_spots sees _ object]
  | .receiver keyword _ => by
      have inClass := sees.inClass
      rw [exprProblems, Expr.spots, Spot.problems, Spot.problems,
        Spot.problem?_readsReceiver]
      by_cases inside : site.inClass = true
      · simp [inside, inClass.mp inside]
      · rw [if_neg inside, if_neg (mt inClass.mpr inside)]
        rfl

theorem exprsProblems_eq_spots
    (sees : site.Sees around)
    (earlier : List Spot) :
    (exprs : List Expr) →
    site.exprsProblems exprs =
      Spot.problems earlier (Expr.allSpots around exprs)
  | [] => by
      simp [exprsProblems, Expr.allSpots, Spot.problems]
  | first :: rest => by
      rw [exprsProblems, Expr.allSpots, Spot.problems_append,
        exprProblems_eq_spots sees earlier first,
        exprsProblems_eq_spots sees _ rest]

end

theorem optionalProblems_eq_spots
    (sees : site.Sees around)
    (earlier : List Spot)
    (value : Option Expr) :
    site.optionalProblems value =
      Spot.problems earlier (Expr.optionalSpots around value) := by
  cases value with
  | none =>
      simp [optionalProblems, Expr.optionalSpots, Spot.problems]
  | some value =>
      exact exprProblems_eq_spots sees earlier value

end Expressions

section Stands

variable {site : Site} {earlier : List Spot} {around : List Surrounding}

/-- Another name is declared in the innermost scope. -/
theorem Stands.bind
    (stands : site.Stands earlier around)
    (token : Token) :
    (site.bind token.lexeme true).Stands
      (earlier ++ [{ token, deed := .declares, around }]) around := by
  have isLocal := stands.isLocal
  have pending := stands.sees.pending
  have declared := stands.declared
  unfold isPending at pending
  unfold hasInnermost at declared
  unfold Site.bind
  cases scopes : site.scopes with
  | nil =>
      rw [scopes] at isLocal
      have outside : ¬(Surrounding.scope? around).isSome = true :=
        fun inside => isLocal.mpr inside rfl
      refine { stands with declared := fun name => ?_ }
      simp [hasInnermost, scopes, outside]
  | cons scope outer =>
      rw [scopes] at isLocal
      have inside := isLocal.mp (List.cons_ne_nil _ _)
      simp only [scopes] at pending declared
      refine
        { stands with
          sees := { stands.sees with pending := fun name => ?_ }
          isLocal := by simp [inside]
          declared := fun name => ?_ }
      · simp only [isPending, List.lookup_cons]
        by_cases same : name = token.lexeme
        · simp [same, stands.settled token.lexeme]
        · have differs : (name == token.lexeme) = false := by
            simpa using same
          simpa [differs] using pending name
      · simp only [hasInnermost, Scope.declares, List.lookup_cons, inside,
          true_and, List.mem_append, List.mem_singleton]
        by_cases same : name = token.lexeme
        · subst same
          simp only [BEq.rfl, Option.isSome_some, true_iff]
          exact ⟨_, .inr rfl, rfl, rfl, rfl⟩
        · have before := declared name
          simp only [Scope.declares, inside, true_and] at before
          have differs : (name == token.lexeme) = false := by
            simpa using same
          rw [differs, before]
          constructor
          · rintro ⟨other, member, declares⟩
            exact ⟨other, .inl member, declares⟩
          · rintro ⟨other, member | rfl, declares⟩
            · exact ⟨other, member, declares⟩
            · exact (same declares.2.1.symm).elim

/-- In the initializer of a variable its name is not ready. -/
theorem Stands.pend
    (stands : site.Stands earlier around)
    (name : Text) :
    (site.bind name false).Sees (.initializer name :: around) := by
  have isLocal := stands.isLocal
  have pending := stands.sees.pending
  unfold isPending at pending
  have same :
      Surrounding.scope? (.initializer name :: around) =
        Surrounding.scope? around :=
    rfl
  unfold Site.bind
  cases scopes : site.scopes with
  | nil =>
      rw [scopes] at isLocal
      have outside : ¬(Surrounding.scope? around).isSome = true :=
        fun inside => isLocal.mpr inside rfl
      exact
        { inClass := by simp [stands.sees.inClass]
          pending := fun other => by simp [isPending, scopes, same, outside] }
  | cons scope outer =>
      rw [scopes] at isLocal
      have inside := isLocal.mp (List.cons_ne_nil _ _)
      refine
        { inClass := by simp [stands.sees.inClass]
          pending := fun other => ?_ }
      simp only [scopes] at pending
      simp only [isPending, List.lookup_cons, same, inside, true_and,
        List.mem_cons, Surrounding.initializer.injEq]
      by_cases equal : other = name
      · simp [equal]
      · have ready := pending other
        simp only [inside, true_and, stands.settled other, iff_false] at ready
        have differs : (other == name) = false := by
          simpa using equal
        simpa [differs, equal, stands.settled other] using ready

/-- A declaration has a problem when its spot has one. -/
theorem Stands.declarationProblems_eq_spot
    (stands : site.Stands earlier around)
    (token : Token) :
    site.declarationProblems token =
      ((Spot.problem? earlier { token, deed := .declares, around }).map
        (Diagnostic.atToken token)).toList := by
  have declared := stands.declared token.lexeme
  rw [declarationProblems, Spot.problem?_declares]
  by_cases before : site.hasInnermost token.lexeme = true
  · rw [if_pos before, if_pos (declared.mp before)]
    rfl
  · rw [if_neg before, if_neg (mt declared.mpr before)]
    rfl

/-- A `return` has a problem when its spot has one. -/
theorem Stands.returnProblems_eq_spot
    (stands : site.Stands earlier around)
    (token : Token)
    (hasValue : Bool) :
    site.returnProblems token hasValue =
      ((Spot.problem? earlier
          { token, deed := .returns hasValue, around }).map
        (Diagnostic.atToken token)).toList := by
  have outside := stands.outside
  have initializing := stands.initializing
  rw [Spot.problem?_returns]
  unfold returnProblems
  cases found : Surrounding.function? around with
  | none =>
      rw [outside.mpr found]
      rfl
  | some function =>
      simp only [found, Option.mem_def, Option.some.injEq, exists_eq_left',
        reduceCtorEq, iff_false] at outside initializing
      cases enclosure : site.enclosure <;> cases hasValue <;>
        simp_all

/-- Spots that declare nothing in the scope change nothing. -/
theorem Stands.append
    (stands : site.Stands earlier around)
    {more : List Spot}
    (quiet :
      ∀ spot ∈ more, ∀ name,
        ¬spot.DeclaresIn (Surrounding.scope? around) name) :
    site.Stands (earlier ++ more) around := by
  refine { stands with declared := fun name => ?_ }
  rw [stands.declared name]
  refine and_congr_right fun _ => ⟨?_, ?_⟩
  · rintro ⟨other, member, declares⟩
    exact ⟨other, List.mem_append_left _ member, declares⟩
  · rintro ⟨other, member, declares⟩
    rcases List.mem_append.mp member with before | here
    · exact ⟨other, before, declares⟩
    · exact (quiet other here name declares).elim

/-- No spot before is in a scope at a path or further inside. -/
def Unvisited
    (earlier : List Spot)
    (path : List Nat) :
    Prop :=
  ∀ spot ∈ earlier, ¬spot.IsInside path

/-- A new scope has no names yet. -/
theorem Stands.enter
    (inClass : site.inClass = true ↔ .classBody ∈ around)
    (settled : ∀ name, .initializer name ∉ around)
    {path : List Nat}
    (unvisited : Unvisited earlier path)
    {scope : Surrounding}
    (isScope : scope.path? = some path)
    {enclosure : Enclosure}
    (outside :
      enclosure = .topLevel ↔ Surrounding.function? (scope :: around) = none)
    (initializing :
      enclosure = .initializer ↔
        ∃ function ∈ Surrounding.function? (scope :: around),
          function.isInitializer = true) :
    Stands { site.enter [] with enclosure } earlier (scope :: around) := by
  have here : Surrounding.scope? (scope :: around) = some scope := by
    simp [Surrounding.scope?, isScope]
  have isNoInitializer : ∀ name, .initializer name ≠ scope := by
    rintro name rfl
    cases isScope
  have isNoClass : .classBody ≠ scope := by
    rintro rfl
    cases isScope
  have allSettled : ∀ name, .initializer name ∉ scope :: around := by
    intro name member
    rcases List.mem_cons.mp member with same | further
    · exact isNoInitializer name same
    · exact settled name further
  refine
    { sees :=
        { inClass := ?_, pending := fun name => ?_ }
      outside, initializing
      settled := allSettled
      isLocal := by simp [Site.enter, here]
      declared := fun name => ?_ }
  · simp [Site.enter, inClass, isNoClass]
  · simp [Site.enter, isPending, allSettled name]
  · simp only [Site.enter, hasInnermost, Scope.declares, List.lookup_nil,
      Option.isSome_none, Bool.false_eq_true, here, Option.isSome_some, true_and,
      false_iff]
    rintro ⟨other, member, -, -, same⟩
    exact unvisited other member ⟨scope, path, same, isScope, List.suffix_rfl⟩

/-- The body of a function. -/
theorem Stands.enterFunction
    (stands : site.Stands earlier around)
    {path : List Nat}
    (unvisited : Unvisited earlier path) :
    Stands { site.enter [] with enclosure := .function } earlier
      (.function path :: around) := by
  refine .enter stands.sees.inClass stands.settled unvisited rfl ?_ ?_
  · simp [Surrounding.function?, Surrounding.isFunction]
  · simp [Surrounding.function?, Surrounding.isFunction,
      Surrounding.isInitializer]

/-- The body of a method. -/
theorem Stands.enterMethod
    (inClass : site.inClass = true ↔ .classBody ∈ around)
    (settled : ∀ name, .initializer name ∉ around)
    {path : List Nat}
    (unvisited : Unvisited earlier path)
    (method : FunctionDecl) :
    Stands { site.enter [] with enclosure := methodEnclosure method } earlier
      (.method path method.name.lexeme :: around) := by
  refine .enter inClass settled unvisited rfl ?_ ?_
  · simp only [methodEnclosure, Surrounding.function?, List.find?_cons,
      Surrounding.isFunction]
    split <;> simp
  · simp only [methodEnclosure, Surrounding.function?, List.find?_cons,
      Surrounding.isFunction, Surrounding.isInitializer]
    split <;> simp_all

/-- The parameters of a function are declared one after the other. -/
theorem Stands.parameters
    (stands : site.Stands earlier around)
    (parameters : List Token) :
    site.parameterProblems parameters =
        Spot.problems earlier
          (parameters.map fun token => { token, deed := .declares, around }) ∧
      (parameters.foldl
          (fun site parameter => site.bind parameter.lexeme true)
          site).Stands
        (earlier ++
          parameters.map fun token => { token, deed := .declares, around })
        around := by
  induction parameters generalizing site earlier with
  | nil =>
      simpa [parameterProblems, Spot.problems] using stands
  | cons parameter rest inductionHypothesis =>
      obtain ⟨problems, later⟩ := inductionHypothesis (stands.bind parameter)
      refine ⟨?_, by simpa using later⟩
      rw [parameterProblems, problems, List.map_cons, Spot.problems,
        stands.declarationProblems_eq_spot]

theorem Unvisited.cons
    {path : List Nat}
    (unvisited : Unvisited earlier path)
    (number : Nat) :
    Unvisited earlier (number :: path) :=
  fun spot member isInside => unvisited spot member isInside.of_cons

/-- Spots in the scope around a path, or at another path of the same length, do not
visit the path. -/
theorem Unvisited.append
    {here next : List Nat}
    {more : List Spot}
    (unvisited : Unvisited earlier next)
    (encloses : Surrounding.Encloses around next)
    (places :
      ∀ spot ∈ more,
        spot.scope? = Surrounding.scope? around ∨ spot.IsInside here)
    (sameLength : here.length = next.length)
    (differ : here ≠ next) :
    Unvisited (earlier ++ more) next := by
  intro spot member isInside
  rcases List.mem_append.mp member with before | added
  · exact unvisited spot before isInside
  · rcases places spot added with same | elsewhere
    · exact encloses.not_inside same isInside
    · exact differ (elsewhere.eq_of_length isInside sameLength)

/-- Spots in the scope around a path do not visit the path. -/
theorem Unvisited.append_around
    {path : List Nat}
    {more : List Spot}
    (unvisited : Unvisited earlier path)
    (encloses : Surrounding.Encloses around path)
    (places : ∀ spot ∈ more, spot.scope? = Surrounding.scope? around) :
    Unvisited (earlier ++ more) path := by
  intro spot member isInside
  rcases List.mem_append.mp member with before | added
  · exact unvisited spot before isInside
  · exact encloses.not_inside (places spot added) isInside

/-- Behind an expression everything is as before. -/
theorem Stands.behindExpr
    {path : List Nat}
    (stands : site.Stands earlier around)
    (encloses : Surrounding.Encloses around path)
    (unvisited : Unvisited earlier path)
    (expr : Expr) :
    site.Stands (earlier ++ expr.spots around) around ∧
      Unvisited (earlier ++ expr.spots around) path :=
  ⟨stands.append fun _ member _ declares =>
      (expr.around_of_mem_spots member).2 declares.1,
    unvisited.append_around encloses fun _ member =>
      congrArg Surrounding.scope? (expr.around_of_mem_spots member).1⟩

/-- Behind a name it is declared in the scope around. -/
theorem Stands.behindName
    {path : List Nat}
    (stands : site.Stands earlier around)
    (encloses : Surrounding.Encloses around path)
    (unvisited : Unvisited earlier path)
    (token : Token) :
    (site.bind token.lexeme true).Stands
        (earlier ++ [{ token, deed := .declares, around }]) around ∧
      Unvisited (earlier ++ [{ token, deed := .declares, around }]) path := by
  refine ⟨stands.bind token, unvisited.append_around encloses ?_⟩
  intro spot member
  obtain rfl := List.mem_singleton.mp member
  rfl

end Stands

section Statements

/-- Behind a statement its names are declared. -/
theorem Stands.after
    {site : Site}
    {earlier : List Spot}
    {around : List Surrounding}
    {path : List Nat}
    (encloses : Surrounding.Encloses around path)
    (stands : site.Stands earlier around) :
    (stmt : Stmt) →
    (site.after stmt).Stands (earlier ++ stmt.spots around path) around
  | .missing => by
      rw [Stmt.spots, List.append_nil]
      exact stands
  | .expression value | .print value => by
      rw [Stmt.spots]
      exact stands.append fun spot member name declares =>
        (value.around_of_mem_spots member).2 declares.1
  | .variableDecl name initial => by
      rw [Stmt.spots, List.append_cons]
      exact (stands.bind name).append fun spot member name declares =>
        (Expr.around_of_mem_optionalSpots member).2 declares.1
  | .block body => by
      rw [Stmt.spots]
      exact stands.append fun spot member =>
        encloses.quiet (Stmt.isInside_of_mem_allSpots rfl 0 body member)
  | .conditional condition consequent none => by
      rw [Stmt.spots, ← List.append_assoc]
      exact Stands.after encloses.cons
        (stands.append fun spot member name declares =>
          (condition.around_of_mem_spots member).2 declares.1) consequent
  | .conditional condition consequent (some alternative) => by
      rw [Stmt.spots, ← List.append_assoc, ← List.append_assoc]
      exact Stands.after encloses.cons
        (Stands.after encloses.cons
          (stands.append fun spot member name declares =>
            (condition.around_of_mem_spots member).2 declares.1) consequent)
        alternative
  | .loop condition body => by
      rw [Stmt.spots, ← List.append_assoc]
      exact Stands.after encloses.cons
        (stands.append fun spot member name declares =>
          (condition.around_of_mem_spots member).2 declares.1) body
  | .functionDecl function => by
      rw [Stmt.spots, List.append_cons]
      exact (stands.bind function.name).append fun spot member =>
        encloses.quiet (function.isInside_of_mem_spots rfl member)
  | .returning keyword value => by
      rw [Stmt.spots]
      refine stands.append fun spot member name declares => ?_
      rcases List.mem_cons.mp member with rfl | further
      · cases declares.1
      · exact (Expr.around_of_mem_optionalSpots further).2 declares.1
  | .classDecl name methods => by
      rw [Stmt.spots, List.append_cons]
      exact (stands.bind name).append fun spot member =>
        encloses.quiet
          (FunctionDecl.isInside_of_mem_allSpots _ 0 path methods member)

/-- Declaring parameters depends on the scopes alone. -/
theorem parameterProblems_enclosure
    (site : Site)
    (enclosure : Enclosure)
    (parameters : List Token) :
    Site.parameterProblems { site with enclosure } parameters =
      site.parameterProblems parameters := by
  induction parameters generalizing site with
  | nil =>
      rfl
  | cons parameter rest inductionHypothesis =>
      have bound :
          Site.bind { site with enclosure } parameter.lexeme true =
            { site.bind parameter.lexeme true with enclosure } := by
        obtain ⟨scopes, before, inClass⟩ := site
        cases scopes <;> rfl
      rw [parameterProblems, parameterProblems, bound, inductionHypothesis]
      rfl

mutual

/-- The problems of a statement are those of its spots. -/
theorem stmtProblems_eq_spots
    {site : Site}
    {earlier : List Spot}
    {around : List Surrounding}
    {path : List Nat}
    (stands : site.Stands earlier around)
    (encloses : Surrounding.Encloses around path)
    (unvisited : Unvisited earlier path) :
    (stmt : Stmt) →
    stmtProblems site stmt = Spot.problems earlier (stmt.spots around path)
  | .expression value | .print value => by
      rw [stmtProblems, Stmt.spots]
      exact exprProblems_eq_spots stands.sees earlier value
  | .variableDecl name initial => by
      rw [stmtProblems, Stmt.spots, Spot.problems,
        stands.declarationProblems_eq_spot,
        optionalProblems_eq_spots (stands.pend name.lexeme)]
  | .block body => by
      rw [stmtProblems, Stmt.spots]
      have inside : (site.enter []).Stands earlier (.block path :: around) :=
        .enter stands.sees.inClass stands.settled unvisited rfl stands.outside
          stands.initializing
      exact stmtsProblems_eq_spots inside (.here rfl)
        (fun number _ => unvisited.cons number) body
  | .conditional condition consequent none => by
      obtain ⟨middle, notYet⟩ := stands.behindExpr encloses unvisited condition
      rw [stmtProblems, Stmt.spots, Spot.problems_append,
        exprProblems_eq_spots stands.sees earlier condition,
        stmtProblems_eq_spots middle encloses.cons (notYet.cons 0) consequent]
  | .conditional condition consequent (some alternative) => by
      obtain ⟨middle, notYet⟩ := stands.behindExpr encloses unvisited condition
      have later :=
        (notYet.cons 1).append encloses.cons
          (fun spot => consequent.scope_of_mem_spots around (0 :: path)) rfl
          (by simp)
      rw [stmtProblems, Stmt.spots, Spot.problems_append,
        Spot.problems_append,
        exprProblems_eq_spots stands.sees earlier condition,
        stmtProblems_eq_spots middle encloses.cons (notYet.cons 0) consequent,
        ← List.append_assoc,
        stmtProblems_eq_spots (middle.after encloses.cons consequent)
          encloses.cons later alternative]
  | .loop condition body => by
      obtain ⟨middle, notYet⟩ := stands.behindExpr encloses unvisited condition
      rw [stmtProblems, Stmt.spots, Spot.problems_append,
        exprProblems_eq_spots stands.sees earlier condition,
        stmtProblems_eq_spots middle encloses.cons (notYet.cons 0) body]
  | .functionDecl function => by
      obtain ⟨behind, notYet⟩ :=
        stands.behindName encloses unvisited function.name
      rw [stmtProblems, Stmt.spots, Spot.problems,
        stands.declarationProblems_eq_spot,
        functionProblems_eq_spots (behind.enterFunction notYet) rfl notYet
          function]
  | .returning keyword value => by
      rw [stmtProblems, Stmt.spots, Spot.problems,
        stands.returnProblems_eq_spot, optionalProblems_eq_spots stands.sees]
  | .classDecl name methods => by
      obtain ⟨behind, notYet⟩ := stands.behindName encloses unvisited name
      have inClass :
          (site.bind name.lexeme true).inClassBody.inClass = true ↔
            .classBody ∈ Surrounding.classBody :: around := by
        simp [inClassBody]
      have settled :
          ∀ name, .initializer name ∉ Surrounding.classBody :: around := by
        simpa using stands.settled
      rw [stmtProblems, Stmt.spots, Spot.problems,
        stands.declarationProblems_eq_spot,
        methodProblems_eq_spots inClass settled
          (fun number _ => notYet.cons number) methods]
  | .missing => by
      simp [stmtProblems, Stmt.spots, Spot.problems]

/-- The problems of the statements in a scope are those of their spots. -/
theorem stmtsProblems_eq_spots
    {site : Site}
    {earlier : List Spot}
    {around : List Surrounding}
    {path : List Nat}
    {number : Nat}
    (stands : site.Stands earlier around)
    (encloses : ∀ index, Surrounding.Encloses around (index :: path))
    (unvisited : ∀ index, number ≤ index → Unvisited earlier (index :: path)) :
    (stmts : List Stmt) →
    stmtsProblems site stmts =
      Spot.problems earlier (Stmt.allSpots around number path stmts)
  | [] => by
      simp [stmtsProblems, Stmt.allSpots, Spot.problems]
  | first :: rest => by
      have later (index : Nat) (behind : number + 1 ≤ index) :=
        (unvisited index (Nat.le_of_succ_le behind)).append (encloses index)
          (fun spot => first.scope_of_mem_spots around (number :: path)) rfl
          (by simp; omega)
      rw [stmtsProblems, Stmt.allSpots, Spot.problems_append,
        stmtProblems_eq_spots stands (encloses number)
          (unvisited number le_rfl) first,
        stmtsProblems_eq_spots (stands.after (encloses number) first) encloses
          later rest]

/-- The problems of a function are those of its spots. -/
theorem functionProblems_eq_spots
    {site : Site}
    {enclosure : Enclosure}
    {earlier : List Spot}
    {around : List Surrounding}
    {scope : Surrounding}
    {path : List Nat}
    (stands :
      Stands { site.enter [] with enclosure } earlier (scope :: around))
    (isScope : scope.path? = some path)
    (unvisited : Unvisited earlier path) :
    (function : FunctionDecl) →
    functionProblems site enclosure function =
      Spot.problems earlier (function.spots (scope :: around) path)
  | { name, parameters, body } => by
      obtain ⟨problems, inside⟩ := stands.parameters parameters
      have notYet (index : Nat) (_ : 0 ≤ index) :
          Unvisited
            (earlier ++
              parameters.map fun token =>
                { token, deed := .declares, around := scope :: around })
            (index :: path) := by
        have encloses : Surrounding.Encloses (scope :: around) (index :: path) :=
          .here isScope index
        refine (unvisited.cons index).append_around encloses ?_
        intro spot member
        obtain ⟨parameter, -, rfl⟩ := List.mem_map.mp member
        rfl
      rw [parameterProblems_enclosure] at problems
      rw [functionProblems, FunctionDecl.spots, Spot.problems_append, problems,
        inFunction, stmtsProblems_eq_spots inside (.here isScope) notYet body]

/-- The problems of the methods of a class are those of their spots. -/
theorem methodProblems_eq_spots
    {site : Site}
    {earlier : List Spot}
    {around : List Surrounding}
    {path : List Nat}
    {number : Nat}
    (inClass : site.inClass = true ↔ .classBody ∈ around)
    (settled : ∀ name, .initializer name ∉ around)
    (unvisited : ∀ index, number ≤ index → Unvisited earlier (index :: path)) :
    (methods : List FunctionDecl) →
    methodProblems site methods =
      Spot.problems earlier
        (FunctionDecl.allSpots around number path methods)
  | [] => by
      simp [methodProblems, FunctionDecl.allSpots, Spot.problems]
  | first :: rest => by
      have here := unvisited number le_rfl
      have inside := Stands.enterMethod inClass settled here first
      have later (index : Nat) (behind : number + 1 ≤ index) :
          Unvisited
            (earlier ++
              first.spots
                (.method (number :: path) first.name.lexeme :: around)
                (number :: path))
            (index :: path) := by
        intro spot member isInside
        rcases List.mem_append.mp member with before | added
        · exact unvisited index (Nat.le_of_succ_le behind) spot before isInside
        · have same :=
            (first.isInside_of_mem_spots rfl added).eq_of_length isInside rfl
          simp at same
          omega
      rw [methodProblems, FunctionDecl.allSpots, Spot.problems_append,
        functionProblems_eq_spots inside rfl here first,
        methodProblems_eq_spots inClass settled later rest]

end

end Statements

/-- Before a program nothing is around and nothing is declared. -/
theorem outermost_stands : outermost.Stands [] [] := by
  refine ⟨⟨?_, ?_⟩, ?_, ?_, ?_, ?_, ?_⟩ <;>
    simp [outermost, isPending, hasInnermost, Surrounding.scope?,
      Surrounding.function?]

end Site

/-- Each problem of a spot has its own reason, and there are no others. -/
theorem Spot.problem?_eq_some_iff
    (earlier : List Spot)
    (spot : Spot)
    (problem : Problem) :
    spot.problem? earlier = some problem ↔
      spot.ReturnsOutside ∧ problem = .returnOutsideFunction ∨
        spot.ReturnsFromInitializer ∧ problem = .returnFromInitializer ∨
        spot.LacksClass ∧ problem = .thisOutsideClass ∨
        spot.ReadsItself ∧ problem = .ownInitializer ∨
        spot.Redeclares earlier ∧ problem = .alreadyDeclared := by
  have outside : spot.ReturnsOutside → ¬spot.ReturnsFromInitializer := by
    rintro ⟨-, outside⟩ ⟨-, function, found, -⟩
    have isFunction := List.find?_some found
    rw [outside function (List.mem_of_find?_eq_some found)] at isFunction
    cases isFunction
  have deeds :
      (spot.ReturnsOutside → spot.deed.isReturn = true) ∧
        (spot.ReturnsFromInitializer → spot.deed = .returns true) ∧
        (spot.LacksClass → spot.deed = .readsReceiver) ∧
        (spot.ReadsItself → spot.deed = .reads) ∧
        (spot.Redeclares earlier → spot.deed = .declares) :=
    ⟨And.left, And.left, And.left, And.left, And.left⟩
  unfold problem?
  grind [Deed.isReturn]

/-- The problems of a program without holes are those of its spots, in the order of
the spots: one for each spot that has a problem, at the token of the spot. -/
theorem Resolution.ofTree_problems
    {stmts : List Stmt}
    (whole : Stmt.anyHole? stmts = none) :
    ∃ resolution,
      Resolution.ofTree stmts = .ok resolution ∧
        resolution.problems =
          Spot.problems [] (Stmt.allSpots [] 0 [] stmts) ∧
        ∀ (earlier : List Spot) (spot : Spot) (problem : Problem),
          spot.problem? earlier = some problem ↔
            spot.ReturnsOutside ∧ problem = .returnOutsideFunction ∨
              spot.ReturnsFromInitializer ∧ problem = .returnFromInitializer ∨
              spot.LacksClass ∧ problem = .thisOutsideClass ∨
              spot.ReadsItself ∧ problem = .ownInitializer ∨
              spot.Redeclares earlier ∧ problem = .alreadyDeclared := by
  refine ⟨.ofStatements stmts, ?_, ?_, Spot.problem?_eq_some_iff⟩
  · rw [ofTree, whole]
  · have encloses (index : Nat) :
        Surrounding.Encloses [] [index] := by
      rintro scope ⟨⟩
    have unvisited (index : Nat) (_ : 0 ≤ index) :
        Site.Unvisited [] [index] := by
      intro spot member
      cases member
    exact Site.stmtsProblems_eq_spots Site.outermost_stands encloses unvisited
      stmts

/-- A text with each kind of problem, in scopes that are nested. -/
def troubledText : Text :=
  Text.utf8
    "return;
fun outer(a, a) \x7b
  class Inner \x7b
    init() \x7b fun free() \x7b return 1; \x7d return this; \x7d
  \x7d
  var b = b = b;
  var b;
  print this;
\x7d
"

/-- In a text the problems come in the order of their places; a function in an
initializer may return a value, and an assignment in it reads nothing. -/
theorem Resolution.ofTree_problems_troubledText :
    let stmts := (Program.ofSource troubledText).statements
    ∃ resolution,
      Resolution.ofTree stmts = .ok resolution ∧
        resolution.problems.map (fun found => (found.line, found.problem)) =
          [(1, .returnOutsideFunction), (2, .alreadyDeclared),
            (4, .returnFromInitializer), (6, .ownInitializer),
            (7, .alreadyDeclared), (8, .thisOutsideClass)] := by
  intro stmts
  obtain ⟨whole, listed⟩ :
      Stmt.anyHole? stmts = none ∧
        (Spot.problems [] (Stmt.allSpots [] 0 [] stmts)).map
            (fun found => (found.line, found.problem)) =
          [(1, .returnOutsideFunction), (2, .alreadyDeclared),
            (4, .returnFromInitializer), (6, .ownInitializer),
            (7, .alreadyDeclared), (8, .thisOutsideClass)] := by
    decide +kernel
  obtain ⟨resolution, ofTree, problems, -⟩ :=
    Resolution.ofTree_problems whole
  refine ⟨resolution, ofTree, ?_⟩
  rw [problems]
  exact listed

end Script
