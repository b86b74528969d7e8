import Script.Scope

namespace Script

/-!
# Scope problems

What scope analysis complains about: a `return` outside of every function, a
value returned from an initializer, `this` outside of every class, a local
variable read in its own initializer, and a name declared twice in one scope.
The problems of a program come in the order in which the analysis walks it,
which visits the value of a property assignment before its object.
-/

namespace Site

/-- The problem of declaring a name that the innermost scope already has. -/
def declarationProblems
    (site : Site)
    (name : Token) :
    List Diagnostic :=
  if site.hasInnermost name.lexeme then
    [.atToken name .alreadyDeclared]
  else
    []

/-- The problems of declaring parameters one after the other. -/
def parameterProblems
    (site : Site) :
    List Token → List Diagnostic
  | [] =>
      []
  | parameter :: rest =>
      site.declarationProblems parameter ++
        (site.bind parameter.lexeme true).parameterProblems rest

/-- The problems of a `return` statement, its value apart. -/
def returnProblems
    (site : Site)
    (keyword : Token)
    (hasValue : Bool) :
    List Diagnostic :=
  match site.enclosure, hasValue with
  | .topLevel, _ =>
      [.atToken keyword .returnOutsideFunction]
  | .initializer, true =>
      [.atToken keyword .returnFromInitializer]
  | _, _ =>
      []

mutual

/-- The problems of an expression. -/
def exprProblems
    (site : Site) :
    Expr → List Diagnostic
  | .literal _ =>
      []
  | .group inner =>
      site.exprProblems inner
  | .unary _ operand =>
      site.exprProblems operand
  | .binary left _ right =>
      site.exprProblems left ++ site.exprProblems right
  | .logical left _ right =>
      site.exprProblems left ++ site.exprProblems right
  | .reference name _ =>
      if site.isPending name.lexeme then
        [.atToken name .ownInitializer]
      else
        []
  | .assign _ value _ =>
      site.exprProblems value
  | .call callee _ arguments =>
      site.exprProblems callee ++ site.exprsProblems arguments
  | .property object _ =>
      site.exprProblems object
  | .setProperty object _ value =>
      site.exprProblems value ++ site.exprProblems object
  | .receiver keyword _ =>
      if site.inClass then
        []
      else
        [.atToken keyword .thisOutsideClass]
  | .missing =>
      []

/-- The problems of expressions, one expression after the other. -/
def exprsProblems
    (site : Site) :
    List Expr → List Diagnostic
  | [] =>
      []
  | first :: rest =>
      site.exprProblems first ++ site.exprsProblems rest

end

/-- The problems of an expression that may be absent. -/
def optionalProblems
    (site : Site)
    (value : Option Expr) :
    List Diagnostic :=
  (value.map site.exprProblems).getD []

mutual

/-- The problems of a statement. -/
def stmtProblems
    (site : Site) :
    Stmt → List Diagnostic
  | .expression value =>
      site.exprProblems value
  | .print value =>
      site.exprProblems value
  | .variableDecl name initial =>
      site.declarationProblems name ++
        (site.bind name.lexeme false).optionalProblems initial
  | .block body =>
      stmtsProblems (site.enter []) body
  | .conditional condition consequent none =>
      site.exprProblems condition ++ stmtProblems site consequent
  | .conditional condition consequent (some alternative) =>
      site.exprProblems condition ++ stmtProblems site consequent ++
        stmtProblems (site.after consequent) alternative
  | .loop condition body =>
      site.exprProblems condition ++ stmtProblems site body
  | .functionDecl function =>
      site.declarationProblems function.name ++
        functionProblems (site.bind function.name.lexeme true) .function
          function
  | .returning keyword value =>
      site.returnProblems keyword value.isSome ++ site.optionalProblems value
  | .classDecl name methods =>
      site.declarationProblems name ++
        methodProblems (site.bind name.lexeme true).inClassBody methods
  | .missing =>
      []

/-- The problems of statements in a row. -/
def stmtsProblems
    (site : Site) :
    List Stmt → List Diagnostic
  | [] =>
      []
  | first :: rest =>
      stmtProblems site first ++ stmtsProblems (site.after first) rest

/-- The problems of a function: those of its parameters and of its body. -/
def functionProblems
    (site : Site)
    (enclosure : Enclosure) :
    FunctionDecl → List Diagnostic
  | { parameters, body, .. } =>
      (site.enter []).parameterProblems parameters ++
        stmtsProblems (site.inFunction enclosure parameters) body

/-- The problems of methods. -/
def methodProblems
    (site : Site) :
    List FunctionDecl → List Diagnostic
  | [] =>
      []
  | first :: rest =>
      functionProblems site (methodEnclosure first) first ++
        methodProblems site rest

end

end Site

end Script
