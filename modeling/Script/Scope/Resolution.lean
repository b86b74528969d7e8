import Script.Scope.Distance
import Script.Scope.Hole
import Script.Scope.Problem

namespace Script

/-!
# Resolution

The result of scope analysis: the same statements with the distances filled in,
and the problems found.  Distances are filled in whether there are problems or
not; a tree with a hole has no resolution.
-/

/-- Statements with distances, and the problems of their scopes. -/
structure Resolution where
  statements : List Stmt
  problems : List Diagnostic

namespace Resolution

/-- Analyse the scopes of a program without holes. -/
def ofStatements (statements : List Stmt) : Resolution where
  statements := Site.outermost.resolveStmts statements
  problems := Site.outermost.stmtsProblems statements

/-- Analyse the scopes of any tree, or find its first hole. -/
def ofTree (statements : List Stmt) : Except Hole Resolution :=
  match Stmt.anyHole? statements with
  | some hole =>
      .error hole
  | none =>
      .ok (ofStatements statements)

/-- The number of uses that have a distance. -/
def count (resolution : Resolution) : Nat :=
  (Stmt.allDistances resolution.statements).countP Option.isSome

end Resolution

end Script
