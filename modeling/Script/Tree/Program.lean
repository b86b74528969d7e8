import Script.Token.Scan
import Script.Tree.StmtParser

namespace Script

/-!
# Programs

A program is what parsing makes of a list of tokens or of a source text: the
statements that survived, and all problems in the order of their discovery.
-/

/-- The statements and the problems of a program. -/
structure Program where
  statements : List Stmt
  problems : List Diagnostic

namespace Program

/-- Parse a list of tokens. -/
def ofTokens (tokens : List Token) : Program :=
  let cursor := Cursor.start tokens
  let (statements, cursor) :=
    Stmt.Parser.declarations (6 * cursor.rest.length + 6) false [] cursor
  { statements, problems := cursor.reported.reverse }

/-- Scan and parse a source text; the problems of scanning come first. -/
def ofSource (source : Text) : Program :=
  let scan := Scan.ofSource source
  let program := ofTokens scan.tokens
  { program with problems := scan.problems ++ program.problems }

/-- Whether a source text stops in the middle of a construct: there are problems
and more input could still mend each of them. -/
def needsMore (source : Text) : Bool :=
  let problems := (ofSource source).problems
  !problems.isEmpty && problems.all Diagnostic.incomplete

end Program

end Script
