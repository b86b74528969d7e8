import Script.Proofs.Alignment.Coherent
import Script.Proofs.Renaming.Resolution
import Script.Proofs.Renaming.Variable
import Script.Proofs.Session.Sources

namespace Script

/-!
# Names of local variables do not matter

A program in which a local variable or a parameter is renamed is resolved as the
program was, and runs as it did: it writes the same, and it comes to its end or
stops with the same fault.  The machine before may be any that source texts lead
to; none of its functions knows the scopes of the program.
-/

section Known

variable {names : Renaming} {stmts : List Stmt} {site : Site}
variable {address : Address} {declaration : Token}

/-- A variable at an address is declared by the scope at this address. -/
theorem Renaming.declaredBy_of_mem
    (member : declaration ∈ Stmt.variablesAt stmts address)
    (same : declaration.lexeme = names.old) :
    names.DeclaredBy (Stmt.scopeAmong? stmts address) := by
  unfold Stmt.variablesAt at member
  cases found : Stmt.scopeAmong? stmts address with
  | none =>
      rw [found] at member
      cases member
  | some scope =>
      rw [found] at member
      exact ⟨scope, rfl, declaration, member, same⟩

/-- A variable at an address in a resolved program has a known name. -/
theorem Stmt.known_of_mem_variablesAt
    {known : Token → Prop}
    (formed : ∀ stmt ∈ stmts, stmt.WellFormed known)
    (member :
      declaration ∈ Stmt.variablesAt (site.resolveStmts stmts) address) :
    known declaration ∧ declaration.kind = .identifier := by
  unfold Stmt.variablesAt at member
  cases found : Stmt.scopeAmong? (site.resolveStmts stmts) address with
  | none =>
      rw [found] at member
      cases member
  | some scope =>
      rw [found] at member
      exact Stmt.scopeAmong?_named
        (fun stmt inside => (formed stmt inside).namesScopes) site found
        declaration member

end Known

namespace Machine

/-- Outcomes that are alike end alike and have written the same. -/
theorem split_alike
    {α : Type}
    {change : Change}
    {links : Links}
    {outline : Outline}
    {related : Links → α → α → Prop}
    {outcome other : Outcome α}
    (alike : outcome.Alike change links outline related other)
    (machine : Machine) :
    (other.split machine).2.1 = (outcome.split machine).2.1 ∧
      (other.split machine).2.2.output =
        (outcome.split machine).2.2.output := by
  cases alike with
  | done _ machines | stopped _ _ machines | broken _ _ machines =>
      exact ⟨rfl, congrArg (·.reverse.flatten) machines.printed⟩
  | exhausted =>
      exact ⟨rfl, rfl⟩

/-- Renaming a local variable or a parameter, and the uses that scope analysis binds
to it, to a name that the program does not have: the renamed program has no problems
and the same distances, and on a reachable machine it writes the same and ends in
the same way, a fault being the same at the same token. -/
theorem runSource_rename
    {machine : Machine}
    (reachable : machine.Reachable)
    {source : Text}
    (parsed : (Program.ofSource source).problems = [])
    (analysed :
      (Resolution.ofStatements (Program.ofSource source).statements).problems =
        [])
    {address : Address}
    {declaration : Token}
    (declares :
      declaration ∈
        Stmt.variablesAt
          (Resolution.ofStatements (Program.ofSource source).statements).statements
          address)
    {name : Text}
    (isNoReceiver : name ≠ Site.receiverName)
    (unused : ∀ token ∈ (Scan.ofSource source).tokens, token.lexeme ≠ name)
    (fuel : Nat) :
    let program :=
      (Resolution.ofStatements (Program.ofSource source).statements).statements
    let renamed :=
      Resolution.ofStatements
        (Stmt.renameVariable { old := declaration.lexeme, new := name } address
          program)
    let before := machine.runSource fuel source
    let after := machine.runTree fuel renamed.statements
    renamed.problems = [] ∧
      Stmt.allDistances renamed.statements = Stmt.allDistances program ∧
      after.1 = before.1 ∧
      after.2.output = before.2.output := by
  let names : Renaming := { old := declaration.lexeme, new := name }
  let statements := (Program.ofSource source).statements
  have formed : ∀ stmt ∈ statements, stmt.WellFormed names.IsKnown :=
    Program.statements_wellFormed fun token member =>
      ⟨Scan.ofSource_spelled source token member, unused token member⟩
  obtain ⟨⟨spelled, isOther⟩, kind⟩ :=
    Stmt.known_of_mem_variablesAt formed declares
  have proper : names.IsProper :=
    { differ := isOther.symm
      old := Lexical.lexeme_ne_receiverName spelled kind
      new := isNoReceiver }
  have renamed :
      Stmt.AllAligned (some names) [] (Site.outermost.resolveStmts statements)
        (Stmt.renameVariable names address
          (Site.outermost.resolveStmts statements)) := by
    refine Stmt.renameAll_renamed
      (fun stmt member => (formed stmt member).renamesWell proper)
      Site.outermost
      (· == address) [] analysed (fun part inner chosen => ?_) fun marked => ?_
    · rw [beq_iff_eq.mp chosen]
      exact Renaming.declaredBy_of_mem declares rfl
    · cases marked
  have places : Site.outermost.Renamed names [] Site.outermost :=
    { scopes := .nil, enclosure := rfl, inClass := rfl }
  obtain ⟨resolved, silent⟩ :=
    Site.resolveStmts_renamed proper places statements analysed renamed
  have ran :=
    interpret_aligned proper.change fuel reachable.coherent.alike renamed
  have accepts := Program.accepts_of_problems parsed
  rw [runSource_of_accepts accepts analysed]
  dsimp only [Resolution.ofStatements, runTree]
  rw [resolved]
  exact ⟨silent, Stmt.allDistances_renameAll names _ [] _,
    split_alike ran machine⟩

/-- A text with two variables of one name, one inside of the scope of the other, and
with a function that knows the outer one. -/
def shadowingText : Text :=
  Text.utf8 "\x7b var a = \"1\"; fun f(b) \x7b return a + b; \x7d
  \x7b var a = \"2\"; print f(a); \x7d a = f(\"3\"); print a; print -a; \x7d"

/-- The outer variable may have another name: the text writes the same and stops in
the same way. -/
theorem runSource_rename_shadowingText :
    let program :=
      (Resolution.ofStatements
        (Program.ofSource shadowingText).statements).statements
    let renamed :=
      Resolution.ofStatements
        (Stmt.renameVariable { old := Text.utf8 "a", new := Text.utf8 "y" } [0]
          program)
    let after := standard.runTree 40 renamed.statements
    renamed.problems = [] ∧
      after.1 = (standard.runSource 40 shadowingText).1 ∧
      after.1.isFinished = false ∧
      after.2.output = Text.utf8 "12\n13\n" := by
  have parsed : (Program.ofSource shadowingText).problems = [] :=
    List.isEmpty_iff.mp (by decide +kernel)
  have analysed :
      (Resolution.ofStatements
          (Program.ofSource shadowingText).statements).problems =
        [] :=
    List.isEmpty_iff.mp (by decide +kernel)
  have declares :
      { kind := .identifier
        lexeme := Text.utf8 "a"
        literal := .nil
        line := 1 : Token } ∈
        Stmt.variablesAt
          (Resolution.ofStatements
            (Program.ofSource shadowingText).statements).statements
          [0] := by
    decide +kernel
  have unused :
      ∀ token ∈ (Scan.ofSource shadowingText).tokens,
        token.lexeme ≠ Text.utf8 "y" := by
    have none :
        ((Scan.ofSource shadowingText).tokens.all
          fun token => token.lexeme != Text.utf8 "y") = true := by
      decide +kernel
    intro token member
    exact bne_iff_ne.mp (List.all_eq_true.mp none token member)
  have stops :
      (standard.runSource 40 shadowingText).1.isFinished = false := by
    decide +kernel
  have written :
      ((standard.runSource 40 shadowingText).2.output ==
        Text.utf8 "12\n13\n") = true := by
    decide +kernel
  obtain ⟨silent, -, ending, output⟩ :=
    runSource_rename .standard parsed analysed declares (by decide) unused 40
  refine ⟨silent, ending, ?_, ?_⟩
  · rw [ending]
    exact stops
  · rw [output]
    exact eq_of_beq written

end Machine

end Script
