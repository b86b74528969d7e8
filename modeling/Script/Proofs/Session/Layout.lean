import Script.Proofs.Relabel.Evaluate
import Script.Proofs.Relabel.SExpression
import Script.Proofs.Relabel.Scope
import Script.Proofs.Relabel.StmtParser
import Script.Proofs.Token.Respaced
import Script.Session

namespace Script

/-!
# Layout

Blanks, comments and line breaks only tell lexemes apart and number the lines.
Two source texts with the same lexemes are the same program in every respect but
the lines: they are printed alike, have the same problems, bind their names
alike and do the same when they run.
-/

/-- A report without its line. -/
def Report.unlined (report : Report) : Report :=
  { report with line := 0 }

/-- A failure without the lines in it. -/
def Failure.unlined : Failure → Failure
  | .invalid reports =>
      .invalid (reports.map (Option.map Report.unlined))
  | .reported report =>
      .reported (report.map Report.unlined)
  | .stopped fault =>
      .stopped (fault.relabel Token.unlined)
  | .trouble message =>
      .trouble message
  | .wrapped context failure =>
      .wrapped context failure.unlined

/-- An ending without the lines in it. -/
def Ending.unlined : Ending → Ending
  | .failed failure =>
      .failed failure.unlined
  | ending =>
      ending

/-- The problems of a program as they are reported, without their lines. -/
def Report.unlinedAll (problems : List Diagnostic) : List Report :=
  problems.map fun problem => (ofDiagnostic problem).unlined

/-- Two source texts without problems of scanning whose tokens agree in kind and
lexeme. -/
structure Scan.SameLexemes (first second : Text) : Prop where
  firstSound : (ofSource first).problems = []
  secondSound : (ofSource second).problems = []
  keys :
    (ofSource first).tokens.map Token.key =
      (ofSource second).tokens.map Token.key

namespace Program

/-- Two source texts that are the same program but for the lines. -/
structure AlikeButForLines (first second : Text) : Prop where
  /-- The statements are printed as the same text. -/
  printed :
    Stmt.sexprLines (ofSource first).statements =
      Stmt.sexprLines (ofSource second).statements
  /-- The same problems are reported at the same places, in the same order. -/
  problems :
    Report.unlinedAll (ofSource first).problems =
      Report.unlinedAll (ofSource second).problems
  /-- Scope analysis gives the same trees, with the same distance at each use of
  a name. -/
  resolved :
    Stmt.relabelAll Token.unlined
        (Resolution.ofStatements (ofSource first).statements).statements =
      Stmt.relabelAll Token.unlined
        (Resolution.ofStatements (ofSource second).statements).statements
  /-- Scope analysis finds the same problems at the same places. -/
  scopeProblems :
    Report.unlinedAll
        (Resolution.ofStatements (ofSource first).statements).problems =
      Report.unlinedAll
        (Resolution.ofStatements (ofSource second).statements).problems
  /-- From the same machine both runs write the same. -/
  output :
    ∀ (fuel : Nat) (machine : Machine),
      (machine.runSource fuel first).2.output =
        (machine.runSource fuel second).2.output
  /-- Both runs end in the same way, with the same message at the same lexeme if
  they fail. -/
  ending :
    ∀ (fuel : Nat) (machine : Machine),
      (machine.runSource fuel first).1.unlined =
        (machine.runSource fuel second).1.unlined
  /-- Both runs leave the same machine. -/
  machine :
    ∀ (fuel : Nat) (machine : Machine),
      (machine.runSource fuel first).2.relabel Token.unlined =
        (machine.runSource fuel second).2.relabel Token.unlined

/-- The same tokens but for the lines are the same statements and problems. -/
theorem ofSource_unlined
    {first second : Text}
    (same : Scan.SameLexemes first second) :
    Stmt.relabelAll Token.unlined (ofSource first).statements =
        Stmt.relabelAll Token.unlined (ofSource second).statements ∧
      (ofSource first).problems.map Diagnostic.unlined =
        (ofSource second).problems.map Diagnostic.unlined := by
  have someToken (source : Text) : (Scan.ofSource source).tokens ≠ [] := by
    rw [Scan.ofSource, Scan.tokens_ofSegments]
    exact List.append_ne_nil_of_right_ne_nil _ (List.cons_ne_nil _ _)
  have normal (source : Text) :=
    ofTokens_reline (fun _ => 0) (someToken source)
  have parsed :
      (ofTokens (Scan.ofSource first).tokens).reline (fun _ => 0) =
        (ofTokens (Scan.ofSource second).tokens).reline (fun _ => 0) := by
    rw [← normal first, ← normal second]
    exact congrArg ofTokens (Scan.unlined_eq_of_keys same.keys)
  constructor
  · exact congrArg statements parsed
  · have problems := congrArg Program.problems parsed
    simp only [ofSource, same.firstSound, same.secondSound, List.nil_append]
    exact problems

end Program

namespace Report

/-- What is reported without lines does not depend on the lines. -/
theorem unlinedAll_eq (problems : List Diagnostic) :
    unlinedAll problems =
      (problems.map Diagnostic.unlined).map ofDiagnostic := by
  rw [List.map_map]
  rfl

theorem unlinedAll_congr
    {problems others : List Diagnostic}
    (same :
      problems.map Diagnostic.unlined = others.map Diagnostic.unlined) :
    unlinedAll problems = unlinedAll others := by
  rw [unlinedAll_eq, unlinedAll_eq, same]

end Report

namespace Failure

/-- Problems with the same reports but for the lines are the same failure but for
the lines, or both none. -/
theorem ofDiagnostics?_unlined
    {problems others : List Diagnostic}
    (same : Report.unlinedAll problems = Report.unlinedAll others) :
    (ofDiagnostics? problems).map unlined =
      (ofDiagnostics? others).map unlined := by
  have shown (problems : List Diagnostic) :
      (ofDiagnostics? problems).map unlined =
        if (Report.unlinedAll problems).isEmpty then
          none
        else
          some (.invalid ((Report.unlinedAll problems).map some)) := by
    rw [ofDiagnostics?, Report.unlinedAll, List.isEmpty_map]
    split
    · rfl
    · simp [unlined]
  rw [shown, shown, same]

end Failure

namespace Machine

/-- What a run came to, without lines. -/
def unlinedRun (ran : Ending × Machine) : Ending × Machine :=
  (ran.1.unlined, ran.2.relabel Token.unlined)

/-- Trees that differ in their lines run alike. -/
theorem runTree_unlined
    {trees others : List Stmt}
    (same :
      Stmt.relabelAll Token.unlined trees =
        Stmt.relabelAll Token.unlined others)
    (fuel : Nat)
    (machine : Machine) :
    unlinedRun (machine.runTree fuel trees) =
      unlinedRun (machine.runTree fuel others) := by
  have normal (trees : List Stmt) :
      unlinedRun (machine.runTree fuel trees) =
        ((interpret fuel (Stmt.relabelAll Token.unlined trees)
            (machine.relabel Token.unlined)).split
          (machine.relabel Token.unlined)).2 := by
    rw [interpret_relabel Token.unlined_relabels, runTree]
    cases interpret fuel trees machine <;> rfl
  rw [normal, normal, same]

/-- Source texts with the same trees and problems but for the lines run alike. -/
theorem runSource_unlined
    {first second : Text}
    (problems :
      Report.unlinedAll (Program.ofSource first).problems =
        Report.unlinedAll (Program.ofSource second).problems)
    (scopeProblems :
      Report.unlinedAll
          (Resolution.ofStatements
            (Program.ofSource first).statements).problems =
        Report.unlinedAll
          (Resolution.ofStatements
            (Program.ofSource second).statements).problems)
    (resolved :
      Stmt.relabelAll Token.unlined
          (Resolution.ofStatements
            (Program.ofSource first).statements).statements =
        Stmt.relabelAll Token.unlined
          (Resolution.ofStatements
            (Program.ofSource second).statements).statements)
    (fuel : Nat)
    (machine : Machine) :
    unlinedRun (machine.runSource fuel first) =
      unlinedRun (machine.runSource fuel second) := by
  have invalid := Failure.ofDiagnostics?_unlined problems
  have outOfScope := Failure.ofDiagnostics?_unlined scopeProblems
  unfold runSource
  dsimp only
  cases firstInvalid :
      Failure.ofDiagnostics? (Program.ofSource first).problems with
  | some failure =>
      rw [firstInvalid] at invalid
      obtain ⟨other, otherInvalid, same⟩ :=
        Option.map_eq_some_iff.mp invalid.symm
      rw [otherInvalid]
      simp only [unlinedRun, Ending.unlined, same]
  | none =>
      rw [firstInvalid] at invalid
      rw [Option.map_eq_none_iff.mp invalid.symm]
      dsimp only
      cases firstScope :
          Failure.ofDiagnostics?
            (Resolution.ofStatements
              (Program.ofSource first).statements).problems with
      | some failure =>
          rw [firstScope] at outOfScope
          obtain ⟨other, otherScope, same⟩ :=
            Option.map_eq_some_iff.mp outOfScope.symm
          rw [otherScope]
          simp only [unlinedRun, Ending.unlined, same]
      | none =>
          rw [firstScope] at outOfScope
          rw [Option.map_eq_none_iff.mp outOfScope.symm]
          exact runTree_unlined resolved fuel machine

end Machine

namespace Program

/-- Source texts with the same lexemes are alike. -/
theorem alikeButForLines
    {first second : Text}
    (same : Scan.SameLexemes first second) :
    AlikeButForLines first second := by
  obtain ⟨statements, unlined⟩ := ofSource_unlined same
  have problems := Report.unlinedAll_congr unlined
  have resolved :
      Stmt.relabelAll Token.unlined
          (Resolution.ofStatements (ofSource first).statements).statements =
        Stmt.relabelAll Token.unlined
          (Resolution.ofStatements (ofSource second).statements).statements := by
    simp only [Resolution.ofStatements]
    rw [← Site.resolveStmts_relabelAll Token.unlined_relabels, statements,
      Site.resolveStmts_relabelAll Token.unlined_relabels]
  have scopeProblems :
      Report.unlinedAll
          (Resolution.ofStatements (ofSource first).statements).problems =
        Report.unlinedAll
          (Resolution.ofStatements (ofSource second).statements).problems := by
    refine Report.unlinedAll_congr ?_
    simp only [Resolution.ofStatements]
    rw [← Site.unlined_stmtsProblems Token.unlined_relabels, statements,
      Site.unlined_stmtsProblems Token.unlined_relabels]
  have ran := Machine.runSource_unlined problems scopeProblems resolved
  exact {
    printed := by
      rw [← Stmt.sexprLines_relabelAll Token.unlined_relabels, statements,
        Stmt.sexprLines_relabelAll Token.unlined_relabels]
    problems
    resolved
    scopeProblems
    output := fun fuel machine => by
      have after := congrArg Prod.snd (ran fuel machine)
      have written := congrArg Machine.output after
      exact (Machine.output_relabel _).symm.trans
        (written.trans (Machine.output_relabel _))
    ending := fun fuel machine => congrArg Prod.fst (ran fuel machine)
    machine := fun fuel machine => congrArg Prod.snd (ran fuel machine) }

/-- Layout never matters: source texts with the same lexemes are alike but for the
lines.  The lexemes of any source text, written with single spaces between them,
are scanned without problems as the same tokens; so a text without problems of
scanning and its lexemes written like that are alike. -/
theorem layout_never_matters :
    (∀ first second : Text,
      Scan.SameLexemes first second → AlikeButForLines first second) ∧
      ∀ (source : Text) (kept : List Token),
        kept = (Scan.ofSource source).tokens ∨
            kept = (Scan.ofSource source).tokens.dropLast →
          (Scan.ofSource (Scan.spaced kept)).problems = [] ∧
            (Scan.ofSource (Scan.spaced kept)).tokens.map Token.unlined =
              (Scan.ofSource source).tokens.map Token.unlined ∧
            ((Scan.ofSource source).problems = [] →
              AlikeButForLines source (Scan.spaced kept)) := by
  refine ⟨fun first second => alikeButForLines, fun source kept isKept => ?_⟩
  obtain ⟨sound, tokens⟩ := Scan.ofSource_spaced isKept
  refine ⟨sound, tokens, fun sourceSound => alikeButForLines ?_⟩
  have keys := congrArg (List.map Token.key) tokens
  rw [List.map_map, List.map_map] at keys
  exact ⟨sourceSound, sound, keys.symm⟩

/-- A text with a comment, blanks, a string on two lines and a name that is not
ASCII. -/
def looseText : Text :=
  Text.utf8 "var é = \"a\nb\"; // a string\n\tprint\n  é . x;\r\n"

/-- The same lexemes with fewer blanks. -/
def tightText : Text :=
  Text.utf8 "var é=\"a\nb\";print é.x;"

/-- The two texts stop with the same fault but for its line. -/
theorem layout_never_matters_looseText :
    Scan.SameLexemes looseText tightText ∧
      AlikeButForLines looseText tightText ∧
      AlikeButForLines looseText
        (Scan.spaced (Scan.ofSource looseText).tokens) := by
  have looseSound : (Scan.ofSource looseText).problems = [] :=
    List.isEmpty_iff.mp (by decide +kernel)
  have same : Scan.SameLexemes looseText tightText :=
    { firstSound := looseSound
      secondSound := List.isEmpty_iff.mp (by decide +kernel)
      keys := by decide +kernel }
  exact ⟨same, layout_never_matters.1 _ _ same,
    (layout_never_matters.2 looseText _ (.inl rfl)).2.2 looseSound⟩

end Program

end Script
