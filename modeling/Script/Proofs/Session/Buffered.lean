import Script.Console.Repl
import Script.Proofs.Session.Sources

namespace Script

/-!
# Input that is taken line by line

A program without problems that is fed in lines runs as it does at once.  The
lines that wait and the input behind them are always a program without problems;
when an entry is complete it is the front part of that program, and running it
leaves the rest.
-/

namespace Machine

/-- A program that comes to its end does so on other lines too. -/
theorem interpret_shift
    {fuel : Nat}
    {stmts : List Stmt}
    {machine after : Machine}
    (ran : interpret fuel stmts machine = .done () after)
    (lines : Int) :
    ∃ moved,
      interpret fuel (Stmt.relabelAll (Token.shift lines) stmts) machine =
          .done () moved ∧
        moved.relabel Token.unlined = after.relabel Token.unlined := by
  have alike :=
    interpret_relabel Token.unlined_relabels fuel
      (Stmt.relabelAll (Token.shift lines) stmts) machine
  rw [Stmt.relabelAll_relabelAll, Token.unlined_comp_shift,
    interpret_relabel Token.unlined_relabels, ran] at alike
  cases moved :
      interpret fuel (Stmt.relabelAll (Token.shift lines) stmts) machine with
  | done value last =>
      rw [moved] at alike
      injection alike with _ same
      exact ⟨last, rfl, same.symm⟩
  | stopped | broken | exhausted =>
      rw [moved] at alike
      cases alike

end Machine

namespace Repl

open Program

variable {fuel : Nat} {repl : Repl} {piece : Text} {trees : List Stmt}
  {after : Machine}

/-- A complete entry is run and leaves nothing to wait. -/
theorem feed_of_accepts
    (accepts : Accepts (repl.pending ++ piece) trees)
    (analysed : Site.outermost.stmtsProblems trees = [])
    (ran :
      repl.machine.interpret fuel (Site.outermost.resolveStmts trees) =
        .done () after)
    (final : Bool) :
    repl.feed fuel piece final =
      { repl with machine := after, pending := [] } := by
  have complete : needsMore (repl.pending ++ piece) = false := by
    simp [needsMore, accepts.ofSource]
  unfold feed
  by_cases blank : (repl.pending ++ piece).isBlank = true
  · have nothing : trees = [] := by
      rw [← statements_of_isBlank blank, accepts.ofSource]
    rw [nothing, Site.resolveStmts, Machine.interpret] at ran
    cases ran
    simp only [blank, if_true]
  · simp only [blank, complete, runEntry,
      Machine.runSource_of_accepts accepts analysed, Machine.runTree, ran]
    rfl

/-- Lines that stop in the middle of a construct wait. -/
theorem feed_of_needsMore
    (more : needsMore (repl.pending ++ piece) = true) :
    repl.feed fuel piece false =
      { repl with pending := repl.pending ++ piece } := by
  have notBlank : (repl.pending ++ piece).isBlank ≠ true := by
    intro blank
    rw [needsMore_of_isBlank blank] at more
    cases more
  unfold feed
  simp only [notBlank, more]
  rfl

/-- A program without problems that is fed in lines is run to its end, lines
apart. -/
theorem feedAll_of_accepts
    {lines : List Text}
    (someLine : lines ≠ [])
    (accepts : Accepts (repl.pending ++ Text.joinLines lines) trees)
    (noElse :
      Segment.NoElseBeginsLine
        (Segment.split (repl.pending ++ Text.joinLines lines)))
    (analysed : Site.outermost.stmtsProblems trees = [])
    (ran :
      repl.machine.interpret fuel (Site.outermost.resolveStmts trees) =
        .done () after) :
    (repl.feedAll fuel lines).told = repl.told ∧
      (repl.feedAll fuel lines).machine.relabel Token.unlined =
        after.relabel Token.unlined := by
  induction lines generalizing repl trees after with
  | nil =>
      exact (someLine rfl).elim
  | cons line rest inductionHypothesis =>
      by_cases isLast : rest = []
      · subst isLast
        simp only [Text.joinLines, List.intercalate_singleton] at accepts
        rw [feedAll, feed_of_accepts accepts analysed ran]
        exact ⟨rfl, rfl⟩
      · have stepped :
            repl.feedAll fuel (line :: rest) =
              (repl.feed fuel (line ++ [Text.newline]) false).feedAll fuel
                rest := by
          obtain ⟨second, others, rfl⟩ := List.exists_cons_of_ne_nil isLast
          rfl
        have text :
            repl.pending ++ Text.joinLines (line :: rest) =
              repl.pending ++ line ++ Text.newline :: Text.joinLines rest := by
          simp [Text.joinLines_cons line isLast]
        have entry :
            repl.pending ++ (line ++ [Text.newline]) =
              repl.pending ++ line ++ [Text.newline] :=
          (List.append_assoc _ _ _).symm
        have waiting :
            repl.pending ++ (line ++ [Text.newline]) ++ Text.joinLines rest =
              repl.pending ++ line ++ Text.newline :: Text.joinLines rest := by
          simp
        rw [stepped]
        rw [text] at accepts noElse
        by_cases silent :
            (ofSource (repl.pending ++ line ++ [Text.newline])).problems = []
        · have start := accepts_of_problems silent
          obtain ⟨moved, later, whole, remainder, noElseLater⟩ :=
            accepts.remainder start noElse
          rw [whole, Site.stmtsProblems_append, List.append_eq_nil_iff]
            at analysed
          rw [whole, Site.resolveStmts_append, Machine.interpret_append] at ran
          cases firstRan :
              repl.machine.interpret fuel
                (Site.outermost.resolveStmts
                  (ofSource
                    (repl.pending ++ line ++ [Text.newline])).statements) with
          | done value middle =>
              rw [firstRan] at ran
              obtain ⟨last, laterRan, sameEnd⟩ :=
                Machine.interpret_shift ran moved
              rw [feed_of_accepts (entry ▸ start) analysed.1 firstRan,
                ← sameEnd]
              refine inductionHypothesis isLast remainder noElseLater ?_ ?_
              · rw [Site.stmtsProblems_relabelAll
                  (Token.shift_relabels moved)]
                exact analysed.2
              · rw [Site.resolveStmts_relabelAll (Token.shift_relabels moved)]
                exact laterRan
          | stopped | broken | exhausted =>
              rw [firstRan] at ran
              cases ran
        · have more :
              needsMore (repl.pending ++ (line ++ [Text.newline])) = true := by
            rw [entry]
            exact needsMore_iff.mpr ⟨silent, accepts.incomplete⟩
          rw [feed_of_needsMore more]
          rw [← waiting] at accepts noElse
          exact inductionHypothesis isLast accepts noElse analysed ran

/-- A source text that comes to its end, with no `else` as the first word of a
line, does the same when it is taken line by line: it writes the same, nothing is
told, and the global names show the same texts. -/
theorem runBuffered_of_runSource
    {source : Text}
    {machine : Machine}
    (ran : machine.runSource fuel source = (.finished, after))
    (noElse : Segment.NoElseBeginsLine (Segment.split source)) :
    (runBuffered fuel source machine).output = after.output ∧
      (runBuffered fuel source machine).complaints = [] ∧
      ∀ name,
        (runBuffered fuel source machine).machine.globalText? name =
          after.globalText? name := by
  obtain ⟨trees, accepts, analysed, interpreted⟩ :=
    Machine.accepts_of_runSource ran
  obtain ⟨told, same⟩ :=
    feedAll_of_accepts (Text.split_ne_nil Text.newline source)
      (show Accepts ([] ++ Text.joinLines (Text.split Text.newline source))
          trees by
        rwa [Text.joinLines_split])
      (show Segment.NoElseBeginsLine (Segment.split
          ([] ++ Text.joinLines (Text.split Text.newline source))) by
        rwa [Text.joinLines_split])
      analysed (show (start machine .empty).machine.interpret fuel _ = _ from
        interpreted)
  refine ⟨?_, ?_, fun name => ?_⟩
  · have unlined (machine : Machine) :
        (machine.relabel Token.unlined).output = machine.output :=
      Machine.output_relabel machine
    unfold output runBuffered
    rw [← unlined, same, unlined]
  · unfold complaints runBuffered
    rw [told]
    rfl
  · unfold runBuffered
    rw [← Machine.globalText?_relabel Token.unlined_relabels, same,
      Machine.globalText?_relabel Token.unlined_relabels]

/-- A string that goes on behind a line, in a conditional that does. -/
def brokenConditional : Text :=
  Text.utf8 "if (true) \x7b\n  print \"one\n two\";\n\x7d else print 3;\n"

/-- Three of its lines wait for the last one, and then it runs. -/
theorem runBuffered_of_runSource_brokenConditional :
    ∃ after,
      Machine.standard.runSource 20 brokenConditional = (.finished, after) ∧
        after.output = Text.utf8 "one\n two\n" ∧
        (runBuffered 20 brokenConditional .standard).output = after.output ∧
        (runBuffered 20 brokenConditional .standard).complaints = [] ∧
        ∀ name,
          (runBuffered 20 brokenConditional .standard).machine.globalText?
              name =
            after.globalText? name := by
  have noElse :
      Segment.NoElseBeginsLine (Segment.split brokenConditional) := by
    decide +kernel
  have finished :
      (Machine.standard.runSource 20 brokenConditional).1.isFinished =
        true := by
    decide +kernel
  have written :
      (Machine.standard.runSource 20 brokenConditional).2.output =
        Text.utf8 "one\n two\n" := by
    decide +kernel
  have ran := Machine.eq_of_isFinished finished
  exact ⟨_, ran, written, runBuffered_of_runSource ran noElse⟩

end Repl

end Script
