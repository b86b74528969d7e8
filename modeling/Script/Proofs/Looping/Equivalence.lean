import Script.Proofs.Alignment.Coherent
import Script.Proofs.Looping.Unfolding

namespace Script

/-!
# Loops mean what they say

Every `for` loop that the parser reads means what the loop means when it is run
directly.  Wherever it stands and whatever has been run before, the tree that the parser
makes of it and the loop itself write the same, end in the same way, and leave machines
that no program can tell apart.
-/

namespace Outcome

/-- What has been written when a piece of program came to its end. -/
def written? (outcome : Outcome α) : Option Text :=
  outcome.machine?.map Machine.output

/-- The fault that a piece of program stopped with. -/
def fault? : Outcome α → Option Fault
  | .stopped fault _ =>
      some fault
  | _ =>
      none

/-- Outcomes of two pieces of program, which began in one machine, that no program can
tell apart.  They are alike with no name changed, and each frame made before stands for
itself.  So the same has been written, the variables and the fields have values that
show the same, and statements that are run afterwards write the same and stop with the
same fault. -/
structure Indistinct
    (before : Machine)
    (outcome other : Outcome Flow) :
    Prop where
  alike :
    outcome.Alike none (.itself before.frames.size) [] (Flow.Alike none) other
  written : other.written? = outcome.written?
  fault : other.fault? = outcome.fault?
  bindings :
    ∀ after ∈ outcome.machine?,
    ∀ otherAfter ∈ other.machine?,
    ∀ frame < before.frames.size,
    ∀ name,
      (otherAfter.frames.local? frame name).map Value.display =
        (after.frames.local? frame name).map Value.display
  fields :
    ∀ after ∈ outcome.machine?,
    ∀ otherAfter ∈ other.machine?,
    ∀ (index : Nat) (name : Text),
      (otherAfter.fields[index]?.bind (·.lookup name)).map Value.display =
        (after.fields[index]?.bind (·.lookup name)).map Value.display
  later :
    ∀ (fuel : Nat) (stmts : List Stmt),
      let run := outcome.bind fun _ => Machine.interpret fuel stmts
      let otherRun := other.bind fun _ => Machine.interpret fuel stmts
      otherRun.written? = run.written? ∧ otherRun.fault? = run.fault?

namespace Alike

variable {α : Type} {change : Change} {links : Links} {outline : Outline}
variable {related : Links → α → α → Prop}
variable {outcome other : Outcome α}

theorem written?_eq
    (alike : outcome.Alike change links outline related other) :
    other.written? = outcome.written? := by
  cases alike with
  | done _ machines | stopped _ _ machines | broken _ _ machines =>
      simp only [written?, machine?, Option.map_some, Machine.output,
        machines.printed]
  | exhausted =>
      rfl

/-- If one comes to its end, so does the other. -/
theorem ended
    (alike : outcome.Alike change links outline related other)
    (ended : other ≠ .exhausted) :
    outcome ≠ .exhausted := by
  cases alike with
  | done | stopped | broken =>
      simp
  | exhausted =>
      exact ended

theorem fault?_eq
    (alike : outcome.Alike change links outline related other) :
    other.fault? = outcome.fault? := by
  cases alike <;> rfl

/-- Machines behind outcomes that are alike are alike. -/
theorem machines
    (alike : outcome.Alike change links outline related other)
    {after otherAfter : Machine}
    (reached : after ∈ outcome.machine?)
    (otherReached : otherAfter ∈ other.machine?) :
    ∃ longer, links.Within longer ∧ after.Alike change longer outline otherAfter := by
  cases alike with
  | done within machines | stopped _ within machines
  | broken _ within machines =>
      cases reached
      cases otherReached
      exact ⟨_, within, machines⟩
  | exhausted =>
      cases reached

end Alike

end Outcome

/-- Values that are alike, if there are any, show the same. -/
theorem Value.Alike.map_display
    {change : Change}
    {links : Links}
    {value? other? : Option Value}
    (alike : Option.Rel (Value.Alike change links) value? other?) :
    other?.map Value.display = value?.map Value.display := by
  cases alike with
  | none =>
      rfl
  | some values =>
      exact congrArg some values.display_eq

/-- Outcomes that are alike cannot be told apart. -/
theorem Outcome.Alike.indistinct
    {before : Machine}
    {outcome other : Outcome Flow}
    (alike :
      outcome.Alike none (.itself before.frames.size) [] (Flow.Alike none)
        other) :
    outcome.Indistinct before other where
  alike := alike
  written := alike.written?_eq
  fault := alike.fault?_eq
  bindings after reached otherAfter otherReached frame made name := by
    obtain ⟨longer, within, machines⟩ := alike.machines reached otherReached
    have pairs : longer.Pairs frame frame false :=
      ⟨[], within _ _ _ ⟨rfl, made, rfl⟩, Outline.common_nil⟩
    exact Value.Alike.map_display
      (machines.frames.bindings frame frame false pairs name
        (Change.fresh_false none name))
  fields after reached otherAfter otherReached index name := by
    obtain ⟨longer, within, machines⟩ := alike.machines reached otherReached
    exact Value.Alike.map_display (machines.field? index name)
  later fuel stmts := by
    have runs :
        (outcome.bind fun _ => Machine.interpret fuel stmts).Alike none
          (.itself before.frames.size) [] (fun _ => Eq)
          (other.bind fun _ => Machine.interpret fuel stmts) :=
      alike.bind fun _ _ _ _ _ _ machines _ =>
        Machine.interpret_aligned Change.isProper_none fuel machines
          (.refl none (by simp) stmts)
    exact ⟨runs.written?_eq, runs.fault?_eq⟩

namespace Machine

open Stmt.Parser

/-- The parser reads a `for` loop as its clauses and a body, and unfolds it. -/
theorem statement_for
    {steps : Nat}
    {cursor last : Cursor}
    {keyword : Token}
    {rest : List Token}
    {tree : Stmt}
    (ahead : cursor.rest = keyword :: rest)
    (isFor : keyword.kind = .keyword .forWord)
    (parsed : statement (steps + 1) cursor = .done tree last) :
    ∃ clauses body behindHead,
      forClauses { cursor with rest } = .done clauses behindHead ∧
        statement steps behindHead = .done body last ∧
        tree = clauses.unfold body := by
  rw [statement, ahead] at parsed
  dsimp only at parsed
  rw [isFor] at parsed
  dsimp only at parsed
  cases head : forClauses { cursor with rest } with
  | failed after =>
      rw [head] at parsed
      cases parsed
  | done clauses behindHead =>
      rw [head, Step.bind] at parsed
      cases behind : statement steps behindHead with
      | failed after =>
          rw [behind] at parsed
          cases parsed
      | done body after =>
          rw [behind] at parsed
          cases parsed
          exact ⟨clauses, body, behindHead, rfl, behind, rfl⟩

/-- Desugaring keeps the meaning of a `for` loop.  Wherever the loop stands and
whatever has been run before, if the tree that the parser makes of it comes to its end,
then so does the loop when it is run directly, and if the loop comes to its end, then so
does the tree, with some more units of the bound; and nothing tells the outcomes
apart. -/
theorem for_runs_directly
    {steps : Nat}
    {cursor last : Cursor}
    {keyword : Token}
    {rest : List Token}
    {tree : Stmt}
    (ahead : cursor.rest = keyword :: rest)
    (isFor : keyword.kind = .keyword .forWord)
    (parsed : statement (steps + 1) cursor = .done tree last)
    (site : Site)
    {machine : Machine}
    (coherent : machine.Coherent) :
    ∃ clauses body behindHead,
      forClauses { cursor with rest } = .done clauses behindHead ∧
        statement steps behindHead = .done body last ∧
        let unfolded := fun fuel =>
          execute fuel (site.resolveStmt tree) machine
        let direct := fun fuel =>
          executeFor fuel (site.resolveClauses clauses)
            ((site.inFor clauses).resolveStmt body) machine
        (∀ fuel more,
          fuel ≤ more →
          unfolded fuel ≠ .exhausted →
          (unfolded fuel).Indistinct machine (direct more)) ∧
        ∀ fuel more,
          fuel + 10 ≤ more →
          direct fuel ≠ .exhausted →
          (unfolded more).Indistinct machine (direct fuel) := by
  obtain ⟨clauses, body, behindHead, head, behind, rfl⟩ :=
    statement_for ahead isFor parsed
  refine ⟨clauses, body, behindHead, head, behind, ?_⟩
  have anything (cursor : Cursor) : cursor.Knows fun _ => True :=
    fun _ _ => trivial
  have clausesFormed := (forClauses_builds (anything { cursor with rest }))
  have branch := (build (fun _ => True) steps).statement behindHead (anything _)
  rw [head] at clausesFormed
  rw [behind] at branch
  rw [site.resolveStmt_unfold branch.2.2 clauses]
  have inStep (fuel : Nat) :=
    executeUnfolded_alike (.refl site) clausesFormed.2.2 branch.2.2
      coherent.alike fuel
  constructor
  · intro fuel more enough ended
    have same :=
      ((execute_below enough _ machine).trans (unfold_below _ _ machine)).eq
        ended
    have alike := inStep more
    rw [same] at alike
    exact alike.indistinct
  · intro fuel more enough ended
    have alike := inStep fuel
    have unfoldedEnded := alike.ended ended
    have same :=
      ((below_unfold _ _ machine).trans (execute_below enough _ machine)).eq
        unfoldedEnded
    rw [← same] at alike
    exact alike.indistinct

/-- A loop that leaves a function behind, which uses the variable of the loop and one
of the body. -/
def capturingText : Text :=
  Text.utf8 "for (var i = \"\"; i != \"oo\"; i = i + \"o\") \x7b
  var j = i; fun f() \x7b print j + i; \x7d g = f; \x7d"

/-- A machine with a global name for the function. -/
def capturingMachine : Machine :=
  (Machine.standard.runSource 20 (Text.utf8 "var g;")).2

/-- A program that calls the function. -/
def capturedCall : List Stmt :=
  (Resolution.ofStatements
    (Program.ofSource (Text.utf8 "g();")).statements).statements

/-- What the tree of a loop writes when the function is called behind it. -/
def capturedOutput? : Step Stmt → Option Text
  | .done tree _ =>
      ((execute 40 (Site.outermost.resolveStmt tree)
        capturingMachine).bind fun _ => interpret 20 capturedCall).written?
  | .failed _ =>
      none

/-- The function that the direct loop leaves behind finds its variables. -/
theorem for_runs_directly_capturingText :
    ∃ (tree : Stmt) (last : Cursor) (clauses : ForClauses) (body : Stmt),
      statement 30 (Cursor.start (Scan.ofSource capturingText).tokens) =
          .done tree last ∧
        let unfolded :=
          execute 40 (Site.outermost.resolveStmt tree) capturingMachine
        let direct :=
          executeFor 40 (Site.outermost.resolveClauses clauses)
            ((Site.outermost.inFor clauses).resolveStmt body) capturingMachine
        unfolded.Indistinct capturingMachine direct ∧
          (direct.bind fun _ => interpret 20 capturedCall).written? =
            some (Text.utf8 "ooo\n") := by
  have firstKind :
      (Cursor.start (Scan.ofSource capturingText).tokens).rest.head?.map
        Token.kind = some (.keyword .forWord) := by
    decide +kernel
  have written :
      capturedOutput?
          (statement 30 (Cursor.start (Scan.ofSource capturingText).tokens)) =
        some (Text.utf8 "ooo\n") := by
    decide +kernel
  have coherent : capturingMachine.Coherent :=
    (Reachable.standard.runSource 20 (Text.utf8 "var g;")).coherent
  generalize Cursor.start (Scan.ofSource capturingText).tokens = cursor
    at firstKind written ⊢
  obtain ⟨keyword, atStart, isFor⟩ := Option.map_eq_some_iff.mp firstKind
  obtain ⟨rest, ahead⟩ := List.head?_eq_some_iff.mp atStart
  cases parsed : statement 30 cursor with
  | failed last =>
      rw [parsed] at written
      cases written
  | done tree last =>
      rw [parsed, capturedOutput?] at written
      obtain ⟨clauses, body, _, _, _, forward, _⟩ :=
        for_runs_directly ahead isFor parsed .outermost coherent
      have ended :
          execute 40 (Site.outermost.resolveStmt tree) capturingMachine ≠
            .exhausted := by
        intro exhausted
        rw [exhausted] at written
        cases written
      have same := forward 40 40 le_rfl ended
      exact ⟨tree, last, clauses, body, rfl, same,
        (same.later 20 capturedCall).1.trans written⟩

end Machine

end Script
