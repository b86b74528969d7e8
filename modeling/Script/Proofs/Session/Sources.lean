import Script.Proofs.Lexical.Session
import Script.Proofs.Session.Pieces
import Script.Proofs.Token.Joined

namespace Script

open Grammar

/-!
# Running source texts

A source text is run when it has no problems.  The machines that are reached by
running source texts keep the invariant of a session, and they know only tokens
of these texts.
-/

/-- Whether a step came to its end. -/
def Ending.isFinished : Ending → Bool
  | .finished =>
      true
  | _ =>
      false

/-- The text that a global name shows, if there is such a name. -/
def Machine.globalText?
    (machine : Machine)
    (name : Text) :
    Option Text :=
  (machine.frames.local? globals name).map Value.display

/-- Tokens are derived with one tree only. -/
theorem Grammar.derives_unique
    {tokens : List Token}
    {trees others : List Stmt}
    (noEnding : ∀ token ∈ tokens, token.kind ≠ .endOfInput)
    (derived : Derives true .declarations deepestNesting tokens trees)
    (otherDerived : Derives true .declarations deepestNesting tokens others) :
    trees = others := by
  have endingKind : (Token.endAt 0).kind = .endOfInput := rfl
  have parsed := ofTokens_of_derives noEnding endingKind derived
  rw [ofTokens_of_derives noEnding endingKind otherDerived] at parsed
  injection parsed with same
  exact same.symm

namespace Program.Accepts

variable {source : Text} {trees : List Stmt} {change : Token → Token}

theorem kinds
    (_accepts : Accepts source trees)
    (relabels : Relabels change) :
    ∀ token ∈ (Scan.lexemes 1 (Segment.split source)).map change,
      token.kind ≠ .endOfInput := by
  intro token member
  obtain ⟨original, isLexeme, rfl⟩ := List.mem_map.mp member
  rw [relabels.kind]
  exact Scan.kind_of_mem_lexemes isLexeme

/-- The trees of a source text with changed tokens depend on the changes of tokens
on lines from one on. -/
theorem relabelAll_congr
    {second : Token → Token}
    (accepts : Accepts source trees)
    (relabels : Relabels change)
    (secondRelabels : Relabels second)
    (same : ∀ token : Token, 0 < token.line → change token = second token) :
    Stmt.relabelAll change trees = Stmt.relabelAll second trees := by
  have tokens :
      (Scan.lexemes 1 (Segment.split source)).map change =
        (Scan.lexemes 1 (Segment.split source)).map second := by
    refine List.map_congr_left fun token member => same token ?_
    have below := Scan.le_line_of_mem_lexemes member
    omega
  have derived := accepts.derived.relabel relabels
  rw [tokens] at derived
  exact derives_unique (accepts.kinds secondRelabels) derived
    (accepts.derived.relabel secondRelabels)

/-- A change that leaves the tokens on lines from one on as they are changes no
tree of a source text. -/
theorem relabelAll_eq
    (accepts : Accepts source trees)
    (relabels : Relabels change)
    (fixes : ∀ token : Token, 0 < token.line → change token = token) :
    Stmt.relabelAll change trees = trees := by
  have identity : Relabels id := ⟨fun _ => rfl, fun _ => rfl, fun _ => rfl⟩
  have derived := accepts.derived.relabel identity
  rw [List.map_id] at derived
  rw [accepts.relabelAll_congr relabels identity fixes]
  exact derives_unique (fun _ => Scan.kind_of_mem_lexemes) derived
    accepts.derived

end Program.Accepts

namespace Machine

/-- Global names show the same texts on all lines. -/
theorem globalText?_relabel
    {change : Token → Token}
    (relabels : Relabels change)
    (machine : Machine)
    (name : Text) :
    (machine.relabel change).globalText? name = machine.globalText? name := by
  unfold globalText?
  rw [frames_relabel, Frames.local?_relabel, Option.map_map]
  congr 1
  funext value
  exact Value.display_relabel relabels value

/-- A program without problems is run. -/
theorem runSource_of_accepts
    {source : Text}
    {trees : List Stmt}
    (accepts : Program.Accepts source trees)
    (analysed : Site.outermost.stmtsProblems trees = [])
    (fuel : Nat)
    (machine : Machine) :
    machine.runSource fuel source =
      machine.runTree fuel (Site.outermost.resolveStmts trees) := by
  unfold runSource
  simp only [accepts.ofSource, Resolution.ofStatements, analysed,
    Failure.ofDiagnostics?_nil]

theorem eq_of_isFinished
    {ran : Ending × Machine}
    (finished : ran.1.isFinished = true) :
    ran = (.finished, ran.2) := by
  obtain ⟨ending, after⟩ := ran
  cases ending with
  | finished =>
      rfl
  | failed | broken | exhausted =>
      cases finished

/-- A source text is run when it has no problems, and else it changes nothing. -/
theorem runSource_cases
    (fuel : Nat)
    (source : Text)
    (machine : Machine) :
    (∃ failure, machine.runSource fuel source = (.failed failure, machine)) ∨
      ∃ trees,
        Program.Accepts source trees ∧
          Site.outermost.stmtsProblems trees = [] ∧
          machine.runSource fuel source =
            machine.runTree fuel (Site.outermost.resolveStmts trees) := by
  by_cases parsed : (Program.ofSource source).problems = []
  · have accepts := Program.accepts_of_problems parsed
    by_cases analysed :
        Site.outermost.stmtsProblems (Program.ofSource source).statements = []
    · exact .inr ⟨_, accepts, analysed,
        runSource_of_accepts accepts analysed fuel machine⟩
    · left
      unfold runSource
      simp only [parsed, Resolution.ofStatements, Failure.ofDiagnostics?_nil,
        Failure.ofDiagnostics?_of_ne_nil analysed]
      exact ⟨_, rfl⟩
  · left
    unfold runSource
    simp only [Failure.ofDiagnostics?_of_ne_nil parsed]
    exact ⟨_, rfl⟩

/-- A source text that comes to its end is a program without problems. -/
theorem accepts_of_runSource
    {fuel : Nat}
    {source : Text}
    {machine after : Machine}
    (ran : machine.runSource fuel source = (.finished, after)) :
    ∃ trees,
      Program.Accepts source trees ∧
        Site.outermost.stmtsProblems trees = [] ∧
        interpret fuel (Site.outermost.resolveStmts trees) machine =
          .done () after := by
  rcases runSource_cases fuel source machine with
    ⟨failure, rejected⟩ | ⟨trees, accepts, analysed, runs⟩
  · rw [rejected] at ran
    cases ran
  · refine ⟨trees, accepts, analysed, ?_⟩
    rw [runs, runTree] at ran
    cases outcome :
        interpret fuel (Site.outermost.resolveStmts trees) machine with
    | done value last =>
        rw [outcome] at ran
        injection ran with _ same
        rw [same]
    | stopped | broken | exhausted =>
        rw [outcome] at ran
        cases ran

/-- A run whose bound was too small leaves the machine as it was. -/
theorem runSource_of_exhausted
    {fuel : Nat}
    {source : Text}
    {machine : Machine}
    (ended : (machine.runSource fuel source).1 = .exhausted) :
    (machine.runSource fuel source).2 = machine := by
  rcases runSource_cases fuel source machine with
    ⟨failure, rejected⟩ | ⟨trees, -, -, runs⟩
  · rw [rejected]
  · rw [runs, runTree] at ended ⊢
    cases outcome :
        interpret fuel (Site.outermost.resolveStmts trees) machine with
    | exhausted =>
        rfl
    | done | stopped | broken =>
        rw [outcome] at ended
        cases ended

/-- The machines that running source texts leads to, from a fresh one with or
without host functions and with any bound on calls.  Time goes by between the
texts. -/
inductive Reachable : Machine → Prop where
  | fresh
      (natives : Bool)
      (callLimit : Option Nat) :
      Reachable { Lexical.freshMachine natives with callLimit }
  | runSource
      {machine : Machine}
      (earlier : Reachable machine)
      (fuel : Nat)
      (source : Text) :
      Reachable (machine.runSource fuel source).2
  | wait
      {machine : Machine}
      (earlier : Reachable machine)
      (clock : Nat → Float) :
      Reachable { machine with clock }

end Machine

namespace Lexical

/-- A session may go on. -/
theorem Steady.append
    {steps : List SessionStep}
    {log : Log}
    {machine : Machine}
    (steady : Steady steps log machine)
    (more : List SessionStep) :
    Steady (steps ++ more) log machine where
  sound := steady.sound
  current := steady.current
  origins origin member := by
    obtain ⟨step, here, found⟩ := steady.origins origin member
    exact ⟨step, by
      rw [List.getElem?_append_left (List.getElem?_eq_some_iff.mp here).1]
      exact here, found⟩

/-- Running a source text settles a step of some session. -/
theorem Steady.settles_runSource
    {steps : List SessionStep}
    {log : Log}
    {machine : Machine}
    (steady : Steady steps log machine)
    (fuel : Nat)
    (source : Text) :
    ∃ longer,
      Settles (steps ++ [.eval fuel source]) (.eval fuel source) machine log
        (.ofEnding (machine.runSource fuel source)) longer := by
  have here :
      (steps ++ [.eval fuel source])[steps.length]? =
        some (.eval fuel source) := by
    simp
  have settles := (steady.append [.eval fuel source]).settles_step here
  rw [SessionStep.watch_reply] at settles
  exact ⟨_, settles⟩

end Lexical

namespace Machine

variable {change : Token → Token}

theorem defineGlobal_relabel
    (machine : Machine)
    (name : Text)
    (value : Value) :
    (machine.defineGlobal name value).relabel change =
      (machine.relabel change).defineGlobal name (value.relabel change) := by
  simp [defineGlobal, relabel]

theorem bare_relabel : bare.relabel change = bare := by
  simp [bare, relabel, Frames.relabel, Frames.push, Frame.relabel,
    Bindings.relabel, Frames.empty]

end Machine

namespace Machine.Reachable

open Lexical

/-- A machine with the host functions and the usual bound on calls. -/
theorem standard : Reachable .standard :=
  .fresh true (some standardCallLimit)

variable {machine : Machine}

/-- A reachable machine keeps the invariant of a session. -/
theorem steady (reachable : Reachable machine) :
    ∃ steps log, Steady steps log machine := by
  induction reachable with
  | fresh natives callLimit =>
      exact ⟨[], [], (Steady.fresh natives []).adjust callLimit _⟩
  | @runSource machine _ fuel source inductionHypothesis =>
      obtain ⟨steps, log, steady⟩ := inductionHypothesis
      obtain ⟨longer, settles⟩ := steady.settles_runSource fuel source
      by_cases ended : (machine.runSource fuel source).1 = .exhausted
      · rw [runSource_of_exhausted ended]
        exact ⟨steps, log, steady⟩
      · exact ⟨_, _, settles.steady ended⟩
  | wait _ clock inductionHypothesis =>
      obtain ⟨steps, log, steady⟩ := inductionHypothesis
      exact ⟨steps, log, steady.adjust _ clock⟩

/-- A source text on a reachable machine never meets a hole or the end of the
frames. -/
theorem not_broken
    (reachable : Reachable machine)
    (fuel : Nat)
    (source : Text)
    (breakage : Breakage) :
    (machine.runSource fuel source).1 ≠ .broken breakage := by
  obtain ⟨steps, log, steady⟩ := reachable.steady
  obtain ⟨longer, settles⟩ := steady.settles_runSource fuel source
  exact settles.whole breakage

/-- A reachable machine knows only tokens of source texts, which are on lines
from one on. -/
theorem relabel_eq
    {change : Token → Token}
    (relabels : Relabels change)
    (fixes : ∀ token : Token, 0 < token.line → change token = token)
    (reachable : Reachable machine) :
    machine.relabel change = machine := by
  induction reachable with
  | fresh natives callLimit =>
      have settled :
          (freshMachine natives).relabel change = freshMachine natives := by
        cases natives with
        | false =>
            exact bare_relabel
        | true =>
            rw [freshMachine, Machine.standard, defineGlobal_relabel,
              defineGlobal_relabel, bare_relabel]
            rfl
      exact congrArg (fun settled : Machine => { settled with callLimit })
        settled
  | @runSource machine _ fuel source inductionHypothesis =>
      rcases runSource_cases fuel source machine with
        ⟨failure, rejected⟩ | ⟨trees, accepts, -, runs⟩
      · rw [rejected]
        exact inductionHypothesis
      · have alike :=
          interpret_relabel relabels fuel (Site.outermost.resolveStmts trees)
            machine
        rw [← Site.resolveStmts_relabelAll relabels,
          accepts.relabelAll_eq relabels fixes, inductionHypothesis] at alike
        rw [runs, runTree]
        cases outcome :
            interpret fuel (Site.outermost.resolveStmts trees) machine with
        | exhausted =>
            exact inductionHypothesis
        | done | stopped | broken =>
            rw [outcome] at alike
            injection alike with _ same
            exact same.symm
  | wait _ clock inductionHypothesis =>
      rename_i machine
      exact congrArg (fun settled : Machine => { settled with clock })
        inductionHypothesis

end Machine.Reachable

end Script
