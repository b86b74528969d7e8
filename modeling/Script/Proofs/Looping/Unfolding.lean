import Script.Proofs.Alignment.Evaluate
import Script.Proofs.Looping.Direct
import Script.Proofs.Looping.Resolution
import Script.Proofs.Tree.Building

namespace Script

/-!
# Loops that are unfolded

The tree that the parser makes of a `for` loop does what the loop does when it is run
directly.  Where the tree has a scope that the loop does not have, or the other way
round, the scope has no names, and nothing tells the frames that are made for it.
-/

namespace Site

/-- The place of a loop behind its initial statement. -/
def inFor
    (site : Site)
    (clauses : ForClauses) :
    Site :=
  match clauses.initial with
  | none =>
      site.enter []
  | some initial =>
      (site.enter []).after initial

/-- The clauses of a loop with the distances of the names in them. -/
def resolveClauses
    (site : Site)
    (clauses : ForClauses) :
    ForClauses where
  initial := clauses.initial.map (site.enter []).resolveStmt
  condition := clauses.condition.map (site.inFor clauses).resolveExpr
  increment := clauses.increment.map (site.inFor clauses).resolveExpr

/-- The same place in the tree that the parser makes of the loop. -/
def inUnfolded
    (site : Site)
    (clauses : ForClauses) :
    Site :=
  match clauses.initial with
  | none =>
      site
  | some initial =>
      (site.enter []).after initial

/-- The place of the body and the increment in this tree. -/
def inRound
    (site : Site)
    (clauses : ForClauses) :
    Site :=
  match clauses.increment with
  | none =>
      site.inUnfolded clauses
  | some _ =>
      (site.inUnfolded clauses).enter []

/-- The clauses of a loop with the distances that they have in this tree. -/
def unfoldClauses
    (site : Site)
    (clauses : ForClauses) :
    ForClauses where
  initial := clauses.initial.map (site.enter []).resolveStmt
  condition := clauses.condition.map (site.inUnfolded clauses).resolveExpr
  increment := clauses.increment.map (site.inRound clauses).resolveExpr

end Site

section Trees

open Stmt.Parser

variable {known : Token → Prop}

theorem Site.after_branch
    {stmt : Stmt}
    (branch : Branch known stmt)
    (site : Site) :
    site.after stmt = site := by
  rw [Lexical.after_eq branch.1, branch.2]

/-- The tree of a loop with distances is the tree of the loop with distances. -/
theorem Site.resolveStmt_unfold
    {body : Stmt}
    (branch : Branch known body)
    (site : Site)
    (clauses : ForClauses) :
    site.resolveStmt (clauses.unfold body) =
      (site.unfoldClauses clauses).unfold
        ((site.inRound clauses).resolveStmt body) := by
  obtain ⟨initial, condition, increment⟩ := clauses
  cases initial <;> cases condition <;> cases increment <;>
    simp [ForClauses.unfold, unfoldClauses, inUnfolded, inRound, resolveStmt,
      resolveStmts, resolveExpr, ForClauses.iteration, after_branch branch]

end Trees

/-- Which scopes the tree and the loop have around the condition. -/
def Outline.inUnfolded
    (outline : Outline)
    (clauses : ForClauses) :
    Outline :=
  match clauses.initial with
  | none =>
      .right :: outline
  | some _ =>
      .both false :: outline

/-- Which scopes the tree and the loop have around the body. -/
def Outline.inRound
    (outline : Outline)
    (increment : Option Expr) :
    Outline :=
  match increment with
  | none =>
      outline
  | some _ =>
      .left :: outline

theorem Outline.inRound_map
    (outline : Outline)
    (increment : Option Expr)
    (change : Expr → Expr) :
    outline.inRound (increment.map change) = outline.inRound increment := by
  cases increment <;> rfl

section Places

open Stmt.Parser

variable {known : Token → Prop} {outline : Outline} {site other : Site}
variable {clauses : ForClauses}

theorem Site.Beside.inUnfolded
    (beside : site.Beside outline other)
    (formed : FormedClauses known clauses) :
    (site.inUnfolded clauses).Beside (outline.inUnfolded clauses)
      (other.inFor clauses) := by
  unfold Site.inUnfolded Site.inFor Outline.inUnfolded
  cases shape : clauses.initial with
  | none =>
      exact beside.enterRight
  | some initial =>
      exact (beside.enter []).after (formed.initial initial shape)
        fun _ => Outline.common_both false outline

theorem Site.Beside.inRound
    (beside : site.Beside outline other)
    (formed : FormedClauses known clauses) :
    (site.inRound clauses).Beside
      ((outline.inUnfolded clauses).inRound clauses.increment)
      (other.inFor clauses) := by
  have around := beside.inUnfolded formed
  unfold Site.inRound Outline.inRound
  cases clauses.increment with
  | none =>
      exact around
  | some increment =>
      exact around.enterLeft

end Places

section Rounds

variable {links : Links} {outline : Outline} {machine other : Machine}

theorem Outcome.Alike.andThen
    {outcome otherOutcome : Outcome Flow}
    {next otherNext : Machine → Outcome Flow}
    (first : outcome.Alike none links outline (Flow.Alike none) otherOutcome)
    (later :
      ∀ longer machine other,
        machine.Alike none longer outline other →
        (next machine).Alike none longer outline (Flow.Alike none) (otherNext other)) :
    (outcome.andThen next).Alike none links outline (Flow.Alike none)
      (otherOutcome.andThen otherNext) := by
  refine first.bind ?_
  intro longer flow otherFlow machine other _ machines flows
  cases flows with
  | normal =>
      exact later longer machine other machines
  | returning values =>
      exact machines.done (.returning values)

namespace Machine

theorem holds_alike
    (alike : machine.Alike none links outline other)
    (fuel : Nat)
    {condition otherCondition : Option Expr}
    (conditions : Expr.OptionAligned none outline condition otherCondition) :
    (holds fuel condition machine).Alike none links outline (fun _ => Eq)
      (holds fuel otherCondition other) := by
  cases conditions with
  | absent =>
      exact alike.done rfl
  | present condition =>
      refine ((RunsAligned.all Change.isProper_none fuel).evaluate alike condition).bind ?_
      intro longer value otherValue machine other _ machines values
      exact machines.done values.isTruthy_eq.symm

theorem round_alike
    (alike : machine.Alike none links outline other)
    (fuel : Nat)
    {increment otherIncrement : Option Expr}
    {body otherBody : Stmt}
    (increments : Expr.OptionAligned none outline increment otherIncrement)
    (bodies : body.Aligned none outline otherBody) :
    (round fuel increment body machine).Alike none links outline (Flow.Alike none)
      (round fuel otherIncrement otherBody other) := by
  refine ((RunsAligned.all Change.isProper_none fuel).execute alike bodies).andThen ?_
  intro longer machine other machines
  cases increments with
  | absent =>
      exact machines.done .normal
  | present increment =>
      refine ((RunsAligned.all Change.isProper_none fuel).evaluate machines increment).bind ?_
      intro longest value otherValue machine other _ machines _
      exact machines.done .normal

/-- A round of the tree, which may have a frame of its own, and a round of the loop. -/
theorem unfoldedRound_alike
    (alike : machine.Alike none links outline other)
    (fuel : Nat)
    {increment otherIncrement : Option Expr}
    {body otherBody : Stmt}
    (increments :
      Expr.OptionAligned none (outline.inRound increment) increment otherIncrement)
    (bodies : body.Aligned none (outline.inRound increment) otherBody) :
    (unfoldedRound fuel increment body machine).Alike none links outline (Flow.Alike none)
      (round fuel otherIncrement otherBody other) := by
  cases increments with
  | absent =>
      rw [round, show advance fuel none = .done .normal from rfl,
        Outcome.andThen_done]
      exact (RunsAligned.all Change.isProper_none fuel).execute alike bodies
  | present increment =>
      refine alike.inLeftFrame ?_ (round_unwinds fuel _ otherBody other)
      intro longer machine other machines
      exact round_alike machines fuel (.present increment) bodies

/-- Rounds that are alike are repeated alike. -/
theorem repeatRounds_alike
    (alike : machine.Alike none links outline other)
    (fuel : Nat)
    {condition otherCondition : Option Expr}
    (conditions : Expr.OptionAligned none outline condition otherCondition)
    {round otherRound : Nat → Machine → Outcome Flow}
    (rounds :
      ∀ fuel links machine other,
        machine.Alike none links outline other →
        (round fuel machine).Alike none links outline (Flow.Alike none)
          (otherRound fuel other)) :
    (repeatRounds fuel condition round machine).Alike none links outline (Flow.Alike none)
      (repeatRounds fuel otherCondition otherRound other) := by
  induction fuel generalizing links machine other with
  | zero =>
      exact .exhausted
  | succ fuel inductionHypothesis =>
      rw [repeatRounds, repeatRounds]
      refine (holds_alike alike fuel conditions).bind ?_
      rintro longer goesOn _ machine other _ machines rfl
      split
      · refine (rounds fuel longer machine other machines).andThen ?_
        intro longest machine other machines
        exact inductionHypothesis machines
      · exact machines.done .normal

section Loops

open Stmt.Parser

variable {known : Token → Prop} {site otherSite : Site}
variable {clauses : ForClauses} {body : Stmt}

/-- The tree of a loop and the loop run in step with one another. -/
theorem executeUnfolded_alike
    (beside : site.Beside outline otherSite)
    (clausesFormed : FormedClauses known clauses)
    (branch : Branch known body)
    (alike : machine.Alike none links outline other)
    (fuel : Nat) :
    (executeUnfolded fuel (site.unfoldClauses clauses)
      ((site.inRound clauses).resolveStmt body) machine).Alike none links outline
      (Flow.Alike none)
      (executeFor fuel (otherSite.resolveClauses clauses)
        ((otherSite.inFor clauses).resolveStmt body) other) := by
  have aroundLoop := beside.inUnfolded clausesFormed
  have aroundBody := beside.inRound clausesFormed
  have increments := aroundBody.mapExpr clauses.increment
  have bodies :=
    Site.Beside.resolveStmt branch.1 aroundBody
      fun declares => by simp [branch.2] at declares
  rw [← Outline.inRound_map _ _ (site.inRound clauses).resolveExpr]
    at increments bodies
  have loops
      {links : Links}
      {machine other : Machine}
      (alike : machine.Alike none links (outline.inUnfolded clauses) other) :=
    repeatRounds_alike alike fuel (aroundLoop.mapExpr clauses.condition)
      fun fuel links machine other alike =>
        unfoldedRound_alike alike fuel increments bodies
  unfold executeUnfolded executeFor
  unfold Outline.inUnfolded at loops
  simp only [Site.unfoldClauses, Site.resolveClauses]
  cases shape : clauses.initial with
  | none =>
      rw [shape] at loops
      exact alike.inRightFrame (fun _ _ _ machines => loops machines)
        (repeatRounds_unwinds
          (fun fuel => unfoldedRound_unwinds fuel _ _) fuel _ machine)
  | some initial =>
      rw [shape] at loops
      have initialAligned :=
        Site.Beside.resolveStmt (clausesFormed.initial initial shape)
          (beside.enter []) fun _ => Outline.common_both false outline
      refine alike.inNewFrame alike.here (.nil none links false) ?_
      intro longer machine other machines
      exact ((RunsAligned.all Change.isProper_none fuel).execute machines initialAligned).andThen
        fun _ _ _ inside => loops inside

end Loops

end Machine

end Rounds

end Script
