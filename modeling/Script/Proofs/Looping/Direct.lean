import Script.Proofs.Running.Fuel
import Script.Proofs.Running.Unwinding
import Script.Tree.StmtParser

namespace Script

/-!
# Loops run directly

A `for` loop can be run as it is written: the initial statement once, in a new frame,
and then the body and the increment in turns, in the same frame, as long as the
condition holds.  The tree that the parser makes of the loop does the same, but it has
the new frame only for an initial statement, and makes another frame in each round that
has an increment.
-/

/-- Go on unless a statement returned. -/
def Outcome.andThen
    (outcome : Outcome Flow)
    (next : Machine → Outcome Flow) :
    Outcome Flow :=
  outcome.bind fun flow machine =>
    match flow with
    | .normal =>
        next machine
    | .returning value =>
        .done (.returning value) machine

namespace Machine

/-- Whether the condition of a loop holds; one that is absent does. -/
def holds
    (fuel : Nat)
    (condition : Option Expr)
    (machine : Machine) :
    Outcome Bool :=
  match condition with
  | none =>
      .done true machine
  | some condition =>
      (evaluate fuel condition machine).bind fun value machine =>
        .done value.isTruthy machine

/-- Run the initial statement of a loop. -/
def start
    (fuel : Nat)
    (initial : Option Stmt)
    (machine : Machine) :
    Outcome Flow :=
  match initial with
  | none =>
      .done .normal machine
  | some initial =>
      execute fuel initial machine

/-- Evaluate the increment of a loop. -/
def advance
    (fuel : Nat)
    (increment : Option Expr)
    (machine : Machine) :
    Outcome Flow :=
  match increment with
  | none =>
      .done .normal machine
  | some increment =>
      (evaluate fuel increment machine).bind fun _ machine =>
        .done .normal machine

/-- One round of a loop: the body and, unless it returned, the increment. -/
def round
    (fuel : Nat)
    (increment : Option Expr)
    (body : Stmt)
    (machine : Machine) :
    Outcome Flow :=
  (execute fuel body machine).andThen (advance fuel increment)

/-- Rounds as long as a condition holds and none of them returns. -/
def repeatRounds
    (fuel : Nat)
    (condition : Option Expr)
    (round : Nat → Machine → Outcome Flow)
    (machine : Machine) :
    Outcome Flow :=
  match fuel with
  | 0 =>
      .exhausted
  | fuel + 1 =>
      (holds fuel condition machine).bind fun goesOn machine =>
        if goesOn then
          (round fuel machine).andThen (repeatRounds fuel condition round)
        else
          .done .normal machine

/-- Run a `for` loop as it is written. -/
def executeFor
    (fuel : Nat)
    (clauses : ForClauses)
    (body : Stmt)
    (machine : Machine) :
    Outcome Flow :=
  machine.inNewFrame machine.current [] fun machine =>
    (start fuel clauses.initial machine).andThen
      (repeatRounds fuel clauses.condition fun fuel =>
        round fuel clauses.increment body)

/-- One round of the tree that the parser makes of a loop. -/
def unfoldedRound
    (fuel : Nat)
    (increment : Option Expr)
    (body : Stmt)
    (machine : Machine) :
    Outcome Flow :=
  match increment with
  | none =>
      execute fuel body machine
  | some increment =>
      machine.inNewFrame machine.current [] (round fuel (some increment) body)

/-- What the tree does that the parser makes of a loop, with the bounds that the parts
of the loop have when it is run directly. -/
def executeUnfolded
    (fuel : Nat)
    (clauses : ForClauses)
    (body : Stmt)
    (machine : Machine) :
    Outcome Flow :=
  let rounds :=
    repeatRounds fuel clauses.condition fun fuel =>
      unfoldedRound fuel clauses.increment body
  match clauses.initial with
  | none =>
      rounds machine
  | some initial =>
      machine.inNewFrame machine.current [] fun machine =>
        (execute fuel initial machine).andThen rounds

end Machine

/-- Going on with nothing changes nothing. -/
theorem Outcome.andThen_done (outcome : Outcome Flow) :
    outcome.andThen (.done .normal) = outcome := by
  cases outcome with
  | done flow machine =>
      cases flow <;> rfl
  | stopped | broken | exhausted =>
      rfl

theorem Outcome.Unwinds.andThen
    {before : Machine}
    {outcome : Outcome Flow}
    {next : Machine → Outcome Flow}
    (first : outcome.Unwinds before)
    (second : ∀ machine, (next machine).Unwinds machine) :
    (outcome.andThen next).Unwinds before := by
  refine first.bind fun flow machine => ?_
  cases flow with
  | normal =>
      exact second machine
  | returning value =>
      exact .refl machine

theorem Outcome.Below.andThen
    {outcome greater : Outcome Flow}
    {next greaterNext : Machine → Outcome Flow}
    (first : outcome.Below greater)
    (second : ∀ machine, (next machine).Below (greaterNext machine)) :
    (outcome.andThen next).Below (greater.andThen greaterNext) := by
  refine first.bind fun flow machine => ?_
  cases flow with
  | normal =>
      exact second machine
  | returning value =>
      exact .same _

namespace Machine

section Unwinding

theorem holds_unwinds
    (fuel : Nat)
    (condition : Option Expr)
    (machine : Machine) :
    (holds fuel condition machine).Unwinds machine := by
  cases condition with
  | none =>
      exact .refl machine
  | some condition =>
      exact ((AllUnwind.all fuel).evaluate condition machine).bind
        fun _ after => .refl after

theorem round_unwinds
    (fuel : Nat)
    (increment : Option Expr)
    (body : Stmt)
    (machine : Machine) :
    (round fuel increment body machine).Unwinds machine := by
  refine ((AllUnwind.all fuel).execute body machine).andThen fun after => ?_
  cases increment with
  | none =>
      exact .refl after
  | some increment =>
      exact ((AllUnwind.all fuel).evaluate increment after).bind
        fun _ last => .refl last

theorem unfoldedRound_unwinds
    (fuel : Nat)
    (increment : Option Expr)
    (body : Stmt)
    (machine : Machine) :
    (unfoldedRound fuel increment body machine).Unwinds machine := by
  cases increment with
  | none =>
      exact (AllUnwind.all fuel).execute body machine
  | some increment =>
      exact machine.inNewFrame_unwinds _ _ (round_unwinds fuel _ body)

theorem repeatRounds_unwinds
    {round : Nat → Machine → Outcome Flow}
    (unwinds : ∀ fuel machine, (round fuel machine).Unwinds machine)
    (fuel : Nat)
    (condition : Option Expr)
    (machine : Machine) :
    (repeatRounds fuel condition round machine).Unwinds machine := by
  induction fuel generalizing machine with
  | zero =>
      trivial
  | succ fuel inductionHypothesis =>
      refine (holds_unwinds fuel condition machine).bind fun goesOn middle => ?_
      split
      · exact (unwinds fuel middle).andThen inductionHypothesis
      · exact .refl middle

end Unwinding

section Unfolding

variable {fuel more : Nat}

theorem holds_below
    (condition : Option Expr)
    (machine : Machine) :
    (evaluate fuel (condition.getD (.literal (.bool true))) machine).bind
        (fun value machine => .done value.isTruthy machine) |>.Below
      (holds fuel condition machine) := by
  cases condition with
  | none =>
      cases fuel with
      | zero =>
          exact .exhausted _
      | succ fuel =>
          exact .same _
  | some condition =>
      exact .same _

theorem below_holds
    (enough : fuel < more)
    (condition : Option Expr)
    (machine : Machine) :
    (holds fuel condition machine).Below
      ((evaluate more (condition.getD (.literal (.bool true))) machine).bind
        fun value machine => .done value.isTruthy machine) := by
  cases condition with
  | none =>
      obtain ⟨more, rfl⟩ :=
        Nat.exists_eq_add_one_of_ne_zero (Nat.ne_zero_of_lt enough)
      exact .same _
  | some condition =>
      exact (evaluate_below (Nat.le_of_lt enough) condition machine).bind
        fun _ _ => .same _

theorem executeAll_single
    (stmt : Stmt)
    (machine : Machine) :
    executeAll (fuel + 2) [stmt] machine = execute (fuel + 1) stmt machine :=
  (execute (fuel + 1) stmt machine).andThen_done

theorem executeAll_single_below
    (stmt : Stmt)
    (machine : Machine) :
    (executeAll fuel [stmt] machine).Below (execute fuel stmt machine) := by
  have alone :
      (executeAll (fuel + 1) [stmt] machine).Below
        ((execute fuel stmt machine).andThen (.done .normal)) := by
    refine (Outcome.Below.same _).andThen fun after => ?_
    cases fuel with
    | zero =>
        exact .exhausted _
    | succ fuel =>
        exact .same _
  rw [Outcome.andThen_done] at alone
  exact ((AllBelow.all fuel).executeAll [stmt] machine).trans alone

/-- A block of two statements does no more than one after the other in a new frame. -/
theorem block_below
    (first second : Stmt)
    (machine : Machine) :
    (execute fuel (.block [first, second]) machine).Below
      (machine.inNewFrame machine.current [] fun machine =>
        (execute fuel first machine).andThen (execute fuel second)) := by
  refine (execute_below (Nat.le_succ fuel) _ machine).trans ?_
  rw [execute]
  refine Outcome.Below.mapMachine ?_ _
  refine ((AllBelow.all fuel).executeAll [first, second] _).trans ?_
  exact (Outcome.Below.same _).andThen (executeAll_single_below second)

/-- With some units more it does no less. -/
theorem below_block
    (first second : Stmt)
    (machine : Machine) :
    (machine.inNewFrame machine.current [] fun machine =>
      (execute fuel first machine).andThen (execute fuel second)).Below
      (execute (fuel + 4) (.block [first, second]) machine) := by
  rw [execute]
  refine Outcome.Below.mapMachine ?_ _
  refine (execute_below (Nat.le_add_right fuel 2) first _).andThen
    fun machine => ?_
  rw [executeAll_single]
  exact execute_below (Nat.le_succ fuel) second machine

/-- A round of the tree that the parser makes does no more than one of the loop. -/
theorem iteration_below
    (clauses : ForClauses)
    (body : Stmt)
    (machine : Machine) :
    (execute fuel (clauses.iteration body) machine).Below
      (unfoldedRound fuel clauses.increment body machine) := by
  unfold ForClauses.iteration unfoldedRound
  cases clauses.increment with
  | none =>
      exact .same _
  | some increment =>
      refine (block_below body (.expression increment) machine).trans ?_
      refine Outcome.Below.mapMachine ?_ _
      exact (Outcome.Below.same _).andThen fun machine =>
        execute_below (Nat.le_succ fuel) (.expression increment) machine

theorem below_iteration
    (clauses : ForClauses)
    (body : Stmt)
    (machine : Machine) :
    (unfoldedRound fuel clauses.increment body machine).Below
      (execute (fuel + 5) (clauses.iteration body) machine) := by
  unfold ForClauses.iteration unfoldedRound
  cases clauses.increment with
  | none =>
      exact execute_below (Nat.le_add_right fuel 5) body machine
  | some increment =>
      refine Outcome.Below.trans ?_
        (below_block body (.expression increment) machine)
      refine Outcome.Below.mapMachine ?_ _
      exact (execute_below (Nat.le_succ fuel) body _).andThen
        fun machine => .same _

/-- One round of a `while` loop, which asks only whether the condition holds. -/
theorem repeatWhile_succ
    (condition : Expr)
    (body : Stmt)
    (machine : Machine) :
    repeatWhile (fuel + 1) condition body machine =
      ((evaluate fuel condition machine).bind fun value machine =>
        .done value.isTruthy machine).bind fun goesOn machine =>
          if goesOn then
            (execute fuel body machine).andThen
              (repeatWhile fuel condition body)
          else
            .done .normal machine := by
  rw [repeatWhile]
  cases evaluate fuel condition machine <;> rfl

theorem repeatWhile_below
    {iteration : Stmt}
    {round : Nat → Machine → Outcome Flow}
    (each : ∀ fuel machine,
      (execute fuel iteration machine).Below (round fuel machine))
    (condition : Option Expr)
    (machine : Machine) :
    (repeatWhile fuel (condition.getD (.literal (.bool true))) iteration
      machine).Below (repeatRounds fuel condition round machine) := by
  induction fuel generalizing machine with
  | zero =>
      exact .exhausted _
  | succ fuel inductionHypothesis =>
      rw [repeatWhile_succ, repeatRounds]
      refine (holds_below condition machine).bind fun goesOn machine => ?_
      split
      · exact (each fuel machine).andThen inductionHypothesis
      · exact .same _

theorem below_repeatWhile
    {iteration : Stmt}
    {round : Nat → Machine → Outcome Flow}
    (each : ∀ fuel machine,
      (round fuel machine).Below (execute (fuel + 5) iteration machine))
    (condition : Option Expr)
    (machine : Machine) :
    (repeatRounds fuel condition round machine).Below
      (repeatWhile (fuel + 5) (condition.getD (.literal (.bool true)))
        iteration machine) := by
  induction fuel generalizing machine with
  | zero =>
      exact .exhausted _
  | succ fuel inductionHypothesis =>
      rw [repeatWhile_succ, repeatRounds]
      refine (below_holds (by omega) condition machine).bind
        fun goesOn machine => ?_
      split
      · exact (each fuel machine).andThen inductionHypothesis
      · exact .same _

/-- The tree that the parser makes of a loop does no more than its parts with the
bounds of the loop. -/
theorem unfold_below
    (clauses : ForClauses)
    (body : Stmt)
    (machine : Machine) :
    (execute fuel (clauses.unfold body) machine).Below
      (executeUnfolded fuel clauses body machine) := by
  have rounds (machine : Machine) :
      (execute fuel
        (.loop (clauses.condition.getD (.literal (.bool true)))
          (clauses.iteration body)) machine).Below
        (repeatRounds fuel clauses.condition
          (unfoldedRound · clauses.increment body) machine) :=
    (execute_below (Nat.le_succ fuel) _ machine).trans
      (repeatWhile_below (fun _ => iteration_below clauses body) _ machine)
  unfold ForClauses.unfold executeUnfolded
  cases clauses.initial with
  | none =>
      exact rounds machine
  | some initial =>
      refine (block_below _ _ machine).trans ?_
      refine Outcome.Below.mapMachine ?_ _
      exact (Outcome.Below.same _).andThen rounds

/-- With some units more it does no less. -/
theorem below_unfold
    (clauses : ForClauses)
    (body : Stmt)
    (machine : Machine) :
    (executeUnfolded fuel clauses body machine).Below
      (execute (fuel + 10) (clauses.unfold body) machine) := by
  have rounds (machine : Machine) :
      (repeatRounds fuel clauses.condition
        (unfoldedRound · clauses.increment body) machine).Below
        (execute (fuel + 6)
          (.loop (clauses.condition.getD (.literal (.bool true)))
            (clauses.iteration body)) machine) :=
    below_repeatWhile (fun _ => below_iteration clauses body) _ machine
  unfold ForClauses.unfold executeUnfolded
  cases clauses.initial with
  | none =>
      exact (rounds machine).trans
        (execute_below (Nat.le_add_right (fuel + 6) 4) _ machine)
  | some initial =>
      refine Outcome.Below.trans ?_ (below_block _ _ machine)
      refine Outcome.Below.mapMachine ?_ _
      exact (execute_below (Nat.le_add_right fuel 6) initial _).andThen rounds

end Unfolding

end Machine

end Script
