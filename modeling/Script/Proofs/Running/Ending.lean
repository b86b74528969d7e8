import Script.Proofs.Running.Stored

namespace Script

/-!
# Pieces of program that come to their end

`Ends` says of a piece of program that from some bound on it has one outcome, which
is not exhausted, and that the machine behind it runs in the same region and allows
as many calls.  The lemmas about `bind`, `mapMachine` and new frames put such
statements together the way evaluation is put together.
-/

namespace Region

variable {region : Region} {machine : Machine} {room : Nat}

/-- A machine that runs in a region and in which at most `room` more calls may
begin inside of each other. -/
structure Allows
    (region : Region)
    (room : Nat)
    (machine : Machine) :
    Prop where
  covers : region.Covers machine
  limited :
    ∃ limit, machine.callLimit = some limit ∧ limit ≤ machine.depth + room

/-- A machine with other frames and fields allows as many calls. -/
theorem Allows.change
    {after : Machine}
    (allows : region.Allows room machine)
    (covers : region.Covers after)
    (callLimit : after.callLimit = machine.callLimit)
    (depth : after.depth = machine.depth) :
    region.Allows room after := by
  refine ⟨covers, ?_⟩
  rw [callLimit, depth]
  exact allows.limited

end Region

/-- An outcome that is not exhausted, with a machine that runs in the region and
with a known value. -/
def Outcome.Settles
    (region : Region)
    (room : Nat)
    (known : α → Prop) :
    Outcome α → Prop
  | .done value after =>
      region.Allows room after ∧ known value
  | .stopped _ after =>
      region.Allows room after
  | .broken _ _ =>
      True
  | .exhausted =>
      False

/-- From some bound on a piece of program has one outcome, which settles. -/
def Ends
    (region : Region)
    (room : Nat)
    (known : α → Prop)
    (run : Nat → Outcome α) :
    Prop :=
  ∃ bound outcome,
    outcome.Settles region room known ∧
      ∀ fuel, bound ≤ fuel → run fuel = outcome

namespace Ends

variable {region : Region} {room : Nat}

/-- A piece that needs no bound. -/
theorem now
    {known : α → Prop}
    (outcome : Outcome α)
    (settles : outcome.Settles region room known) :
    Ends region room known fun _ => outcome :=
  ⟨0, outcome, settles, fun _ _ => rfl⟩

/-- A piece that spends one unit of its bound and goes on. -/
theorem spend
    {known : α → Prop}
    {run whole : Nat → Outcome α}
    (ends : Ends region room known run)
    (unfolds : ∀ fuel, whole (fuel + 1) = run fuel) :
    Ends region room known whole := by
  obtain ⟨bound, outcome, settles, isOutcome⟩ := ends
  refine ⟨bound + 1, outcome, settles, fun fuel enough => ?_⟩
  obtain ⟨smaller, rfl⟩ := Nat.exists_eq_add_of_le' (Nat.le_of_succ_le enough)
  cases fuelShape : smaller + bound with
  | zero =>
      omega
  | succ fuel =>
      rw [unfolds]
      exact isOutcome fuel (by omega)

theorem bind
    {known : α → Prop}
    {result : β → Prop}
    {run : Nat → Outcome α}
    (first : Ends region room known run)
    (next : Nat → α → Machine → Outcome β)
    (second :
      ∀ value after,
        region.Allows room after →
        known value →
        Ends region room result fun fuel => next fuel value after) :
    Ends region room result fun fuel => (run fuel).bind (next fuel) := by
  obtain ⟨bound, outcome, settles, isOutcome⟩ := first
  cases outcome with
  | done value after =>
      obtain ⟨later, last, lastSettles, isLast⟩ :=
        second value after settles.1 settles.2
      refine ⟨max bound later, last, lastSettles, fun fuel enough => ?_⟩
      show (run fuel).bind (next fuel) = last
      rw [isOutcome fuel ((Nat.le_max_left _ _).trans enough)]
      exact isLast fuel ((Nat.le_max_right _ _).trans enough)
  | stopped fault after =>
      refine ⟨bound, .stopped fault after, settles, fun fuel enough => ?_⟩
      show (run fuel).bind (next fuel) = _
      rw [isOutcome fuel enough]
      rfl
  | broken breakage after =>
      refine ⟨bound, .broken breakage after, settles, fun fuel enough => ?_⟩
      show (run fuel).bind (next fuel) = _
      rw [isOutcome fuel enough]
      rfl
  | exhausted =>
      exact settles.elim

/-- A piece whose machine is changed back when it ends. -/
theorem mapMachine
    {known : α → Prop}
    {inner : Nat}
    {run : Nat → Outcome α}
    {change : Machine → Machine}
    (ends : Ends region inner known run)
    (back :
      ∀ after, region.Allows inner after → region.Allows room (change after)) :
    Ends region room known fun fuel => (run fuel).mapMachine change := by
  obtain ⟨bound, outcome, settles, isOutcome⟩ := ends
  refine ⟨bound, outcome.mapMachine change, ?_, fun fuel enough => ?_⟩
  · cases outcome with
    | done value after =>
        exact ⟨back after settles.1, settles.2⟩
    | stopped fault after =>
        exact back after settles
    | broken =>
        trivial
    | exhausted =>
        exact settles
  · show (run fuel).mapMachine change = _
    rw [isOutcome fuel enough]

end Ends

namespace Region

variable {region : Region} {machine : Machine} {room : Nat}

/-- The values of operators lead to no functions. -/
theorem knows_unary
    {operator : TokenKind}
    {operand value : Value}
    (result : operand.unary operator = .ok value) :
    region.Knows value := by
  unfold Value.unary at result
  split at result <;> cases result <;> trivial

theorem knows_binary
    {operator : TokenKind}
    {left right value : Value}
    (result : left.binary operator right = .ok value) :
    region.Knows value := by
  unfold Value.binary at result
  split at result
  · cases result
    trivial
  · cases result
    trivial
  · unfold Value.add at result
    split at result <;> cases result <;> trivial
  · split at result
    · unfold Value.arithmetic at result
      split at result
      case h_3 =>
        split at result <;> cases result
        trivial
      all_goals
        cases result <;> trivial
    · cases result

theorem knows_ofLiteral (literal : Literal) :
    region.Knows (.ofLiteral literal) := by
  cases literal <;> trivial

theorem knows_callable
    {value : Value}
    {callable : Callable}
    (known : region.Knows value)
    (isCallable : value.callable? = some callable) :
    region.KnowsCallable callable := by
  cases value <;> cases isCallable
  · trivial
  · exact known
  · exact known

namespace Allows

/-- A host function gives a known value. -/
theorem callNative
    (allows : region.Allows room machine)
    (native : Native)
    (arguments : List Value) :
    (machine.callNative native arguments).Settles region room region.Knows := by
  cases native with
  | clock =>
      exact ⟨allows.change { allows.covers with } rfl rfl, trivial⟩
  | str | custom =>
      exact ⟨allows, trivial⟩

/-- The result of an operator settles. -/
theorem settle
    (allows : region.Allows room machine)
    (operator : Token)
    {result : Except FaultCause Value}
    (known : ∀ value, result = .ok value → region.Knows value) :
    (machine.settle operator result).Settles region room region.Knows := by
  cases result with
  | ok value =>
      exact ⟨allows, known value rfl⟩
  | error cause =>
      exact allows

theorem readGlobal
    (allows : region.Allows room machine)
    (name : Token) :
    (machine.readGlobal name).Settles region room region.Knows := by
  unfold Machine.readGlobal
  cases found : machine.frames.get? Machine.globals name.lexeme with
  | none =>
      exact allows
  | some value =>
      exact ⟨allows, allows.covers.knows_global found⟩

theorem read
    (allows : region.Allows room machine)
    (name : Token)
    (distance : Option Nat) :
    (machine.read name distance).Settles region room region.Knows := by
  cases distance with
  | none =>
      exact allows.readGlobal name
  | some distance =>
      rw [Machine.read, Frames.getAt?]
      split
      · rename_i value found
        split at found
        · rename_i holder walked
          cases found
          exact ⟨allows, allows.covers.knows_getD
            (allows.covers.ancestor allows.covers.current walked) name.lexeme⟩
        · cases found
      · trivial

theorem define
    (allows : region.Allows room machine)
    (frame : Nat)
    (name : Text)
    {value : Value}
    (known : region.Knows value) :
    region.Allows room
      { machine with frames := machine.frames.define frame name value } :=
  allows.change (allows.covers.define frame name known) rfl rfl

theorem writeGlobal
    (allows : region.Allows room machine)
    (name : Token)
    {value : Value}
    (known : region.Knows value) :
    (machine.writeGlobal name value).Settles region room region.Knows := by
  unfold Machine.writeGlobal
  cases machine.frames.holder? Machine.globals name.lexeme with
  | none =>
      exact allows
  | some holder =>
      exact ⟨allows.define holder name.lexeme known, known⟩

theorem assign
    (allows : region.Allows room machine)
    (name : Token)
    (distance : Option Nat)
    {value : Value}
    (known : region.Knows value) :
    (machine.assign name distance value).Settles region room region.Knows := by
  cases distance with
  | none =>
      exact allows.writeGlobal name known
  | some distance =>
      rw [Machine.assign]
      split
      · exact ⟨allows.define _ name.lexeme known, known⟩
      · trivial

theorem getProperty
    (allows : region.Allows room machine)
    {object : Object}
    (known : region.Knows (.object object))
    (name : Token) :
    (machine.getProperty object name).Settles region room region.Knows := by
  unfold Machine.getProperty
  cases stored :
      machine.fields[object.identity]?.bind (·.lookup name.lexeme) with
  | some value =>
      obtain ⟨bindings, held, found⟩ := Option.bind_eq_some_iff.mp stored
      exact ⟨allows, allows.covers.fields _ _ _ _ known.1 held found⟩
  | none =>
      cases isMethod : object.members.method? name.lexeme with
      | none =>
          exact allows
      | some method =>
          obtain ⟨covers, bound⟩ :=
            allows.covers.bindMethod (known.2 _ _ isMethod) known
          exact ⟨allows.change covers rfl rfl, bound⟩

/-- A piece of program in a new frame ends when it does inside of the frame. -/
theorem inNewFrame
    {known : α → Prop}
    {parent : Nat}
    {bindings : Bindings}
    {body : Nat → Machine → Outcome α}
    (allows : region.Allows room machine)
    (inside : region.frames parent)
    (knownBindings :
      ∀ name value, bindings.lookup name = some value → region.Knows value)
    (ends :
      ∀ inner,
        region.Allows room inner →
        Ends region room known fun fuel => body fuel inner) :
    Ends region room known fun fuel =>
      machine.inNewFrame parent bindings (body fuel) := by
  have covers := allows.covers.push inside knownBindings
  have new := allows.covers.newFrames machine.frames.size le_rfl
  refine (ends _ (allows.change (covers.goTo new) rfl rfl)).mapMachine ?_
  intro after allowsAfter
  exact allowsAfter.change (allowsAfter.covers.goTo allows.covers.current)
    rfl rfl

end Allows

end Region

end Script
