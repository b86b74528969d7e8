import Script.Proofs.Lexical.Agreement

namespace Script.Lexical

/-!
# Safety of sessions

No step of a session goes wrong.  Whatever the texts are and whatever fails on
the way, a step that comes to its end has finished, found a text invalid or
stopped with a fault; it never meets a hole in a tree or a distance that leads
too far.
-/

/-- How a step may end. -/
inductive Ending.Safe : Ending → Prop where
  | finished :
      Safe .finished
  | invalid
      {failure : Failure} :
      failure.isStatic = true →
      Safe (.failed failure)
  | stopped
      {fault : Fault} :
      fault.cause ≠ .unknownUnary →
      fault.cause ≠ .unknownBinary →
      Safe (.failed (.stopped fault))
  /-- The bound was too small for the step to come to its end. -/
  | exhausted :
      Safe .exhausted

/-- What is safe about a step. -/
structure Moment.Safe
    (steps : List SessionStep)
    (moment : Moment) :
    Prop where
  /-- Watching has changed nothing. -/
  reply : moment.reply = moment.step.run moment.before
  ending : Ending.Safe moment.reply.ending
  /-- No tree that is analysed or run has a hole. -/
  trees :
    ∀ fuel source,
      moment.step = .eval fuel source ∨ moment.step = .raw fuel source →
      Stmt.anyHole? (Program.ofSource source).statements = none
  /-- A function has an argument for each of its parameters. -/
  parameters :
    ∀ (closure : Closure) (given : Nat),
      .entered closure given ∈ moment.log →
      closure.arity = given
  /-- A host function has as many arguments as it takes. -/
  hosts :
    ∀ (native : Native) (given : Nat),
      .asked native given ∈ moment.log →
      native.arity = given
  machine :
    moment.reply.ending ≠ .exhausted → WholeMachine moment.reply.machine
  value :
    moment.reply.ending ≠ .exhausted →
    ∀ value ∈ moment.reply.value, WholeIn moment.reply.machine value
  /-- A receiver that is not defined stands in another text, one that was not
  analysed. -/
  receiver :
    ∀ fuel source fault,
      moment.step = .eval fuel source →
      moment.reply.ending = .failed (.stopped fault) →
      fault.cause = .undefinedVariable →
      fault.token.lexeme = Position.receiverName →
      ∃ use earlier rawFuel rawSource,
        moment.log = .used use :: earlier ∧
          use.name = fault.token ∧
          use.position.origin.number ≠ moment.number ∧
          steps[use.position.origin.number]? = some (.raw rawFuel rawSource)
  /-- An invalid text changes nothing. -/
  invalid :
    ∀ failure,
      moment.reply.ending = .failed failure →
      failure.isStatic = true →
      moment.reply.machine = moment.before ∧ moment.log = moment.past

/-- The statements of a text have no hole, whatever its problems. -/
theorem anyHole?_ofSource (source : Text) :
    Stmt.anyHole? (Program.ofSource source).statements = none :=
  Stmt.anyHole?_eq_none fun stmt member =>
    (SessionStep.statements_wellFormed source stmt member).hole?_eq_none

/-- A tree without distances is that of a raw step. -/
theorem Origin.IsOf.raw
    {steps : List SessionStep}
    {origin : Origin}
    (isOf : origin.IsOf steps)
    (plain : origin.resolved = false) :
    ∃ fuel source, steps[origin.number]? = some (.raw fuel source) := by
  obtain ⟨step, here, found⟩ := isOf
  cases step with
  | eval fuel source =>
      simp only [SessionStep.origin?, Option.ite_none_right_eq_some,
        Option.some.injEq] at found
      obtain ⟨-, same⟩ := found
      rw [← same] at plain
      cases plain
  | raw fuel source =>
      exact ⟨fuel, source, here⟩
  | define | assign | get | call | wait =>
      cases found

namespace Settles

variable {steps : List SessionStep} {step : SessionStep} {before : Machine}
  {past log : Log} {reply : Reply}

/-- A settled step has ended safely. -/
theorem ending
    (settles : Settles steps step before past reply log) :
    Ending.Safe reply.ending := by
  cases shape : reply.ending with
  | finished =>
      exact .finished
  | exhausted =>
      exact .exhausted
  | broken breakage =>
      exact (settles.whole breakage shape).elim
  | failed failure =>
      rcases settles.failure failure shape with
        ⟨fault, rfl, program | host⟩ | ⟨isStatic, -⟩
      · exact .stopped program.knownUnary program.knownBinary
      · exact .stopped (by simp [host.1]) (by simp [host.1])
      · exact .invalid isStatic

/-- The use of a receiver that is not defined stands in a raw text. -/
theorem receiver
    {fuel : Nat}
    {source : Text}
    {fault : Fault}
    (settles :
      Settles steps (.eval fuel source) before past reply log)
    (stopped : reply.ending = .failed (.stopped fault))
    (undefined : fault.cause = .undefinedVariable)
    (isReceiver : fault.token.lexeme = Position.receiverName) :
    ∃ use earlier rawFuel rawSource,
      log = .used use :: earlier ∧
        use.name = fault.token ∧
        steps[use.position.origin.number]? =
          some (.raw rawFuel rawSource) := by
  rcases settles.failure _ stopped with
    ⟨fault, same, program | host⟩ | ⟨isStatic, -⟩
  · cases same
    obtain ⟨use, earlier, latest, name, global⟩ := program.undefined undefined
    have right : use.Right earlier :=
      settles.right.event (show log = [] ++ .used use :: earlier from latest)
    have plain : use.position.origin.resolved = false := by
      by_contra analysed
      rw [← name] at isReceiver
      exact right.receiver (by simpa using analysed) isReceiver global
    have isOf : use.position.origin.IsOf steps := by
      refine settles.origins _ ?_
      rw [latest]
      exact List.mem_cons_of_mem _ right.began
    obtain ⟨rawFuel, rawSource, isRaw⟩ := isOf.raw plain
    exact ⟨use, earlier, rawFuel, rawSource, latest, name, isRaw⟩
  · exact (host.2 fuel source rfl).elim
  · cases isStatic

end Settles

/-- No step of a session on a machine with the host functions goes wrong. -/
theorem session_safe
    (steps : List SessionStep)
    (moment : Moment)
    (taken : moment ∈ sessionMoments true steps) :
    moment.Safe steps := by
  obtain ⟨here, reply, settles⟩ :=
    (Steady.fresh true steps).moments rfl moment taken
  have right :
      ∀ event ∈ moment.log, ∃ earlier, Event.Right earlier event := by
    intro event member
    obtain ⟨later, earlier, noted⟩ := List.append_of_mem member
    exact ⟨earlier, settles.right.event noted⟩
  refine
    { reply
      ending := settles.ending
      trees := fun _ source _ => anyHole?_ofSource source
      parameters := ?_
      hosts := ?_
      machine := fun ended => (settles.steady ended).sound.whole
      value := fun ended value given =>
        (settles.good value given).whole (settles.steady ended).sound.ordered
      receiver := ?_
      invalid := ?_ }
  · intro closure given member
    exact (right _ member).elim fun _ arity => arity
  · intro native given member
    exact (right _ member).elim fun _ arity => arity
  · intro fuel source fault isEval stopped undefined isReceiver
    rw [isEval] at here settles
    obtain ⟨use, earlier, rawFuel, rawSource, latest, name, isRaw⟩ :=
      settles.receiver stopped undefined isReceiver
    refine ⟨use, earlier, rawFuel, rawSource, latest, name, ?_, isRaw⟩
    intro same
    rw [same, here] at isRaw
    cases isRaw
  · intro failure failed isStatic
    rcases settles.failure failure failed with
      ⟨fault, rfl, -⟩ | ⟨-, unchanged⟩
    · cases isStatic
    · exact unchanged

/-- A function with a receiver outside of any class, which only a text that is
not analysed may have, and a text that calls the function. -/
def strayReceiver : List SessionStep :=
  [.raw 50 (Text.utf8 "fun stray() \x7b return this; \x7d"),
   .eval 50 (Text.utf8 "stray();")]

/-- Whether a step stopped because a receiver is not defined. -/
def Moment.lacksReceiver (moment : Moment) : Bool :=
  match moment.reply.ending with
  | .failed (.stopped fault) =>
      fault.cause == .undefinedVariable &&
        fault.token.lexeme == Position.receiverName
  | _ =>
      false

/-- The second text stops at the receiver in the first one, safely. -/
theorem session_safe_strayReceiver :
    ∃ moment ∈ sessionMoments true strayReceiver,
      moment.number = 1 ∧
        moment.lacksReceiver = true ∧
        moment.Safe strayReceiver := by
  have met :
      (sessionMoments true strayReceiver).any
        (fun moment => moment.number == 1 && moment.lacksReceiver) = true := by
    decide +kernel
  obtain ⟨moment, taken, found⟩ := List.any_eq_true.mp met
  simp only [Bool.and_eq_true, beq_iff_eq] at found
  exact ⟨moment, taken, found.1, found.2,
    session_safe strayReceiver moment taken⟩

end Script.Lexical
