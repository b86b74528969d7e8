import Script.Proofs.Lexical.Session

namespace Script.Lexical

/-!
# Agreement of scope analysis and evaluation

The distances that scope analysis fills in are counted along scopes, and
evaluation walks along frames.  In every session the two agree about every use
of a name, in the text that runs and in functions kept from earlier texts alike.
-/

/-- What was noted is right in view of what was noted before. -/
theorem Log.Right.event
    {log later earlier : Log}
    {event : Event}
    (right : log.Right)
    (noted : log = later ++ event :: earlier) :
    event.Right earlier := by
  subst noted
  induction later with
  | nil =>
      exact right.1
  | cons latest later inductionHypothesis =>
      exact inductionHypothesis right.2

/-- Evaluating the expression of a use is the access to its name; an assignment makes
it with the value of its right side. -/
def Use.IsEvaluated (use : Use) : Prop :=
  match use.form with
  | .read =>
      ∀ fuel,
        use.machine.evaluate (fuel + 1) (.reference use.name use.distance) =
          use.machine.read use.name use.distance
  | .receiver =>
      ∀ fuel,
        use.machine.evaluate (fuel + 1) (.receiver use.name use.distance) =
          use.machine.read use.name use.distance
  | .assignment =>
      ∀ (fuel : Nat) (before : Machine) (expr : Expr) (value : Value),
        before.evaluate fuel expr = .done value use.machine →
        before.evaluate (fuel + 1) (.assign use.name expr use.distance) =
          use.machine.assign use.name use.distance value

theorem Use.isEvaluated (use : Use) : use.IsEvaluated := by
  unfold Use.IsEvaluated
  cases use.form with
  | read | receiver =>
      intro fuel
      rw [Machine.evaluate]
  | assignment =>
      intro fuel before expr value evaluated
      rw [Machine.evaluate, evaluated, Outcome.bind]

/-- Whenever a name is used that stands in an analysed text, analysis and
evaluation agree about it.  A distance leads to the frame made for the scope with
the nearest declaration before the use, and there the name is read or changed.
Without a distance no scope around the use declares the name, and it is read or
changed in the global frame, or the use fails. -/
theorem uses_agree
    (natives : Bool)
    (steps : List SessionStep)
    {moment : Moment}
    (taken : moment ∈ sessionMoments natives steps)
    {later earlier : Log}
    {use : Use}
    (noted : moment.log = later ++ .used use :: earlier)
    (analysed : use.position.origin.resolved = true) :
    moment.reply = moment.step.run moment.before ∧
      use.position.origin.IsOf steps ∧
      use.Stands ∧
      use.IsEvaluated ∧
      use.Agrees earlier := by
  obtain ⟨-, reply, settles⟩ :=
    (Steady.fresh natives steps).moments rfl moment taken
  have right : use.Right earlier := settles.right.event noted
  have began : .began use.position.origin ∈ moment.log := by
    rw [noted]
    exact List.mem_append_right later (List.mem_cons_of_mem _ right.began)
  exact ⟨reply, settles.origins _ began, right.stands, use.isEvaluated,
    right.agrees analysed⟩

/-- Two texts: a function that gives another one out of its scope, and a call of
both. -/
def keptFunction : List SessionStep :=
  [.eval 50
     (Text.utf8
       "fun make() \x7b var a = true; fun get() \x7b return a; \x7d return get; \x7d"),
   .eval 50 (Text.utf8 "make()();")]

/-- Whether a use that was noted passes a test. -/
def Moment.notes
    (test : Use → Bool)
    (moment : Moment) :
    Bool :=
  moment.log.any fun event =>
    match event with
    | .used use =>
        use.position.origin.resolved && test use
    | _ =>
        false

theorem Moment.exists_of_notes
    {test : Use → Bool}
    {moment : Moment}
    (notes : moment.notes test = true) :
    ∃ later use earlier,
      moment.log = later ++ .used use :: earlier ∧
        use.position.origin.resolved = true ∧
        test use = true := by
  obtain ⟨event, member, passes⟩ := List.any_eq_true.mp notes
  obtain ⟨later, earlier, noted⟩ := List.append_of_mem member
  cases event with
  | used use =>
      rw [Bool.and_eq_true] at passes
      exact ⟨later, use, earlier, noted, passes⟩
  | began | opened | declared | entered | asked =>
      cases passes

/-- Whether a name of the first text is used a scope away, where it is true. -/
def Use.isTrueAway (use : Use) : Bool :=
  use.position.origin.number == 0 && use.distance == some 1 &&
    match use.machine.frames.ancestor? (some use.machine.current) 1 with
    | some (some frame) =>
        match use.machine.frames.local? frame use.name.lexeme with
        | some (.bool value) =>
            value
        | _ =>
            false
    | _ =>
        false

/-- Whether a name of the second text is used that is a global function. -/
def Use.isGlobalFunction (use : Use) : Bool :=
  use.position.origin.number == 1 && use.distance == none &&
    match use.machine.frames.local? Machine.globals use.name.lexeme with
    | some (.function _) =>
        true
    | _ =>
        false

/-- While the second text runs, a name of the first text is used a scope away, and
has the value that it has in the frame there; and a name of the second text is used
that is a global function. -/
theorem uses_agree_keptFunction :
    ∃ (moment : Moment) (away global : Use) (earlier past : Log),
      moment ∈ sessionMoments true keptFunction ∧
        moment.number = 1 ∧
        away.position.origin.number = 0 ∧
        away.distance = some 1 ∧
        away.Agrees earlier ∧
        away.machine.read away.name away.distance =
          .done (.bool true) away.machine ∧
        global.position.origin.number = 1 ∧
        global.distance = none ∧
        global.Agrees past ∧
        ∃ function,
          global.machine.read global.name global.distance =
            .done (.function function) global.machine := by
  have met :
      (sessionMoments true keptFunction).any
        (fun moment =>
          moment.number == 1 && moment.notes Use.isTrueAway &&
            moment.notes Use.isGlobalFunction) = true := by
    decide +kernel
  obtain ⟨moment, taken, found⟩ := List.any_eq_true.mp met
  simp only [Bool.and_eq_true, beq_iff_eq] at found
  obtain ⟨⟨second, notesAway⟩, notesGlobal⟩ := found
  obtain ⟨_, away, earlier, noted, analysed, isAway⟩ :=
    Moment.exists_of_notes notesAway
  obtain ⟨_, global, past, globalNoted, globalAnalysed, isGlobal⟩ :=
    Moment.exists_of_notes notesGlobal
  have agrees :=
    (uses_agree true keptFunction taken noted analysed).2.2.2.2
  have globalAgrees :=
    (uses_agree true keptFunction taken globalNoted globalAnalysed).2.2.2.2
  simp only [Use.isTrueAway, Bool.and_eq_true, beq_iff_eq] at isAway
  obtain ⟨⟨first, distance⟩, hasValue⟩ := isAway
  simp only [Use.isGlobalFunction, Bool.and_eq_true, beq_iff_eq] at isGlobal
  obtain ⟨⟨later, noDistance⟩, hasFunction⟩ := isGlobal
  refine ⟨moment, away, global, earlier, past, taken, second, first, distance,
    agrees, ?_, later, noDistance, globalAgrees, ?_⟩
  · unfold Use.Agrees at agrees
    rw [distance] at agrees
    obtain ⟨level, frame, finds⟩ := agrees
    simp only [finds.found] at hasValue
    split at hasValue
    · rename_i bound
      exact finds.accesses.reads _ (hasValue ▸ bound)
    · cases hasValue
  · unfold Use.Agrees at globalAgrees
    rw [noDistance] at globalAgrees
    split at hasFunction
    · rename_i function bound
      exact ⟨function,
        (globalAgrees.global (by rw [bound]; rfl)).reads _ bound⟩
    · cases hasFunction

end Script.Lexical
