import Script.Proofs.Lexical.Safety

namespace Script.Lexical

/-!
# Accounts of sessions

The account of a session goes on from one step to the next, in one machine and
one log.  Whatever the steps do, it leads from the fresh machine to the end of
the session, and no receiver is read that it does not tell of.
-/

/-- A step as it is taken on a machine. -/
def SessionStep.moment
    (step : SessionStep)
    (number : Nat)
    (machine : Machine)
    (log : Log) :
    Moment where
  number := number
  step := step
  before := machine
  past := log
  reply := (step.watch number machine log).1
  log := (step.watch number machine log).2

/-- The account of a step as it was taken. -/
def Moment.account (moment : Moment) : List Entry :=
  match moment.step, moment.step.origin? moment.number with
  | .eval fuel _, some origin | .raw fuel _, some origin =>
      accountProgram fuel (.top origin) origin.statements moment.before
        (.began origin :: moment.past)
  | .call fuel name arguments, _ =>
      match globalCallable? moment.before name.lexeme arguments.length with
      | some callable =>
          accountCall fuel callable (arguments.map .ofLiteral) moment.before
            moment.past
      | none =>
          []
  | _, _ =>
      []

/-- The account of a session on a fresh machine. -/
def sessionAccount
    (natives : Bool)
    (steps : List SessionStep) :
    List Entry :=
  (sessionMoments natives steps).flatMap Moment.account

/-- Entries lead to the reply and the log of a step, or as far as it is known
when the bound of the step is too small. -/
def Reports
    (before : Machine)
    (past : Log)
    (entries : List Entry)
    (reply : Reply)
    (log : Log) :
    Prop :=
  ∃ after last,
    Leads before past entries after last ∧
      last.SameReceivers log ∧
      (reply.ending ≠ .exhausted → after = reply.machine ∧ last = log)

/-- A watched outcome is reported by its account. -/
theorem Watched.Leads.reports
    {watched : Watched α}
    {before : Machine}
    {log : Log}
    {entries : List Entry}
    (pick : α → Option Value)
    (leads : watched.Leads before log entries) :
    Reports before log entries (.ofOutcome pick before watched.outcome)
      watched.log := by
  cases watched with
  | mk outcome longer =>
      cases outcome with
      | done value after | stopped fault after =>
          exact ⟨after, longer, leads, .refl longer, fun _ => ⟨rfl, rfl⟩⟩
      | broken =>
          exact leads.elim
      | exhausted =>
          obtain ⟨after, last, leads, same⟩ := leads
          exact ⟨after, last, leads, same, fun ended => (ended rfl).elim⟩

/-- A step without a program has nothing to report. -/
theorem Reports.nothing
    {machine : Machine}
    {log : Log}
    {reply : Reply}
    (extended : Extends machine log reply.machine log) :
    Reports machine log [] reply log :=
  ⟨reply.machine, log, .still ⟨extended, .refl log⟩, .refl log,
    fun _ => ⟨rfl, rfl⟩⟩

namespace Steady

variable {steps : List SessionStep} {step : SessionStep}
  {machine : Machine} {log : Log}

/-- Running the tree of a step is reported. -/
theorem reports_program
    {number fuel : Nat}
    {origin : Origin}
    (steady : Steady steps log machine)
    (found : step.origin? number = some origin) :
    Reports machine log
      (accountProgram fuel (.top origin) origin.statements machine
        (.began origin :: log))
      (.ofOutcome (fun _ => none) machine
        (watchProgram fuel (.top origin) origin.statements machine
          (.began origin :: log)).outcome)
      (watchProgram fuel (.top origin) origin.statements machine
        (.began origin :: log)).log := by
  have sound := steady.sound.begin (SessionStep.fits_of_origin? found)
  have stands : Stands (.began origin :: log) machine (.top origin) :=
    ⟨List.mem_cons_self, steady.current⟩
  have begun : Still machine log machine (.began origin :: log) :=
    ⟨.begin machine log origin, .note log rfl⟩
  have leads : Watched.Leads _ _ _ _ :=
    (watchProgram_runs fuel sound stands rfl (.program origin)).leads
  exact (leads.after_still begun).reports _

/-- A direct call is reported. -/
theorem reports_call
    {callable : Callable}
    {name : Text}
    {arguments : List Literal}
    (steady : Steady steps log machine)
    (fuel : Nat)
    (found :
      globalCallable? machine name arguments.length = some callable) :
    Reports machine log
      (accountCall fuel callable (arguments.map .ofLiteral) machine log)
      (.ofOutcome some machine
        (watchCall fuel callable (arguments.map .ofLiteral) machine
          log).outcome)
      (watchCall fuel callable (arguments.map .ofLiteral) machine log).log := by
  obtain ⟨good, arity, goodArguments⟩ := steady.good_globalCallable found
  have leads : Watched.Leads _ _ _ _ :=
    ((preserves fuel).call steady.sound good arity goodArguments).leads
  exact leads.reports _

/-- Every step is reported by its account. -/
theorem reports_step
    (steady : Steady steps log machine)
    (step : SessionStep)
    (number : Nat) :
    Reports machine log (step.moment number machine log).account
      (step.watch number machine log).1
      (step.watch number machine log).2 := by
  cases step with
  | eval fuel source =>
      cases found : (SessionStep.eval fuel source).origin? number with
      | none =>
          obtain ⟨reports, rejected⟩ :=
            SessionStep.run_eval_of_problems found machine
          simp only [SessionStep.watch, SessionStep.moment, Moment.account,
            found, rejected]
          exact .nothing (.refl machine log)
      | some origin =>
          simp only [SessionStep.watch, SessionStep.moment, Moment.account,
            found]
          exact steady.reports_program found
  | raw fuel source =>
      simp only [SessionStep.watch, SessionStep.moment, Moment.account]
      exact steady.reports_program
        (show (SessionStep.raw fuel source).origin? number = some _ from rfl)
  | define name value =>
      exact .nothing
        (.define machine log.not_holdsReceiver_globals name _)
  | assign name value =>
      simp only [SessionStep.watch, SessionStep.moment, Moment.account,
        SessionStep.run, Machine.writeGlobal]
      cases held : machine.frames.holder? Machine.globals name.lexeme with
      | none =>
          exact .nothing (.refl machine log)
      | some holder =>
          obtain rfl := Frames.eq_globals_of_holder? held
          exact .nothing
            (.define machine log.not_holdsReceiver_globals name.lexeme _)
  | get name =>
      simp only [SessionStep.watch, SessionStep.moment, Moment.account,
        SessionStep.run, Machine.readGlobal]
      cases machine.frames.get? Machine.globals name.lexeme with
      | none | some =>
          exact .nothing (.refl machine log)
  | call fuel name arguments =>
      simp only [SessionStep.watch, SessionStep.moment, Moment.account]
      cases found :
          globalCallable? machine name.lexeme arguments.length with
      | none =>
          exact .nothing (.refl machine log)
      | some callable =>
          exact steady.reports_call fuel found
  | wait clock =>
      exact .nothing (.same log rfl rfl)

/-- The accounts of steps lead on, and miss no receiver that is read. -/
theorem accounts
    {rest : List SessionStep}
    {number : Nat}
    (steady : Steady steps log machine)
    (remaining : steps.drop number = rest) :
    let taken := Lexical.moments number rest machine log
    (∃ after last,
      Leads machine log (taken.flatMap Moment.account) after last) ∧
      ∀ moment ∈ taken,
        ∀ use : Use,
          use.form = .receiver →
          .used use ∈ moment.log →
          .used use ∈ log ∨
            ∃ entry ∈ taken.flatMap Moment.account,
              entry.matter = .received use := by
  induction rest generalizing number machine log with
  | nil =>
      exact ⟨⟨machine, log, .refl machine log⟩, fun _ => nofun⟩
  | cons step rest inductionHypothesis =>
      have here : steps[number]? = some step := by
        rw [← Nat.add_zero number, ← List.getElem?_drop, remaining]
        rfl
      have laterRemaining : steps.drop (number + 1) = rest := by
        rw [← List.drop_drop, remaining, List.drop_one, List.tail_cons]
      have settles := steady.settles_step here
      obtain ⟨after, last, leads, same, ends⟩ :=
        steady.reports_step step number
      have tells
          (further : List Entry)
          (use : Use)
          (isReceiver : use.form = .receiver)
          (noted : .used use ∈ (step.watch number machine log).2) :
          .used use ∈ log ∨
            ∃ entry ∈ (step.moment number machine log).account ++ further,
              entry.matter = .received use := by
        have told := leads.told isReceiver (same.uses use isReceiver noted)
        exact told.imp_right fun ⟨entry, member, about⟩ =>
          ⟨entry, List.mem_append_left further member, about⟩
      rw [Lexical.moments]
      dsimp only
      rw [List.flatMap_cons]
      split
      · refine ⟨⟨after, last, leads.append (.refl after last)⟩,
          fun moment member => ?_⟩
        obtain rfl := List.mem_singleton.mp member
        exact tells _
      · rename_i ended
        obtain ⟨rfl, rfl⟩ := ends ended
        obtain ⟨⟨final, longest, further⟩, later⟩ :=
          inductionHypothesis (settles.steady ended) laterRemaining
        refine ⟨⟨final, longest, leads.append further⟩,
          fun moment member use isReceiver noted => ?_⟩
        rcases List.mem_cons.mp member with rfl | member
        · exact tells _ use isReceiver noted
        · rcases later moment member use isReceiver noted with
            here | ⟨entry, told, about⟩
          · exact tells _ use isReceiver here
          · exact .inr ⟨entry, List.mem_append_right _ told, about⟩

end Steady

end Script.Lexical
