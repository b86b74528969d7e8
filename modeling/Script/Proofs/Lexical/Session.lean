import Script.Proofs.Lexical.Analysed
import Script.Proofs.Lexical.Preservation
import Script.Proofs.Tree.Building
import Script.Session

namespace Script

/-!
# Watched sessions

A session is a row of steps on one machine, and a watched session keeps one log
for all of them.  The invariant holds between the steps, however each of them
ends, so what it says of uses and faults holds throughout.  A session ends with a
step whose bound was too small, since nothing is known of the machine then.
-/

namespace Failure

theorem ofDiagnostics?_nil : ofDiagnostics? [] = none :=
  rfl

theorem ofDiagnostics?_of_ne_nil
    {diagnostics : List Diagnostic}
    (found : diagnostics ≠ []) :
    ofDiagnostics? diagnostics =
      some
        (.invalid
          (diagnostics.map fun problem => some (.ofDiagnostic problem))) := by
  rw [ofDiagnostics?, if_neg (by simpa using found)]

end Failure

end Script

namespace Script.Lexical

/-- A step of a session. -/
inductive SessionStep where
  /-- Parse, analyse and run a source text. -/
  | eval (fuel : Nat) (source : Text)
  /-- Parse a source text and run what survives without analysing it. -/
  | raw (fuel : Nat) (source : Text)
  /-- Bind a global name to a literal. -/
  | define (name : Text) (value : Literal)
  /-- Change the value of a global name. -/
  | assign (name : Token) (value : Literal)
  /-- Read a global name. -/
  | get (name : Token)
  /-- Call what a global name has, when it takes that many arguments. -/
  | call (fuel : Nat) (name : Token) (arguments : List Literal)
  /-- Let time go by: from here on the host tells the time by another clock. -/
  | wait (clock : Nat → Float)

/-- What a step gives, how it ended, and the machine behind it. -/
structure Reply where
  value : Option Value
  ending : Ending
  machine : Machine

namespace Reply

/-- The reply of a step that gives nothing. -/
def ofEnding (ran : Ending × Machine) : Reply where
  value := none
  ending := ran.1
  machine := ran.2

/-- The reply of a step that gives what it picks from an outcome. -/
def ofOutcome
    (pick : α → Option Value)
    (before : Machine)
    (outcome : Outcome α) :
    Reply where
  value := (outcome.split before).1.bind pick
  ending := (outcome.split before).2.1
  machine := (outcome.split before).2.2

/-- Of a program only the ending counts. -/
theorem ofOutcome_nothing
    (machine : Machine)
    (outcome : Outcome Unit) :
    ofOutcome (fun _ => none) machine outcome =
      ofEnding (outcome.split machine).2 := by
  cases outcome <;> rfl

end Reply

/-- The callable that a global name has, when it takes a number of arguments. -/
def globalCallable?
    (machine : Machine)
    (name : Text)
    (given : Nat) :
    Option Callable :=
  ((machine.frames.get? Machine.globals name).bind Value.callable?).filter
    fun callable => callable.arity = given

namespace SessionStep

/-- Take a step. -/
def run
    (step : SessionStep)
    (machine : Machine) :
    Reply :=
  match step with
  | .eval fuel source =>
      .ofEnding (machine.runSource fuel source)
  | .raw fuel source =>
      .ofEnding (machine.runTree fuel (Program.ofSource source).statements)
  | .define name value =>
      .ofEnding (.finished, machine.defineGlobal name (.ofLiteral value))
  | .assign name value =>
      .ofOutcome some machine (machine.writeGlobal name (.ofLiteral value))
  | .get name =>
      .ofOutcome some machine (machine.readGlobal name)
  | .call fuel name arguments =>
      match globalCallable? machine name.lexeme arguments.length with
      | some callable =>
          .ofOutcome some machine
            (machine.call fuel callable (arguments.map .ofLiteral))
      | none =>
          .ofEnding (.finished, machine)
  | .wait clock =>
      .ofEnding (.finished, { machine with clock })

/-- The tree that a step runs, if it runs one: that of a text without problems,
or whatever survives in a text that is not analysed. -/
def origin?
    (step : SessionStep)
    (number : Nat) :
    Option Origin :=
  match step with
  | .eval _ source =>
      let program := Program.ofSource source
      let resolution := Resolution.ofStatements program.statements
      if program.problems.isEmpty && resolution.problems.isEmpty then
        some
          { number, resolved := true, statements := resolution.statements }
      else
        none
  | .raw _ source =>
      some
        { number
          resolved := false
          statements := (Program.ofSource source).statements }
  | _ =>
      none

/-- Take a step and keep the log. -/
def watch
    (step : SessionStep)
    (number : Nat)
    (machine : Machine)
    (log : Log) :
    Reply × Log :=
  match step, step.origin? number with
  | .eval fuel _, some origin | .raw fuel _, some origin =>
      let watched :=
        watchProgram fuel (.top origin) origin.statements machine
          (.began origin :: log)
      (.ofOutcome (fun _ => none) machine watched.outcome, watched.log)
  | .call fuel name arguments, _ =>
      match globalCallable? machine name.lexeme arguments.length with
      | some callable =>
          let watched :=
            watchCall fuel callable (arguments.map .ofLiteral) machine log
          (.ofOutcome some machine watched.outcome, watched.log)
      | none =>
          (.ofEnding (.finished, machine), log)
  | _, _ =>
      (step.run machine, log)

/-- A text with problems is not run. -/
theorem run_eval_of_problems
    {fuel : Nat}
    {source : Text}
    {number : Nat}
    (rejected : (SessionStep.eval fuel source).origin? number = none)
    (machine : Machine) :
    ∃ reports,
      (SessionStep.eval fuel source).run machine =
        .ofEnding (.failed (.invalid reports), machine) := by
  simp only [origin?, Bool.and_eq_true, List.isEmpty_iff] at rejected
  unfold run Machine.runSource
  by_cases parsed : (Program.ofSource source).problems = []
  · by_cases analysed :
        (Resolution.ofStatements
          (Program.ofSource source).statements).problems = []
    · rw [if_pos ⟨parsed, analysed⟩] at rejected
      cases rejected
    · simp only [parsed, Failure.ofDiagnostics?_nil,
        Failure.ofDiagnostics?_of_ne_nil analysed]
      exact ⟨_, rfl⟩
  · simp only [Failure.ofDiagnostics?_of_ne_nil parsed]
    exact ⟨_, rfl⟩

/-- A text without problems is run with its distances. -/
theorem run_eval_of_origin
    {fuel : Nat}
    {source : Text}
    {number : Nat}
    {origin : Origin}
    (accepted : (SessionStep.eval fuel source).origin? number = some origin)
    (machine : Machine) :
    (SessionStep.eval fuel source).run machine =
      .ofEnding (machine.runTree fuel origin.statements) := by
  simp only [origin?, Option.ite_none_right_eq_some, Bool.and_eq_true,
    List.isEmpty_iff, Option.some.injEq] at accepted
  obtain ⟨⟨parsed, analysed⟩, rfl⟩ := accepted
  simp only [run, Machine.runSource, Failure.ofDiagnostics?_nil, parsed,
    analysed]

/-- The tree of a step has the number of the step. -/
theorem number_of_origin?
    {step : SessionStep}
    {number : Nat}
    {origin : Origin}
    (found : step.origin? number = some origin) :
    origin.number = number := by
  cases step with
  | eval fuel source =>
      simp only [origin?, Option.ite_none_right_eq_some,
        Option.some.injEq] at found
      obtain ⟨-, rfl⟩ := found
      rfl
  | raw fuel source =>
      cases found
      rfl
  | define | assign | get | call | wait =>
      cases found

/-- The statements of a text are well formed, whatever its problems. -/
theorem statements_wellFormed
    (source : Text)
    (stmt : Stmt)
    (member : stmt ∈ (Program.ofSource source).statements) :
    stmt.WellFormed SpelledToken :=
  Program.statements_wellFormed (Scan.ofSource_spelled source) stmt member

/-- The tree of a step is as it should be. -/
theorem fits_of_origin?
    {step : SessionStep}
    {number : Nat}
    {origin : Origin}
    (found : step.origin? number = some origin) :
    origin.Fits := by
  cases step with
  | eval fuel source =>
      simp only [origin?, Option.ite_none_right_eq_some, Bool.and_eq_true,
        List.isEmpty_iff, Option.some.injEq] at found
      obtain ⟨⟨-, analysed⟩, rfl⟩ := found
      exact fits_of_resolution rfl rfl (statements_wellFormed source) analysed
  | raw fuel source =>
      cases found
      exact fits_of_wellFormed rfl (statements_wellFormed source)
  | define | assign | get | call | wait =>
      cases found

/-- A watched step replies as the step does. -/
theorem watch_reply
    (step : SessionStep)
    (number : Nat)
    (machine : Machine)
    (log : Log) :
    (step.watch number machine log).1 = step.run machine := by
  cases step with
  | eval fuel source =>
      cases found : (SessionStep.eval fuel source).origin? number with
      | none =>
          simp only [watch, found]
      | some origin =>
          rw [run_eval_of_origin found]
          simp only [watch, found, watchProgram_outcome]
          exact Reply.ofOutcome_nothing machine _
  | raw fuel source =>
      simp only [watch, origin?, watchProgram_outcome]
      exact Reply.ofOutcome_nothing machine _
  | define | assign | get | wait =>
      rfl
  | call fuel name arguments =>
      simp only [watch, run]
      cases globalCallable? machine name.lexeme arguments.length with
      | none =>
          rfl
      | some callable =>
          simp only [(erases fuel).call]

end SessionStep

/-- A tree is the one that a step of the session runs. -/
def Origin.IsOf
    (steps : List SessionStep)
    (origin : Origin) :
    Prop :=
  ∃ step,
    steps[origin.number]? = some step ∧
      step.origin? origin.number = some origin

/-- The invariant between the steps of a session. -/
structure Steady
    (steps : List SessionStep)
    (log : Log)
    (machine : Machine) :
    Prop where
  sound : Sound log machine
  current : machine.current = Machine.globals
  origins : ∀ origin, .began origin ∈ log → origin.IsOf steps

/-- What holds of a fault in a step: it may happen to a program, or a name that
the step itself names has no value. -/
def SessionStep.MayStop
    (step : SessionStep)
    (log : Log)
    (fault : Fault) :
    Prop :=
  FaultRight log fault ∨
    fault.cause = .undefinedVariable ∧ ∀ fuel source, step ≠ .eval fuel source

/-- What holds when a step has ended: the invariant, and how it may have
ended. -/
structure Settles
    (steps : List SessionStep)
    (step : SessionStep)
    (before : Machine)
    (past : Log)
    (reply : Reply)
    (log : Log) :
    Prop where
  right : log.Right
  origins : ∀ origin, .began origin ∈ log → origin.IsOf steps
  steady : reply.ending ≠ .exhausted → Steady steps log reply.machine
  whole : ∀ breakage, reply.ending ≠ .broken breakage
  good : ∀ value ∈ reply.value, Good log reply.machine value
  failure :
    ∀ failure,
      reply.ending = .failed failure →
      (∃ fault, failure = .stopped fault ∧ step.MayStop log fault) ∨
        failure.isStatic = true ∧ reply.machine = before ∧ log = past

namespace Steady

variable {steps : List SessionStep} {step : SessionStep}
  {machine : Machine} {log : Log}

/-- A run that keeps the invariant settles its step. -/
theorem settles
    {start : Log}
    {condition : α → Machine → Log → Prop}
    {watched : Watched α}
    {pick : α → Option Value}
    (steady : Steady steps start machine)
    (keeps : watched.Keeps machine start condition)
    (good :
      ∀ value after last,
        condition value after last →
        ∀ picked ∈ pick value, Good last after picked) :
    Settles steps step machine log
      (.ofOutcome pick machine watched.outcome) watched.log := by
  cases watched with
  | mk outcome last =>
      cases outcome with
      | done value after =>
          obtain ⟨goes, current, holds⟩ := keeps
          have origins :
              ∀ origin, .began origin ∈ last → origin.IsOf steps :=
            fun origin member => steady.origins origin (goes.fresh origin member)
          exact
            { right := goes.sound.right
              origins
              steady := fun _ =>
                ⟨goes.sound, current.trans steady.current, origins⟩
              whole := fun _ => nofun
              good := good value after last holds
              failure := fun _ => nofun }
      | stopped fault after =>
          obtain ⟨goes, current, faultRight⟩ := keeps
          have origins :
              ∀ origin, .began origin ∈ last → origin.IsOf steps :=
            fun origin member => steady.origins origin (goes.fresh origin member)
          exact
            { right := goes.sound.right
              origins
              steady := fun _ =>
                ⟨goes.sound, current.trans steady.current, origins⟩
              whole := fun _ => nofun
              good := fun _ => nofun
              failure := by
                intro failure same
                cases same
                exact .inl ⟨fault, rfl, .inl faultRight⟩ }
      | broken breakage after =>
          exact keeps.elim
      | exhausted =>
          exact
            { right := keeps.1
              origins := fun origin member =>
                steady.origins origin (keeps.2 origin member)
              steady := fun ended => (ended rfl).elim
              whole := fun _ => nofun
              good := fun _ => nofun
              failure := fun _ => nofun }

/-- A step that ends at once leaves the log as it was. -/
theorem settles_finished
    {value : Option Value}
    {after : Machine}
    (steady : Steady steps log after)
    (good : ∀ given ∈ value, Good log after given) :
    Settles steps step machine log
      { value, ending := .finished, machine := after } log where
  right := steady.sound.right
  origins := steady.origins
  steady _ := steady
  whole _ := nofun
  good := good
  failure _ := nofun

/-- A step that fails at once leaves the machine as it was too. -/
theorem settles_failed
    {failure : Failure}
    (steady : Steady steps log machine)
    (reason :
      (∃ fault, failure = .stopped fault ∧ step.MayStop log fault) ∨
        failure.isStatic = true) :
    Settles steps step machine log
      (.ofEnding (.failed failure, machine)) log where
  right := steady.sound.right
  origins := steady.origins
  steady _ := steady
  whole _ := nofun
  good _ := nofun
  failure := by
    rintro failure ⟨⟩
    exact reason.imp_right fun isStatic => ⟨isStatic, rfl, rfl⟩

/-- Running the tree of a step settles the step. -/
theorem settles_program
    {number fuel : Nat}
    {origin : Origin}
    (steady : Steady steps log machine)
    (here : steps[number]? = some step)
    (found : step.origin? number = some origin) :
    Settles steps step machine log
      (.ofOutcome (fun _ => none) machine
        (watchProgram fuel (.top origin) origin.statements machine
          (.began origin :: log)).outcome)
      (watchProgram fuel (.top origin) origin.statements machine
        (.began origin :: log)).log := by
  have isOf : origin.IsOf steps := by
    have same := SessionStep.number_of_origin? found
    exact ⟨step, same ▸ here, same ▸ found⟩
  have begun : Steady steps (.began origin :: log) machine := by
    refine ⟨steady.sound.begin (SessionStep.fits_of_origin? found),
      steady.current, ?_⟩
    intro other member
    rcases List.mem_cons.mp member with same | member
    · cases same
      exact isOf
    · exact steady.origins other member
  have stands : Stands (.began origin :: log) machine (.top origin) :=
    ⟨List.mem_cons_self, steady.current⟩
  exact begun.settles
    (watchProgram_runs fuel begun.sound stands rfl (.program origin)).keeps
    fun _ _ _ _ _ => nofun

/-- Binding a global name to a literal keeps the invariant. -/
theorem define
    (steady : Steady steps log machine)
    (name : Text)
    {value : Value}
    (good : ∀ later : Machine, Good log later value) :
    Steady steps log (machine.defineGlobal name value) :=
  ⟨(Goes.define steady.sound log.not_holdsReceiver_globals name value
    (good _)).sound, steady.current, steady.origins⟩

/-- The bound on calls and the clock do not matter to the invariant. -/
theorem adjust
    (steady : Steady steps log machine)
    (callLimit : Option Nat)
    (clock : Nat → Float) :
    Steady steps log { machine with callLimit, clock } := by
  have goes :
      Goes machine log { machine with callLimit, clock } log :=
    .same steady.sound rfl rfl le_rfl
  exact ⟨goes.sound, steady.current, steady.origins⟩

/-- What a global name has may be called with as many literals as it takes. -/
theorem good_globalCallable
    {callable : Callable}
    {name : Text}
    {arguments : List Literal}
    (steady : Steady steps log machine)
    (found :
      globalCallable? machine name arguments.length = some callable) :
    GoodCallable log machine callable ∧
      callable.arity =
        ((arguments.map Value.ofLiteral).length : Int) ∧
      ∀ argument ∈ arguments.map Value.ofLiteral,
        Good log machine argument := by
  obtain ⟨called, arity⟩ := Option.filter_eq_some_iff.mp found
  obtain ⟨value, stored, isCallable⟩ := Option.bind_eq_some_iff.mp called
  obtain ⟨holder, -, held⟩ := Option.bind_eq_some_iff.mp stored
  have good : Good log machine value :=
    steady.sound.frames holder name value held
  refine ⟨good.callable isCallable, by simpa using arity, ?_⟩
  intro argument member
  obtain ⟨literal, -, rfl⟩ := List.mem_map.mp member
  exact good_ofLiteral log machine literal

/-- A direct call settles its step. -/
theorem settles_call
    {callable : Callable}
    {name : Text}
    {arguments : List Literal}
    (steady : Steady steps log machine)
    (fuel : Nat)
    (found :
      globalCallable? machine name arguments.length = some callable) :
    Settles steps step machine log
      (.ofOutcome some machine
        (watchCall fuel callable (arguments.map .ofLiteral) machine
          log).outcome)
      (watchCall fuel callable (arguments.map .ofLiteral) machine log).log := by
  obtain ⟨good, arity, goodArguments⟩ := steady.good_globalCallable found
  refine steady.settles
    ((preserves fuel).call steady.sound good arity goodArguments).keeps ?_
  rintro value after last holds picked ⟨⟩
  exact holds

/-- What a step can do. -/
theorem settles_step
    {number : Nat}
    (steady : Steady steps log machine)
    (here : steps[number]? = some step) :
    Settles steps step machine log (step.watch number machine log).1
      (step.watch number machine log).2 := by
  cases step with
  | eval fuel source =>
      cases found : (SessionStep.eval fuel source).origin? number with
      | none =>
          obtain ⟨reports, rejected⟩ :=
            SessionStep.run_eval_of_problems found machine
          simp only [SessionStep.watch, found, rejected]
          exact steady.settles_failed (.inr rfl)
      | some origin =>
          simp only [SessionStep.watch, found]
          exact steady.settles_program here found
  | raw fuel source =>
      simp only [SessionStep.watch]
      exact steady.settles_program here rfl
  | define name value =>
      exact (steady.define name
        fun later => good_ofLiteral log later value).settles_finished
          fun _ => nofun
  | assign name value =>
      simp only [SessionStep.watch, SessionStep.run, Machine.writeGlobal]
      cases held : machine.frames.holder? Machine.globals name.lexeme with
      | none =>
          exact steady.settles_failed
            (.inl ⟨_, rfl, .inr ⟨rfl, fun _ _ same => by cases same⟩⟩)
      | some holder =>
          obtain rfl := Frames.eq_globals_of_holder? held
          refine (steady.define name.lexeme
            fun later => good_ofLiteral log later value).settles_finished ?_
          rintro given ⟨⟩
          exact good_ofLiteral log _ value
  | get name =>
      simp only [SessionStep.watch, SessionStep.run, Machine.readGlobal]
      cases found : machine.frames.get? Machine.globals name.lexeme with
      | none =>
          exact steady.settles_failed
            (.inl ⟨_, rfl, .inr ⟨rfl, fun _ _ same => by cases same⟩⟩)
      | some value =>
          refine steady.settles_finished ?_
          rintro given ⟨⟩
          obtain ⟨holder, -, held⟩ := Option.bind_eq_some_iff.mp found
          exact steady.sound.frames holder name.lexeme value held
  | call fuel name arguments =>
      simp only [SessionStep.watch]
      cases found :
          globalCallable? machine name.lexeme arguments.length with
      | none =>
          exact steady.settles_finished fun _ => nofun
      | some callable =>
          exact steady.settles_call fuel found
  | wait clock =>
      exact (steady.adjust machine.callLimit clock).settles_finished
        fun _ => nofun

end Steady

/-- A step as it was taken: the machine and the log before it, and the reply and
the log after it. -/
structure Moment where
  number : Nat
  step : SessionStep
  before : Machine
  past : Log
  reply : Reply
  log : Log

/-- The moments of the steps from a given one on.  A step that does not come to
its end within its bound is the last one. -/
def moments
    (number : Nat)
    (steps : List SessionStep)
    (machine : Machine)
    (log : Log) :
    List Moment :=
  match steps with
  | [] =>
      []
  | step :: rest =>
      let (reply, longer) := step.watch number machine log
      { number, step, before := machine, past := log, reply, log := longer } ::
        match reply.ending with
        | .exhausted =>
            []
        | _ =>
            moments (number + 1) rest reply.machine longer

/-- A machine that nothing has run on, with or without the host functions. -/
def freshMachine : (natives : Bool) → Machine
  | true =>
      .standard
  | false =>
      .bare

/-- The moments of a session on a fresh machine. -/
def sessionMoments
    (natives : Bool)
    (steps : List SessionStep) :
    List Moment :=
  moments 0 steps (freshMachine natives) []

namespace Steady

/-- A machine with no names is steady. -/
theorem bare (steps : List SessionStep) : Steady steps [] .bare := by
  have nothing :
      ∀ frame name, Machine.bare.frames.local? frame name = none := by
    intro frame name
    rw [Machine.bare, Frames.local?_push]
    split <;> rfl
  refine ⟨⟨⟨by decide, rfl, ?_⟩, ?_, ?_, fun _ _ => rfl, fun _ _ => rfl,
    fun _ => nofun, trivial⟩, rfl, fun _ => nofun⟩
  · intro frame inside notOutermost
    exact (notOutermost (Nat.lt_one_iff.mp inside)).elim
  · intro frame name value found
    rw [nothing] at found
    cases found
  · intro index bindings stored
    cases stored

/-- A fresh machine is steady. -/
theorem fresh
    (natives : Bool)
    (steps : List SessionStep) :
    Steady steps [] (freshMachine natives) := by
  cases natives with
  | false =>
      exact bare steps
  | true =>
      have withClock :=
        (bare steps).define (Text.utf8 "clock")
          (show ∀ later, Good [] later (.native .clock) from fun _ => trivial)
      exact withClock.define (Text.utf8 "str") fun _ => trivial

/-- Every moment of a session is settled, and the reply is that of the step. -/
theorem moments
    {steps rest : List SessionStep}
    {number : Nat}
    {machine : Machine}
    {log : Log}
    (steady : Steady steps log machine)
    (remaining : steps.drop number = rest)
    (moment : Moment)
    (taken : moment ∈ Lexical.moments number rest machine log) :
    steps[moment.number]? = some moment.step ∧
      moment.reply = moment.step.run moment.before ∧
      Settles steps moment.step moment.before moment.past moment.reply
        moment.log := by
  induction rest generalizing number machine log with
  | nil =>
      cases taken
  | cons step rest inductionHypothesis =>
      have here : steps[number]? = some step := by
        rw [← Nat.add_zero number, ← List.getElem?_drop, remaining]
        rfl
      have settles := steady.settles_step here
      rw [Lexical.moments] at taken
      rcases List.mem_cons.mp taken with rfl | later
      · exact ⟨here, step.watch_reply number machine log, settles⟩
      · have laterRemaining : steps.drop (number + 1) = rest := by
          rw [← List.drop_drop, remaining, List.drop_one, List.tail_cons]
        split at later
        · cases later
        · rename_i ended
          exact inductionHypothesis (settles.steady ended) laterRemaining later

end Steady

end Script.Lexical
