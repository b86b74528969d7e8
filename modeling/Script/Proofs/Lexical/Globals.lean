import Script.Proofs.Lexical.Agreement
import Script.Proofs.Lexical.Introducing

namespace Script

/-!
# Only declarations at the top level make global names

Running a source text keeps every global name, and the new ones are those that
its statements at the top level declare; all of them are there when the text has
run to its end.  On the way no statement adds a name but the one that it declares
itself, whatever it calls.
-/

/-- The names that statements declare in the scope around them. -/
def Stmt.declaredNames (stmts : List Stmt) : List Text :=
  stmts.flatMap Stmt.declared

/-- An outcome keeps the global names, adds no others than the given ones, and
has all of these when it has a value. -/
structure Outcome.Declares
    (before : Machine)
    (names : List Text)
    (outcome : Outcome α) :
    Prop where
  kept :
    ∀ after ∈ outcome.machine?,
      ∀ name, before.HasGlobal name → after.HasGlobal name
  introduces : outcome.Introduces before names
  declared :
    ∀ value after,
      outcome = .done value after → ∀ name ∈ names, after.HasGlobal name

namespace Outcome.Declares

variable {before : Machine} {names more : List Text}

theorem done
    (value : α)
    (machine : Machine) :
    (Outcome.done value machine).Declares machine [] where
  kept := by
    rintro after ⟨⟩ name has
    exact has
  introduces := by
    rintro after ⟨⟩
    exact .same rfl []
  declared := by
    rintro value after ⟨⟩ name impossible
    cases impossible

/-- What runs behind an outcome adds its own names. -/
theorem bind
    {outcome : Outcome α}
    {next : α → Machine → Outcome β}
    (first : outcome.Declares before names)
    (second :
      ∀ value after,
        outcome = .done value after →
        (next value after).Declares after more) :
    (outcome.bind next).Declares before (names ++ more) := by
  cases outcome with
  | done value middle =>
      have later := second value middle rfl
      refine ⟨fun after left name has => ?_, fun after left name has => ?_,
        fun result after same name member => ?_⟩
      · exact later.kept after left name (first.kept middle rfl name has)
      · rcases later.introduces after left name has with already | new
        · exact (first.introduces middle rfl name already).imp_right
            (List.mem_append_left more)
        · exact .inr (List.mem_append_right names new)
      · rcases List.mem_append.mp member with early | late
        · exact later.kept after (by rw [Outcome.bind] at same; rw [same]; rfl)
            name (first.declared value middle rfl name early)
        · exact later.declared result after same name late
  | stopped fault after | broken breakage after =>
      refine ⟨first.kept, fun final left name has => ?_,
        fun _ _ done => by cases done⟩
      exact (first.introduces final left name has).imp_right
        (List.mem_append_left more)
  | exhausted =>
      exact
        { kept := fun _ left => by cases left
          introduces := .exhausted before _
          declared := fun _ _ done => by cases done }

/-- What holds of an outcome holds of the step that it is the outcome of. -/
theorem split
    {outcome : Outcome α}
    (declares : outcome.Declares before names) :
    (∀ name,
        before.HasGlobal name →
          (outcome.split before).2.2.HasGlobal name) ∧
      (∀ name,
        (outcome.split before).2.2.HasGlobal name →
          before.HasGlobal name ∨ name ∈ names) ∧
        ((outcome.split before).2.1 = .finished →
          ∀ name ∈ names, (outcome.split before).2.2.HasGlobal name) := by
  cases outcome with
  | done value after =>
      exact ⟨declares.kept after rfl, declares.introduces after rfl,
        fun _ => declares.declared value after rfl⟩
  | stopped fault after | broken breakage after =>
      exact ⟨declares.kept after rfl, declares.introduces after rfl, nofun⟩
  | exhausted =>
      exact ⟨fun _ has => has, fun _ has => .inl has, nofun⟩

end Outcome.Declares

namespace Lexical

/-- What keeps the invariant and brings no names but the given ones into the
global frame, and has them there when it is done. -/
theorem Watched.Keeps.declares
    {watched : Watched α}
    {machine : Machine}
    {log : Log}
    {names : List Text}
    {condition : α → Machine → Log → Prop}
    (keeps : watched.Keeps machine log condition)
    (introduces : watched.outcome.Introduces machine names)
    (declared :
      ∀ value after,
        watched.outcome = .done value after →
        ∀ name ∈ names, after.HasGlobal name) :
    watched.outcome.Declares machine names := by
  refine ⟨?_, introduces, declared⟩
  cases watched with
  | mk outcome last =>
      cases outcome with
      | done | stopped =>
          rintro after ⟨⟩ name has
          exact keeps.1.extended.frames.bound Machine.globals name has
      | broken =>
          exact keeps.elim
      | exhausted =>
          exact nofun

/-- The machine stands at the top level of an analysed tree, in front of the given
statements. -/
structure AtTop
    (log : Log)
    (machine : Machine)
    (position : Position)
    (stmts : List Stmt) :
    Prop where
  sound : Sound log machine
  stands : Stands log machine position
  outermost : position.levels = []
  occurs : Occurs position (.stmts stmts)
  analysed : position.origin.IsAnalysed

namespace AtTop

variable
  {log : Log}
  {machine : Machine}
  {position : Position}
  {first : Stmt}
  {rest : List Stmt}

/-- At the top level names are defined in the global frame. -/
theorem current
    {stmts : List Stmt}
    (atTop : AtTop log machine position stmts) :
    machine.current = Machine.globals := by
  have chain := atTop.stands.chain
  rw [atTop.outermost] at chain
  exact chain

/-- A name that is defined in the current frame at the top level is global. -/
theorem hasGlobal_define
    {machine : Machine}
    (positive : 0 < machine.frames.size)
    (current : machine.current = Machine.globals)
    (name : Text)
    (value : Value) :
    (machine.define name value).HasGlobal name := by
  rw [Machine.HasGlobal, Machine.define, current, Frames.local?_define,
    if_pos ⟨rfl, rfl, positive⟩]
  rfl

/-- A declaration that is done has brought its name into the global frame. -/
theorem declared
    (atTop : AtTop log machine position (first :: rest))
    {fuel : Nat}
    {flow : Flow}
    {after : Machine}
    (ran : machine.execute fuel first = .done flow after) :
    ∀ name ∈ first.declared, after.HasGlobal name := by
  have occurs := atTop.occurs.firstStatement
  have positive := atTop.sound.ordered.positive
  cases fuel with
  | zero =>
      rw [Machine.execute] at ran
      cases ran
  | succ fuel =>
      rw [Machine.execute.eq_def] at ran
      intro name member
      cases first with
      | variableDecl token initial =>
          obtain rfl := List.mem_singleton.mp member
          cases initial with
          | none =>
              cases ran
              exact hasGlobal_define positive atTop.current _ _
          | some initial =>
              have keeps :=
                ((preserves fuel).expr atTop.sound
                  (atTop.stands.initializing token.lexeme)
                  occurs.initializer).keeps
              rw [Watched.Keeps, (erases fuel).expr] at keeps
              cases evaluated : machine.evaluate fuel initial with
              | done value middle =>
                  simp only [evaluated, Outcome.bind] at ran keeps
                  cases ran
                  obtain ⟨goes, same, -⟩ := keeps
                  exact hasGlobal_define goes.sound.ordered.positive
                    (same.trans atTop.current) _ _
              | stopped | broken | exhausted =>
                  simp only [evaluated, Outcome.bind] at ran
                  cases ran
      | functionDecl function =>
          obtain rfl := List.mem_singleton.mp member
          cases ran
          exact hasGlobal_define positive atTop.current _ _
      | classDecl token methods =>
          obtain rfl := List.mem_singleton.mp member
          obtain ⟨made, frames, same, -⟩ :=
            makeMethods_goes atTop.sound occurs.classMethods
          cases ran
          exact hasGlobal_define made.sound.ordered.positive
            (same.trans atTop.current) _ _
      | expression | print | block | conditional | loop | returning
      | missing =>
          cases member

/-- A statement at the top level adds no global name but the one it declares. -/
theorem statement
    (atTop : AtTop log machine position (first :: rest))
    (fuel : Nat) :
    (machine.execute fuel first).Declares machine first.declared := by
  have occurs := atTop.occurs.firstStatement
  have keeps := ((preserves fuel).stmt atTop.sound atTop.stands occurs).keeps
  have introduces :=
    (confine fuel).stmt atTop.sound atTop.stands occurs
      fun _ => atTop.analysed
  have names : position.introduced first = first.declared := by
    rw [Position.introduced, atTop.outermost]
    rfl
  have same := (erases fuel).stmt position first machine log
  rw [names] at introduces
  rw [← same]
  exact keeps.declares introduces fun flow after done =>
    atTop.declared (same.symm.trans done)

/-- The initializer of a name at the top level adds no global name at all. -/
theorem initial
    {name : Token}
    {initial : Expr}
    (atTop :
      AtTop log machine position
        (.variableDecl name (some initial) :: rest))
    (fuel : Nat) :
    (machine.evaluate fuel initial).Declares machine [] := by
  have occurs := atTop.occurs.firstStatement.initializer
  have stands := atTop.stands.initializing name.lexeme
  rw [← (erases fuel).expr (position.initializing name.lexeme) initial machine
    log]
  exact ((preserves fuel).expr atTop.sound stands occurs).keeps.declares
    ((confine fuel).expr atTop.sound stands occurs)
    fun _ _ _ _ impossible => nomatch impossible

/-- Behind a statement that is done the next one is at the top level. -/
theorem next
    (atTop : AtTop log machine position (first :: rest))
    {fuel : Nat}
    {flow : Flow}
    {after : Machine}
    (ran : machine.execute fuel first = .done flow after) :
    ∃ last, AtTop last after position.next rest := by
  have unmoved := position.declaring_top atTop.outermost first
  have occurs := atTop.occurs.laterStatements
  rw [unmoved] at occurs
  have keeps :=
    ((preserves fuel).stmt atTop.sound atTop.stands
      atTop.occurs.firstStatement).keeps
  rw [Watched.Keeps, (erases fuel).stmt, ran] at keeps
  obtain ⟨goes, same, -⟩ := keeps
  exact ⟨_, goes.sound, (atTop.stands.extend goes.extended same).next,
    by simpa using atTop.outermost, occurs,
    by simpa using atTop.analysed⟩

/-- Statements at the top level add the names that they declare. -/
theorem interpret
    {stmts : List Stmt}
    (atTop : AtTop log machine position stmts)
    (fuel : Nat) :
    (machine.interpret fuel stmts).Declares machine
      (Stmt.declaredNames stmts) := by
  induction stmts generalizing log machine position with
  | nil =>
      exact .done () machine
  | cons first rest inductionHypothesis =>
      refine (atTop.statement fuel).bind fun flow after ran => ?_
      obtain ⟨last, behind⟩ := atTop.next ran
      exact inductionHypothesis behind

/-- Behind statements that are done the next ones are at the top level. -/
theorem behind
    {earlier later : List Stmt}
    (atTop : AtTop log machine position (earlier ++ later))
    {fuel : Nat}
    {middle : Machine}
    (ran : machine.interpret fuel earlier = .done () middle) :
    ∃ last place, AtTop last middle place later := by
  induction earlier generalizing log machine position with
  | nil =>
      cases ran
      exact ⟨log, position, atTop⟩
  | cons first rest inductionHypothesis =>
      rw [Machine.interpret] at ran
      cases executed : machine.execute fuel first with
      | done flow after =>
          rw [executed] at ran
          obtain ⟨last, next⟩ := atTop.next executed
          exact inductionHypothesis next ran
      | stopped | broken | exhausted =>
          rw [executed] at ran
          cases ran

end AtTop

/-- Resolving statements keeps the names that they declare. -/
theorem declaredNames_resolveStmts
    (site : Site)
    (stmts : List Stmt) :
    Stmt.declaredNames (site.resolveStmts stmts) =
      Stmt.declaredNames stmts := by
  induction stmts generalizing site with
  | nil =>
      rfl
  | cons first rest inductionHypothesis =>
      have here : (site.resolveStmt first).declared = first.declared := by
        rw [Stmt.declared, declaredName?_resolveStmt, Stmt.declared]
      have later := inductionHypothesis (site.after first)
      rw [Stmt.declaredNames] at later
      rw [Site.resolveStmts, Stmt.declaredNames, List.flatMap_cons, here, later]
      rfl

namespace Steady

variable {steps : List SessionStep} {machine : Machine} {log : Log}

/-- The machine before each step of a session is steady. -/
theorem before
    {rest : List SessionStep}
    {number : Nat}
    (steady : Steady steps log machine)
    (remaining : steps.drop number = rest)
    (moment : Moment)
    (taken : moment ∈ Lexical.moments number rest machine log) :
    Steady steps moment.past moment.before := by
  induction rest generalizing number machine log with
  | nil =>
      cases taken
  | cons step rest inductionHypothesis =>
      have here : steps[number]? = some step := by
        rw [← Nat.add_zero number, ← List.getElem?_drop, remaining]
        rfl
      rw [Lexical.moments] at taken
      rcases List.mem_cons.mp taken with rfl | later
      · exact steady
      · have laterRemaining : steps.drop (number + 1) = rest := by
          rw [← List.drop_drop, remaining, List.drop_one, List.tail_cons]
        split at later
        · cases later
        · rename_i ended
          exact inductionHypothesis
            ((steady.settles_step here).steady ended) laterRemaining later

/-- A source text without problems starts at the top level. -/
theorem atTop
    {source : Text}
    (steady : Steady steps log machine)
    (parsed : (Program.ofSource source).problems = [])
    (analysed :
      Site.outermost.stmtsProblems (Program.ofSource source).statements =
        []) :
    ∃ last position,
      AtTop last machine position
        (Site.outermost.resolveStmts
          (Program.ofSource source).statements) := by
  let origin : Origin :=
    { number := 0
      resolved := true
      statements :=
        Site.outermost.resolveStmts (Program.ofSource source).statements }
  have found :
      (SessionStep.eval 0 source).origin? 0 = some origin := by
    simp [SessionStep.origin?, parsed, Resolution.ofStatements, analysed,
      origin]
  refine ⟨.began origin :: log, .top origin,
    steady.sound.begin (SessionStep.fits_of_origin? found),
    ⟨List.mem_cons_self, steady.current⟩, rfl, .program origin, ?_⟩
  exact ⟨_, rfl, SessionStep.statements_wellFormed source, analysed⟩

end Steady

/-- What a source text that is run does to the global names: they stay, the
statements at the top level add those that they declare, each statement its own,
and nothing else adds any. -/
structure Moment.Declares
    (moment : Moment)
    (source : Text) :
    Prop where
  kept :
    ∀ name,
      moment.before.HasGlobal name → moment.reply.machine.HasGlobal name
  introduced :
    ∀ name,
      moment.reply.machine.HasGlobal name →
      moment.before.HasGlobal name ∨
        name ∈ Stmt.declaredNames (Program.ofSource source).statements
  finished :
    moment.reply.ending = .finished →
    ∀ name ∈ Stmt.declaredNames (Program.ofSource source).statements,
      moment.reply.machine.HasGlobal name
  /-- A statement at the top level, whatever it calls, adds the name that it
  declares, and its initializer adds none. -/
  statement :
    (Program.ofSource source).problems = [] →
    Site.outermost.stmtsProblems (Program.ofSource source).statements = [] →
    ∀ fuel earlier stmt later middle,
      Site.outermost.resolveStmts (Program.ofSource source).statements =
        earlier ++ stmt :: later →
      moment.before.interpret fuel earlier = .done () middle →
      (∀ bound,
        (middle.execute bound stmt).Declares middle stmt.declared) ∧
        ∀ name initial,
          stmt = .variableDecl name (some initial) →
          ∀ bound, (middle.evaluate bound initial).Declares middle []
  /-- An assignment, wherever it stands, adds no name; to a name that is nowhere it
  fails and changes nothing. -/
  assignment :
    ∀ use,
      .used use ∈ moment.log →
      use.form = .assignment →
      use.position.origin.resolved = true →
      ∀ value,
        (use.machine.assign use.name use.distance value).Introduces
            use.machine [] ∧
          (use.distance = none →
            ¬ use.machine.HasGlobal use.name.lexeme →
            use.machine.assign use.name use.distance value =
              .stopped { token := use.name, cause := .undefinedVariable }
                use.machine)

/-- An assignment to a global name that is not there fails. -/
theorem Use.Agrees.assign_undefined
    {log : Log}
    {use : Use}
    (agrees : use.Agrees log)
    (global : use.distance = none)
    (missing : ¬ use.machine.HasGlobal use.name.lexeme)
    (value : Value) :
    use.machine.assign use.name use.distance value =
      .stopped { token := use.name, cause := .undefinedVariable }
        use.machine := by
  unfold Use.Agrees at agrees
  rw [global] at agrees
  exact (agrees.undefined (Option.not_isSome_iff_eq_none.mp missing)).assigns
    value

/-- In a session on a fresh machine, every source text adds just the global names
that its statements at the top level declare, however it ends. -/
theorem session_declares
    (natives : Bool)
    (steps : List SessionStep)
    {moment : Moment}
    (taken : moment ∈ sessionMoments natives steps)
    {fuel : Nat}
    {source : Text}
    (isEval : moment.step = .eval fuel source) :
    moment.Declares source := by
  have fresh := Steady.fresh natives steps
  have steady := fresh.before rfl moment taken
  obtain ⟨here, reply, settles⟩ := fresh.moments rfl moment taken
  rw [isEval] at reply
  have assignment :
      ∀ use,
        .used use ∈ moment.log →
        use.form = .assignment →
        use.position.origin.resolved = true →
        ∀ value,
          (use.machine.assign use.name use.distance value).Introduces
              use.machine [] ∧
            (use.distance = none →
              ¬ use.machine.HasGlobal use.name.lexeme →
              use.machine.assign use.name use.distance value =
                .stopped { token := use.name, cause := .undefinedVariable }
                  use.machine) := by
    intro use member _ analysed value
    obtain ⟨later, earlier, noted⟩ := List.append_of_mem member
    have right : use.Right earlier := settles.right.event noted
    have agrees := right.agrees analysed
    exact ⟨agrees.introduces value,
      fun global missing => agrees.assign_undefined global missing value⟩
  by_cases accepted :
      (Program.ofSource source).problems = [] ∧
        Site.outermost.stmtsProblems (Program.ofSource source).statements = []
  · obtain ⟨last, position, atTop⟩ := steady.atTop accepted.1 accepted.2
    have declares := atTop.interpret fuel
    rw [declaredNames_resolveStmts] at declares
    have run :
        moment.reply =
          .ofEnding
            ((moment.before.interpret fuel
              (Site.outermost.resolveStmts
                (Program.ofSource source).statements)).split
                  moment.before).2 := by
      rw [reply]
      simp only [SessionStep.run, Machine.runSource, accepted.1,
        Failure.ofDiagnostics?_nil, Resolution.ofStatements, accepted.2]
      rfl
    obtain ⟨kept, introduced, finished⟩ := declares.split
    refine ⟨by rw [run]; exact kept, by rw [run]; exact introduced,
      by rw [run]; exact finished, ?_, assignment⟩
    intro _ _ ran earlier stmt rest middle whole before
    rw [whole] at atTop
    obtain ⟨log, place, there⟩ := atTop.behind before
    refine ⟨there.statement, ?_⟩
    rintro name initial rfl
    exact there.initial
  · have rejected :
        (SessionStep.eval fuel source).origin? 0 = none := by
      simpa [SessionStep.origin?, Resolution.ofStatements] using accepted
    obtain ⟨reports, failed⟩ :=
      SessionStep.run_eval_of_problems rejected moment.before
    rw [failed] at reply
    exact
      { kept := fun name has => by rw [reply]; exact has
        introduced := fun name has => by rw [reply] at has; exact .inl has
        finished := fun finished => by rw [reply] at finished; cases finished
        statement := fun parsed analysed =>
          (accepted ⟨parsed, analysed⟩).elim
        assignment }

/-- A function that assigns to a name that is nowhere, and a text that calls it
between two declarations. -/
def strayAssignment : List SessionStep :=
  [.eval 50 (Text.utf8 "fun stray() \x7b nowhere = 1; \x7d"),
   .eval 50 (Text.utf8 "var first = 1; stray(); var second = 2;")]

/-- Whether a machine has a global name from in front of the call, and none from
the function or from behind the call. -/
def Moment.stopsStray (moment : Moment) : Bool :=
  moment.number == 1 &&
    decide (moment.reply.machine.HasGlobal (Text.utf8 "first")) &&
      !decide (moment.reply.machine.HasGlobal (Text.utf8 "nowhere")) &&
        !decide (moment.reply.machine.HasGlobal (Text.utf8 "second"))

/-- The second text stops in the function of the first one; only the declaration
in front of the call has made a name. -/
theorem session_declares_strayAssignment :
    ∃ moment ∈ sessionMoments true strayAssignment,
      moment.Declares
          (Text.utf8 "var first = 1; stray(); var second = 2;") ∧
        moment.reply.machine.HasGlobal (Text.utf8 "first") ∧
        ¬ moment.reply.machine.HasGlobal (Text.utf8 "nowhere") ∧
        ¬ moment.reply.machine.HasGlobal (Text.utf8 "second") := by
  have met :
      (sessionMoments true strayAssignment).any Moment.stopsStray = true := by
    decide +kernel
  obtain ⟨moment, taken, found⟩ := List.any_eq_true.mp met
  simp only [Moment.stopsStray, Bool.and_eq_true, beq_iff_eq,
    decide_eq_true_eq, Bool.not_eq_eq_eq_not, Bool.not_true,
    decide_eq_false_iff_not] at found
  obtain ⟨⟨⟨number, first⟩, nowhere⟩, second⟩ := found
  have here :=
    ((Steady.fresh true strayAssignment).moments rfl moment taken).1
  rw [number] at here
  have isEval :
      moment.step =
        .eval 50 (Text.utf8 "var first = 1; stray(); var second = 2;") :=
    (Option.some.inj here).symm
  exact ⟨moment, taken, session_declares true strayAssignment taken isEval,
    first, nowhere, second⟩

end Lexical

end Script
