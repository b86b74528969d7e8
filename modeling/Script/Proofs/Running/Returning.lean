import Script.Proofs.Lexical.Session
import Script.Proofs.Running.Unwinding

namespace Script

/-!
# Steps of a session unwind

A statement returns only through a `return` that is in no function of its own.
Analysis leaves no such `return` at the top level, so the statements of an analysed
program end normally or with a fault.  Whatever a step of a session does, it ends
where it began, and a session begins in the frame of the global names with no call
under way.
-/

mutual

/-- Whether a statement has a `return` that is in no function inside of it. -/
def Stmt.returns : Stmt → Bool
  | .returning _ _ =>
      true
  | .block body =>
      Stmt.anyReturns body
  | .conditional _ consequent none =>
      consequent.returns
  | .conditional _ consequent (some alternative) =>
      consequent.returns || alternative.returns
  | .loop _ body =>
      body.returns
  | _ =>
      false

/-- Whether one of the statements has a `return` that is in no function inside. -/
def Stmt.anyReturns : List Stmt → Bool
  | [] =>
      false
  | first :: rest =>
      first.returns || Stmt.anyReturns rest

end

namespace Site

mutual

/-- Filling in distances makes no `return`. -/
theorem returns_resolveStmt
    (site : Site) :
    (stmt : Stmt) →
    (resolveStmt site stmt).returns = stmt.returns
  | .block body => by
      rw [resolveStmt, Stmt.returns, Stmt.returns,
        anyReturns_resolveStmts (site.enter []) body]
  | .conditional condition consequent none => by
      rw [resolveStmt, Stmt.returns, Stmt.returns,
        returns_resolveStmt site consequent]
  | .conditional condition consequent (some alternative) => by
      rw [resolveStmt, Stmt.returns, Stmt.returns,
        returns_resolveStmt site consequent,
        returns_resolveStmt (site.after consequent) alternative]
  | .loop condition body => by
      rw [resolveStmt, Stmt.returns, Stmt.returns,
        returns_resolveStmt site body]
  | .expression _ | .print _ | .variableDecl _ _ | .functionDecl _
  | .returning _ _ | .classDecl _ _ | .missing => by
      simp [resolveStmt, Stmt.returns]

theorem anyReturns_resolveStmts
    (site : Site) :
    (stmts : List Stmt) →
    Stmt.anyReturns (resolveStmts site stmts) = Stmt.anyReturns stmts
  | [] => by
      rw [resolveStmts]
  | first :: rest => by
      rw [resolveStmts, Stmt.anyReturns, Stmt.anyReturns,
        returns_resolveStmt site first,
        anyReturns_resolveStmts (site.after first) rest]

end

theorem enclosure_bind
    (site : Site)
    (name : Text)
    (ready : Bool) :
    (site.bind name ready).enclosure = site.enclosure := by
  unfold bind
  split <;> rfl

/-- A statement is behind in the same function in which it is. -/
theorem enclosure_after
    (site : Site) :
    (stmt : Stmt) →
    (site.after stmt).enclosure = site.enclosure
  | .variableDecl name _ => by
      rw [after, enclosure_bind]
  | .functionDecl function => by
      rw [after, enclosure_bind]
  | .classDecl name _ => by
      rw [after, enclosure_bind]
  | .conditional _ consequent none => by
      rw [after, enclosure_after site consequent]
  | .conditional _ consequent (some alternative) => by
      rw [after, enclosure_after (site.after consequent) alternative,
        enclosure_after site consequent]
  | .loop _ body => by
      rw [after, enclosure_after site body]
  | .expression _ | .print _ | .block _ | .returning _ _ | .missing => by
      simp [after]

mutual

/-- At the top level only statements with problems return. -/
theorem returns_of_stmtProblems
    {site : Site}
    (outside : site.enclosure = .topLevel) :
    (stmt : Stmt) →
    stmtProblems site stmt = [] →
    stmt.returns = false
  | .block body, silent => by
      rw [stmtProblems] at silent
      rw [Stmt.returns]
      have inside : (site.enter []).enclosure = .topLevel :=
        outside
      exact anyReturns_of_stmtsProblems inside body silent
  | .conditional condition consequent none, silent => by
      rw [stmtProblems, List.append_eq_nil_iff] at silent
      rw [Stmt.returns]
      exact returns_of_stmtProblems outside consequent silent.2
  | .conditional condition consequent (some alternative), silent => by
      rw [stmtProblems, List.append_eq_nil_iff, List.append_eq_nil_iff]
        at silent
      have behind : (site.after consequent).enclosure = .topLevel :=
        (site.enclosure_after consequent).trans outside
      rw [Stmt.returns, returns_of_stmtProblems outside consequent silent.1.2,
        returns_of_stmtProblems behind alternative silent.2]
      rfl
  | .loop condition body, silent => by
      rw [stmtProblems, List.append_eq_nil_iff] at silent
      rw [Stmt.returns]
      exact returns_of_stmtProblems outside body silent.2
  | .returning keyword value, silent => by
      simp [stmtProblems, returnProblems, outside] at silent
  | .expression _, _ | .print _, _ | .variableDecl _ _, _ | .functionDecl _, _
  | .classDecl _ _, _ | .missing, _ => by
      simp [Stmt.returns]

theorem anyReturns_of_stmtsProblems
    {site : Site}
    (outside : site.enclosure = .topLevel) :
    (stmts : List Stmt) →
    stmtsProblems site stmts = [] →
    Stmt.anyReturns stmts = false
  | [], _ => by
      rw [Stmt.anyReturns]
  | first :: rest, silent => by
      rw [stmtsProblems, List.append_eq_nil_iff] at silent
      have behind : (site.after first).enclosure = .topLevel :=
        (site.enclosure_after first).trans outside
      rw [Stmt.anyReturns, returns_of_stmtProblems outside first silent.1,
        anyReturns_of_stmtsProblems behind rest silent.2]
      rfl

end

end Site

/-- One of the statements is no exception. -/
theorem Stmt.returns_of_mem
    {stmts : List Stmt}
    (none : Stmt.anyReturns stmts = false)
    {stmt : Stmt}
    (member : stmt ∈ stmts) :
    stmt.returns = false := by
  induction stmts with
  | nil =>
      cases member
  | cons first rest inductionHypothesis =>
      rw [Stmt.anyReturns, Bool.or_eq_false_iff] at none
      rcases List.mem_cons.mp member with rfl | later
      · exact none.1
      · exact inductionHypothesis none.2 later

/-- The outcome of a piece that does not return. -/
def Outcome.NeverReturns : Outcome Flow → Prop
  | .done (.returning _) _ =>
      False
  | _ =>
      True

theorem Outcome.NeverReturns.bind
    {outcome : Outcome α}
    {next : α → Machine → Outcome Flow}
    (later : ∀ value after, (next value after).NeverReturns) :
    (outcome.bind next).NeverReturns := by
  cases outcome with
  | done value after =>
      exact later value after
  | stopped | broken | exhausted =>
      trivial

theorem Outcome.NeverReturns.mapMachine
    {outcome : Outcome Flow}
    {change : Machine → Machine}
    (never : outcome.NeverReturns) :
    (outcome.mapMachine change).NeverReturns := by
  cases outcome with
  | done flow after =>
      cases flow with
      | normal =>
          trivial
      | returning value =>
          exact never
  | stopped | broken | exhausted =>
      trivial

namespace Machine

/-- Within a bound, a piece without a `return` does not return. -/
structure AllGoOn (fuel : Nat) : Prop where
  execute : ∀ stmt machine,
    stmt.returns = false → (execute fuel stmt machine).NeverReturns
  executeAll : ∀ stmts machine,
    Stmt.anyReturns stmts = false →
      (executeAll fuel stmts machine).NeverReturns
  repeatWhile : ∀ condition body machine,
    body.returns = false →
      (repeatWhile fuel condition body machine).NeverReturns

namespace AllGoOn

variable {fuel : Nat}

theorem execute_succ
    (smaller : AllGoOn fuel)
    (stmt : Stmt)
    (machine : Machine)
    (none : stmt.returns = false) :
    (Machine.execute (fuel + 1) stmt machine).NeverReturns := by
  cases stmt with
  | expression value | print value =>
      rw [Machine.execute]
      exact .bind fun _ _ => trivial
  | variableDecl name initial =>
      cases initial with
      | none =>
          trivial
      | some initial =>
          rw [Machine.execute]
          exact .bind fun _ _ => trivial
  | block body =>
      rw [Stmt.returns] at none
      rw [Machine.execute]
      exact (smaller.executeAll body _ none).mapMachine
  | conditional condition consequent alternative =>
      rw [Machine.execute]
      refine .bind fun value middle => ?_
      cases alternative with
      | none =>
          rw [Stmt.returns] at none
          split
          · exact smaller.execute consequent middle none
          · trivial
      | some alternative =>
          rw [Stmt.returns, Bool.or_eq_false_iff] at none
          split
          · exact smaller.execute consequent middle none.1
          · exact smaller.execute alternative middle none.2
  | loop condition body =>
      rw [Stmt.returns] at none
      rw [Machine.execute]
      exact smaller.repeatWhile condition body machine none
  | returning keyword value =>
      rw [Stmt.returns] at none
      cases none
  | functionDecl | classDecl | missing =>
      trivial

theorem executeAll_succ
    (smaller : AllGoOn fuel)
    (stmts : List Stmt)
    (machine : Machine)
    (none : Stmt.anyReturns stmts = false) :
    (Machine.executeAll (fuel + 1) stmts machine).NeverReturns := by
  cases stmts with
  | nil =>
      trivial
  | cons first rest =>
      rw [Stmt.anyReturns, Bool.or_eq_false_iff] at none
      have never := smaller.execute first machine none.1
      rw [Machine.executeAll]
      cases outcome : Machine.execute fuel first machine with
      | done flow middle =>
          cases flow with
          | normal =>
              exact smaller.executeAll rest middle none.2
          | returning value =>
              rw [outcome] at never
              exact never
      | stopped | broken | exhausted =>
          trivial

theorem repeatWhile_succ
    (smaller : AllGoOn fuel)
    (condition : Expr)
    (body : Stmt)
    (machine : Machine)
    (none : body.returns = false) :
    (Machine.repeatWhile (fuel + 1) condition body machine).NeverReturns := by
  rw [Machine.repeatWhile]
  refine .bind fun value middle => ?_
  split
  · have never := smaller.execute body middle none
    cases outcome : Machine.execute fuel body middle with
    | done flow after =>
        cases flow with
        | normal =>
            exact smaller.repeatWhile condition body after none
        | returning value =>
            rw [outcome] at never
            exact never
    | stopped | broken | exhausted =>
        trivial
  · trivial

/-- A piece without a `return` does not return, whatever the bound. -/
theorem all (fuel : Nat) : AllGoOn fuel := by
  induction fuel with
  | zero =>
      constructor <;> intros <;> trivial
  | succ fuel smaller =>
      exact
        { execute := smaller.execute_succ
          executeAll := smaller.executeAll_succ
          repeatWhile := smaller.repeatWhile_succ }

end AllGoOn

/-- The machine of an outcome that came to its end, or else the one before, stands
where the one before stood. -/
theorem split_resumes
    {machine : Machine}
    {outcome : Outcome α}
    (unwinds : outcome.Unwinds machine) :
    machine.Resumes (outcome.split machine).2.2 := by
  cases outcome with
  | done | stopped | broken =>
      exact unwinds
  | exhausted =>
      exact .refl machine

theorem runTree_resumes
    (fuel : Nat)
    (stmts : List Stmt)
    (machine : Machine) :
    machine.Resumes (machine.runTree fuel stmts).2 :=
  split_resumes (interpret_unwinds fuel stmts machine)

theorem runSource_resumes
    (fuel : Nat)
    (source : Text)
    (machine : Machine) :
    machine.Resumes (machine.runSource fuel source).2 := by
  unfold runSource
  dsimp only
  split
  · exact .refl machine
  · split
    · exact .refl machine
    · exact runTree_resumes fuel _ machine

end Machine

namespace Lexical

open Machine

/-- A step of a session ends where it began, whatever it does. -/
theorem SessionStep.run_resumes
    (step : SessionStep)
    (machine : Machine) :
    machine.Resumes (step.run machine).machine := by
  cases step with
  | eval fuel source =>
      exact runSource_resumes fuel source machine
  | raw fuel source =>
      exact runTree_resumes fuel _ machine
  | define | wait =>
      exact ⟨rfl, rfl, rfl⟩
  | assign name value =>
      exact split_resumes (writeGlobal_unwinds machine name _)
  | get name =>
      exact split_resumes (readGlobal_unwinds machine name)
  | call fuel name arguments =>
      rw [SessionStep.run]
      split
      · exact split_resumes ((AllUnwind.all fuel).call _ _ machine)
      · exact .refl machine

/-- Between the steps of a session no frame but that of the global names is
entered, and no call is under way. -/
theorem moments_resumes
    {machine start : Machine}
    (stands : start.Resumes machine)
    {number : Nat}
    {steps : List SessionStep}
    {log : Log}
    {moment : Moment}
    (taken : moment ∈ moments number steps machine log) :
    start.Resumes moment.before ∧ start.Resumes moment.reply.machine := by
  induction steps generalizing number machine log with
  | nil =>
      cases taken
  | cons step rest inductionHypothesis =>
      have resumes :
          start.Resumes (step.watch number machine log).1.machine := by
        rw [SessionStep.watch_reply]
        exact stands.trans (step.run_resumes machine)
      rw [moments] at taken
      rcases List.mem_cons.mp taken with rfl | later
      · exact ⟨stands, resumes⟩
      · split at later
        · cases later
        · exact inductionHypothesis resumes later

theorem freshMachine_resumes (natives : Bool) :
    Machine.bare.Resumes (freshMachine natives) := by
  cases natives <;> exact ⟨rfl, rfl, rfl⟩

end Lexical

open Lexical in
/-- Whatever is run, and however it ends, the machine behind it is in the frame in
which it was before and has as many calls under way: statements, expressions, blocks
and calls.  So after each step of a session the frame is that of the global names and
no call is under way, and after an analysis without problems no statement at the top
level returns. -/
theorem Machine.always_unwinds :
    (∀ (fuel : Nat) (machine : Machine),
      (∀ stmt, (execute fuel stmt machine).Unwinds machine) ∧
        (∀ expr, (evaluate fuel expr machine).Unwinds machine) ∧
        (∀ parent bindings stmts,
          (machine.inNewFrame parent bindings (executeAll fuel stmts)).Unwinds
            machine) ∧
        ∀ callable arguments,
          (call fuel callable arguments machine).Unwinds machine) ∧
      (∀ natives steps, ∀ moment ∈ sessionMoments natives steps,
        moment.reply = moment.step.run moment.before ∧
          moment.reply.machine.current = globals ∧
          moment.reply.machine.depth = 0) ∧
      ∀ stmts resolution,
        Resolution.ofTree stmts = .ok resolution →
          resolution.problems = [] →
          ∀ stmt ∈ resolution.statements,
            ∀ fuel machine value after,
              execute fuel stmt machine ≠ .done (.returning value) after := by
  refine ⟨fun fuel machine => ?_, ?_, ?_⟩
  · have all := AllUnwind.all fuel
    exact ⟨fun stmt => all.execute stmt machine,
      fun expr => all.evaluate expr machine,
      fun parent bindings stmts =>
        inNewFrame_unwinds machine parent bindings (all.executeAll stmts),
      fun callable arguments => all.call callable arguments machine⟩
  · intro natives steps moment taken
    obtain ⟨-, resumes⟩ := moments_resumes (freshMachine_resumes natives) taken
    obtain ⟨-, reply, -⟩ := (Steady.fresh natives steps).moments rfl moment taken
    exact ⟨reply, resumes.current, resumes.depth⟩
  · intro stmts resolution analysed silent stmt member fuel machine value after
    have same : resolution = .ofStatements stmts := by
      rw [Resolution.ofTree] at analysed
      split at analysed <;> cases analysed
      rfl
    subst same
    have none :
        Stmt.anyReturns (Resolution.ofStatements stmts).statements = false :=
      (Site.anyReturns_resolveStmts .outermost stmts).trans
        (Site.anyReturns_of_stmtsProblems rfl stmts silent)
    have never :=
      (AllGoOn.all fuel).execute stmt machine (Stmt.returns_of_mem none member)
    intro returned
    rw [returned] at never
    exact never

/-- A text that stops in an argument of a call, in a block of an initializer. -/
def deepText : Text :=
  Text.utf8 "class A \x7b init(f) \x7b \x7b f(-f); \x7d \x7d \x7d A(str);"

open Lexical in
/-- The text fails and leaves three frames behind, none of which is the current
one. -/
theorem Machine.always_unwinds_deepText :
    let stmts := (Program.ofSource deepText).statements
    (∃ moment ∈ sessionMoments true [.eval 40 deepText],
        moment.reply.ending.failure?.isSome = true ∧
          moment.reply.machine.frames.size = 4 ∧
          moment.reply.machine.current = globals ∧
          moment.reply.machine.depth = 0) ∧
      Resolution.ofTree stmts = .ok (.ofStatements stmts) ∧
      ∀ stmt ∈ (Resolution.ofStatements stmts).statements,
        ∀ fuel machine value after,
          execute fuel stmt machine ≠ .done (.returning value) after := by
  intro stmts
  obtain ⟨-, steps, silent⟩ := always_unwinds
  have analysed : Resolution.ofTree stmts = .ok (.ofStatements stmts) := by
    have whole : Stmt.anyHole? stmts = none := by
      decide +kernel
    rw [Resolution.ofTree, whole]
  have problems : (Resolution.ofStatements stmts).problems = [] :=
    List.isEmpty_iff.mp (by decide +kernel)
  refine ⟨?_, analysed, silent stmts _ analysed problems⟩
  have taken :
      ((sessionMoments true [.eval 40 deepText]).any fun moment =>
        moment.reply.ending.failure?.isSome &&
          moment.reply.machine.frames.size == 4) = true := by
    decide +kernel
  obtain ⟨moment, member, found⟩ := List.any_eq_true.mp taken
  obtain ⟨failed, size⟩ := Bool.and_eq_true_iff.mp found
  obtain ⟨-, current, depth⟩ := steps true _ moment member
  exact ⟨moment, member, failed, eq_of_beq size, current, depth⟩

end Script
