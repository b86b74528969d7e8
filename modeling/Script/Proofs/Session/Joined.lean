import Script.Proofs.Session.Sources

namespace Script

open Grammar

/-!
# Source texts that are joined

Two source texts that are run one after the other do what they do when they are
joined by a line feed and run at once.  Only the lines of the second text differ,
so a fault is on another line when it is at a token of the second text.  Functions
from earlier texts that the second one calls keep their lines.
-/

/-- A text without problems has no open string. -/
theorem Program.Accepts.closed
    {source : Text}
    {trees : List Stmt}
    (accepts : Accepts source trees) :
    ∀ segment ∈ Segment.split source, segment.IsClosed :=
  fun segment member => (accepts.sound segment member).isClosed

/-- Two texts without problems are one when they are joined. -/
theorem Program.Accepts.join
    {first second : Text}
    {trees others : List Stmt}
    (accepts : Accepts first trees)
    (otherAccepts : Accepts second others) :
    Accepts (first ++ Text.newline :: second)
      (trees ++
        Stmt.relabelAll (Token.shift (1 + Text.newlines first : Nat)) others)
    where
  sound segment member := by
    rw [Segment.split_join accepts.closed] at member
    rcases List.mem_append.mp member with early | late
    · exact accepts.sound segment early
    · rcases List.mem_cons.mp late with rfl | late
      · rfl
      · exact otherAccepts.sound segment late
  derived := by
    rw [Scan.lexemes_join accepts.closed]
    exact accepts.derived.append
      (otherAccepts.derived.relabel (Token.shift_relabels _))

namespace Token

/-- A token with a mark: its line with the sign changed.  The tokens of a source
text are on lines from one on and have no mark. -/
def mark (token : Token) : Token :=
  { token with line := -token.line }

/-- Whether a token has a mark. -/
def isMarked (token : Token) : Bool :=
  token.line < 0

/-- Take the mark off a token and move the token some lines down.  Other tokens
stay as they are. -/
def unmark
    (lines : Int)
    (token : Token) :
    Token :=
  if token.isMarked then
    token.mark.shift lines
  else
    token

theorem mark_relabels : Relabels mark where
  kind _ := rfl
  lexeme _ := rfl
  literal _ := rfl

theorem unmark_relabels (lines : Int) : Relabels (unmark lines) where
  kind token := by
    unfold unmark
    split <;> rfl
  lexeme token := by
    unfold unmark
    split <;> rfl
  literal token := by
    unfold unmark
    split <;> rfl

theorem unmark_of_pos
    (lines : Int)
    (token : Token)
    (below : 0 < token.line) :
    token.unmark lines = token := by
  have noMark : token.isMarked = false := by
    simpa [isMarked] using below.le
  simp [unmark, noMark]

theorem unmark_mark
    (lines : Int)
    (token : Token)
    (below : 0 < token.line) :
    token.mark.unmark lines = token.shift lines := by
  have marked : token.mark.isMarked = true := by
    simpa [isMarked, mark] using below
  rw [unmark, if_pos marked]
  simp [mark, shift]

/-- A token without its mark is on a later line when it had one. -/
theorem unmark_eq_shift
    (lines : Int)
    (token : Token) :
    token.unmark lines =
      (token.unmark 0).shift (if token.isMarked then lines else 0) := by
  unfold unmark
  split <;> simp [shift]

end Token

namespace Machine

/-- Whether running a source text stops at a token of this text, and not at one of
a function that the machine had before: the tokens of the text are marked, and
the fault is at a token with a mark. -/
def stopsInside
    (fuel : Nat)
    (source : Text)
    (machine : Machine) :
    Bool :=
  let resolution :=
    Resolution.ofStatements (Program.ofSource source).statements
  match (machine.runTree fuel
      (Stmt.relabelAll Token.mark resolution.statements)).1 with
  | .failed (.stopped fault) =>
      fault.token.isMarked
  | _ =>
      false

theorem stopsInside_of_stopped
    {fuel : Nat}
    {source : Text}
    {machine after : Machine}
    {fault : Fault}
    (ran :
      interpret fuel
          (Stmt.relabelAll Token.mark
            (Site.outermost.resolveStmts (Program.ofSource source).statements))
          machine =
        .stopped fault after) :
    machine.stopsInside fuel source = fault.token.isMarked := by
  simp only [stopsInside, runTree, Resolution.ofStatements, ran]
  rfl

section Join

variable {fuel : Nat} {machine middle : Machine} {first second : Text}

/-- The trees of a text, run on other lines, do what they do with marks, when the
marks are taken off. -/
theorem interpret_unmark
    {trees : List Stmt}
    (reachable : machine.Reachable)
    (accepts : Program.Accepts second trees)
    (lines : Int) :
    interpret fuel
        (Site.outermost.resolveStmts
          (Stmt.relabelAll (Token.shift lines) trees))
        machine =
      (interpret fuel
          (Stmt.relabelAll Token.mark (Site.outermost.resolveStmts trees))
          machine).relabel (Token.unmark lines) id := by
  have same :
      Stmt.relabelAll (Token.shift lines) trees =
        Stmt.relabelAll (Token.unmark lines)
          (Stmt.relabelAll Token.mark trees) := by
    rw [Stmt.relabelAll_relabelAll]
    exact accepts.relabelAll_congr (Token.shift_relabels lines)
      ((Token.unmark_relabels lines).comp Token.mark_relabels)
      fun token below => (Token.unmark_mark lines token below).symm
  rw [same, Site.resolveStmts_relabelAll (Token.unmark_relabels lines),
    Site.resolveStmts_relabelAll Token.mark_relabels,
    ← interpret_relabel (Token.unmark_relabels lines),
    reachable.relabel_eq (Token.unmark_relabels lines)
      (Token.unmark_of_pos lines)]

/-- The parts of a joined text: the second one runs where the first one ended. -/
theorem runSource_join_eq
    {trees : List Stmt}
    (ran : machine.runSource fuel first = (.finished, middle))
    (accepts : Program.Accepts second trees)
    (analysed : Site.outermost.stmtsProblems trees = []) :
    (machine.runSource fuel (first ++ Text.newline :: second)) =
      ((interpret fuel
          (Site.outermost.resolveStmts
            (Stmt.relabelAll (Token.shift (1 + Text.newlines first : Nat))
              trees))
          middle).split machine).2 := by
  obtain ⟨firstTrees, firstAccepts, firstAnalysed, firstRan⟩ :=
    accepts_of_runSource ran
  rw [runSource_of_accepts (firstAccepts.join accepts), runTree,
    Site.resolveStmts_append, interpret_append, firstRan]
  · rfl
  · rw [Site.stmtsProblems_append, firstAnalysed, List.nil_append,
      Site.stmtsProblems_relabelAll (Token.shift_relabels _)]
    exact analysed

/-- Two source texts run one after the other as they do when they are joined by a
line feed: what is written is the same, the global names show the same texts, and
both come to their end or both stop with the same fault.  The fault of the joined
text is further down when it is at a token of the second text. -/
theorem runSource_join
    (reachable : machine.Reachable)
    (ran : machine.runSource fuel first = (.finished, middle))
    (parsed : (Program.ofSource second).problems = [])
    (analysed :
      (Resolution.ofStatements (Program.ofSource second).statements).problems =
        [])
    (ended : (middle.runSource fuel second).1 ≠ .exhausted) :
    let apart := middle.runSource fuel second
    let joined := machine.runSource fuel (first ++ Text.newline :: second)
    let lines :=
      if middle.stopsInside fuel second then 1 + Text.newlines first else 0
    joined.2.output = apart.2.output ∧
      (∀ name, joined.2.globalText? name = apart.2.globalText? name) ∧
      (apart.1 = .finished ∧ joined.1 = .finished ∨
        ∃ fault,
          apart.1 = .failed (.stopped fault) ∧
            joined.1 =
              .failed
                (.stopped { fault with token := fault.token.shift lines })) := by
  have accepts := Program.accepts_of_problems parsed
  have reachableMiddle : middle.Reachable := by
    have later := reachable.runSource fuel first
    rwa [ran] at later
  have whole := reachableMiddle.not_broken fuel second
  have joined := runSource_join_eq ran accepts analysed
  have apart := runSource_of_accepts accepts analysed fuel middle
  have unmoved :
      Stmt.relabelAll (Token.shift 0) (Program.ofSource second).statements =
        (Program.ofSource second).statements :=
    accepts.relabelAll_eq (Token.shift_relabels 0)
      fun token _ => by rw [Token.shift_zero, id]
  rw [interpret_unmark reachableMiddle accepts] at joined
  rw [← unmoved, runTree, interpret_unmark reachableMiddle accepts] at apart
  cases marked :
      interpret fuel
        (Stmt.relabelAll Token.mark
          (Site.outermost.resolveStmts (Program.ofSource second).statements))
        middle with
  | done value after =>
      rw [marked] at joined apart
      dsimp only
      rw [joined, apart]
      refine ⟨?_, fun name => ?_, .inl ⟨rfl, rfl⟩⟩
      · exact (output_relabel after).trans (output_relabel after).symm
      · exact (globalText?_relabel (Token.unmark_relabels _) after name).trans
          (globalText?_relabel (Token.unmark_relabels _) after name).symm
  | stopped fault after =>
      rw [marked] at joined apart
      dsimp only
      rw [joined, apart, stopsInside_of_stopped marked]
      refine ⟨?_, fun name => ?_,
        .inr ⟨fault.relabel (Token.unmark 0), rfl, ?_⟩⟩
      · exact (output_relabel after).trans (output_relabel after).symm
      · exact (globalText?_relabel (Token.unmark_relabels _) after name).trans
          (globalText?_relabel (Token.unmark_relabels _) after name).symm
      · simp only [Outcome.relabel, Outcome.split, Fault.relabel]
        rw [Token.unmark_eq_shift]
        split <;> rfl
  | broken breakage after =>
      rw [apart, marked] at whole
      exact (whole breakage rfl).elim
  | exhausted =>
      rw [apart, marked] at ended
      exact (ended rfl).elim

end Join

/-- A text of three lines that makes a function. -/
def quietText : Text :=
  Text.utf8 "var n = 1;\nfun one(x) \x7b\n  return x + n; \x7d"

/-- A text that calls the function and then stops at its second line. -/
def stoppingText : Text :=
  Text.utf8 "print one(n);\nprint -one;"

/-- The line of the fault with which a run ended. -/
def faultLine? (ran : Ending × Machine) : Option Int :=
  match ran.1 with
  | .failed (.stopped fault) =>
      some fault.token.line
  | _ =>
      none

/-- When the two are joined the fault is three lines further down. -/
theorem runSource_join_stoppingText :
    let apart :=
      (standard.runSource 20 quietText).2.runSource 20 stoppingText
    let joined :=
      standard.runSource 20 (quietText ++ Text.newline :: stoppingText)
    joined.2.output = apart.2.output ∧
      ∃ fault,
        fault.token.line = 2 ∧
          apart.1 = .failed (.stopped fault) ∧
          joined.1 =
            .failed
              (.stopped { fault with token := fault.token.shift 3 }) := by
  have finished :
      (standard.runSource 20 quietText).1.isFinished = true := by
    decide +kernel
  have parsed : (Program.ofSource stoppingText).problems = [] :=
    List.isEmpty_iff.mp (by decide +kernel)
  have analysed :
      (Resolution.ofStatements
          (Program.ofSource stoppingText).statements).problems =
        [] :=
    List.isEmpty_iff.mp (by decide +kernel)
  have line :
      faultLine?
          ((standard.runSource 20 quietText).2.runSource 20 stoppingText) =
        some 2 := by
    decide +kernel
  have inside :
      (standard.runSource 20 quietText).2.stopsInside 20 stoppingText =
        true := by
    decide +kernel
  have ended :
      ((standard.runSource 20 quietText).2.runSource 20 stoppingText).1 ≠
        .exhausted := by
    intro exhausted
    rw [faultLine?, exhausted] at line
    cases line
  obtain ⟨written, -, endings⟩ :=
    runSource_join .standard (eq_of_isFinished finished) parsed analysed ended
  refine ⟨written, ?_⟩
  rcases endings with ⟨apart, -⟩ | ⟨fault, apart, joined⟩
  · rw [faultLine?, apart] at line
    cases line
  · rw [faultLine?, apart] at line
    rw [inside] at joined
    exact ⟨fault, by simpa using line, apart, joined⟩

end Machine

end Script
