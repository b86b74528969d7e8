import Script.Proofs.Grammar.ExprSound

namespace Script

/-!
# Parsing steps that stop at the end of the input

When all problems of a run of the parser can be mended, the run has stopped at
the end of the input, and what it has read there is the beginning of a phrase:
some more tokens make it a whole one.  `Step.Continues` says this of a parsing
step, and the lemmas about it are put together like the parsing functions.

The tokens that are added are of few kinds.  The first of them is a string
wherever a string can come next, so that a string that is open at the end of a
source text can be that token.
-/

namespace Problem

/-- Whether the problem is a list that is full. -/
def isOverfull : Problem → Bool
  | .tooManyParameters =>
      true
  | .tooManyArguments =>
      true
  | _ =>
      false

/-- Whether a string can be where the problem is: it is one, or a statement or an
expression could come next. -/
def admitsString : Problem → Bool
  | .unterminatedString =>
      true
  | .expected .expression =>
      true
  | .expected .blockEnd =>
      true
  | _ =>
      false

/-- Whether the problem is in front of the body of a function. -/
def awaitsBody : Problem → Bool
  | .expected (.functionName _) =>
      true
  | .expected (.parametersStart _) =>
      true
  | .expected .parameterName =>
      true
  | .expected .parametersEnd =>
      true
  | .expected (.functionBody _) =>
      true
  | _ =>
      false

end Problem

namespace Diagnostic

/-- More input could mend the problem, and it is not that a list is full. -/
structure Mendable (diagnostic : Diagnostic) : Prop where
  incomplete : diagnostic.incomplete = true
  fits : diagnostic.problem.isOverfull = false

/-- The number of blocks that are reported as open. -/
def openBlocks (problems : List Diagnostic) : Nat :=
  problems.countP (·.problem == .expected .blockEnd)

/-- Only at the end of the input a problem at a token can be mended. -/
theorem Mendable.kind
    {token : Token}
    {problem : Problem}
    (mendable : (atToken token problem).Mendable)
    (isClosed : problem ≠ .unterminatedString) :
    token.kind = .endOfInput := by
  by_contra elsewhere
  have incomplete := mendable.incomplete
  simp [Diagnostic.incomplete, atToken, elsewhere, isClosed] at incomplete

end Diagnostic

/-- The kinds of token that complete what stops too early. -/
inductive Closer where
  | string
  | name
  | leftParen
  | rightParen
  | leftBrace
  | rightBrace
  | semicolon
  deriving DecidableEq

namespace Closer

/-- The kind of token that a closer is. -/
def kind : Closer → TokenKind
  | .string =>
      .string
  | .name =>
      .identifier
  | .leftParen =>
      .leftParen
  | .rightParen =>
      .rightParen
  | .leftBrace =>
      .leftBrace
  | .rightBrace =>
      .rightBrace
  | .semicolon =>
      .semicolon

/-- Tokens of the kinds of some closers. -/
def Match
    (closers : List Closer)
    (tokens : List Token) :
    Prop :=
  tokens.map Token.kind = closers.map kind

theorem Match.cons
    {closer : Closer}
    {closers : List Closer}
    {tokens : List Token}
    (same : Match (closer :: closers) tokens) :
    ∃ first rest,
      tokens = first :: rest ∧ first.kind = closer.kind ∧ Match closers rest := by
  obtain ⟨first, rest, rfl, firstKind, restKinds⟩ := List.map_eq_cons_iff.mp same
  exact ⟨first, rest, rfl, firstKind, restKinds⟩

theorem Match.nil
    {tokens : List Token}
    (same : Match [] tokens) :
    tokens = [] :=
  List.map_eq_nil_iff.mp same

theorem Match.single
    {closer : Closer}
    {tokens : List Token}
    (same : Match [closer] tokens) :
    ∃ token, tokens = [token] ∧ token.kind = closer.kind := by
  obtain ⟨token, rest, rfl, kind, nothing⟩ := same.cons
  exact ⟨token, by rw [nothing.nil], kind⟩

theorem Match.append
    (first second : List Closer)
    {tokens : List Token}
    (same : Match (first ++ second) tokens) :
    ∃ front rest,
      tokens = front ++ rest ∧ Match first front ∧ Match second rest := by
  rw [Match, List.map_append] at same
  exact List.map_eq_append_iff.mp same

end Closer

namespace Grammar

/-- Whether a tree can stand before an equals sign. -/
def IsTarget : Expr → Prop
  | .reference _ _ =>
      True
  | .property _ _ =>
      True
  | _ =>
      False

/-- Tokens of a source text in which every operation before an equals sign can
be assigned to. -/
structure Assignable (tokens : List Token) : Prop where
  noEnding : ∀ token ∈ tokens, token.kind ≠ .endOfInput
  targets :
    ∀ (room : Nat) (before target after : List Token) (equals : Token)
        (tree : Expr),
      tokens = before ++ target ++ equals :: after →
      equals.kind = .equal →
      DerivesExpr (.operation 0) room target tree →
      IsTarget tree

theorem Assignable.suffix
    {tokens behind : List Token}
    (assignable : Assignable tokens)
    (isSuffix : behind <:+ tokens) :
    Assignable behind := by
  obtain ⟨front, rfl⟩ := isSuffix
  refine ⟨fun token member => assignable.noEnding token (by simp [member]),
    fun room before target after equals tree shape => ?_⟩
  exact assignable.targets room (front ++ before) target after equals tree
    (by simp [shape])

end Grammar

namespace Cursor

open Grammar

/-- All problems so far can be mended. -/
def Mendable (cursor : Cursor) : Prop :=
  ∀ problem ∈ cursor.reported, problem.Mendable

/-- A string can be put where the problems are. -/
def AdmitsString (cursor : Cursor) : Prop :=
  ∀ problem ∈ cursor.reported, problem.problem.admitsString = true

/-- There is no room left for the body of a function that has begun: all blocks
that may be open are reported as open behind `before`. -/
structure Crowded (before after : Cursor) : Prop where
  awaits : ∃ problem ∈ after.reported, problem.problem.awaitsBody = true
  full :
    before.room + Diagnostic.openBlocks before.reported ≤
      Diagnostic.openBlocks after.reported

/-- Some closers make the tokens a phrase; the first one is a string if a string
can come next. -/
def Closes
    (after : Cursor)
    (tokens : List Token)
    (phrase : List Token → Prop) :
    Prop :=
  ∃ closers : List Closer,
    (after.AdmitsString → closers.head? = some .string) ∧
      ∀ more, Closer.Match closers more → phrase (tokens ++ more)

section Leads

variable {before after : Cursor}

theorem Leads.mendable
    (leads : before.Leads after)
    (mendable : after.Mendable) :
    before.Mendable :=
  fun problem member => mendable problem (leads.reported.subset member)

theorem Leads.admitsString
    (leads : before.Leads after)
    (admits : after.AdmitsString) :
    before.AdmitsString :=
  fun problem member => admits problem (leads.reported.subset member)

theorem Leads.openBlocks_le (leads : before.Leads after) :
    Diagnostic.openBlocks before.reported ≤
      Diagnostic.openBlocks after.reported :=
  leads.reported.sublist.countP_le

theorem Leads.assignable
    (leads : before.Leads after)
    (assignable : Assignable before.rest) :
    Assignable after.rest :=
  assignable.suffix leads.rest

end Leads

/-- A problem at the next token can be mended only if there is none. -/
theorem Mendable.rest_eq_nil
    {cursor : Cursor}
    {problem : Problem}
    (mendable : (cursor.report cursor.peek problem).Mendable)
    (assignable : Assignable cursor.rest)
    (isClosed : problem ≠ .unterminatedString) :
    cursor.rest = [] := by
  have kind := (mendable _ List.mem_cons_self).kind isClosed
  cases shape : cursor.rest with
  | nil =>
      rfl
  | cons first rest =>
      rw [peek, shape, List.headD_cons] at kind
      exact (assignable.noEnding first (by simp [shape]) kind).elim

/-- More closers complete a larger phrase. -/
theorem Closes.extend
    {after : Cursor}
    {tokens : List Token}
    {phrase larger : List Token → Prop}
    (closes : after.Closes tokens phrase)
    (closers : List Closer)
    (closing :
      ∀ read more,
        phrase read →
        Closer.Match closers more →
        larger (read ++ more)) :
    after.Closes tokens larger := by
  obtain ⟨first, begins, completes⟩ := closes
  refine ⟨first ++ closers, fun admits => ?_, fun more same => ?_⟩
  · rw [List.head?_append, begins admits, Option.some_or]
  · obtain ⟨front, rest, rfl, frontSame, restSame⟩ :=
      Closer.Match.append first closers same
    rw [← List.append_assoc]
    exact closing _ rest (completes front frontSame) restSame

/-- The same closers complete a phrase with tokens in front. -/
theorem Closes.behind
    {after : Cursor}
    {tokens front : List Token}
    {phrase larger : List Token → Prop}
    (closes : after.Closes tokens phrase)
    (implies : ∀ read, phrase read → larger (front ++ read)) :
    after.Closes (front ++ tokens) larger := by
  obtain ⟨closers, begins, completes⟩ := closes
  refine ⟨closers, begins, fun more same => ?_⟩
  rw [List.append_assoc]
  exact implies _ (completes more same)

end Cursor

namespace Step

open Grammar Cursor

/-- When all problems can be mended, a step that gives a value has reported none,
and a step that fails has read all tokens, and some closers make them a phrase.
For steps with blocks the phrase may also lack the room for the body of a
function. -/
def Continues
    (blocks : Bool)
    (before : Cursor)
    (phrase : List Token → Prop) :
    Step α → Prop
  | .done _ after =>
      before.Leads after ∧
        (after.Mendable → after.reported = before.reported)
  | .failed after =>
      before.Leads after ∧
        (after.Mendable →
          after.rest = [] ∧
            (blocks = true ∧ before.Crowded after ∨
              after.Closes before.rest phrase))

namespace Continues

variable {blocks : Bool} {before : Cursor}

theorem leads
    {phrase : List Token → Prop}
    {step : Step α}
    (continues : step.Continues blocks before phrase) :
    before.Leads step.cursor := by
  cases step with
  | done value after | failed after =>
      exact continues.1

/-- More closers complete a larger phrase. -/
theorem extend
    {phrase larger : List Token → Prop}
    {step : Step α}
    (continues : step.Continues blocks before phrase)
    (closers : List Closer)
    (closing :
      ∀ read more,
        phrase read →
        Closer.Match closers more →
        larger (read ++ more)) :
    step.Continues blocks before larger := by
  cases step with
  | done value after =>
      exact continues
  | failed after =>
      obtain ⟨leads, ends⟩ := continues
      refine ⟨leads, fun mendable => ?_⟩
      obtain ⟨atEnd, crowded | closes⟩ := ends mendable
      · exact ⟨atEnd, .inl crowded⟩
      · exact ⟨atEnd, .inr (closes.extend closers closing)⟩

theorem weaken
    {phrase weaker : List Token → Prop}
    {step : Step α}
    (continues : step.Continues blocks before phrase)
    (implies : ∀ read, phrase read → weaker read) :
    step.Continues blocks before weaker := by
  refine continues.extend [] fun read more holds same => ?_
  rw [same.nil, List.append_nil]
  exact implies read holds

/-- A step without blocks is a step that may have some. -/
theorem withBlocks
    {phrase : List Token → Prop}
    {step : Step α}
    (continues : step.Continues false before phrase) :
    step.Continues blocks before phrase := by
  cases step with
  | done value after =>
      exact continues
  | failed after =>
      obtain ⟨leads, ends⟩ := continues
      refine ⟨leads, fun mendable => ?_⟩
      obtain ⟨atEnd, crowded | closes⟩ := ends mendable
      · cases crowded.1
      · exact ⟨atEnd, .inr closes⟩

/-- A value that needs no further token. -/
theorem done
    {phrase : List Token → Prop}
    (value : α) :
    (Step.done value before).Continues blocks before phrase :=
  ⟨.refl before, fun _ => rfl⟩

/-- A value that comes with a problem in the middle of the input. -/
theorem doneLoudly
    {phrase : List Token → Prop}
    {token : Token}
    {problem : Problem}
    (value : α)
    (elsewhere : token.kind ≠ .endOfInput)
    (isClosed : problem ≠ .unterminatedString) :
    (Step.done value (before.report token problem)).Continues blocks before
      phrase := by
  refine ⟨before.leads_report token problem, fun mendable => ?_⟩
  exact (elsewhere ((mendable _ List.mem_cons_self).kind isClosed)).elim

/-- A failure in the middle of the input. -/
theorem failedAtToken
    {phrase : List Token → Prop}
    {token : Token}
    {problem : Problem}
    (elsewhere : token.kind ≠ .endOfInput)
    (isClosed : problem ≠ .unterminatedString) :
    (Step.failed (α := α) (before.report token problem)).Continues blocks before
      phrase := by
  refine ⟨before.leads_report token problem, fun mendable => ?_⟩
  exact (elsewhere ((mendable _ List.mem_cons_self).kind isClosed)).elim

/-- A failure at the next token. -/
theorem failedAtPeek
    {phrase : List Token → Prop}
    {problem : Problem}
    (assignable : Assignable before.rest)
    (isClosed : problem ≠ .unterminatedString)
    (closers : List Closer)
    (begins :
      problem.admitsString = true → closers.head? = some .string)
    (completes : ∀ more, Closer.Match closers more → phrase more) :
    (Step.failed (α := α) (before.report before.peek problem)).Continues blocks
      before phrase := by
  refine ⟨before.leads_report _ problem, fun mendable => ?_⟩
  have atEnd := mendable.rest_eq_nil assignable isClosed
  refine ⟨atEnd, .inr ⟨closers, fun admits => ?_, fun more same => ?_⟩⟩
  · exact begins (admits _ List.mem_cons_self)
  · rw [atEnd, List.nil_append]
    exact completes more same

/-- A step that is taken further on, with no problem on the way there: what has
been read in between stands in front. -/
theorem behind
    {middle : Cursor}
    {phrase larger : List Token → Prop}
    {step : Step α}
    (leads : before.Leads middle)
    (silent : middle.Mendable → middle.reported = before.reported)
    (reads :
      middle.reported = before.reported →
      ∃ front,
        before.rest = front ++ middle.rest ∧
          ∀ read, phrase read → larger (front ++ read))
    (continues : step.Continues blocks middle phrase) :
    step.Continues blocks before larger := by
  cases step with
  | done value last =>
      obtain ⟨leadsLast, silentLast⟩ := continues
      refine ⟨leads.trans leadsLast, fun mendable => ?_⟩
      rw [silentLast mendable, silent (leadsLast.mendable mendable)]
  | failed last =>
      obtain ⟨leadsLast, ends⟩ := continues
      refine ⟨leads.trans leadsLast, fun mendable => ?_⟩
      have noProblem := silent (leadsLast.mendable mendable)
      obtain ⟨front, shape, implies⟩ := reads noProblem
      obtain ⟨atEnd, ⟨isBlocks, crowded⟩ | closes⟩ := ends mendable
      · have full := crowded.full
        rw [noProblem, leads.room_eq] at full
        exact ⟨atEnd, .inl ⟨isBlocks, crowded.awaits, full⟩⟩
      · rw [shape]
        exact ⟨atEnd, .inr (closes.behind implies)⟩

/-- A step that is followed by another one.  Where the first step fails, some
more closers stand for the other one; where it does not, what it has read stands
before what the other one reads. -/
theorem bind
    {least : Nat}
    {relatedFirst : List Token → α → Prop}
    {phraseFirst phrase : List Token → Prop}
    {step : Step α}
    {next : α → Cursor → Step β}
    (reads : step.Reads before least relatedFirst)
    (first : step.Continues blocks before phraseFirst)
    (closers : List Closer)
    (closing :
      ∀ read more,
        phraseFirst read →
        Closer.Match closers more →
        phrase (read ++ more))
    (second :
      ∀ value after,
        step = .done value after →
        before.Leads after →
        after.rest.length + least ≤ before.rest.length →
        (next value after).Continues blocks after fun read =>
          ∀ firstRead,
            before.rest = firstRead ++ after.rest →
            relatedFirst firstRead value →
            phrase (firstRead ++ read)) :
    (step.bind next).Continues blocks before phrase := by
  cases step with
  | failed after =>
      exact first.extend closers closing
  | done value after =>
      obtain ⟨leads, length, relates⟩ := reads
      obtain ⟨-, silent⟩ := first
      refine behind leads silent (fun noProblem => ?_)
        (second value after rfl leads length)
      obtain ⟨firstRead, shape, holds⟩ := relates noProblem
      exact ⟨firstRead, shape, fun read holdsRead =>
        holdsRead firstRead shape holds⟩

/-- A step that is followed by another one that may add nothing: where the first
step fails, the closers of its own phrase are enough. -/
theorem bindWhole
    {least : Nat}
    {relatedFirst : List Token → α → Prop}
    {phraseFirst phrase : List Token → Prop}
    {step : Step α}
    {next : α → Cursor → Step β}
    (reads : step.Reads before least relatedFirst)
    (first : step.Continues blocks before phraseFirst)
    (whole : ∀ read, phraseFirst read → phrase read)
    (second :
      ∀ value after,
        step = .done value after →
        before.Leads after →
        after.rest.length + least ≤ before.rest.length →
        (next value after).Continues blocks after fun read =>
          ∀ firstRead,
            before.rest = firstRead ++ after.rest →
            relatedFirst firstRead value →
            phrase (firstRead ++ read)) :
    (step.bind next).Continues blocks before phrase :=
  bind reads (first.weaken whole) []
    (fun _ _ holds same => by rw [same.nil, List.append_nil]; exact holds)
    second

theorem map
    {phrase : List Token → Prop}
    {step : Step α}
    (continues : step.Continues blocks before phrase)
    (change : α → β) :
    (step.map change).Continues blocks before phrase := by
  cases step with
  | done value after | failed after =>
      exact continues

/-- A step taken behind the next token. -/
theorem afterToken
    {middle : Cursor}
    {token : Token}
    {phrase : List Token → Prop}
    {step : Step α}
    (leads : before.Leads middle)
    (shape : before.rest = token :: middle.rest)
    (silent : middle.reported = before.reported)
    (continues :
      step.Continues blocks middle fun read => phrase (token :: read)) :
    step.Continues blocks before phrase :=
  behind leads (fun _ => silent) (fun _ => ⟨[token], shape, fun _ holds => holds⟩)
    continues

/-- A step taken behind an accepted token. -/
theorem afterAccepted
    {middle : Cursor}
    {kind : TokenKind}
    {token : Token}
    {phrase : List Token → Prop}
    {step : Step α}
    (accepted : before.accept? kind = some (token, middle))
    (continues :
      step.Continues blocks middle fun read => phrase (token :: read)) :
    step.Continues blocks before phrase := by
  obtain ⟨-, shape, middleShape⟩ := Cursor.accept?_eq_some_iff.mp accepted
  refine afterToken (Cursor.leads_accept? accepted) shape ?_ continues
  rw [middleShape]

end Continues

end Step

namespace Cursor

open Grammar

variable {cursor : Cursor}

/-- An expected token is a closer itself, unless more than it is needed. -/
theorem expect_continues
    {blocks : Bool}
    {what : Expectation}
    (assignable : Assignable cursor.rest)
    (closer : Closer)
    (noString : (Problem.expected what).admitsString = false) :
    (cursor.expect closer.kind what).Continues blocks cursor fun read =>
      ∃ token, read = [token] ∧ token.kind = closer.kind := by
  unfold expect
  cases accepted : cursor.accept? closer.kind with
  | some pair =>
      obtain ⟨token, after⟩ := pair
      obtain ⟨-, -, afterShape⟩ := accept?_eq_some_iff.mp accepted
      refine ⟨leads_accept? accepted, fun _ => ?_⟩
      rw [afterShape]
  | none =>
      refine .failedAtPeek assignable (by simp) [closer]
        (by simp [noString]) fun _ same => same.single

/-- A phrase and an expected token behind it.  The token closes the phrase also
where the step in front of it fails. -/
theorem closed_continues
    {blocks : Bool}
    {least : Nat}
    {related : List Token → α → Prop}
    {phrase whole : List Token → Prop}
    {step : Step α}
    {what : Expectation}
    {change : α → Token → β}
    (assignable : Assignable cursor.rest)
    (reads : step.Reads cursor least related)
    (continues : step.Continues blocks cursor phrase)
    (reading : ∀ read value, related read value → phrase read)
    (closer : Closer)
    (noString : (Problem.expected what).admitsString = false)
    (closing :
      ∀ read token,
        phrase read →
        token.kind = closer.kind →
        whole (read ++ [token])) :
    (step.bind fun value after =>
        (after.expect closer.kind what).map (change value)).Continues blocks
      cursor whole := by
  refine .bind reads continues [closer] ?_ fun value after _ leads _ => ?_
  · intro read more holds same
    obtain ⟨token, rfl, kind⟩ := same.single
    exact closing read token holds kind
  · refine ((expect_continues (leads.assignable assignable) closer
      noString).map _).weaken ?_
    rintro _ ⟨token, rfl, kind⟩ read - holds
    exact closing read token (reading read value holds) kind

/-- A nested construct stops where its inside does. -/
theorem nested_continues
    {opening : Token}
    {body : Cursor → Step α}
    (phrase : Nat → List Token → Prop)
    (openingKind : opening.kind ≠ .endOfInput)
    (inside :
      ∀ inner : Cursor,
        inner.rest = cursor.rest →
        (body inner).Continues false inner (phrase inner.room)) :
    (cursor.nested opening body).Continues false cursor fun read =>
      ∃ room, cursor.room = room + 1 ∧ phrase room read := by
  unfold nested enter
  split
  · rename_i deeper
    have continues := inside { cursor with depth := cursor.depth + 1 } rfl
    simp only [Step.bind]
    cases shape : body { cursor with depth := cursor.depth + 1 } with
    | done value after =>
        rw [shape] at continues
        exact ⟨continues.1.leave, continues.2⟩
    | failed after =>
        rw [shape] at continues
        obtain ⟨leads, ends⟩ := continues
        refine ⟨leads.leave, fun mendable => ?_⟩
        obtain ⟨atEnd, crowded | ⟨closers, begins, completes⟩⟩ := ends mendable
        · cases crowded.1
        · refine ⟨atEnd, .inr ⟨closers, begins, fun more same => ?_⟩⟩
          exact ⟨_, by simp only [room]; omega, completes more same⟩
  · exact .failedAtToken openingKind (by simp)

/-- A complaint about a list that is full cannot be mended. -/
theorem continues_unless
    {blocks : Bool}
    {counted : Cursor}
    {full : Prop}
    [Decidable full]
    {problem : Problem}
    {phrase : List Token → Prop}
    {step : Step α}
    (count :
      (if full then cursor.report cursor.peek problem else cursor) = counted)
    (overfull : problem.isOverfull = true)
    (continues :
      counted.rest = cursor.rest →
      counted.room = cursor.room →
      step.Continues blocks counted fun read => ¬ full → phrase read) :
    step.Continues blocks cursor phrase := by
  split at count
  · subst count
    have leads := cursor.leads_report cursor.peek problem
    have never {after : Cursor} (later : (cursor.report cursor.peek problem).Leads
        after) : ¬ after.Mendable := by
      intro mendable
      have fits := (later.mendable mendable _ List.mem_cons_self).fits
      rw [show (Diagnostic.atToken cursor.peek problem).problem = problem from rfl,
        overfull] at fits
      cases fits
    have later := (continues rfl rfl).leads
    cases step with
    | done value after | failed after =>
        exact ⟨leads.trans later, fun mendable => (never later mendable).elim⟩
  · rename_i space
    subst count
    exact (continues rfl rfl).weaken fun read holds => holds space

end Cursor

end Script
