import Script.Tree.Cursor

namespace Script

/-!
# Routines of the parser

A routine is the text of a piece of the parser: which tokens it looks at, reads
and skips, what it reports, and where nested constructs begin and end.  A routine
can be run, and it can be asked for every cursor that its run comes by.  Both read
the same text, so no cursor in between is left out.

The number of open constructs is raised and lowered by `within` alone, and no
routine can look at it, nor at the problems reported so far.
-/

/-- The text of a piece of the parser that gives a value. -/
inductive Routine : Type → Type 1 where
  /-- Give a value. -/
  | done {α : Type} (value : α) : Routine α
  /-- Fail without a report. -/
  | giveUp {α : Type} : Routine α
  /-- Look at the tokens that are still to be read. -/
  | tokens : Routine (List Token)
  /-- Look at the next token. -/
  | peek : Routine Token
  /-- Go on by one token. -/
  | skip : Routine Unit
  /-- Report a problem at a token. -/
  | report (token : Token) (problem : Problem) : Routine Unit
  /-- One routine after another one, unless that fails. -/
  | andThen {α β : Type}
      (first : Routine α)
      (next : α → Routine β) :
      Routine β
  /-- A routine inside a nested construct; `opening` is the token just read. -/
  | within {α : Type}
      (opening : Token)
      (body : Routine α) :
      Routine α
  /-- A routine that is given up where it fails; parsing goes on with the next
  statement. -/
  | recover {α : Type} (body : Routine α) : Routine (Option α)

namespace Routine

instance : Monad Routine where
  pure := .done
  bind := .andThen

/-! Running routines. -/

/-- Run a routine. -/
def run : {α : Type} → Routine α → Cursor → Step α
  | _, .done value, cursor =>
      .done value cursor
  | _, .giveUp, cursor =>
      .failed cursor
  | _, .tokens, cursor =>
      .done cursor.rest cursor
  | _, .peek, cursor =>
      .done cursor.peek cursor
  | _, .skip, cursor =>
      .done () { cursor with rest := cursor.rest.tail }
  | _, .report token problem, cursor =>
      .done () (cursor.report token problem)
  | _, .andThen first next, cursor =>
      (first.run cursor).bind fun value after => (next value).run after
  | _, .within opening body, cursor =>
      cursor.nested opening body.run
  | _, .recover body, cursor =>
      match body.run cursor with
      | .done value after =>
          .done (some value) after
      | .failed after =>
          .done none after.synchronize

/-- All cursors that the run of a routine comes by. -/
def visits : {α : Type} → Routine α → Cursor → List Cursor
  | _, .done _, cursor =>
      [cursor]
  | _, .giveUp, cursor =>
      [cursor]
  | _, .tokens, cursor =>
      [cursor]
  | _, .peek, cursor =>
      [cursor]
  | _, .skip, cursor =>
      [cursor, { cursor with rest := cursor.rest.tail }]
  | _, .report token problem, cursor =>
      [cursor, cursor.report token problem]
  | _, .andThen first next, cursor =>
      first.visits cursor ++
        match first.run cursor with
        | .done value after =>
            (next value).visits after
        | .failed _ =>
            []
  | _, .within opening body, cursor =>
      cursor ::
        match cursor.enter opening with
        | .done _ inner =>
            body.visits inner ++ [(body.run inner).cursor.leave]
        | .failed after =>
            [after]
  | _, .recover body, cursor =>
      body.visits cursor ++
        match body.run cursor with
        | .done _ _ =>
            []
        | .failed after =>
            [after.synchronize]

variable {α β : Type}

@[simp]
theorem run_pure
    (value : α)
    (cursor : Cursor) :
    (pure value : Routine α).run cursor = .done value cursor :=
  rfl

@[simp]
theorem run_bind
    (first : Routine α)
    (next : α → Routine β)
    (cursor : Cursor) :
    (first >>= next).run cursor =
      (first.run cursor).bind fun value after => (next value).run after :=
  rfl

/-- A routine behind another one runs as a step behind another one. -/
theorem run_bind_of
    {first : Routine α}
    {next : α → Routine β}
    {cursor : Cursor}
    {step : Step α}
    {onward : α → Cursor → Step β}
    (begins : first.run cursor = step)
    (goesOn :
      ∀ value after,
        (next value).run after = onward value after) :
    (first >>= next).run cursor = step.bind onward := by
  rw [run_bind, begins, funext fun value => funext (goesOn value)]

@[simp]
theorem run_within
    (opening : Token)
    (body : Routine α)
    (cursor : Cursor) :
    (within opening body).run cursor = cursor.nested opening body.run :=
  rfl

@[simp]
theorem run_recover
    (body : Routine α)
    (cursor : Cursor) :
    (recover body).run cursor =
      match body.run cursor with
      | .done value after =>
          .done (some value) after
      | .failed after =>
          .done none after.synchronize :=
  rfl

/-! Reading tokens. -/

/-- Whether the next token has the given kind. -/
def sees (kind : TokenKind) : Routine Bool := do
  return (← peek).kind == kind

/-- Read the next token if it has the given kind. -/
def accept (kind : TokenKind) : Routine (Option Token) := do
  match ← tokens with
  | token :: _ =>
      if token.kind = kind then do
        skip
        return some token
      else
        return none
  | [] =>
      return none

/-- Read a token of the given kind; any other one is a problem. -/
def expect
    (kind : TokenKind)
    (what : Expectation) :
    Routine Token := do
  match ← accept kind with
  | some token =>
      return token
  | none => do
      report (← peek) (.expected what)
      giveUp

/-- A routine that looks at the tokens first. -/
theorem run_tokens_bind
    (next : List Token → Routine α)
    (cursor : Cursor) :
    (tokens >>= next).run cursor = (next cursor.rest).run cursor :=
  rfl

/-- A routine behind a token that is there. -/
theorem run_skip_bind
    {token : Token}
    {rest : List Token}
    {cursor : Cursor}
    (shape : cursor.rest = token :: rest)
    (next : Unit → Routine α) :
    (skip >>= next).run cursor = (next ()).run { cursor with rest } := by
  rw [run_bind, run, shape]
  rfl

/-- A routine that looks at the kind of the next token first. -/
theorem run_sees_bind
    (kind : TokenKind)
    (next : Bool → Routine α)
    (cursor : Cursor) :
    (sees kind >>= next).run cursor = (next (cursor.sees kind)).run cursor :=
  rfl

@[simp]
theorem run_accept
    (kind : TokenKind)
    (cursor : Cursor) :
    (accept kind).run cursor =
      match cursor.accept? kind with
      | some (token, after) =>
          .done (some token) after
      | none =>
          .done none cursor := by
  rcases cursor with ⟨_ | ⟨token, rest⟩, ending, depth, reported⟩
  · rfl
  · by_cases same : token.kind = kind <;>
      simp [accept, Cursor.accept?, same, Step.bind, run]

theorem run_accept_bind
    (kind : TokenKind)
    (next : Option Token → Routine α)
    (cursor : Cursor) :
    (accept kind >>= next).run cursor =
      match cursor.accept? kind with
      | some (token, after) =>
          (next (some token)).run after
      | none =>
          (next none).run cursor := by
  rw [run_bind, run_accept]
  cases cursor.accept? kind <;> rfl

@[simp]
theorem run_expect
    (kind : TokenKind)
    (what : Expectation)
    (cursor : Cursor) :
    (expect kind what).run cursor = cursor.expect kind what := by
  rw [expect, run_accept_bind, Cursor.expect]
  cases cursor.accept? kind <;> rfl

end Routine

/-! The way of a run. -/

namespace Cursor

/-- What the parser does to a cursor at once. -/
inductive Moves (before : Cursor) : Cursor → Prop where
  | stays : Moves before before
  | skips : Moves before { before with rest := before.rest.tail }
  | reports (token : Token) (problem : Problem) :
      Moves before (before.report token problem)
  | opens : Moves before { before with depth := before.depth + 1 }
  | closes : Moves before before.leave
  | recovers : Moves before before.synchronize

/-- A way from one cursor to another one, with all cursors that it comes by. -/
inductive Track : Cursor → List Cursor → Cursor → Prop where
  | here (cursor : Cursor) : Track cursor [cursor] cursor
  | move {first second last : Cursor} {visited : List Cursor}
      (moves : first.Moves second)
      (track : Track second visited last) :
      Track first (first :: visited) last

/-- A way goes on where another one begins. -/
theorem Track.append
    {first middle next last : Cursor}
    {visited further : List Cursor}
    (front : Track first visited middle)
    (moves : middle.Moves next)
    (back : Track next further last) :
    Track first (visited ++ further) last := by
  induction front with
  | here cursor =>
      exact .move moves back
  | move earlier _ inductionHypothesis =>
      exact .move earlier (inductionHypothesis moves)

/-- Entering a construct opens it where there is room, and else nothing. -/
theorem enter_cases
    (cursor : Cursor)
    (opening : Token) :
    (cursor.depth < maximalDepth ∧
        cursor.enter opening =
          .done () { cursor with depth := cursor.depth + 1 }) ∨
      cursor.enter opening =
        .failed (cursor.report opening .tooMuchNesting) := by
  unfold enter
  split
  · rename_i room
    exact .inl ⟨room, rfl⟩
  · exact .inr rfl

/-- Looking for the next statement opens and closes nothing. -/
theorem depth_synchronize (cursor : Cursor) :
    cursor.synchronize.depth = cursor.depth := by
  unfold synchronize
  split <;> rfl

end Cursor

theorem Step.cursor_mapCursor
    (change : Cursor → Cursor)
    (step : Step α) :
    (step.mapCursor change).cursor = change step.cursor := by
  cases step <;> rfl

namespace Routine

variable {α β : Type}

/-- The cursors that a run comes by are a way from where it begins to where it
ends. -/
theorem visits_track
    (routine : Routine α)
    (cursor : Cursor) :
    Cursor.Track cursor (routine.visits cursor)
      (routine.run cursor).cursor := by
  induction routine generalizing cursor with
  | done | giveUp | tokens | peek =>
      exact .here cursor
  | skip =>
      exact .move .skips (.here _)
  | report token problem =>
      exact .move (.reports token problem) (.here _)
  | andThen first next firstTrack nextTrack =>
      have front := firstTrack cursor
      rw [visits, run]
      cases ran : first.run cursor with
      | done value after =>
          rw [ran] at front
          exact front.append .stays (nextTrack value after)
      | failed after =>
          rw [ran] at front
          show Cursor.Track cursor (first.visits cursor ++ []) after
          rw [List.append_nil]
          exact front
  | within opening body bodyTrack =>
      rw [visits, run, Cursor.nested]
      obtain ⟨-, entered⟩ | refused := cursor.enter_cases opening
      · -- The body is between the two moves that open and close the construct.
        rw [entered, Step.bind, Step.cursor_mapCursor]
        exact .move .opens ((bodyTrack _).append .closes (.here _))
      · rw [refused]
        exact .move (.reports opening .tooMuchNesting) (.here _)
  | recover body bodyTrack =>
      have front := bodyTrack cursor
      rw [visits, run]
      cases ran : body.run cursor with
      | done value after =>
          rw [ran] at front
          show Cursor.Track cursor (body.visits cursor ++ []) after
          rw [List.append_nil]
          exact front
      | failed after =>
          rw [ran] at front
          exact front.append .recovers (.here _)

/-! The number of open constructs. -/

/-- However a routine ends, as many constructs are open as were at its
beginning. -/
theorem depth_run
    (routine : Routine α)
    (cursor : Cursor) :
    (routine.run cursor).cursor.depth = cursor.depth := by
  induction routine generalizing cursor with
  | done | giveUp | tokens | peek | skip | report =>
      rfl
  | andThen first next firstKeeps nextKeeps =>
      have before := firstKeeps cursor
      rw [run]
      cases ran : first.run cursor with
      | done value after =>
          rw [ran] at before
          exact (nextKeeps value after).trans before
      | failed after =>
          rw [ran] at before
          exact before
  | within opening body bodyKeeps =>
      rw [run, Cursor.nested]
      obtain ⟨-, entered⟩ | refused := cursor.enter_cases opening
      · -- What was raised at the beginning is lowered however the body ends.
        rw [entered, Step.bind, Step.cursor_mapCursor, Cursor.leave, bodyKeeps]
        rfl
      · rw [refused]
        rfl
  | recover body bodyKeeps =>
      have before := bodyKeeps cursor
      rw [run]
      cases ran : body.run cursor with
      | done value after =>
          rw [ran] at before
          exact before
      | failed after =>
          rw [ran] at before
          exact after.depth_synchronize.trans before

/-- Never while a routine runs are more constructs open than may be. -/
theorem depth_visits_le
    (routine : Routine α)
    {cursor between : Cursor}
    (shallow : cursor.depth ≤ Cursor.maximalDepth)
    (member : between ∈ routine.visits cursor) :
    between.depth ≤ Cursor.maximalDepth := by
  induction routine generalizing cursor with
  | done | giveUp | tokens | peek =>
      obtain rfl := List.mem_singleton.mp member
      exact shallow
  | skip | report =>
      obtain rfl | late := List.mem_cons.mp member
      · exact shallow
      · obtain rfl := List.mem_singleton.mp late
        exact shallow
  | andThen first next firstKeeps nextKeeps =>
      have before := first.depth_run cursor
      rw [visits] at member
      obtain early | late := List.mem_append.mp member
      · exact firstKeeps shallow early
      · cases ran : first.run cursor with
        | done value after =>
            rw [ran] at late before
            exact nextKeeps value
              (Nat.le_trans (Nat.le_of_eq before) shallow) late
        | failed after =>
            rw [ran] at late
            contradiction
  | within opening body bodyKeeps =>
      rw [visits] at member
      obtain rfl | inside := List.mem_cons.mp member
      · exact shallow
      · obtain ⟨room, entered⟩ | refused := cursor.enter_cases opening
        · -- There was room for one more, so the body begins within the limit.
          rw [entered] at inside
          obtain early | late := List.mem_append.mp inside
          · exact bodyKeeps (Nat.succ_le_of_lt room) early
          · obtain rfl := List.mem_singleton.mp late
            rw [Cursor.leave, depth_run]
            exact shallow
        · rw [refused] at inside
          obtain rfl := List.mem_singleton.mp inside
          exact shallow
  | recover body bodyKeeps =>
      have before := body.depth_run cursor
      rw [visits] at member
      obtain early | late := List.mem_append.mp member
      · exact bodyKeeps shallow early
      · cases ran : body.run cursor with
        | done value after =>
            rw [ran] at late
            contradiction
        | failed after =>
            rw [ran] at late before
            obtain rfl := List.mem_singleton.mp late
            rw [Cursor.depth_synchronize]
            exact Nat.le_trans (Nat.le_of_eq before) shallow

end Routine

end Script
