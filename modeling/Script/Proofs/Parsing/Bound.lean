import Script.Proofs.Relabel.StmtParser
import Script.Proofs.Slice.Total

namespace Script

/-!
# Declarations behind others

What is read of declarations does not depend on what was read before them.  The
statements collected so far and the problems reported so far only stand in front
of those that follow, and the bound on the calls of the parser is of no account
once it is large enough.  So declarations that are derived may stand in front of
any tokens: these are then read as they are read alone, unless they begin with an
`else`.
-/

namespace Cursor

/-- The tokens of a cursor go to the end of the input, and not beyond it. -/
structure Ends (cursor : Cursor) : Prop where
  notEnd : ∀ token ∈ cursor.rest, token.kind ≠ .endOfInput
  isEnd : cursor.ending.kind = .endOfInput

/-- The start of a list of tokens goes to the end of the input. -/
theorem start_ends (tokens : List Token) : (start tokens).Ends :=
  ⟨(Slice.start_shows tokens).notEnd, (Slice.start_shows tokens).isEnd⟩

end Cursor

namespace Slice

/-- The first end of the input is at one place only. -/
theorem ending_unique
    {before other beyond further : List Token}
    {ending last : Token}
    (same : before ++ ending :: beyond = other ++ last :: further)
    (notEnd : ∀ token ∈ before, token.kind ≠ .endOfInput)
    (isEnd : ending.kind = .endOfInput)
    (otherNotEnd : ∀ token ∈ other, token.kind ≠ .endOfInput)
    (lastIsEnd : last.kind = .endOfInput) :
    before = other ∧ ending = last := by
  have start := congrArg Cursor.start same
  rw [Grammar.start_of_ending notEnd isEnd,
    Grammar.start_of_ending otherNotEnd lastIsEnd] at start
  injection start with sameRest sameEnding
  exact ⟨sameRest, sameEnding⟩

/-- A place shows one cursor only. -/
theorem Place.Shows.unique
    {tokens : List Token}
    {place : Place}
    {cursor other : Cursor}
    (shows : place.Shows tokens cursor)
    (otherShows : place.Shows tokens other) :
    cursor = other := by
  obtain ⟨beyond, behind⟩ := shows.behind
  obtain ⟨further, otherBehind⟩ := otherShows.behind
  obtain ⟨sameRest, sameEnding⟩ :=
    ending_unique (behind.symm.trans otherBehind) shows.notEnd shows.isEnd
      otherShows.notEnd otherShows.isEnd
  have sameDepth := shows.depth.symm.trans otherShows.depth
  have sameReported := shows.reported.symm.trans otherShows.reported
  rcases cursor with ⟨rest, ending, depth, reported⟩
  rcases other with ⟨otherRest, last, otherDepth, otherReported⟩
  simp only at sameRest sameEnding sameDepth sameReported
  rw [sameRest, sameEnding, sameDepth, sameReported]

/-- A run comes to one result only. -/
theorem Ran.Shows.unique
    {tokens : List Token}
    {ran : Ran α}
    {value other : α}
    {cursor last : Cursor}
    (shows : ran.Shows tokens (.done value cursor))
    (otherShows : ran.Shows tokens (.done other last)) :
    value = other ∧ cursor = last := by
  cases ran with
  | done result place =>
      obtain ⟨rfl, showsCursor⟩ := shows
      obtain ⟨rfl, showsLast⟩ := otherShows
      exact ⟨rfl, showsCursor.unique showsLast⟩
  | failed | outside | exhausted =>
      exact shows.elim

end Slice

namespace Stmt.Parser

/-- Where there is nothing to read, nothing is read. -/
theorem declarations_of_nil
    {bound : Nat}
    (inBlock : Bool)
    (collected : List Stmt)
    {cursor : Cursor}
    (nothing : cursor.rest = []) :
    declarations bound inBlock collected cursor =
      (collected.reverse, cursor) := by
  cases bound with
  | zero =>
      rfl
  | succ bound =>
      rw [declarations, nothing]
      rfl

/-- Every sufficient bound gives the same declarations. -/
theorem declarations_bound
    {bound other : Nat}
    (inBlock : Bool)
    (collected : List Stmt)
    {cursor : Cursor}
    (ends : cursor.Ends)
    (enough : 6 * cursor.rest.length + 3 ≤ bound)
    (otherEnough : 6 * cursor.rest.length + 3 ≤ other) :
    declarations bound inBlock collected cursor =
      declarations other inBlock collected cursor := by
  by_cases nothing : cursor.rest = []
  · rw [declarations_of_nil inBlock collected nothing,
      declarations_of_nil inBlock collected nothing]
  · let tokens := cursor.rest ++ [cursor.ending]
    let place : Slice.Place :=
      { current := 0, depth := cursor.depth, reported := cursor.reported }
    have shows : place.Shows tokens cursor :=
      ⟨⟨[], rfl⟩, ends.notEnd, ends.isEnd, rfl, rfl⟩
    have begins : ∀ first ∈ tokens.head?, first.kind ≠ .endOfInput := by
      obtain ⟨token, rest, shape⟩ := List.exists_cons_of_ne_nil nothing
      intro first isFirst
      obtain rfl : token = first := by simpa [tokens, shape] using isFirst
      exact ends.notEnd token (shape ▸ List.mem_cons_self)
    -- The parser by index comes to both results within one and the same bound.
    have ran :=
      (Slice.stmtShows begins (6 * cursor.rest.length + 7)).declarations
    obtain ⟨sameStatements, sameCursor⟩ :=
      (ran bound inBlock collected place cursor shows le_rfl enough).unique
        (ran other inBlock collected place cursor shows le_rfl otherEnough)
    exact Prod.ext sameStatements sameCursor

/-- Statements collected already stand in front of those that follow. -/
theorem declarations_collected
    (bound : Nat)
    (inBlock : Bool)
    (collected : List Stmt)
    (cursor : Cursor) :
    declarations bound inBlock collected cursor =
      (collected.reverse ++ (declarations bound inBlock [] cursor).1,
        (declarations bound inBlock [] cursor).2) := by
  induction bound generalizing collected cursor with
  | zero =>
      simp [declarations]
  | succ bound inductionHypothesis =>
      rw [declarations, declarations]
      split
      · simp
      · cases declaration bound cursor with
        | done statement after =>
            dsimp only
            rw [inductionHypothesis (statement :: collected),
              inductionHypothesis [statement]]
            simp
        | failed after =>
            exact inductionHypothesis collected after.synchronize

/-- Problems that were reported earlier stand in front of those that follow. -/
theorem declarations_reported
    (bound : Nat)
    (inBlock : Bool)
    (cursor : Cursor)
    (earlier : List Diagnostic) :
    let read := declarations bound inBlock [] cursor
    declarations bound inBlock []
        { cursor with reported := cursor.reported ++ earlier } =
      (read.1,
        { read.2 with reported := read.2.reported ++ earlier }) := by
  have sameToken : Token.reline id = id := rfl
  have sameProblem : Diagnostic.reline id = id := rfl
  have sameCursor (other : Cursor) :
      other.reline id earlier =
        { other with reported := other.reported ++ earlier } := by
    simp [Cursor.reline, sameToken, sameProblem]
  have relined := (relines id earlier bound).declarations inBlock [] cursor
  rw [sameToken, relabelAll_id, sameCursor] at relined
  rw [relined]
  simp only [Prod.map, relabelAll_id, sameCursor]

open Grammar in
/-- Declarations that are derived are read in front of any tokens that do not
begin with an `else`, and these are read as they are read alone. -/
theorem declarations_derived
    {room bound other : Nat}
    {before : List Token}
    {trees : List Stmt}
    (inBlock : Bool)
    {cursor : Cursor}
    (ends : cursor.Ends)
    (derived : Derives true .declarations room before trees)
    (depth : cursor.depth + room ≤ Cursor.maximalDepth)
    (noElse : NoElse cursor.rest)
    (enough : 6 * (before.length + cursor.rest.length) + 3 ≤ bound)
    (otherEnough : 6 * cursor.rest.length + 3 ≤ other) :
    declarations bound inBlock []
        { cursor with rest := before ++ cursor.rest } =
      (trees ++ (declarations other inBlock [] cursor).1,
        (declarations other inBlock [] cursor).2) := by
  obtain ⟨left, leftEnough, reached⟩ :=
    derived.completes bound inBlock [] cursor cursor.rest depth enough noElse
  rw [reached, declarations_collected,
    declarations_bound inBlock [] ends leftEnough otherEnough]
  simp

end Stmt.Parser

namespace Program

open Grammar

variable {before behind : List Token} {trees : List Stmt}

/-- Tokens in front of a list do not change where it ends. -/
theorem start_append
    (noEnding : ∀ token ∈ before, token.kind ≠ .endOfInput)
    (someBehind : behind ≠ []) :
    Cursor.start (before ++ behind) =
      { Cursor.start behind with
        rest := before ++ (Cursor.start behind).rest } := by
  have taken :
      (before ++ behind).takeWhile (!·.kind == .endOfInput) =
        before ++ behind.takeWhile (!·.kind == .endOfInput) :=
    List.takeWhile_append_of_pos (by simpa using noEnding)
  have found :
      (before ++ behind).find? (·.kind == .endOfInput) =
        behind.find? (·.kind == .endOfInput) := by
    rw [List.find?_append, List.find?_eq_none.mpr (by simpa using noEnding),
      Option.none_or]
  have last : (before ++ behind).getLast? = behind.getLast? := by
    rw [List.getLast?_append, List.getLast?_eq_some_getLast someBehind,
      Option.some_or]
  simp only [Cursor.start, taken, found, last]

/-- A program that is derived may stand in front of any tokens that do not begin
with an `else`. -/
theorem ofTokens_append
    (noEnding : ∀ token ∈ before, token.kind ≠ .endOfInput)
    (derived : Derives true .declarations deepestNesting before trees)
    (someBehind : behind ≠ [])
    (noElse : NoElse (Cursor.start behind).rest) :
    ofTokens (before ++ behind) =
      { statements := trees ++ (ofTokens behind).statements
        problems := (ofTokens behind).problems } := by
  have read :=
    Stmt.Parser.declarations_derived false (Cursor.start_ends behind) derived
      (Nat.le_of_eq (Nat.zero_add _)) noElse
      (show _ ≤ 6 * (before ++ (Cursor.start behind).rest).length + 6 by
        simp only [List.length_append]
        omega)
      (show _ ≤ 6 * (Cursor.start behind).rest.length + 6 by omega)
  unfold ofTokens
  rw [start_append noEnding someBehind]
  simp only [read]

end Program

end Script
