import Script.Proofs.Slice.Place

namespace Script

theorem Step.Builds.length_le
    {before after : Cursor}
    {least : Nat}
    {property : α → Prop}
    {step : Step α}
    {value : α}
    (builds : step.Builds before least property)
    (done : step = .done value after) :
    after.rest.length + least ≤ before.rest.length := by
  subst done
  exact builds.2.1

theorem Cursor.knows_all (cursor : Cursor) : cursor.Knows fun _ => True :=
  fun _ _ => trivial

namespace Slice

/-!
# Expressions in a slice

With six calls for each token, and a few more, the functions for expressions come
to their end inside of the slice, and come to what the functions on cursors come
to.  The calls that read no token before the next call are few, and how many may
still follow each other is what a function asks for beyond six for each token.
-/

/-- What the functions for expressions come to within a bound; `bound` is the one
of the function on cursors. -/
structure ExprShows
    (tokens : List Token)
    (fuel : Nat) :
    Prop where
  expression :
    ∀ (bound : Nat) (place : Place) (cursor : Cursor),
      place.Shows tokens cursor →
      6 * cursor.rest.length + 4 ≤ fuel →
      6 * cursor.rest.length + 4 ≤ bound →
      (expression fuel tokens place).Shows tokens
        (Expr.Parser.expression bound cursor)
  operation :
    ∀ (bound level : Nat) (place : Place) (cursor : Cursor),
      place.Shows tokens cursor →
      6 * cursor.rest.length + 3 ≤ fuel →
      6 * cursor.rest.length + 3 ≤ bound →
      (operation fuel level tokens place).Shows tokens
        (Expr.Parser.operation bound level cursor)
  operators :
    ∀ (bound level : Nat) (left : Expr) (place : Place) (cursor : Cursor),
      place.Shows tokens cursor →
      6 * cursor.rest.length + 1 ≤ fuel →
      6 * cursor.rest.length + 1 ≤ bound →
      (operators fuel level left tokens place).Shows tokens
        (Expr.Parser.operators bound level left cursor)
  operand :
    ∀ (bound : Nat) (place : Place) (cursor : Cursor),
      place.Shows tokens cursor →
      6 * cursor.rest.length + 2 ≤ fuel →
      6 * cursor.rest.length + 2 ≤ bound →
      (operand fuel tokens place).Shows tokens
        (Expr.Parser.operand bound cursor)
  trailers :
    ∀ (bound : Nat) (callee : Expr) (place : Place) (cursor : Cursor),
      place.Shows tokens cursor →
      6 * cursor.rest.length + 1 ≤ fuel →
      6 * cursor.rest.length + 1 ≤ bound →
      (trailers fuel callee tokens place).Shows tokens
        (Expr.Parser.trailers bound callee cursor)
  arguments :
    ∀ (bound : Nat) (collected : List Expr) (place : Place) (cursor : Cursor),
      place.Shows tokens cursor →
      6 * cursor.rest.length + 5 ≤ fuel →
      6 * cursor.rest.length + 5 ≤ bound →
      (arguments fuel collected tokens place).Shows tokens
        (Expr.Parser.arguments bound collected cursor)
  primary :
    ∀ (bound : Nat) (place : Place) (cursor : Cursor),
      place.Shows tokens cursor →
      6 * cursor.rest.length + 1 ≤ fuel →
      6 * cursor.rest.length + 1 ≤ bound →
      (primary fuel tokens place).Shows tokens
        (Expr.Parser.primary bound cursor)

theorem exists_smaller
    {need bound : Nat}
    (most : need + 1 ≤ bound) :
    ∃ smaller, bound = smaller + 1 :=
  Nat.exists_eq_add_of_le' (by omega)

variable {tokens : List Token} {fuel bound : Nat} {place : Place}
  {cursor : Cursor}

theorem assignTo_shows
    (shows : place.Shows tokens cursor)
    (target : Expr)
    (equals : Token)
    (value : Expr) :
    (assignTo target equals value tokens place).Shows tokens
      (Expr.assignTo target equals value cursor) := by
  obtain ⟨after, reported, showsAfter⟩ := shows.report equals .invalidTarget
  have refused :
      ((report equals .invalidTarget >>= fun _ => pure value)
          tokens place).Shows tokens
        (.done value (cursor.report equals .invalidTarget)) := by
    rw [bind_of_done _ reported]
    exact ⟨rfl, showsAfter⟩
  cases target with
  | reference | property =>
      exact shows.done _
  | _ =>
      exact refused

theorem count_shows
    {α : Type}
    (shows : place.Shows tokens cursor)
    (collected : List α)
    (problem : Problem) :
    ∃ after : Place,
      count collected problem tokens place = .done () after ∧
        after.Shows tokens
          (if Cursor.maximalArguments ≤ collected.length then
            cursor.report cursor.peek problem
          else
            cursor) := by
  unfold count
  split
  · rw [bind_of_done _ shows.peek]
    exact shows.report _ _
  · exact ⟨place, rfl, shows⟩

theorem expression_shows
    (smaller : ExprShows tokens fuel)
    (shows : place.Shows tokens cursor)
    (enough : 6 * cursor.rest.length + 4 ≤ fuel + 1)
    (most : 6 * cursor.rest.length + 4 ≤ bound + 1) :
    (expression (fuel + 1) tokens place).Shows tokens
      (Expr.Parser.expression (bound + 1) cursor) := by
  rw [expression, Expr.Parser.expression]
  refine (smaller.operation bound 0 place cursor shows (by omega)
    (by omega)).bind fun target after following read shows => ?_
  have shorter :=
    ((Expr.Parser.build _ bound).operation 0 cursor
      cursor.knows_all).length_le read
  cases accepted : following.accept? .equal with
  | none =>
      rw [bind_of_done _ (shows.accept_none (by decide) accepted)]
      exact shows.done _
  | some found =>
      rcases found with ⟨equals, behind⟩
      obtain ⟨place, isAccepted, shows, follows⟩ := shows.accept_some accepted
      have length := Cursor.length_accept? accepted
      rw [bind_of_done _ isAccepted]
      simp only [if_true]
      rw [bind_of_done _ follows]
      exact (smaller.expression bound place behind shows (by omega)
        (by omega)).bind fun value _ _ _ shows =>
          assignTo_shows shows target equals value

theorem operation_shows
    (smaller : ExprShows tokens fuel)
    (level : Nat)
    (shows : place.Shows tokens cursor)
    (enough : 6 * cursor.rest.length + 3 ≤ fuel + 1)
    (most : 6 * cursor.rest.length + 3 ≤ bound + 1) :
    (operation (fuel + 1) level tokens place).Shows tokens
      (Expr.Parser.operation (bound + 1) level cursor) := by
  rw [operation, Expr.Parser.operation]
  refine (smaller.operand bound place cursor shows (by omega)
    (by omega)).bind fun left after following read shows => ?_
  have shorter :=
    ((Expr.Parser.build _ bound).operand cursor
      cursor.knows_all).length_le read
  exact smaller.operators bound level left after following shows (by omega)
    (by omega)

theorem operators_shows
    (smaller : ExprShows tokens fuel)
    (level : Nat)
    (left : Expr)
    (shows : place.Shows tokens cursor)
    (enough : 6 * cursor.rest.length + 1 ≤ fuel + 1)
    (most : 6 * cursor.rest.length + 1 ≤ bound + 1) :
    (operators (fuel + 1) level left tokens place).Shows tokens
      (Expr.Parser.operators (bound + 1) level left cursor) := by
  rw [operators, Expr.Parser.operators, bind_of_done _ shows.peek]
  cases shape : cursor.rest with
  | nil =>
      have peeked : cursor.peek.kind = .endOfInput := by
        rw [Cursor.peek, shape]
        exact shows.isEnd
      rw [peeked]
      exact shows.done _
  | cons operator rest =>
      have peeked : cursor.peek = operator := by
        rw [Cursor.peek, shape]
        rfl
      rw [peeked]
      dsimp only
      cases operator.kind.precedence? with
      | none =>
          exact shows.done _
      | some precedence =>
          dsimp only
          split
          · exact shows.done _
          · obtain ⟨after, advanced, showsAfter, -⟩ := shows.advance shape
            rw [shape, List.length_cons] at enough most
            rw [bind_of_done _ advanced]
            let following : Cursor := { cursor with rest }
            refine (smaller.operation bound (precedence + 1) after following
              showsAfter (by simp only [following]; omega)
              (by simp only [following]; omega)).bind
                fun right last behind read shows => ?_
            have shorter :=
              ((Expr.Parser.build _ bound).operation (precedence + 1) following
                following.knows_all).length_le read
            have known : following.rest.length = rest.length := rfl
            exact smaller.operators bound level _ last behind shows (by omega)
              (by omega)

theorem operand_shows
    (smaller : ExprShows tokens fuel)
    (shows : place.Shows tokens cursor)
    (enough : 6 * cursor.rest.length + 2 ≤ fuel + 1)
    (most : 6 * cursor.rest.length + 2 ≤ bound + 1) :
    (operand (fuel + 1) tokens place).Shows tokens
      (Expr.Parser.operand (bound + 1) cursor) := by
  rw [operand, Expr.Parser.operand, bind_of_done _ shows.peek]
  cases accepted : (cursor.accept? .bang).or (cursor.accept? .minus) with
  | some found =>
      rcases found with ⟨operator, following⟩
      obtain ⟨kind, isUnary, acceptedKind⟩ :
          ∃ kind, (kind = .bang ∨ kind = .minus) ∧
            cursor.accept? kind = some (operator, following) := by
        rcases Option.or_eq_some_iff.mp accepted with bang | ⟨-, minus⟩
        · exact ⟨.bang, .inl rfl, bang⟩
        · exact ⟨.minus, .inr rfl, minus⟩
      obtain ⟨same, shape, nextShape⟩ :=
        Cursor.accept?_eq_some_iff.mp acceptedKind
      have length := Cursor.length_accept? acceptedKind
      have peeked : cursor.peek.kind = kind := by
        rw [Cursor.peek, shape]
        exact same
      obtain ⟨after, advanced, showsAfter, follows⟩ := shows.advance shape
      rw [← nextShape] at showsAfter
      rw [peeked, if_pos isUnary, bind_of_done _ advanced]
      refine showsAfter.nested follows fun place inner shows same => ?_
      have known := congrArg List.length same
      exact (smaller.operand bound place inner shows (by omega)
        (by omega)).map _
  | none =>
      obtain ⟨noBang, noMinus⟩ := Option.or_eq_none_iff.mp accepted
      have notUnary :
          ¬ (cursor.peek.kind = .bang ∨ cursor.peek.kind = .minus) := by
        have bang := shows.sees_of_accept? .bang (by decide)
        have minus := shows.sees_of_accept? .minus (by decide)
        rw [noBang] at bang
        rw [noMinus] at minus
        simpa [Cursor.sees] using And.intro bang minus
      rw [if_neg notUnary]
      refine (smaller.primary bound place cursor shows (by omega)
        (by omega)).bind fun callee after following read shows => ?_
      have shorter :=
        ((Expr.Parser.build _ bound).primary cursor
          cursor.knows_all).length_le read
      exact smaller.trailers bound callee after following shows (by omega)
        (by omega)

theorem trailers_shows
    (smaller : ExprShows tokens fuel)
    (callee : Expr)
    (shows : place.Shows tokens cursor)
    (enough : 6 * cursor.rest.length + 1 ≤ fuel + 1)
    (most : 6 * cursor.rest.length + 1 ≤ bound + 1) :
    (trailers (fuel + 1) callee tokens place).Shows tokens
      (Expr.Parser.trailers (bound + 1) callee cursor) := by
  rw [trailers, Expr.Parser.trailers]
  cases accepted : cursor.accept? .leftParen with
  | some found =>
      rcases found with ⟨opening, inside⟩
      obtain ⟨place, isAccepted, shows, -⟩ := shows.accept_some accepted
      have length := Cursor.length_accept? accepted
      rw [bind_of_done _ isAccepted]
      simp only [if_true]
      rw [bind_of_done _ (shows.check .rightParen),
        shows.sees_of_accept? .rightParen (by decide)]
      cases closed : inside.accept? .rightParen with
      | some found =>
          rcases found with ⟨closing, behind⟩
          have closes :
              inside.expect .rightParen .argumentsEnd =
                .done closing behind := by
            rw [Cursor.expect, closed]
          show Ran.Shows tokens _
            ((Step.done closing behind).bind fun closing cursor =>
              Expr.Parser.trailers bound (.call callee closing []) cursor)
          rw [← closes]
          exact shows.expect_bind (by decide) _
            fun closing after following shows _ shorter =>
              smaller.trailers bound (.call callee closing []) after
                following shows (by omega) (by omega)
      | none =>
          refine (smaller.arguments bound [] place inside shows (by omega)
            (by omega)).bind fun arguments after following read shows => ?_
          have shorter :=
            ((Expr.Parser.build _ bound).arguments [] inside (by simp)
              inside.knows_all).length_le read
          exact shows.expect_bind (by decide) _
            fun closing after behind shows _ shorter =>
              smaller.trailers bound (.call callee closing arguments) after
                behind shows (by omega) (by omega)
  | none =>
      rw [bind_of_done _ (shows.accept_none (by decide) accepted)]
      simp only [Bool.false_eq_true, if_false]
      cases dotted : cursor.accept? .dot with
      | some found =>
          rcases found with ⟨dot, inside⟩
          obtain ⟨place, isAccepted, shows, -⟩ := shows.accept_some dotted
          have length := Cursor.length_accept? dotted
          rw [bind_of_done _ isAccepted]
          exact shows.expect_bind (by decide) _
            fun name after behind shows _ shorter =>
              smaller.trailers bound (.property callee name) after behind
                shows (by omega) (by omega)
      | none =>
          rw [bind_of_done _ (shows.accept_none (by decide) dotted)]
          exact shows.done _

theorem arguments_shows
    (smaller : ExprShows tokens fuel)
    (collected : List Expr)
    (shows : place.Shows tokens cursor)
    (enough : 6 * cursor.rest.length + 5 ≤ fuel + 1)
    (most : 6 * cursor.rest.length + 5 ≤ bound + 1) :
    (arguments (fuel + 1) collected tokens place).Shows tokens
      (Expr.Parser.arguments (bound + 1) collected cursor) := by
  obtain ⟨after, counted, showsCount⟩ :=
    count_shows shows collected .tooManyArguments
  rw [← Expr.countArgument] at showsCount
  have same : (Expr.countArgument collected cursor).rest = cursor.rest := by
    unfold Expr.countArgument
    split <;> rfl
  have known := congrArg List.length same
  rw [arguments, Expr.Parser.arguments, bind_of_done _ counted]
  refine (smaller.expression bound after _ showsCount (by omega)
    (by omega)).bind fun argument after following read shows => ?_
  have shorter :=
    ((Expr.Parser.build _ bound).expression _
      (Cursor.knows_all _)).length_le read
  cases accepted : following.accept? .comma with
  | some found =>
      rcases found with ⟨comma, behind⟩
      obtain ⟨place, isAccepted, shows, -⟩ := shows.accept_some accepted
      have length := Cursor.length_accept? accepted
      rw [bind_of_done _ isAccepted]
      exact smaller.arguments bound (argument :: collected) place behind shows
        (by omega) (by omega)
  | none =>
      rw [bind_of_done _ (shows.accept_none (by decide) accepted)]
      exact shows.done _

theorem primary_shows
    (smaller : ExprShows tokens fuel)
    (shows : place.Shows tokens cursor)
    (enough : 6 * cursor.rest.length + 1 ≤ fuel + 1)
    (most : 6 * cursor.rest.length + 1 ≤ bound + 1) :
    (primary (fuel + 1) tokens place).Shows tokens
      (Expr.Parser.primary (bound + 1) cursor) := by
  rw [primary, Expr.Parser.primary, bind_of_done _ shows.peek]
  cases shape : cursor.rest with
  | nil =>
      have peeked : cursor.peek.kind = .endOfInput := by
        rw [Cursor.peek, shape]
        exact shows.isEnd
      have single : Expr.ofToken? cursor.peek = none := by
        rw [Expr.ofToken?, peeked]
      rw [single]
      dsimp only
      rw [peeked]
      exact shows.fail _ _
  | cons token rest =>
      have peeked : cursor.peek = token := by
        rw [Cursor.peek, shape]
        rfl
      obtain ⟨after, advanced, showsAfter, follows⟩ := shows.advance shape
      rw [shape, List.length_cons] at enough most
      rw [peeked]
      dsimp only
      cases Expr.ofToken? token with
      | some expr =>
          dsimp only
          rw [bind_of_done _ advanced]
          exact showsAfter.done _
      | none =>
          dsimp only
          split
          · rw [bind_of_done _ advanced]
            refine showsAfter.nested follows fun place inner shows same => ?_
            have known := congrArg List.length same
            dsimp only at known
            refine (smaller.expression bound place inner shows (by omega)
              (by omega)).bind fun expr after following read shows => ?_
            exact shows.expect_bind (by decide) _
              fun _ after behind shows _ _ => shows.done _
          · exact shows.fail _ _

theorem exprShows
    (tokens : List Token)
    (fuel : Nat) :
    ExprShows tokens fuel := by
  induction fuel with
  | zero =>
      constructor <;> intros <;> omega
  | succ fuel smaller =>
      exact {
        expression := fun bound place cursor shows enough most => by
          obtain ⟨bound, rfl⟩ := exists_smaller most
          exact expression_shows smaller shows enough most
        operation := fun bound level place cursor shows enough most => by
          obtain ⟨bound, rfl⟩ := exists_smaller most
          exact operation_shows smaller level shows enough most
        operators := fun bound level left place cursor shows enough most => by
          obtain ⟨bound, rfl⟩ := exists_smaller most
          exact operators_shows smaller level left shows enough most
        operand := fun bound place cursor shows enough most => by
          obtain ⟨bound, rfl⟩ := exists_smaller most
          exact operand_shows smaller shows enough most
        trailers := fun bound callee place cursor shows enough most => by
          obtain ⟨bound, rfl⟩ := exists_smaller most
          exact trailers_shows smaller callee shows enough most
        arguments := fun bound collected place cursor shows enough most => by
          obtain ⟨bound, rfl⟩ := exists_smaller most
          exact arguments_shows smaller collected shows enough most
        primary := fun bound place cursor shows enough most => by
          obtain ⟨bound, rfl⟩ := exists_smaller most
          exact primary_shows smaller shows enough most }

end Slice

end Script
