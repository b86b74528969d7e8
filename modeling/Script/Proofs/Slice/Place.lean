import Script.Proofs.Slice.Parser
import Script.Proofs.Tree.Building

namespace Script.Slice

/-!
# Places and cursors

A place in a slice shows what a cursor has: behind the index the rest of the
cursor and the token that ends it.  As long as a place shows a cursor the parser
may look at the index, and just before it when a token has been read; and it
does there what the parser on cursors does.
-/

/-- What is behind a place is what a cursor has. -/
structure Place.Shows
    (tokens : List Token)
    (place : Place)
    (cursor : Cursor) :
    Prop where
  behind :
    ∃ beyond,
      tokens.drop place.current = cursor.rest ++ cursor.ending :: beyond
  notEnd : ∀ token ∈ cursor.rest, token.kind ≠ .endOfInput
  isEnd : cursor.ending.kind = .endOfInput
  depth : place.depth = cursor.depth
  reported : place.reported = cursor.reported

/-- A run came to what a step on cursors comes to. -/
def Ran.Shows
    (tokens : List Token) :
    Ran α → Step α → Prop
  | .done value place, .done same cursor =>
      value = same ∧ place.Shows tokens cursor
  | .failed place, .failed cursor =>
      place.Shows tokens cursor
  | _, _ =>
      False

theorem Place.Shows.done
    {tokens : List Token}
    {place : Place}
    {cursor : Cursor}
    (shows : place.Shows tokens cursor)
    (value : α) :
    (Ran.done value place).Shows tokens (.done value cursor) :=
  ⟨rfl, shows⟩

/-- A place just behind a token. -/
def Place.Follows
    (tokens : List Token)
    (place : Place)
    (token : Token) :
    Prop :=
  previous tokens place = .done token place

theorem Place.follows_of_index
    {tokens : List Token}
    {place : Place}
    {token : Token}
    {index : Nat}
    (behind : place.current = index + 1)
    (there : tokens[index]? = some token) :
    place.Follows tokens token := by
  unfold Place.Follows previous
  rw [behind]
  simp only [look, there]

section Bind

variable {tokens : List Token} {place after : Place}

theorem bind_apply
    (first : Parser α)
    (next : α → Parser β) :
    (first >>= next) tokens place =
      match first tokens place with
      | .done value after =>
          next value tokens after
      | .failed after =>
          .failed after
      | .outside =>
          .outside
      | .exhausted =>
          .exhausted :=
  rfl

theorem bind_of_done
    {first : Parser α}
    {value : α}
    (next : α → Parser β)
    (done : first tokens place = .done value after) :
    (first >>= next) tokens place = next value tokens after := by
  rw [bind_apply, done]

/-- A run that goes on shows what a step that goes on does. -/
theorem Ran.Shows.bind
    {first : Parser α}
    {next : α → Parser β}
    {step : Step α}
    {further : α → Cursor → Step β}
    (here : (first tokens place).Shows tokens step)
    (later :
      ∀ value after cursor,
        step = .done value cursor →
        after.Shows tokens cursor →
        (next value tokens after).Shows tokens (further value cursor)) :
    ((first >>= next) tokens place).Shows tokens (step.bind further) := by
  rw [bind_apply]
  cases ran : first tokens place with
  | done value after =>
      rw [ran] at here
      cases step with
      | done same cursor =>
          obtain ⟨rfl, shows⟩ := here
          exact later value after cursor rfl shows
      | failed cursor =>
          exact here.elim
  | failed after =>
      rw [ran] at here
      cases step with
      | done same cursor =>
          exact here.elim
      | failed cursor =>
          exact here
  | outside | exhausted =>
      rw [ran] at here
      cases step <;> exact here.elim

/-- A run whose value is changed shows a step whose value is changed. -/
theorem Ran.Shows.map
    {first : Parser α}
    {step : Step α}
    (change : α → β)
    (here : (first tokens place).Shows tokens step) :
    ((first >>= fun value => pure (change value)) tokens place).Shows tokens
      (step.map change) :=
  here.bind fun _ _ _ _ shows => ⟨rfl, shows⟩

end Bind

theorem Place.Shows.leave
    {tokens : List Token}
    {place : Place}
    {cursor : Cursor}
    (shows : place.Shows tokens cursor) :
    place.leave.Shows tokens cursor.leave :=
  ⟨shows.behind, shows.notEnd, shows.isEnd, congrArg (· - 1) shows.depth,
    shows.reported⟩

/-- Leaving a construct is the same however the run in it ends. -/
theorem Ran.Shows.leave
    {tokens : List Token}
    {ran : Ran α}
    {step : Step α}
    (shows : ran.Shows tokens step) :
    (ran.mapPlace Place.leave).Shows tokens (step.mapCursor Cursor.leave) := by
  cases ran with
  | done value place =>
      cases step with
      | done same cursor =>
          exact ⟨shows.1, Place.Shows.leave shows.2⟩
      | failed cursor =>
          exact shows.elim
  | failed place =>
      cases step with
      | done same cursor =>
          exact shows.elim
      | failed cursor =>
          exact Place.Shows.leave shows
  | outside | exhausted =>
      cases step <;> exact shows.elim

namespace Place.Shows

variable {tokens : List Token} {place : Place} {cursor : Cursor}

/-- The next token is there. -/
theorem peek (shows : place.Shows tokens cursor) :
    Slice.peek tokens place = .done cursor.peek place := by
  obtain ⟨beyond, behind⟩ := shows.behind
  have next : tokens[place.current]? = some cursor.peek := by
    rw [← List.head?_drop, behind, Cursor.peek]
    cases cursor.rest <;> rfl
  simp only [Slice.peek, look, next]

/-- A place that shows a cursor is inside of the slice. -/
theorem inside (shows : place.Shows tokens cursor) :
    place.current < tokens.length := by
  obtain ⟨beyond, behind⟩ := shows.behind
  by_contra beyondEnd
  rw [List.drop_of_length_le (not_lt.mp beyondEnd)] at behind
  simp at behind

theorem check
    (shows : place.Shows tokens cursor)
    (kind : TokenKind) :
    Slice.check kind tokens place = .done (cursor.sees kind) place := by
  rw [Slice.check, bind_of_done _ shows.peek]
  rfl

theorem atEnd (shows : place.Shows tokens cursor) :
    Slice.atEnd tokens place = .done cursor.rest.isEmpty place := by
  rw [Slice.atEnd, shows.check, Cursor.sees, Cursor.peek]
  cases rest : cursor.rest with
  | nil =>
      simp [shows.isEnd]
  | cons token others =>
      have notEnd := shows.notEnd token (rest ▸ List.mem_cons_self)
      simp [notEnd]

/-- Going on reads the next token. -/
theorem advance
    (shows : place.Shows tokens cursor)
    {token : Token}
    {rest : List Token}
    (shape : cursor.rest = token :: rest) :
    ∃ after : Place,
      Slice.advance tokens place = .done token after ∧
        after.Shows tokens { cursor with rest } ∧
        after.Follows tokens token := by
  obtain ⟨beyond, behind⟩ := shows.behind
  rw [shape] at behind
  let after : Place := { place with current := place.current + 1 }
  have next : tokens[place.current]? = some token := by
    rw [← List.head?_drop, behind]
    rfl
  have read : after.Follows tokens token := Place.follows_of_index rfl next
  refine ⟨after, ?_, ⟨⟨beyond, ?_⟩, ?_, shows.isEnd, shows.depth,
    shows.reported⟩, read⟩
  · rw [Slice.advance, bind_of_done _ shows.atEnd, shape]
    exact read
  · rw [show after.current = place.current + 1 from rfl, ← List.drop_drop,
      behind]
    rfl
  · intro other member
    exact shows.notEnd other (shape ▸ List.mem_cons_of_mem _ member)

theorem accept_some
    (shows : place.Shows tokens cursor)
    {kind : TokenKind}
    {token : Token}
    {next : Cursor}
    (accepted : cursor.accept? kind = some (token, next)) :
    ∃ after : Place,
      Slice.accept kind tokens place = .done true after ∧
        after.Shows tokens next ∧
        after.Follows tokens token := by
  obtain ⟨same, shape, nextShape⟩ := Cursor.accept?_eq_some_iff.mp accepted
  obtain ⟨after, advanced, showsAfter, follows⟩ := shows.advance shape
  refine ⟨after, ?_, nextShape ▸ showsAfter, follows⟩
  have sees : cursor.sees kind = true := by
    simp [Cursor.sees, Cursor.peek, shape, same]
  rw [Slice.accept, bind_of_done _ (shows.check kind), sees]
  simp only [if_true]
  rw [bind_of_done _ advanced]
  rfl

theorem sees_of_accept?
    (shows : place.Shows tokens cursor)
    (kind : TokenKind)
    (known : kind ≠ .endOfInput) :
    cursor.sees kind = (cursor.accept? kind).isSome := by
  rw [Cursor.sees, Cursor.peek, Cursor.accept?]
  cases cursor.rest with
  | nil =>
      simpa [shows.isEnd] using known.symm
  | cons token rest =>
      simp only [List.headD_cons]
      split <;> simp_all

theorem accept_none
    (shows : place.Shows tokens cursor)
    {kind : TokenKind}
    (known : kind ≠ .endOfInput)
    (refused : cursor.accept? kind = none) :
    Slice.accept kind tokens place = .done false place := by
  rw [Slice.accept, bind_of_done _ (shows.check kind),
    shows.sees_of_accept? kind known, refused]
  rfl

/-- Reporting a problem is the same at a place and at a cursor. -/
theorem report
    (shows : place.Shows tokens cursor)
    (token : Token)
    (problem : Problem) :
    ∃ after : Place,
      Slice.report token problem tokens place = .done () after ∧
        after.Shows tokens (cursor.report token problem) :=
  ⟨_, rfl, shows.behind, shows.notEnd, shows.isEnd, shows.depth, by
    rw [shows.reported]
    rfl⟩

theorem fail
    {α : Type}
    (shows : place.Shows tokens cursor)
    (token : Token)
    (problem : Problem) :
    (Slice.fail token problem tokens place : Ran α).Shows tokens
      (.failed (cursor.report token problem)) := by
  obtain ⟨after, reported, showsAfter⟩ := shows.report token problem
  rw [Slice.fail, bind_of_done _ reported]
  exact showsAfter

/-- Going on behind an expected token. -/
theorem expect_bind
    {next : Token → Parser β}
    {further : Token → Cursor → Step β}
    (shows : place.Shows tokens cursor)
    {kind : TokenKind}
    (known : kind ≠ .endOfInput)
    (what : Expectation)
    (later :
      ∀ token after following,
        after.Shows tokens following →
        after.Follows tokens token →
        following.rest.length + 1 = cursor.rest.length →
        (next token tokens after).Shows tokens (further token following)) :
    ((Slice.expect kind what >>= next) tokens place).Shows tokens
      ((cursor.expect kind what).bind further) := by
  cases accepted : cursor.accept? kind with
  | some found =>
      rcases found with ⟨token, following⟩
      obtain ⟨-, shape, nextShape⟩ := Cursor.accept?_eq_some_iff.mp accepted
      obtain ⟨after, advanced, showsAfter, follows⟩ := shows.advance shape
      have read : Slice.expect kind what tokens place = .done token after := by
        rw [Slice.expect, bind_of_done _ (shows.check kind),
          shows.sees_of_accept? kind known, accepted]
        exact advanced
      rw [bind_of_done _ read, Cursor.expect, accepted]
      exact later token after following (nextShape ▸ showsAfter) follows
        (Cursor.length_accept? accepted)
  | none =>
      have failed :
          (Slice.expect kind what tokens place).Shows tokens
            (.failed (cursor.report cursor.peek (.expected what))) := by
        rw [Slice.expect, bind_of_done _ (shows.check kind),
          shows.sees_of_accept? kind known, accepted]
        show ((Slice.peek >>= fun token =>
          Slice.fail token (.expected what)) tokens place).Shows tokens _
        rw [bind_of_done _ shows.peek]
        exact shows.fail _ _
      rw [Cursor.expect, accepted]
      exact failed.bind fun _ _ _ impossible => nomatch impossible

/-- Nesting is the same at a place and at a cursor. -/
theorem nested
    {body : Parser α}
    {inner : Cursor → Step α}
    {opening : Token}
    (shows : place.Shows tokens cursor)
    (follows : place.Follows tokens opening)
    (inside :
      ∀ after following,
        after.Shows tokens following →
        following.rest = cursor.rest →
        (body tokens after).Shows tokens (inner following)) :
    (Slice.nested body tokens place).Shows tokens
      (cursor.nested opening inner) := by
  unfold Slice.nested Cursor.nested Cursor.enter
  rw [shows.depth]
  split
  · have deeper :
        place.enter.Shows tokens { cursor with depth := cursor.depth + 1 } :=
      ⟨shows.behind, shows.notEnd, shows.isEnd,
        congrArg (· + 1) shows.depth, shows.reported⟩
    exact (inside _ _ deeper rfl).leave
  · rw [bind_of_done _ follows]
    exact shows.fail _ _

end Place.Shows

end Script.Slice
