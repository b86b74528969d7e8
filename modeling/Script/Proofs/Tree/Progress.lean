import Script.Tree.StmtParser
import Mathlib.Data.List.Infix

namespace Script

/-!
# Progress of parsing steps

A parsing step only moves forward: it drops tokens from the front, keeps the
depth and the end of the input, and adds problems in front of those already
reported.  `Step.Builds` says this of a step together with the least number of
tokens that it reads and with a property of its value, and the lemmas about
`bind`, `map`, `expect` and `nested` let such statements be put together the way
the parsing functions are.
-/

namespace Cursor

/-- A later cursor of the same run of the parser. -/
structure Leads (before after : Cursor) : Prop where
  rest : after.rest <:+ before.rest
  ending : after.ending = before.ending
  depth : after.depth = before.depth
  reported : before.reported <:+ after.reported

namespace Leads

theorem refl (cursor : Cursor) : cursor.Leads cursor :=
  ⟨List.suffix_rfl, rfl, rfl, List.suffix_rfl⟩

theorem trans
    {first second third : Cursor}
    (earlier : first.Leads second)
    (later : second.Leads third) :
    first.Leads third where
  rest := later.rest.trans earlier.rest
  ending := later.ending.trans earlier.ending
  depth := later.depth.trans earlier.depth
  reported := earlier.reported.trans later.reported

theorem length_le
    {before after : Cursor}
    (leads : before.Leads after) :
    after.rest.length ≤ before.rest.length :=
  leads.rest.length_le

/-- What leads on inside of a nested construct leads on behind it. -/
theorem leave
    {before after : Cursor}
    (leads : { before with depth := before.depth + 1 : Cursor }.Leads after) :
    before.Leads after.leave where
  rest := leads.rest
  ending := leads.ending
  depth := by
    simp [Cursor.leave, leads.depth]
  reported := leads.reported

end Leads

/-- Dropping the next token leads on. -/
theorem leads_rest
    (cursor : Cursor)
    {token : Token}
    {rest : List Token}
    (shape : cursor.rest = token :: rest) :
    cursor.Leads { cursor with rest } where
  rest := by
    rw [shape]
    exact List.suffix_cons token rest
  ending := rfl
  depth := rfl
  reported := List.suffix_rfl

/-- Reporting a problem leads on. -/
theorem leads_report
    (cursor : Cursor)
    (token : Token)
    (problem : Problem) :
    cursor.Leads (cursor.report token problem) where
  rest := List.suffix_rfl
  ending := rfl
  depth := rfl
  reported := List.suffix_cons _ _

/-- A token is read exactly when it is the next one and has the kind. -/
theorem accept?_eq_some_iff
    {cursor after : Cursor}
    {kind : TokenKind}
    {token : Token} :
    cursor.accept? kind = some (token, after) ↔
      token.kind = kind ∧
        cursor.rest = token :: after.rest ∧
        after = { cursor with rest := after.rest } := by
  unfold accept?
  cases shape : cursor.rest with
  | nil =>
      simp
  | cons first rest =>
      by_cases same : first.kind = kind
      · simp only [same, ↓reduceIte, Option.some.injEq, Prod.mk.injEq]
        constructor
        · rintro ⟨rfl, rfl⟩
          exact ⟨same, rfl, rfl⟩
        · rintro ⟨-, tokens, afterShape⟩
          obtain ⟨rfl, rfl⟩ := List.cons.inj tokens
          exact ⟨rfl, afterShape.symm⟩
      · simp only [same, ↓reduceIte]
        constructor
        · intro impossible
          cases impossible
        · rintro ⟨tokenKind, tokens, -⟩
          obtain ⟨rfl, -⟩ := List.cons.inj tokens
          exact (same tokenKind).elim

/-- No token is read exactly when the next one is missing or of another kind. -/
theorem accept?_eq_none_iff
    {cursor : Cursor}
    {kind : TokenKind} :
    cursor.accept? kind = none ↔
      ∀ token rest, cursor.rest = token :: rest → token.kind ≠ kind := by
  unfold accept?
  cases shape : cursor.rest with
  | nil =>
      simp
  | cons first rest =>
      by_cases same : first.kind = kind <;> simp [same]

section AtToken

variable {kind : TokenKind} {token ending : Token} {rest : List Token}
  {depth : Nat} {reported : List Diagnostic}

/-- The next token is read when it has the kind. -/
theorem accept?_of_kind (same : token.kind = kind) :
    accept? { rest := token :: rest, ending, depth, reported } kind =
      some (token, { rest, ending, depth, reported }) :=
  accept?_eq_some_iff.mpr ⟨same, rfl, rfl⟩

/-- The next token is not read when it has another kind. -/
theorem accept?_of_ne (different : token.kind ≠ kind) :
    accept? { rest := token :: rest, ending, depth, reported } kind =
      none := by
  apply accept?_eq_none_iff.mpr
  intro first others shape
  cases shape
  exact different

/-- An expected token is read. -/
theorem expect_of_kind
    {what : Expectation}
    (same : token.kind = kind) :
    expect { rest := token :: rest, ending, depth, reported } kind what =
      .done token { rest, ending, depth, reported } := by
  unfold expect
  rw [accept?_of_kind same]

/-- The next token is looked at. -/
theorem sees_cons :
    sees { rest := token :: rest, ending, depth, reported } kind =
      (token.kind == kind) :=
  rfl

end AtToken

/-- A nested construct for which there is room is parsed one level deeper. -/
theorem nested_of_done
    {cursor inner : Cursor}
    {opening : Token}
    {body : Cursor → Step α}
    {value : α}
    (room : cursor.depth < maximalDepth)
    (inside :
      body { cursor with depth := cursor.depth + 1 } = .done value inner)
    (depth : inner.depth = cursor.depth + 1) :
    cursor.nested opening body =
      .done value { inner with depth := cursor.depth } := by
  simp [nested, enter, room, Step.bind, inside, Step.mapCursor, leave, depth]

/-- Reading a token leads on. -/
theorem leads_accept?
    {cursor after : Cursor}
    {kind : TokenKind}
    {token : Token}
    (accepted : cursor.accept? kind = some (token, after)) :
    cursor.Leads after := by
  obtain ⟨-, shape, afterShape⟩ := accept?_eq_some_iff.mp accepted
  rw [afterShape]
  exact cursor.leads_rest shape

/-- Reading a token makes the rest shorter by one. -/
theorem length_accept?
    {cursor after : Cursor}
    {kind : TokenKind}
    {token : Token}
    (accepted : cursor.accept? kind = some (token, after)) :
    after.rest.length + 1 = cursor.rest.length := by
  obtain ⟨-, shape, -⟩ := accept?_eq_some_iff.mp accepted
  rw [shape, List.length_cons]

/-- What is left after a search for the next statement is a suffix. -/
theorem nextStatement_suffix
    (previous : Token)
    (tokens : List Token) :
    nextStatement previous tokens <:+ tokens := by
  induction tokens generalizing previous with
  | nil =>
      exact List.suffix_rfl
  | cons token rest inductionHypothesis =>
      unfold nextStatement
      split
      · exact List.suffix_rfl
      · exact (inductionHypothesis token).trans (List.suffix_cons token rest)

/-- Recovery leads on. -/
theorem leads_synchronize (cursor : Cursor) :
    cursor.Leads cursor.synchronize := by
  unfold synchronize
  cases shape : cursor.rest with
  | nil =>
      exact .refl cursor
  | cons token rest =>
      refine ⟨?_, rfl, rfl, List.suffix_rfl⟩
      rw [shape]
      exact (nextStatement_suffix token rest).trans
        (List.suffix_cons token rest)

/-- Recovery drops a token when there is one. -/
theorem length_synchronize
    (cursor : Cursor)
    (remaining : cursor.rest ≠ []) :
    cursor.synchronize.rest.length + 1 ≤ cursor.rest.length := by
  unfold synchronize
  cases shape : cursor.rest with
  | nil =>
      exact (remaining shape).elim
  | cons token rest =>
      simpa using (nextStatement_suffix token rest).length_le

/-- Every token that is still to be read satisfies a predicate. -/
def Knows
    (cursor : Cursor)
    (known : Token → Prop) :
    Prop :=
  ∀ token ∈ cursor.rest, known token

theorem Leads.knows
    {before after : Cursor}
    {known : Token → Prop}
    (leads : before.Leads after)
    (knows : before.Knows known) :
    after.Knows known :=
  fun token member => knows token (leads.rest.subset member)

theorem Knows.accepted
    {cursor after : Cursor}
    {known : Token → Prop}
    {kind : TokenKind}
    {token : Token}
    (knows : cursor.Knows known)
    (accepted : cursor.accept? kind = some (token, after)) :
    known token := by
  obtain ⟨-, shape, -⟩ := accept?_eq_some_iff.mp accepted
  exact knows token (by simp [shape])

end Cursor

namespace Step

/-- A step leads on from `before`; when it gives a value it has read at least
`least` tokens and the value has the property. -/
def Builds
    (before : Cursor)
    (least : Nat)
    (property : α → Prop) :
    Step α → Prop
  | .done value after =>
      before.Leads after ∧
        after.rest.length + least ≤ before.rest.length ∧
        property value
  | .failed after =>
      before.Leads after

namespace Builds

theorem weaken
    {before : Cursor}
    {least fewer : Nat}
    {property weaker : α → Prop}
    {step : Step α}
    (builds : step.Builds before least property)
    (fewerTokens : fewer ≤ least)
    (implies : ∀ value, property value → weaker value) :
    step.Builds before fewer weaker := by
  cases step with
  | done value after =>
      obtain ⟨leads, length, holds⟩ := builds
      exact ⟨leads, by omega, implies value holds⟩
  | failed after =>
      exact builds

/-- Reading a token at all is more than reading none. -/
theorem loosen
    {before : Cursor}
    {least : Nat}
    {property : α → Prop}
    {step : Step α}
    (builds : step.Builds before least property) :
    step.Builds before 0 property :=
  builds.weaken (Nat.zero_le least) fun _ holds => holds

theorem bind
    {before : Cursor}
    {least : Nat}
    {property : α → Prop}
    {result : β → Prop}
    {step : Step α}
    {next : α → Cursor → Step β}
    (first : step.Builds before least property)
    (second :
      ∀ value after,
        before.Leads after →
        property value →
        (next value after).Builds after 0 result) :
    (step.bind next).Builds before least result := by
  cases step with
  | failed after =>
      exact first
  | done value after =>
      obtain ⟨leads, length, holds⟩ := first
      have continued := second value after leads holds
      show (next value after).Builds before least result
      cases shape : next value after with
      | failed last =>
          rw [shape] at continued
          exact leads.trans continued
      | done final last =>
          rw [shape] at continued
          obtain ⟨leadsLast, lengthLast, holdsLast⟩ := continued
          exact ⟨leads.trans leadsLast, by omega, holdsLast⟩

theorem map
    {before : Cursor}
    {least : Nat}
    {property : α → Prop}
    {result : β → Prop}
    {step : Step α}
    {change : α → β}
    (builds : step.Builds before least property)
    (implies : ∀ value, property value → result (change value)) :
    (step.map change).Builds before least result := by
  cases step with
  | failed after =>
      exact builds
  | done value after =>
      obtain ⟨leads, length, holds⟩ := builds
      exact ⟨leads, length, implies value holds⟩

/-- A step taken further on is a step from here. -/
theorem after
    {before middle : Cursor}
    {least : Nat}
    {property : α → Prop}
    {step : Step α}
    (leads : before.Leads middle)
    (builds : step.Builds middle least property) :
    step.Builds before least property := by
  have shorter := leads.length_le
  cases step with
  | failed last =>
      exact leads.trans builds
  | done value last =>
      obtain ⟨leadsLast, lengthLast, holds⟩ := builds
      exact ⟨leads.trans leadsLast, by omega, holds⟩

/-- A step taken behind the next token reads that token too. -/
theorem afterToken
    {before middle : Cursor}
    {property : α → Prop}
    {step : Step α}
    (leads : before.Leads middle)
    (length : middle.rest.length + 1 ≤ before.rest.length)
    (builds : step.Builds middle 0 property) :
    step.Builds before 1 property := by
  cases step with
  | failed last =>
      exact leads.trans builds
  | done value last =>
      obtain ⟨leadsLast, lengthLast, holds⟩ := builds
      exact ⟨leads.trans leadsLast, by omega, holds⟩

end Builds

end Step

namespace Cursor

/-- Reading an expected token reads one token of the kind. -/
theorem expect_builds
    {cursor : Cursor}
    {known : Token → Prop}
    (knows : cursor.Knows known)
    (kind : TokenKind)
    (what : Expectation) :
    (cursor.expect kind what).Builds cursor 1
      fun token => known token ∧ token.kind = kind := by
  unfold expect
  cases accepted : cursor.accept? kind with
  | none =>
      exact cursor.leads_report _ _
  | some pair =>
      obtain ⟨token, after⟩ := pair
      have kindShape := (accept?_eq_some_iff.mp accepted).1
      exact ⟨leads_accept? accepted, (length_accept? accepted).le,
        knows.accepted accepted, kindShape⟩

/-- A nested construct ends at the depth at which it began. -/
theorem nested_builds
    {cursor : Cursor}
    {opening : Token}
    {body : Cursor → Step α}
    {least : Nat}
    {property : α → Prop}
    (inside :
      ∀ inner : Cursor,
        inner.rest = cursor.rest →
        (body inner).Builds inner least property) :
    (cursor.nested opening body).Builds cursor least property := by
  unfold nested enter
  split
  · have built := inside { cursor with depth := cursor.depth + 1 } rfl
    simp only [Step.bind]
    cases shape : body { cursor with depth := cursor.depth + 1 } with
    | failed after =>
        rw [shape] at built
        exact built.leave
    | done value after =>
        rw [shape] at built
        obtain ⟨leads, length, holds⟩ := built
        exact ⟨leads.leave, length, holds⟩
  · exact cursor.leads_report _ _

end Cursor

end Script
