import Script.Proofs.Tree.Progress

namespace Script

/-!
# What a parsing step has read

`Step.Reads` says of a step that it reports a problem when it fails, and that
when it gives a value without reporting any, the tokens it read and the value
stand in a given relation.  Statements of this form are put together like the
parsing functions themselves.
-/

/-- How many more constructs may be opened. -/
def Cursor.room (cursor : Cursor) : Nat :=
  maximalDepth - cursor.depth

@[simp]
theorem Cursor.room_rest
    (cursor : Cursor)
    (rest : List Token) :
    room { cursor with rest } = cursor.room :=
  rfl

namespace Cursor.Leads

variable {first second third : Cursor}

/-- There is as much room at a later cursor. -/
theorem room_eq (leads : first.Leads second) : second.room = first.room := by
  unfold room
  rw [leads.depth]

/-- When the last of three cursors has no new problem, the second has none. -/
theorem reported_eq_left
    (earlier : first.Leads second)
    (later : second.Leads third)
    (silent : third.reported = first.reported) :
    second.reported = first.reported := by
  have shorter := later.reported.length_le
  rw [silent] at shorter
  exact (earlier.reported.eq_of_length_le shorter).symm

/-- When the last of three cursors has no new problem, it has none since the
second. -/
theorem reported_eq_right
    (earlier : first.Leads second)
    (later : second.Leads third)
    (silent : third.reported = first.reported) :
    third.reported = second.reported :=
  silent.trans (reported_eq_left earlier later silent).symm

end Cursor.Leads

namespace Step

/-- A step that gives a value has read at least `least` tokens and, if it
reports no problem, tokens that are related to the value; a step that fails
reports a problem. -/
def Reads
    (before : Cursor)
    (least : Nat)
    (related : List Token → α → Prop) :
    Step α → Prop
  | .done value after =>
      before.Leads after ∧
        after.rest.length + least ≤ before.rest.length ∧
        (after.reported = before.reported →
          ∃ read, before.rest = read ++ after.rest ∧ related read value)
  | .failed after =>
      before.Leads after ∧ after.reported ≠ before.reported

namespace Reads

variable {before : Cursor} {least : Nat}

theorem weaken
    {fewer : Nat}
    {related weaker : List Token → α → Prop}
    {step : Step α}
    (reads : step.Reads before least related)
    (fewerTokens : fewer ≤ least)
    (implies : ∀ read value, related read value → weaker read value) :
    step.Reads before fewer weaker := by
  cases step with
  | failed after =>
      exact reads
  | done value after =>
      obtain ⟨leads, length, relates⟩ := reads
      refine ⟨leads, by omega, fun silent => ?_⟩
      obtain ⟨read, shape, holds⟩ := relates silent
      exact ⟨read, shape, implies read value holds⟩

/-- A weaker relation may depend on what is left. -/
theorem locate
    {related weaker : List Token → α → Prop}
    {step : Step α}
    (reads : step.Reads before least related)
    (implies :
      ∀ read value tail,
        before.rest = read ++ tail →
        related read value →
        weaker read value) :
    step.Reads before least weaker := by
  cases step with
  | failed after =>
      exact reads
  | done value after =>
      obtain ⟨leads, length, relates⟩ := reads
      refine ⟨leads, length, fun silent => ?_⟩
      obtain ⟨read, shape, holds⟩ := relates silent
      exact ⟨read, shape, implies read value after.rest shape holds⟩

/-- Reading a token at all is more than reading none. -/
theorem loosen
    {related : List Token → α → Prop}
    {step : Step α}
    (reads : step.Reads before least related) :
    step.Reads before 0 related :=
  reads.weaken (Nat.zero_le least) fun _ _ holds => holds

/-- A value that needs no further token. -/
theorem done
    {related : List Token → α → Prop}
    {value : α}
    (holds : related [] value) :
    (Step.done value before).Reads before 0 related :=
  ⟨.refl before, le_rfl, fun _ => ⟨[], rfl, holds⟩⟩

/-- A value that comes with a problem. -/
theorem doneLoudly
    {related : List Token → α → Prop}
    (value : α)
    (token : Token)
    (problem : Problem) :
    (Step.done value (before.report token problem)).Reads before 0
      related := by
  refine ⟨before.leads_report token problem, le_rfl, fun silent => ?_⟩
  simp [Cursor.report] at silent

/-- A failure with a problem. -/
theorem failed
    {related : List Token → α → Prop}
    (token : Token)
    (problem : Problem) :
    (Step.failed (α := α) (before.report token problem)).Reads before least
      related := by
  refine ⟨before.leads_report token problem, ?_⟩
  simp [Cursor.report]

/-- A step that is followed by another one.  The second statement says what is
read altogether, for whatever the first step read. -/
theorem bind
    {relatedFirst : List Token → α → Prop}
    {related : List Token → β → Prop}
    {step : Step α}
    {next : α → Cursor → Step β}
    (first : step.Reads before least relatedFirst)
    (second :
      ∀ value after,
        step = .done value after →
        before.Leads after →
        after.rest.length + least ≤ before.rest.length →
        (next value after).Reads after 0 fun read result =>
          ∀ firstRead,
            before.rest = firstRead ++ after.rest →
            relatedFirst firstRead value →
            related (firstRead ++ read) result) :
    (step.bind next).Reads before least related := by
  cases step with
  | failed after =>
      exact first
  | done value after =>
      obtain ⟨leads, length, relates⟩ := first
      have continued := second value after rfl leads length
      show (next value after).Reads before least related
      cases shape : next value after with
      | failed last =>
          rw [shape] at continued
          obtain ⟨leadsLast, loud⟩ := continued
          refine ⟨leads.trans leadsLast, fun silent => ?_⟩
          exact loud (leads.reported_eq_right leadsLast silent)
      | done result last =>
          rw [shape] at continued
          obtain ⟨leadsLast, lengthLast, relatesLast⟩ := continued
          refine ⟨leads.trans leadsLast, by omega, fun silent => ?_⟩
          obtain ⟨firstRead, firstShape, firstHolds⟩ :=
            relates (leads.reported_eq_left leadsLast silent)
          obtain ⟨read, readShape, holds⟩ :=
            relatesLast (leads.reported_eq_right leadsLast silent)
          refine ⟨firstRead ++ read, ?_,
            holds firstRead firstShape firstHolds⟩
          rw [firstShape, readShape, List.append_assoc]

theorem map
    {related : List Token → α → Prop}
    {relatedChanged : List Token → β → Prop}
    {step : Step α}
    {change : α → β}
    (reads : step.Reads before least related)
    (implies :
      ∀ read value, related read value → relatedChanged read (change value)) :
    (step.map change).Reads before least relatedChanged := by
  cases step with
  | failed after =>
      exact reads
  | done value after =>
      obtain ⟨leads, length, relates⟩ := reads
      refine ⟨leads, length, fun silent => ?_⟩
      obtain ⟨read, shape, holds⟩ := relates silent
      exact ⟨read, shape, implies read value holds⟩

/-- A step taken behind the next token reads that token too. -/
theorem afterToken
    {middle : Cursor}
    {token : Token}
    {related : List Token → α → Prop}
    {step : Step α}
    (leads : before.Leads middle)
    (shape : before.rest = token :: middle.rest)
    (silentToken : middle.reported = before.reported)
    (reads :
      step.Reads middle 0 fun read value => related (token :: read) value) :
    step.Reads before 1 related := by
  have length : middle.rest.length + 1 = before.rest.length := by
    rw [shape, List.length_cons]
  cases step with
  | failed last =>
      obtain ⟨leadsLast, loud⟩ := reads
      exact ⟨leads.trans leadsLast, silentToken ▸ loud⟩
  | done value last =>
      obtain ⟨leadsLast, lengthLast, relates⟩ := reads
      refine ⟨leads.trans leadsLast, by omega, fun silent => ?_⟩
      obtain ⟨read, readShape, holds⟩ :=
        relates (silent.trans silentToken.symm)
      refine ⟨token :: read, ?_, holds⟩
      rw [shape, readShape, List.cons_append]

/-- A step taken behind an accepted token reads that token too. -/
theorem afterAccepted
    {middle : Cursor}
    {kind : TokenKind}
    {token : Token}
    {related : List Token → α → Prop}
    {step : Step α}
    (accepted : before.accept? kind = some (token, middle))
    (reads :
      step.Reads middle 0 fun read value => related (token :: read) value) :
    step.Reads before 1 related := by
  obtain ⟨-, shape, middleShape⟩ :=
    Cursor.accept?_eq_some_iff.mp accepted
  have silentToken : middle.reported = before.reported := by
    rw [middleShape]
  exact afterToken (Cursor.leads_accept? accepted) shape silentToken reads

/-- A step taken behind a problem is loud, whatever it reads. -/
theorem afterLoud
    {middle : Cursor}
    {related other : List Token → α → Prop}
    {step : Step α}
    (leads : before.Leads middle)
    (loud : middle.reported ≠ before.reported)
    (reads : step.Reads middle least other) :
    step.Reads before least related := by
  have shorter := leads.length_le
  cases step with
  | failed last =>
      refine ⟨leads.trans reads.1, fun silent => ?_⟩
      exact loud (leads.reported_eq_left reads.1 silent)
  | done value last =>
      obtain ⟨leadsLast, lengthLast, -⟩ := reads
      refine ⟨leads.trans leadsLast, by omega, fun silent => ?_⟩
      exact (loud (leads.reported_eq_left leadsLast silent)).elim

end Reads

end Step

namespace Cursor

/-- Reading an expected token reads exactly that token. -/
theorem expect_reads
    (cursor : Cursor)
    (kind : TokenKind)
    (what : Expectation) :
    (cursor.expect kind what).Reads cursor 1
      fun read token => read = [token] ∧ token.kind = kind := by
  unfold expect
  cases accepted : cursor.accept? kind with
  | none =>
      exact .failed _ _
  | some pair =>
      obtain ⟨token, after⟩ := pair
      obtain ⟨same, shape, -⟩ := accept?_eq_some_iff.mp accepted
      exact ⟨leads_accept? accepted, (length_accept? accepted).le,
        fun _ => ⟨[token], shape, rfl, same⟩⟩

/-- A nested construct has one level less room inside. -/
theorem nested_reads
    {cursor : Cursor}
    {opening : Token}
    {body : Cursor → Step α}
    {least : Nat}
    {related : Nat → List Token → α → Prop}
    (inside :
      ∀ inner : Cursor,
        inner.rest = cursor.rest →
        (body inner).Reads inner least (related inner.room)) :
    (cursor.nested opening body).Reads cursor least fun read value =>
      ∃ room, cursor.room = room + 1 ∧ related room read value := by
  unfold nested enter
  split
  · rename_i deeper
    have reads := inside { cursor with depth := cursor.depth + 1 } rfl
    simp only [Step.bind]
    cases shape : body { cursor with depth := cursor.depth + 1 } with
    | failed after =>
        rw [shape] at reads
        exact ⟨reads.1.leave, reads.2⟩
    | done value after =>
        rw [shape] at reads
        obtain ⟨leads, length, relates⟩ := reads
        refine ⟨leads.leave, length, fun silent => ?_⟩
        obtain ⟨read, readShape, holds⟩ := relates silent
        exact ⟨read, readShape, _, by simp only [room]; omega, holds⟩
  · exact .failed _ _

/-- A step that comes after a complaint about a list that is full. -/
theorem reads_unless
    {cursor counted : Cursor}
    {full : Prop}
    [Decidable full]
    {problem : Problem}
    {related : List Token → α → Prop}
    {step : Step α}
    (count :
      (if full then cursor.report cursor.peek problem else cursor) = counted)
    (reads :
      counted.rest = cursor.rest →
      counted.room = cursor.room →
      step.Reads counted 1 fun read value => ¬ full → related read value) :
    step.Reads cursor 1 related := by
  split at count
  · subst count
    refine .afterLoud (cursor.leads_report cursor.peek problem) ?_
      (reads rfl rfl)
    simp [report]
  · rename_i space
    subst count
    refine (reads rfl rfl).weaken le_rfl ?_
    intro read value holds
    exact holds space

end Cursor

end Script
