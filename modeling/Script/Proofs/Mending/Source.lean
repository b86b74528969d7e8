import Script.Proofs.Mending.Spelling
import Script.Proofs.Mending.Statement
import Script.Proofs.Parsing.Joined

namespace Script

/-!
# Entries that can still be completed

An interactive session goes on with another line as long as more input could mend
each problem of an entry by itself.  Four kinds of entry cannot be completed any
more even so: a list that is full and goes on, a string that is open where no
string can come, the head of a function inside of as many blocks as may be open,
and an assignment to something that is no target, which is reported only behind
its value.  All others can: a string, a name or closing marks on the next line
make the entry a program without problems.
-/

namespace Scan

/-- The problem of a segment is reported. -/
theorem exists_problem
    {line : Nat}
    {segments : List Segment}
    {segment : Segment}
    (member : segment ∈ segments) :
    ∃ last,
      ∀ problem,
        segment.problem? last = some problem →
        problem ∈ (ofSegments line segments).problems := by
  induction segments generalizing line with
  | nil =>
      cases member
  | cons first rest inductionHypothesis =>
      rcases List.mem_cons.mp member with rfl | later
      · refine ⟨line + segment.newlines, fun problem found => ?_⟩
        exact List.mem_append_left _ (Option.mem_toList.mpr found)
      · obtain ⟨last, reported⟩ :=
          @inductionHypothesis (line + first.newlines) later
        exact ⟨last, fun problem found =>
          List.mem_append_right _ (reported problem found)⟩

/-- When more input could mend all problems of scanning, there is no stray
character. -/
theorem not_stray
    {line : Nat}
    {segments : List Segment}
    (incomplete :
      ∀ problem ∈ (ofSegments line segments).problems,
        problem.incomplete = true)
    (glyph : Glyph) :
    .stray glyph ∉ segments := by
  intro member
  obtain ⟨last, reported⟩ := exists_problem member
  have mends := incomplete _ (reported _ rfl)
  cases mends

/-- An open string is reported. -/
theorem exists_unterminatedString
    {line : Nat}
    {segments : List Segment}
    {glyphs : List Glyph}
    (member : .openString glyphs ∈ segments) :
    ∃ problem ∈ (ofSegments line segments).problems,
      problem.problem = .unterminatedString := by
  obtain ⟨last, reported⟩ := exists_problem member
  exact ⟨_, reported _ rfl, rfl⟩

end Scan

namespace Segment

/-- A source text that goes on with `continuation` on the next line is scanned
without problems as its own tokens and `more`. -/
structure GoesOn
    (source continuation : Text)
    (more : List Token) :
    Prop where
  sound :
    ∀ segment ∈ split (source ++ Text.newline :: continuation), segment.IsSound
  lexemes :
    Scan.lexemes 1 (split (source ++ Text.newline :: continuation)) =
      Scan.lexemes 1 (split source) ++ more

variable {source : Text}

/-- Where no string is open, closers are written on the next line. -/
theorem exists_goesOn_of_closed
    (sound : ∀ segment ∈ split source, segment.IsSound)
    (closers : List Closer) :
    ∃ continuation more,
      Closer.Match closers more ∧ GoesOn source continuation more := by
  have parts :=
    split_join (fun segment member => (sound segment member).isClosed)
      (Closer.spell closers)
  refine ⟨Closer.spell closers, _,
    Closer.match_lexemes (Scan.lastLine 1 (split source) + 1) closers, ?_, ?_⟩
  · intro segment member
    rw [parts] at member
    rcases List.mem_append.mp member with early | late
    · exact sound segment early
    · rcases List.mem_cons.mp late with rfl | spelled
      · rfl
      · exact Closer.isSound_spell spelled
  · rw [parts, Scan.lexemes_append]
    rfl

/-- Where a string is open, it is closed on the next line, and the closers behind
the first one follow it. -/
theorem exists_goesOn_of_openString
    {before : List Segment}
    {glyphs : List Glyph}
    (sound : ∀ segment ∈ before, segment.IsSound)
    (parts : split source = before ++ [.openString glyphs])
    (closers : List Closer) :
    ∃ continuation more,
      Closer.Match (.string :: closers) more ∧
        GoesOn source continuation more := by
  obtain ⟨literal, inner, joined⟩ :=
    split_closeString parts (Closer.spell closers)
  let line := Scan.lastLine 1 before
  let string := Segment.lexeme .string literal inner
  have kinds :
      Closer.Match (.string :: closers)
        (Scan.lexemes line (string :: split (Closer.spell closers))) :=
    congrArg (TokenKind.string :: ·)
      (Closer.match_lexemes (line + string.newlines) closers)
  refine ⟨Text.byte '"' :: Closer.spell closers, _, kinds, ?_, ?_⟩
  · intro segment member
    rw [joined] at member
    rcases List.mem_append.mp member with early | late
    · exact sound segment early
    · rcases List.mem_cons.mp late with rfl | spelled
      · rfl
      · exact Closer.isSound_spell spelled
  · have noToken (line : Nat) : Scan.lexemes line [.openString glyphs] = [] :=
      rfl
    rw [joined, parts, Scan.lexemes_append, Scan.lexemes_append, noToken,
      List.append_nil]

/-- A source text without stray characters goes on with closers, of which the
first one is the string that is open. -/
theorem exists_goesOn
    {closers : List Closer}
    (noStray : ∀ glyph, .stray glyph ∉ split source)
    (begins :
      ∀ glyphs,
        .openString glyphs ∈ split source →
        closers.head? = some .string) :
    ∃ continuation more,
      Closer.Match closers more ∧ GoesOn source continuation more := by
  have sound
      {segment : Segment}
      (member : segment ∈ split source)
      (closed : segment.IsClosed) :
      segment.IsSound := by
    cases segment with
    | stray glyph =>
        exact (noStray glyph member).elim
    | openString glyphs =>
        exact closed.elim
    | lexeme | blank | comment =>
        rfl
  by_cases opened : ∃ glyphs, .openString glyphs ∈ split source
  · obtain ⟨glyphs, member⟩ := opened
    obtain ⟨others, rfl⟩ : ∃ others, closers = .string :: others :=
      List.head?_eq_some_iff.mp (begins glyphs member)
    have cuts :=
      cuts_splitAfter (Glyph.decode source) fun _ => Glyph.isRead_of_mem_decode
    rw [← split] at cuts
    obtain ⟨before, after, parts⟩ := List.append_of_mem member
    rw [parts] at cuts
    obtain rfl := cuts.openString_last
    refine exists_goesOn_of_openString (fun segment early => ?_) parts others
    refine sound (parts ▸ List.mem_append_left _ early) ?_
    cases segment with
    | openString inner =>
        -- An open string would have nothing behind it.
        obtain ⟨front, between, rfl⟩ := List.append_of_mem early
        rw [List.append_assoc, List.cons_append] at cuts
        have nothing := cuts.openString_last
        simp at nothing
    | lexeme | blank | comment | stray =>
        trivial
  · refine exists_goesOn_of_closed (fun segment member => ?_) closers
    refine sound member ?_
    cases segment with
    | openString glyphs =>
        exact (opened ⟨glyphs, member⟩).elim
    | lexeme | blank | comment | stray =>
        trivial

end Segment

namespace Program

open Grammar

/-- Tokens whose problems can all be mended are the beginning of a program, unless
there is no room for the body of a function. -/
theorem ofTokens_continues
    {tokens : List Token}
    {ending : Token}
    (assignable : Assignable tokens)
    (endingKind : ending.kind = .endOfInput)
    (mendable :
      ∀ problem ∈ (ofTokens (tokens ++ [ending])).problems, problem.Mendable)
    (roomy :
      (∃ problem ∈ (ofTokens (tokens ++ [ending])).problems,
          problem.problem.awaitsBody = true) →
        Diagnostic.openBlocks (ofTokens (tokens ++ [ending])).problems <
          deepestNesting) :
    ∃ closers : List Closer,
      ((∀ problem ∈ (ofTokens (tokens ++ [ending])).problems,
          problem.problem.admitsString = true) →
        closers.head? = some .string) ∧
      ∀ more,
        Closer.Match closers more →
        AreDeclarations deepestNesting (tokens ++ more) := by
  unfold ofTokens at mendable roomy ⊢
  simp only [start_of_ending assignable.noEnding endingKind, List.mem_reverse]
    at mendable roomy ⊢
  let cursor : Cursor :=
    { rest := tokens, ending, depth := 0, reported := [] }
  cases parsed :
      Stmt.Parser.declarations (6 * tokens.length + 6) false [] cursor with
  | mk statements after =>
      have enough : 6 * cursor.rest.length + 3 ≤ 6 * tokens.length + 6 := by
        simp only [cursor]
        omega
      rw [parsed] at mendable roomy
      rcases (continuesStmt _).declarations false [] cursor statements after
        assignable enough parsed mendable with
        silent | ⟨-, crowded | closes⟩
      · obtain ⟨-, -, relates⟩ :=
          (sound _).declarations false [] cursor statements after enough parsed
        obtain ⟨read, -, ⟨trees, -, derived⟩, whole⟩ := relates silent
        refine ⟨[.string, .semicolon], fun _ => rfl, fun more same => ?_⟩
        obtain ⟨tree, statementDerived⟩ :=
          derives_stringStatement deepestNesting same
        have declarations :=
          derived.relax.append (.more (.statement statementDerived) .nothing)
        rw [List.append_nil, ← whole rfl] at declarations
        exact ⟨_, declarations⟩
      · have full := crowded.full
        have spacious := roomy crowded.awaits
        rw [Diagnostic.openBlocks, List.countP_reverse] at spacious
        exact (Nat.not_le_of_lt spacious full).elim
      · exact closes

/-- Nothing keeps a source text that stops too early from being completed on the
next line. -/
structure Unobstructed (source : Text) : Prop where
  /-- No list goes on that is full. -/
  lists :
    ∀ problem ∈ (ofSource source).problems,
      problem.problem.isOverfull = false
  /-- A string is open only where a string can be. -/
  string :
    (∃ problem ∈ (ofSource source).problems,
        problem.problem = .unterminatedString) →
      ∀ problem ∈ (ofSource source).problems,
        problem.problem.admitsString = true
  /-- The head of a function is inside of fewer blocks than may be open. -/
  bodies :
    (∃ problem ∈ (ofSource source).problems,
        problem.problem.awaitsBody = true) →
      Diagnostic.openBlocks (ofSource source).problems < deepestNesting
  /-- An equals sign behind an operation stands behind a target. -/
  targets :
    ∀ (room : Nat) (before target after : List Token) (equals : Token)
        (tree : Expr),
      (Scan.ofSource source).tokens = before ++ target ++ equals :: after →
      equals.kind = .equal →
      DerivesExpr (.operation 0) room target tree →
      IsTarget tree

/-- An entry that waits for more input with none of the four obstructions is
completed on the next line. -/
theorem completes_on_nextLine
    {source : Text}
    (waits : needsMore source = true)
    (unobstructed : Unobstructed source) :
    ∃ continuation,
      (ofSource (source ++ Text.newline :: continuation)).problems = [] := by
  obtain ⟨-, incomplete⟩ := needsMore_iff.mp waits
  obtain ⟨lists, string, bodies, targets⟩ := unobstructed
  rw [ofSource_eq] at incomplete lists string bodies
  simp only [List.mem_append] at incomplete lists string bodies
  have assignable : Assignable (Scan.lexemes 1 (Segment.split source)) := by
    refine ⟨fun token => Scan.kind_of_mem_lexemes,
      fun room before target after equals tree shape => ?_⟩
    let ending := Token.endAt (Scan.lastLine 1 (Segment.split source))
    refine targets room before target (after ++ [ending]) equals tree ?_
    rw [Scan.ofSource, Scan.tokens_ofSegments, shape]
    simp [ending]
  obtain ⟨closers, begins, completes⟩ :=
    ofTokens_continues assignable rfl
      (fun problem member =>
        ⟨incomplete problem (.inr member), lists problem (.inr member)⟩)
      (by
        rintro ⟨problem, member, awaits⟩
        refine Nat.lt_of_le_of_lt ?_
          (bodies ⟨problem, .inr member, awaits⟩)
        simp [Diagnostic.openBlocks, List.countP_append])
  obtain ⟨continuation, more, same, sound, lexemes⟩ :=
    Segment.exists_goesOn
      (Scan.not_stray fun problem member => incomplete problem (.inl member))
      (fun glyphs member => begins fun problem found => by
        obtain ⟨opened, openedMember, isOpen⟩ :=
          Scan.exists_unterminatedString member
        exact string ⟨opened, .inl openedMember, isOpen⟩ problem (.inr found))
  obtain ⟨trees, derived⟩ := completes more same
  obtain ⟨regrouped, regroupedDerived⟩ := derived.regroups
  rw [← lexemes] at regroupedDerived
  have accepts : Accepts (source ++ Text.newline :: continuation) regrouped :=
    ⟨sound, regroupedDerived⟩
  exact ⟨continuation, by rw [accepts.ofSource]⟩

/-- Whenever an entry waits for more input, some text behind it makes it a program
without problems, unless one of the four obstructions is there.  An obstruction
may still go away with one more character, when the last token takes it in: behind
`1 =` another equals sign makes the assignment a comparison. -/
theorem needsMore_completes
    {source : Text}
    (waits : needsMore source = true)
    (unobstructed :
      Unobstructed source ∨
        ∃ byte,
          needsMore (source ++ [byte]) = true ∧
            Unobstructed (source ++ [byte])) :
    ∃ continuation,
      (ofSource (source ++ continuation)).problems = [] := by
  rcases unobstructed with asTyped | ⟨byte, waitsLonger, longer⟩
  · obtain ⟨continuation, silent⟩ := completes_on_nextLine waits asTyped
    exact ⟨_, silent⟩
  · obtain ⟨continuation, silent⟩ := completes_on_nextLine waitsLonger longer
    rw [List.append_assoc] at silent
    exact ⟨_, silent⟩

/-- A call in a function whose last argument is a string, all of them open. -/
def openCall : Text :=
  Text.utf8 "fun f(a) \x7b\n  if (a) print g(a, \"one"

/-- The call, the statement and the function are completed behind the string. -/
theorem needsMore_completes_openCall :
    needsMore openCall = true ∧
      Unobstructed openCall ∧
      ∃ continuation,
        (ofSource (openCall ++ continuation)).problems = [] := by
  have waits : needsMore openCall = true := by
    decide +kernel
  have noAssignment :
      ∀ token ∈ (Scan.ofSource openCall).tokens, token.kind ≠ .equal := by
    decide +kernel
  have unobstructed : Unobstructed openCall :=
    { lists := by decide +kernel
      string := by decide +kernel
      bodies := by decide +kernel
      targets := by
        intro room before target after equals tree shape isEqual
        have member : equals ∈ (Scan.ofSource openCall).tokens := by
          simp [shape]
        exact (noAssignment equals member isEqual).elim }
  exact ⟨waits, unobstructed, needsMore_completes waits (.inl unobstructed)⟩

/-- No program begins with a number and a string: the string is reported where a
semicolon is expected. -/
theorem not_derives_number_string
    {lexeme otherLexeme : Text}
    {literal otherLiteral : Literal}
    {line otherLine : Int}
    {rest : List Token}
    {trees : List Stmt}
    (noEnding : ∀ token ∈ rest, token.kind ≠ .endOfInput) :
    ¬ Derives true .declarations deepestNesting
      ({ kind := .number, lexeme, literal, line } ::
        { kind := .string, lexeme := otherLexeme, literal := otherLiteral,
          line := otherLine } :: rest) trees := by
  intro derived
  let number : Token := { kind := .number, lexeme, literal, line }
  let string : Token :=
    { kind := .string, lexeme := otherLexeme, literal := otherLiteral,
      line := otherLine }
  let ending := Token.endAt 0
  let cursor : Cursor :=
    { rest := number :: string :: rest, ending, depth := 0, reported := [] }
  let stopped : Cursor :=
    { rest := string :: rest, ending, depth := 0,
      reported := [.atToken string (.expected .expressionEnd)] }
  let enough := 6 * (number :: string :: rest).length
  have fails :
      Stmt.Parser.declarations (enough + 6) false [] cursor =
        Stmt.Parser.declarations (enough + 5) false [] stopped.synchronize :=
    rfl
  have noEndingAll :
      ∀ token ∈ number :: string :: rest, token.kind ≠ .endOfInput := by
    simpa [number, string] using noEnding
  have silent :=
    congrArg problems
      (ofTokens_of_derives noEndingAll (show ending.kind = _ from rfl) derived)
  unfold ofTokens at silent
  simp only [start_of_ending noEndingAll (show ending.kind = _ from rfl)]
    at silent
  cases parsed :
      Stmt.Parser.declarations (enough + 5) false [] stopped.synchronize with
  | mk statements after =>
      have shorter := stopped.leads_synchronize.length_le
      have leads :=
        ((sound _).declarations false [] stopped.synchronize statements after
          (by simp only [stopped, List.length_cons, enough] at shorter ⊢; omega)
          parsed).1
      have reported := leads.reported.subset List.mem_cons_self
      rw [fails, parsed] at silent
      simp only [List.reverse_eq_nil_iff] at silent
      rw [silent] at reported
      cases reported

/-- A string that is opened behind an operand: the entry waits for more input,
and nothing can complete it. -/
theorem needsMore_behind_operand :
    needsMore (Text.utf8 "1 \"") = true ∧
      ∀ continuation,
        (ofSource (Text.utf8 "1 \"" ++ continuation)).problems ≠ [] := by
  refine ⟨by decide +kernel, fun continuation silent => ?_⟩
  obtain ⟨sound, derived⟩ := accepts_of_problems silent
  let quote := Glyph.ofByte (Text.byte '"')
  have read :
      Glyph.decode (Text.utf8 "1 \"" ++ continuation) =
        .ofByte (Text.byte '1') :: .ofByte (Text.byte ' ') :: quote ::
          Glyph.decode continuation :=
    Glyph.decode_append_plain (by decide) (Text.utf8 "1 ") continuation
  obtain ⟨literal, cut⟩ :
      ∃ literal,
        Segment.split (Text.utf8 "1 \"" ++ continuation) =
          .lexeme .number literal [.ofByte (Text.byte '1')] ::
            .blank (.ofByte (Text.byte ' ')) ::
            Segment.splitAfter 0 (quote :: Glyph.decode continuation) := by
    rw [Segment.split, read]
    exact ⟨_, rfl⟩
  obtain ⟨tail, behind, -, -, cutString⟩ :=
    Segment.splitAfter_cons quote (Glyph.decode continuation)
  have noEnding :
      ∀ token ∈
          Scan.lexemes 1 (Segment.split (Text.utf8 "1 \"" ++ continuation)),
        token.kind ≠ .endOfInput :=
    fun _ => Scan.kind_of_mem_lexemes
  rw [Segment.front_of_quote (by decide)] at cutString
  rw [cut, cutString] at sound derived noEnding
  -- Either the string is closed later on, or it is still open at the end.
  rcases Segment.string_cases quote (Glyph.decode continuation) with
    ⟨glyphs, opened⟩ | ⟨text, glyphs, closed⟩
  · have isSound := sound _ (List.mem_cons_of_mem _
      (List.mem_cons_of_mem _ List.mem_cons_self))
    rw [opened] at isSound
    cases isSound
  · rw [closed] at derived noEnding
    exact not_derives_number_string
      (fun token member => noEnding token
        (List.mem_cons_of_mem _ (List.mem_cons_of_mem _ member))) derived

end Program

end Script
