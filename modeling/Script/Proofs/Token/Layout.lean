import Script.Proofs.Grammar.StmtComplete
import Script.Proofs.Token.Numbering
import Script.Text.CodeClass
import Mathlib.Data.List.Chain

namespace Script

/-!
# Layout

What is between lexemes.  White space makes no lexeme.  In front of the first
lexeme of a line there are blanks only, since a comment runs to the end of its
line.
-/

namespace CodeClass

/-- The code points between each two boundaries. -/
def listed : List Nat → List Nat
  | low :: high :: boundaries =>
      List.range' low (high - low) ++ listed boundaries
  | _ =>
      []

/-- A class with an even number of boundaries has the listed code points. -/
theorem mem_listed
    {boundaries : List Nat}
    {code : Nat}
    (even : boundaries.length % 2 = 0)
    (member : contains { boundaries } code = true) :
    code ∈ listed boundaries := by
  match boundaries with
  | [] =>
      simp [contains] at member
  | [low] =>
      simp at even
  | low :: high :: boundaries =>
      have evenRest : boundaries.length % 2 = 0 := by
        simp only [List.length_cons] at even
        omega
      simp only [listed, List.mem_append, List.mem_range'_1]
      by_cases above : low ≤ code
      · by_cases beyond : high ≤ code
        · have memberRest : contains { boundaries } code = true := by
            simp only [contains, List.takeWhile_cons, above, beyond,
              decide_true, if_true, List.length_cons, beq_iff_eq] at member ⊢
            omega
          exact .inr (mem_listed evenRest memberRest)
        · exact .inl ⟨above, by omega⟩
      · simp [contains, above] at member

end CodeClass

namespace Glyph

/-- A glyph that begins no lexeme, no comment and no string. -/
def BeginsNothing (glyph : Glyph) : Prop :=
  glyph.mark? = none ∧
    glyph.joining? = none ∧
      glyph.is '/' = false ∧
        glyph.is '"' = false ∧
          glyph.isDigit = false ∧ glyph.startsName = false

instance : DecidablePred BeginsNothing :=
  fun _ => inferInstanceAs (Decidable (_ ∧ _))

theorem beginsNothing_of_isBlank
    {glyph : Glyph}
    (blank : glyph.isBlank = true) :
    glyph.BeginsNothing := by
  have listed : glyph.code ∈ CodeClass.listed CodeClass.blank.boundaries :=
    CodeClass.mem_listed (by decide) blank
  have all :
      ∀ code ∈ CodeClass.listed CodeClass.blank.boundaries,
        BeginsNothing { code, raw := [] } := by
    decide +kernel
  exact all glyph.code listed

end Glyph

namespace Segment

theorem token?_front_of_isBlank
    {first : Glyph}
    (blank : first.isBlank = true)
    (rest : List Glyph)
    (line : Nat) :
    (front first rest).token? line = none := by
  obtain ⟨noMark, noJoining, noSlash, noQuote, noDigit, noName⟩ :=
    Glyph.beginsNothing_of_isBlank blank
  simp only [front, noMark, noJoining, noSlash, noQuote, noDigit, noName,
    Bool.false_eq_true, if_false]
  split <;> rfl

/-- White space is no open string. -/
theorem incomplete_of_isBlank
    {first : Glyph}
    {rest : List Glyph}
    {line : Nat}
    {problem : Diagnostic}
    (blank : first.isBlank = true)
    (found : (front first rest).problem? line = some problem) :
    problem.incomplete = false := by
  obtain ⟨noMark, noJoining, noSlash, noQuote, noDigit, noName⟩ :=
    Glyph.beginsNothing_of_isBlank blank
  simp only [front, noMark, noJoining, noSlash, noQuote, noDigit, noName,
    Bool.false_eq_true, if_false] at found
  split at found
  · cases found
  · cases found
    rfl

end Segment

namespace Scan

/-- White space has no lexemes. -/
theorem lexemes_of_isBlank
    {text : Text}
    (blank : text.isBlank = true)
    (line : Nat) :
    lexemes line (Segment.split text) = [] := by
  apply List.eq_nil_iff_forall_not_mem.mpr
  intro token member
  obtain ⟨segment, segmentMember, last, isToken⟩ := mem_lexemes member
  obtain ⟨first, firstMember, rest, rfl⟩ :=
    Segment.front_of_mem_splitAfter segmentMember
  have firstBlank := List.all_eq_true.mp blank first firstMember
  rw [Segment.token?_front_of_isBlank firstBlank] at isToken
  cases isToken

end Scan

namespace Glyph

/-- The glyphs behind the last line feed. -/
def onLastLine (glyphs : List Glyph) : List Glyph :=
  (glyphs.reverse.takeWhile (!·.is '\n')).reverse

/-- What is in front of a line feed is not on the last line. -/
theorem onLastLine_append_lineFeed (lines rest : List Glyph) :
    onLastLine (lines ++ .lineFeed :: rest) = onLastLine rest := by
  have stops : (!Glyph.lineFeed.is '\n') = false := by
    decide
  unfold onLastLine
  rw [List.reverse_append, List.reverse_cons, List.append_assoc,
    List.singleton_append,
    takeWhile_append_stop (!Glyph.is · '\n') stops]

end Glyph

namespace Segment

/-- What may be between lexemes without being a problem. -/
def IsGap : Segment → Prop
  | .blank glyph =>
      glyph.separates = true
  | .comment _ =>
      True
  | _ =>
      False

/-- Which segment may come behind another one: a comment goes up to a line
feed. -/
def MayPrecede : Segment → Segment → Prop
  | .comment _, .blank glyph =>
      glyph.is '\n' = true
  | .comment _, _ =>
      False
  | _, _ =>
      True

theorem front_of_is_lineFeed
    {first : Glyph}
    (isLineFeed : first.is '\n' = true)
    (rest : List Glyph) :
    front first rest = .blank first := by
  rcases first with ⟨code, raw⟩
  obtain rfl : code = 10 :=
    eq_of_beq isLineFeed
  rfl

/-- What a comment or a blank is made of at the front of a text. -/
def IsLayoutOf
    (first : Glyph)
    (rest : List Glyph) :
    Segment → Prop
  | .comment glyphs =>
      ∃ second behind,
        rest = second :: behind ∧
          glyphs = first :: second :: behind.takeWhile (!·.is '\n')
  | .blank glyph =>
      glyph.separates = true
  | _ =>
      True

theorem front_isLayoutOf
    (first : Glyph)
    (rest : List Glyph) :
    (front first rest).IsLayoutOf first rest := by
  unfold front
  split
  · trivial
  · unfold joined
    repeat' split
    all_goals trivial
  · split
    · unfold slash
      split
      · split
        · exact ⟨_, _, rfl, rfl⟩
        · trivial
      · trivial
    · split
      · rename_i separates
        exact separates
      · split
        · unfold string
          dsimp only
          split <;> trivial
        · split
          · trivial
          · split
            · unfold word
              dsimp only
              split <;> trivial
            · trivial

theorem mayPrecede_of_not_comment
    {segment : Segment}
    (notComment : ∀ glyphs, segment ≠ .comment glyphs)
    (next : Segment) :
    segment.MayPrecede next := by
  cases segment with
  | comment glyphs =>
      exact (notComment glyphs rfl).elim
  | _ =>
      trivial

/-- Behind the rest of a line there is the line feed. -/
theorem mayPrecede_of_dropWhile
    {glyphs after : List Glyph}
    {next : Segment}
    (member : next ∈ (splitAfter 0 (after.dropWhile (!·.is '\n'))).head?) :
    (comment glyphs).MayPrecede next := by
  have stopped := List.head?_dropWhile_not (!Glyph.is · '\n') after
  cases dropped : after.dropWhile (!Glyph.is · '\n') with
  | nil =>
      simp [dropped, splitAfter] at member
  | cons lineFeed rest =>
      rw [dropped] at stopped member
      have isLineFeed : lineFeed.is '\n' = true := by
        simpa using stopped
      rw [splitAfter, front_of_is_lineFeed isLineFeed] at member
      cases member
      exact isLineFeed

/-- Segments of a text come behind each other as they may. -/
theorem isChain_splitAfter (text : List Glyph) :
    (splitAfter 0 text).IsChain MayPrecede := by
  match text with
  | [] =>
      exact .nil
  | first :: rest =>
      obtain ⟨tail, behind, whole, shape, cut⟩ := splitAfter_cons first rest
      have later := isChain_splitAfter behind
      rw [cut]
      refine List.isChain_cons.mpr ⟨fun next nextMember => ?_, later⟩
      by_cases comment : ∃ glyphs, front first rest = .comment glyphs
      · obtain ⟨glyphs, isComment⟩ := comment
        have layout := front_isLayoutOf first rest
        rw [isComment] at layout
        obtain ⟨second, after, rfl, rfl⟩ := layout
        obtain rfl : behind = after.dropWhile (!·.is '\n') := by
          rw [isComment] at shape
          obtain rfl : second :: after.takeWhile (!·.is '\n') = tail :=
            (List.cons.inj shape).2
          have parts :=
            List.takeWhile_append_dropWhile (p := (!·.is '\n')) (l := after)
          nth_rewrite 1 [← parts] at whole
          exact (List.append_cancel_left (List.cons.inj whole).2).symm
        rw [isComment]
        exact mayPrecede_of_dropWhile nextMember
      · exact mayPrecede_of_not_comment
          (fun glyphs isComment => comment ⟨glyphs, isComment⟩) next
termination_by text.length
decreasing_by
  simp only [whole, List.length_cons, List.length_append]
  omega

/-- In front of a segment that may not end a comment there are only blanks on
its line, when there are only blanks and comments before. -/
theorem separates_of_gaps
    {before after : List Segment}
    {next : Segment}
    (gaps : ∀ segment ∈ before, segment.IsGap)
    (chain : (before ++ next :: after).IsChain MayPrecede)
    (endsNone : ∀ glyphs, ¬ (comment glyphs).MayPrecede next) :
    (Glyph.onLastLine (before.flatMap glyphs)).all Glyph.separates = true := by
  induction before using List.reverseRecOn generalizing next after with
  | nil =>
      rfl
  | append_singleton before last inductionHypothesis =>
      have gap := gaps last (by simp)
      simp only [List.append_assoc, List.singleton_append] at chain
      cases last with
      | comment glyphs =>
          have behind := (List.isChain_append_cons_cons.mp chain).2.1
          exact (endsNone glyphs behind).elim
      | blank glyph =>
          have earlier := inductionHypothesis
            (fun segment member => gaps segment (by simp [member])) chain
          by_cases isLineFeed : glyph.is '\n' = true
          · simp [Glyph.onLastLine, Segment.glyphs, isLineFeed]
          · have blanks := earlier fun _ isNext => isLineFeed isNext
            have separates : glyph.separates = true := gap
            simpa [Glyph.onLastLine, Segment.glyphs, isLineFeed, separates]
              using blanks
      | lexeme | stray | openString =>
          exact gap.elim

/-- A sound segment that is no lexeme is a gap. -/
theorem isGap_of_isLayoutOf
    {segment : Segment}
    {first : Glyph}
    {rest : List Glyph}
    (layout : segment.IsLayoutOf first rest)
    (sound : segment.IsSound)
    (noToken : segment.token? 0 = none) :
    segment.IsGap := by
  cases segment with
  | lexeme kind literal glyphs =>
      cases noToken
  | stray glyph | openString glyphs =>
      cases sound
  | comment glyphs =>
      trivial
  | blank glyph =>
      exact layout

/-- No `else` is the first on its line, blanks apart. -/
def NoElseBeginsLine (segments : List Segment) : Prop :=
  ∀ before literal glyphs after,
    segments = before ++ .lexeme (.keyword .elseWord) literal glyphs :: after →
    (Glyph.onLastLine (before.flatMap Segment.glyphs)).all Glyph.separates =
      false

/-- Whether a segment is an `else`. -/
def isElse : Segment → Bool
  | .lexeme (.keyword .elseWord) _ _ =>
      true
  | _ =>
      false

/-- The condition on `else` looks at one place after the other. -/
theorem noElseBeginsLine_iff (segments : List Segment) :
    NoElseBeginsLine segments ↔
      ∀ place : Fin segments.length,
        segments[place].isElse = true →
          (Glyph.onLastLine
              ((segments.take place).flatMap Segment.glyphs)).all
              Glyph.separates =
            false := by
  constructor
  · intro noElse place isElse
    cases found : segments[place] with
    | lexeme kind literal glyphs =>
        rw [found] at isElse
        obtain rfl : kind = .keyword .elseWord := by
          unfold Segment.isElse at isElse
          split at isElse <;> simp_all
        refine noElse (segments.take place) literal glyphs
          (segments.drop (place + 1)) ?_
        rw [← found]
        simp
    | blank | comment | stray | openString =>
        rw [found] at isElse
        cases isElse
  · rintro everywhere before literal glyphs after rfl
    have here := everywhere ⟨before.length, by simp⟩
    simpa [isElse] using here

instance (segments : List Segment) : Decidable (NoElseBeginsLine segments) :=
  decidable_of_iff _ (noElseBeginsLine_iff segments).symm

end Segment

namespace Scan

/-- The first lexeme of segments, with what is in front of it. -/
theorem first_lexeme
    {line : Nat}
    {segments : List Segment}
    {token : Token}
    {others : List Token}
    (shape : lexemes line segments = token :: others) :
    ∃ before literal glyphs after,
      segments = before ++ .lexeme token.kind literal glyphs :: after ∧
        ∀ segment ∈ before, segment.token? 0 = none := by
  induction segments generalizing line with
  | nil =>
      cases shape
  | cons segment rest inductionHypothesis =>
      cases segment with
      | lexeme kind literal glyphs =>
          cases shape
          exact ⟨[], literal, glyphs, rest, rfl, fun _ => nofun⟩
      | blank | comment | stray | openString =>
          obtain ⟨before, literal, glyphs, after, rfl, noToken⟩ :=
            inductionHypothesis shape
          exact ⟨_ :: before, literal, glyphs, after, rfl,
            List.forall_mem_cons.mpr ⟨rfl, noToken⟩⟩

end Scan

namespace Segment

variable {lines rest : List Glyph}

/-- What is behind whole lines does not begin with `else`. -/
theorem NoElseBeginsLine.noElse
    (noElse :
      NoElseBeginsLine (splitAfter 0 (lines ++ [.lineFeed]) ++ splitAfter 0 rest))
    (sound : ∀ segment ∈ splitAfter 0 rest, segment.IsSound)
    (line : Nat) :
    Grammar.NoElse (Scan.lexemes line (splitAfter 0 rest)) := by
  intro token others shape isElse
  obtain ⟨before, literal, glyphs, after, cut, noToken⟩ :=
    Scan.first_lexeme shape
  have gaps : ∀ segment ∈ before, segment.IsGap := by
    intro segment member
    have inside : segment ∈ splitAfter 0 rest := by
      rw [cut]
      exact List.mem_append_left _ member
    obtain ⟨first, -, more, rfl⟩ := front_of_mem_splitAfter inside
    exact isGap_of_isLayoutOf (front_isLayoutOf first more) (sound _ inside)
      (noToken _ member)
  have chain := isChain_splitAfter rest
  rw [cut] at chain
  have blanks := separates_of_gaps gaps chain fun _ => id
  have notBlanks := noElse (splitAfter 0 (lines ++ [.lineFeed]) ++ before)
    literal glyphs after (by rw [cut, isElse, List.append_assoc])
  rw [List.flatMap_append, flatMap_glyphs_splitAfter, List.append_assoc,
    List.singleton_append, Glyph.onLastLine_append_lineFeed, blanks]
    at notBlanks
  cases notBlanks

/-- The condition on `else` stays true behind whole lines. -/
theorem NoElseBeginsLine.behind
    (noElse :
      NoElseBeginsLine
        (splitAfter 0 (lines ++ [.lineFeed]) ++ splitAfter 0 rest)) :
    NoElseBeginsLine (splitAfter 0 rest) := by
  intro before literal glyphs after cut
  have notBlanks := noElse (splitAfter 0 (lines ++ [.lineFeed]) ++ before)
    literal glyphs after (by rw [cut, List.append_assoc])
  rwa [List.flatMap_append, flatMap_glyphs_splitAfter, List.append_assoc,
    List.singleton_append, Glyph.onLastLine_append_lineFeed] at notBlanks

end Segment

end Script
