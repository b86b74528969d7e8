import Script.Token.Segment
import Script.Proofs.Text.Lines
import Mathlib.Data.List.Infix
import Mathlib.Data.List.TakeWhile

namespace Script

/-!
# Segments in lines

Only a string goes on behind a line feed.  A source text that is cut after a line
feed has the segments of its two parts, unless the first part ends in a string
that is not closed there.
-/

/-- Taking what is in front of an entry that is not taken. -/
theorem takeWhile_append_stop
    {α : Type}
    (test : α → Bool)
    {stop : α}
    (stops : test stop = false)
    (front rest : List α) :
    (front ++ stop :: rest).takeWhile test = front.takeWhile test := by
  induction front with
  | nil =>
      simp [stops]
  | cons first front inductionHypothesis =>
      simp only [List.cons_append, List.takeWhile_cons, inductionHypothesis]

theorem dropWhile_append_stop
    {α : Type}
    (test : α → Bool)
    {stop : α}
    (stops : test stop = false)
    (front rest : List α) :
    (front ++ stop :: rest).dropWhile test =
      front.dropWhile test ++ stop :: rest := by
  induction front with
  | nil =>
      simp [stops]
  | cons first front inductionHypothesis =>
      simp only [List.cons_append, List.dropWhile_cons]
      split
      · exact inductionHypothesis
      · rfl

namespace Segment

/-- A segment begins with the first glyph and goes on as the text does. -/
def Begins
    (segment : Segment)
    (first : Glyph)
    (rest : List Glyph) :
    Prop :=
  ∃ tail, segment.glyphs = first :: tail ∧ tail <+: rest

theorem begins_alone
    {segment : Segment}
    {first : Glyph}
    (rest : List Glyph)
    (alone : segment.glyphs = [first]) :
    segment.Begins first rest :=
  ⟨[], alone, List.nil_prefix⟩

theorem joined_begins
    (kinds : TokenKind × TokenKind)
    (first : Glyph)
    (rest : List Glyph) :
    (joined kinds first rest).Begins first rest := by
  unfold joined
  split
  · split
    · exact ⟨_, rfl, _, rfl⟩
    · exact begins_alone _ rfl
  · exact begins_alone _ rfl

theorem slash_begins
    (first : Glyph)
    (rest : List Glyph) :
    (slash first rest).Begins first rest := by
  unfold slash
  split
  · rename_i second behind
    split
    · have taken := List.takeWhile_prefix (!Glyph.is · '\n') (l := behind)
      exact ⟨_, rfl, (List.prefix_cons_inj second).mpr taken⟩
    · exact begins_alone _ rfl
  · exact begins_alone _ rfl

theorem string_begins
    (first : Glyph)
    (rest : List Glyph) :
    (string first rest).Begins first rest := by
  have whole := List.takeWhile_append_dropWhile (p := (!·.is '"')) (l := rest)
  unfold string
  dsimp only
  split
  · rename_i closing behind shape
    rw [shape] at whole
    exact ⟨rest.takeWhile (!·.is '"') ++ [closing], rfl, behind,
      by simpa using whole⟩
  · exact ⟨_, rfl, List.takeWhile_prefix _⟩

/-- The point and the digits behind it are next in the text. -/
theorem fraction_begins (after : List Glyph) :
    (if (fraction after).isEmpty then [] else after.take 1) ++ fraction after
      <+: after := by
  unfold fraction
  split
  · rename_i point digit behind
    split
    · have taken := List.takeWhile_prefix Glyph.isDigit (l := behind)
      exact (List.prefix_cons_inj point).mpr
        ((List.prefix_cons_inj digit).mpr taken)
    · exact List.nil_prefix
  · exact List.nil_prefix

theorem number_begins
    (first : Glyph)
    (rest : List Glyph) :
    (number first rest).Begins first rest := by
  have whole :=
    List.takeWhile_append_dropWhile (p := Glyph.isDigit) (l := rest)
  have taken :=
    (List.prefix_append_right_inj (rest.takeWhile Glyph.isDigit)).mpr
      (fraction_begins (rest.dropWhile Glyph.isDigit))
  rw [whole] at taken
  exact ⟨_, rfl, by simpa using taken⟩

theorem word_begins
    (first : Glyph)
    (rest : List Glyph) :
    (word first rest).Begins first rest := by
  unfold word
  dsimp only
  split <;> exact ⟨_, rfl, List.takeWhile_prefix _⟩

theorem front_begins
    (first : Glyph)
    (rest : List Glyph) :
    (front first rest).Begins first rest := by
  unfold front
  split
  · exact begins_alone _ rfl
  · exact joined_begins _ first rest
  · split
    · exact slash_begins first rest
    · split
      · exact begins_alone _ rfl
      · split
        · exact string_begins first rest
        · split
          · exact number_begins first rest
          · split
            · exact word_begins first rest
            · exact begins_alone _ rfl

theorem splitAfter_eq_drop
    (skipped : Nat)
    (text : List Glyph) :
    splitAfter skipped text = splitAfter 0 (text.drop skipped) := by
  induction text generalizing skipped with
  | nil =>
      cases skipped <;> rfl
  | cons first rest inductionHypothesis =>
      cases skipped with
      | zero =>
          rfl
      | succ skipped =>
          exact inductionHypothesis skipped

/-- A text is its front segment and what is cut behind that. -/
theorem splitAfter_cons
    (first : Glyph)
    (rest : List Glyph) :
    ∃ tail behind,
      rest = tail ++ behind ∧
        (front first rest).glyphs = first :: tail ∧
        splitAfter 0 (first :: rest) =
          front first rest :: splitAfter 0 behind := by
  obtain ⟨tail, shape, behind, whole⟩ := front_begins first rest
  refine ⟨tail, behind, whole.symm, shape, ?_⟩
  rw [splitAfter, shape, splitAfter_eq_drop]
  simp [← whole]

/-- The segments of a text are without gaps. -/
theorem flatMap_glyphs_splitAfter (text : List Glyph) :
    (splitAfter 0 text).flatMap glyphs = text := by
  match text with
  | [] =>
      rfl
  | first :: rest =>
      obtain ⟨tail, behind, whole, shape, cut⟩ := splitAfter_cons first rest
      have gapless := flatMap_glyphs_splitAfter behind
      rw [cut, List.flatMap_cons, shape, gapless, whole]
      rfl
termination_by text.length
decreasing_by
  simp only [whole, List.length_cons, List.length_append]
  omega

/-- Every segment begins at some place of the text. -/
theorem front_of_mem_splitAfter
    {skipped : Nat}
    {text : List Glyph}
    {segment : Segment}
    (member : segment ∈ splitAfter skipped text) :
    ∃ first ∈ text, ∃ rest, segment = front first rest := by
  induction text generalizing skipped with
  | nil =>
      cases skipped <;> cases member
  | cons first rest inductionHypothesis =>
      cases skipped with
      | zero =>
          rw [splitAfter] at member
          rcases List.mem_cons.mp member with rfl | later
          · exact ⟨first, List.mem_cons_self, rest, rfl⟩
          · obtain ⟨place, placeMember, found⟩ := inductionHypothesis later
            exact ⟨place, List.mem_cons_of_mem _ placeMember, found⟩
      | succ skipped =>
          rw [splitAfter] at member
          obtain ⟨place, placeMember, found⟩ := inductionHypothesis member
          exact ⟨place, List.mem_cons_of_mem _ placeMember, found⟩

/-! What is in front of a line feed does not depend on what is behind it. -/

theorem joined_lineFeed
    (kinds : TokenKind × TokenKind)
    (first : Glyph)
    (line rest : List Glyph) :
    joined kinds first (line ++ .lineFeed :: rest) =
      joined kinds first (line ++ [.lineFeed]) := by
  cases line <;> rfl

theorem slash_lineFeed
    (first : Glyph)
    (line rest : List Glyph) :
    slash first (line ++ .lineFeed :: rest) =
      slash first (line ++ [.lineFeed]) := by
  cases line with
  | nil =>
      rfl
  | cons second line =>
      have stops : (!Glyph.lineFeed.is '\n') = false := by
        decide
      simp only [slash, List.cons_append,
        takeWhile_append_stop (!Glyph.is · '\n') stops]

theorem fraction_lineFeed (line rest : List Glyph) :
    fraction (line ++ .lineFeed :: rest) =
      fraction (line ++ [.lineFeed]) := by
  have notPoint : Glyph.lineFeed.is '.' = false := by
    decide
  have notDigit : Glyph.lineFeed.isDigit = false := by
    decide
  match line with
  | [] =>
      cases rest <;> simp [fraction, notPoint]
  | [point] =>
      simp [fraction, notDigit]
  | point :: digit :: line =>
      simp only [fraction, List.cons_append,
        takeWhile_append_stop Glyph.isDigit notDigit]

theorem number_lineFeed
    (first : Glyph)
    (line rest : List Glyph) :
    number first (line ++ .lineFeed :: rest) =
      number first (line ++ [.lineFeed]) := by
  have notDigit : Glyph.lineFeed.isDigit = false := by
    decide
  have point (after : List Glyph) :
      (after ++ Glyph.lineFeed :: rest).take 1 =
        (after ++ [Glyph.lineFeed]).take 1 := by
    cases after <;> rfl
  unfold number
  simp only [takeWhile_append_stop Glyph.isDigit notDigit,
    dropWhile_append_stop Glyph.isDigit notDigit,
    fraction_lineFeed, point]

theorem word_lineFeed
    (first : Glyph)
    (line rest : List Glyph) :
    word first (line ++ .lineFeed :: rest) =
      word first (line ++ [.lineFeed]) := by
  have ends : Glyph.lineFeed.continuesName = false := by
    decide +kernel
  unfold word
  simp only [takeWhile_append_stop Glyph.continuesName ends]

/-- A string is closed on its line, or it is open at the end of the line. -/
theorem string_lineFeed
    (first : Glyph)
    (line rest : List Glyph) :
    string first (line ++ .lineFeed :: rest) =
        string first (line ++ [.lineFeed]) ∨
      string first (line ++ [.lineFeed]) =
        .openString (first :: (line ++ [.lineFeed])) := by
  by_cases closed : ∃ closing ∈ line, closing.is '"' = true
  · left
    obtain ⟨closing, member, quote⟩ := closed
    obtain ⟨inner, behind, rfl⟩ := List.append_of_mem member
    have stops : (!closing.is '"') = false := by
      rw [quote]
      rfl
    simp only [string, List.append_assoc, List.cons_append,
      takeWhile_append_stop (!Glyph.is · '"') stops,
      dropWhile_append_stop (!Glyph.is · '"') stops]
    cases inner.dropWhile (!Glyph.is · '"') <;> rfl
  · right
    have inside : ∀ glyph ∈ line ++ [.lineFeed], (!glyph.is '"') = true := by
      intro glyph member
      rcases List.mem_append.mp member with onLine | last
      · simpa using fun quote => closed ⟨glyph, onLine, quote⟩
      · rw [List.mem_singleton.mp last]
        decide
    unfold string
    rw [List.dropWhile_eq_nil_iff.mpr inside,
      List.takeWhile_eq_self_iff.mpr inside]

/-- The front segment of a line does not depend on what is behind the line, or it
is a string that is open at the end of the line. -/
theorem front_lineFeed
    (first : Glyph)
    (line rest : List Glyph) :
    front first (line ++ .lineFeed :: rest) =
        front first (line ++ [.lineFeed]) ∨
      front first (line ++ [.lineFeed]) =
        .openString (first :: (line ++ [.lineFeed])) := by
  unfold front
  split
  · exact .inl rfl
  · exact .inl (joined_lineFeed _ first line rest)
  · split
    · exact .inl (slash_lineFeed first line rest)
    · split
      · exact .inl rfl
      · split
        · exact string_lineFeed first line rest
        · split
          · exact .inl (number_lineFeed first line rest)
          · split
            · exact .inl (word_lineFeed first line rest)
            · exact .inl rfl

/-- A line feed is a blank by itself. -/
theorem front_of_lineFeed (rest : List Glyph) :
    front .lineFeed rest = .blank .lineFeed := by
  have noMark : Glyph.lineFeed.mark? = none := by
    decide
  have noJoining : Glyph.lineFeed.joining? = none := by
    decide
  have noSlash : Glyph.lineFeed.is '/' = false := by
    decide
  have separates : Glyph.lineFeed.separates = true := by
    decide
  simp [front, noMark, noJoining, noSlash, separates]

/-- The segments of lines: those of a text that goes on behind the lines begin
with them, or the lines end in an open string and the segments before that are
those of the longer text too. -/
def CutsApart (lines rest : List Glyph) : Prop :=
  splitAfter 0 (lines ++ rest) = splitAfter 0 lines ++ splitAfter 0 rest ∨
    ∃ before inner,
      splitAfter 0 lines = before ++ [.openString inner] ∧
        before <+: splitAfter 0 (lines ++ rest)

/-- Whole lines are cut apart from what is behind them. -/
theorem cutsApart
    (lines rest : List Glyph)
    (whole : ∀ last ∈ lines.getLast?, last = .lineFeed) :
    CutsApart lines rest := by
  match lines with
  | [] =>
      exact .inl rfl
  | first :: later =>
      obtain ⟨tail, behind, laterShape, shape, cut⟩ :=
        splitAfter_cons first later
      obtain ⟨longTail, longBehind, longShape, longGlyphs, longCut⟩ :=
        splitAfter_cons first (later ++ rest)
      have apart :
          front first (later ++ rest) = front first later ∨
            front first later = .openString (first :: later) := by
        obtain ⟨line, last, lineShape⟩ :
            ∃ line last, first :: later = line ++ [last] :=
          ⟨_, _, (List.dropLast_append_getLast (List.cons_ne_nil _ _)).symm⟩
        obtain rfl : last = .lineFeed := by
          refine whole last ?_
          rw [lineShape]
          simp
        cases line with
        | nil =>
            cases lineShape
            simp only [front_of_lineFeed, true_or]
        | cons first line =>
            cases lineShape
            simpa using front_lineFeed first line rest
      rcases apart with same | opened
      · obtain rfl : tail = longTail := by
          rw [same, shape] at longGlyphs
          exact (List.cons.inj longGlyphs).2
        obtain rfl : longBehind = behind ++ rest := by
          rw [laterShape, List.append_assoc] at longShape
          exact (List.append_cancel_left longShape).symm
        have goesOn : CutsApart behind rest := by
          refine cutsApart behind rest fun last found => whole last ?_
          simp [laterShape, List.getLast?_cons, List.getLast?_append,
            Option.mem_def.mp found]
        rcases goesOn with all | ⟨before, inner, opened, beginning⟩
        · left
          rw [List.cons_append, longCut, cut, same, all]
          rfl
        · right
          refine ⟨front first later :: before, inner, ?_, ?_⟩
          · rw [cut, opened]
            rfl
          · rw [List.cons_append, longCut, same]
            exact (List.prefix_cons_inj _).mpr beginning
      · right
        refine ⟨[], first :: later, ?_, List.nil_prefix⟩
        obtain rfl : behind = [] := by
          rw [opened] at shape
          have same : later = tail := (List.cons.inj shape).2
          rw [← same] at laterShape
          exact List.self_eq_append_right.mp laterShape
        rw [cut, opened]
        rfl
termination_by lines.length
decreasing_by
  simp only [laterShape, List.length_cons, List.length_append]
  omega

end Segment

end Script
