import Script.Proofs.Mending.Step
import Script.Proofs.Session.Pieces
import Script.Proofs.Token.Exact
import Script.Proofs.Token.Joined
import Script.Proofs.Token.Respaced

namespace Script

/-!
# Source texts that go on

Closers are written with spaces between them, on a line of their own.  Behind a
source text in which no string is open they are scanned as they are by
themselves.  Where a string is open, a quotation mark on the next line closes it;
the string is the first closer then, and the others follow it.
-/

namespace Closer

/-- How a closer is written. -/
def text : Closer → Text
  | .string =>
      Text.utf8 "\"\""
  | .name =>
      Text.utf8 "x"
  | .leftParen =>
      Text.utf8 "("
  | .rightParen =>
      Text.utf8 ")"
  | .leftBrace =>
      Text.utf8 "\x7b"
  | .rightBrace =>
      Text.utf8 "\x7d"
  | .semicolon =>
      Text.utf8 ";"

/-- The segment of a closer. -/
def segment (closer : Closer) : Segment :=
  .lexeme closer.kind
    (if closer = .string then .text [] else .nil)
    (Glyph.decode closer.text)

theorem split_text (closer : Closer) :
    Segment.split closer.text = [closer.segment] := by
  cases closer <;> rfl

theorem isReread_segment (closer : Closer) : closer.segment.IsReread := by
  have member : closer.segment ∈ Segment.split closer.text := by
    rw [split_text]
    exact List.mem_singleton_self _
  exact Segment.isReread_of_mem_split member rfl

/-- Closers with a space between each two. -/
def spell (closers : List Closer) : Text :=
  Segment.respacedText 0 (closers.map segment)

theorem split_spell (closers : List Closer) :
    Segment.split (spell closers) =
      Segment.respaced 0 (closers.map segment) := by
  refine Segment.split_respacedText 0 fun segment member => ?_
  obtain ⟨closer, -, rfl⟩ := List.mem_map.mp member
  exact closer.isReread_segment

/-- What is written for closers is scanned without problems. -/
theorem isSound_spell
    {closers : List Closer}
    {segment : Segment}
    (member : segment ∈ Segment.split (spell closers)) :
    segment.IsSound := by
  rw [split_spell] at member
  rcases Segment.mem_respaced 0 _ member with rfl | isCloser
  · rfl
  · obtain ⟨closer, -, rfl⟩ := List.mem_map.mp isCloser
    rfl

/-- What is written for closers is scanned as tokens of their kinds. -/
theorem match_lexemes
    (line : Nat)
    (closers : List Closer) :
    Match closers (Scan.lexemes line (Segment.split (spell closers))) := by
  have kinds (tokens : List Token) :
      tokens.map Token.kind = (tokens.map Token.unlined).map Token.kind := by
    rw [List.map_map]
    rfl
  rw [Match, kinds, Scan.unlined_lexemes, split_spell,
    Scan.unlinedTokens_respaced, Scan.unlinedTokens]
  induction closers with
  | nil =>
      rfl
  | cons closer rest inductionHypothesis =>
      rw [List.map_cons, List.map_cons, ← inductionHypothesis]
      rfl

end Closer

namespace Segment

/-- Behind an open string there is nothing. -/
theorem Cuts.openString_last
    {before after : List Segment}
    {glyphs text : List Glyph}
    (cuts : Cuts (before ++ .openString glyphs :: after) text) :
    after = [] := by
  have nothing : after.flatMap Segment.glyphs = [] :=
    cuts.here.2.stops cuts.here.1
  cases after with
  | nil =>
      rfl
  | cons next rest =>
      rw [← List.singleton_append, ← List.append_assoc] at cuts
      have someGlyph := cuts.here.1.glyphs_ne_nil
      simp [someGlyph] at nothing

/-- The segments behind some others are cut as they are by themselves. -/
theorem Cuts.behind
    {before after : List Segment}
    {text : List Glyph}
    (cuts : Cuts (before ++ after) text) :
    Cuts after (after.flatMap Segment.glyphs) := by
  induction before generalizing text with
  | nil =>
      rw [List.nil_append] at cuts
      rw [cuts.flatMap_glyphs]
      exact cuts
  | cons segment before inductionHypothesis =>
      cases cuts with
      | more _ _ later =>
          exact inductionHypothesis later

/-- A line feed behind a text that ends in an open string belongs to the
string. -/
theorem Cuts.openString_lineFeed
    {before : List Segment}
    {glyphs text : List Glyph}
    (cuts : Cuts (before ++ [.openString glyphs]) text) :
    Cuts (before ++ [.openString (glyphs ++ [.lineFeed])])
      (text ++ [.lineFeed]) := by
  induction before generalizing text with
  | nil =>
      cases cuts with
      | more classed _ later =>
          cases later
          obtain ⟨opening, inner, rfl, opens, noQuote⟩ := classed
          have longer :
              (openString (opening :: inner ++ [.lineFeed])).IsClassed := by
            refine ⟨opening, inner ++ [.lineFeed], rfl, opens, ?_⟩
            intro glyph member
            rcases List.mem_append.mp member with inside | last
            · exact noQuote glyph inside
            · rw [List.mem_singleton.mp last]
              decide
          have alone :
              (openString (opening :: inner ++ [.lineFeed])).IsLongest [] :=
            fun other more _ _ inside => List.prefix_nil.mp inside
          have whole := Cuts.more longer alone .nothing
          simpa [Segment.glyphs] using whole
  | cons segment before inductionHypothesis =>
      cases cuts with
      | @more _ _ rest classed longest later =>
          rw [List.cons_append, List.append_assoc]
          refine .more classed ?_ (inductionHypothesis later)
          -- An open string would have nothing behind it.
          have isClosed : segment.IsClosed := by
            cases segment with
            | openString inner =>
                have nothing : rest = [] := longest.stops classed
                have parts := later.flatMap_glyphs
                rw [nothing] at parts
                have openClassed := (later.here).1
                have some := openClassed.glyphs_ne_nil
                simp [Segment.glyphs] at parts some
                exact (some parts.2).elim
            | lexeme | blank | comment | stray =>
                trivial
          intro other further otherClassed longer inside
          rcases List.prefix_concat_iff.mp inside with whole | early
          · rw [whole, ← List.append_assoc] at longer
            have someGlyph : segment.glyphs ++ rest ≠ [] :=
              List.append_ne_nil_of_left_ne_nil classed.glyphs_ne_nil _
            obtain ⟨glyphs, rfl⟩ := otherClassed.of_lineFeed longer someGlyph
            rw [List.append_assoc] at longer
            exact (classed.not_openString isClosed otherClassed longer).elim
          · exact longest other further otherClassed longer early

/-- A quotation mark begins a string, which is open or closed. -/
theorem string_cases
    (first : Glyph)
    (rest : List Glyph) :
    (∃ glyphs, string first rest = .openString glyphs) ∨
      ∃ literal glyphs, string first rest = .lexeme .string literal glyphs := by
  unfold string
  dsimp only
  split
  · exact .inr ⟨_, _, rfl⟩
  · exact .inl ⟨_, rfl⟩

/-- A string is cut up to its closing quotation mark. -/
theorem splitAfter_string
    {opening closing : Glyph}
    {inner : List Glyph}
    (opens : opening.is '"' = true)
    (noQuote : ∀ glyph ∈ inner, glyph.is '"' = false)
    (closes : closing.is '"' = true)
    (behind : List Glyph) :
    splitAfter 0 (opening :: (inner ++ closing :: behind)) =
      .lexeme .string (.text (Glyph.bytes inner))
          (opening :: inner ++ [closing]) ::
        splitAfter 0 behind := by
  have stops : (!closing.is '"') = false := by
    rw [closes]
    rfl
  have inside : ∀ glyph ∈ inner, (!glyph.is '"') = true := by
    simpa using noQuote
  have string :
      front opening (inner ++ closing :: behind) =
        .lexeme .string (.text (Glyph.bytes inner))
          (opening :: inner ++ [closing]) := by
    rw [front_of_quote opens, Segment.string,
      takeWhile_append_stop (!Glyph.is · '"') stops,
      dropWhile_append_stop (!Glyph.is · '"') stops,
      List.takeWhile_eq_self_iff.mpr inside,
      List.dropWhile_eq_nil_iff.mpr inside]
    rfl
  obtain ⟨tail, rest, whole, shape, cut⟩ :=
    splitAfter_cons opening (inner ++ closing :: behind)
  rw [string] at shape cut
  obtain rfl : tail = inner ++ [closing] := by
    simpa [glyphs, eq_comm] using shape
  obtain rfl : behind = rest := by
    simpa using whole
  exact cut

/-- A quotation mark on the next line closes a string. -/
theorem split_closeString
    {source : Text}
    {before : List Segment}
    {glyphs : List Glyph}
    (opened : split source = before ++ [.openString glyphs])
    (behind : Text) :
    ∃ literal inner,
      split (source ++ Text.newline :: Text.byte '"' :: behind) =
        before ++ .lexeme .string literal inner :: split behind := by
  have read (text : Text) : ∀ glyph ∈ Glyph.decode text, glyph.IsRead :=
    fun _ => Glyph.isRead_of_mem_decode
  have quote :
      Glyph.decode (Text.byte '"' :: behind) =
        .ofByte (Text.byte '"') :: Glyph.decode behind :=
    Glyph.decode_append_plain (by decide) [] behind
  have cuts := cuts_splitAfter (Glyph.decode source) (read source)
  rw [← split, opened] at cuts
  have line :
      split (source ++ [Text.newline]) =
        before ++ [.openString (glyphs ++ [.lineFeed])] := by
    have lineCuts := cuts.openString_lineFeed
    rw [← Glyph.decode_line] at lineCuts
    exact (lineCuts.eq_splitAfter (read _)).symm
  have joinedCuts :=
    cuts_splitAfter
      (Glyph.decode (source ++ Text.newline :: Text.byte '"' :: behind))
      (read _)
  rw [← split] at joinedCuts
  rcases Program.cutsApart_line source (Text.byte '"' :: behind) with
    apart | ⟨front, inner, openedLine, goesOn⟩
  · rw [apart, line, List.append_assoc, List.singleton_append] at joinedCuts
    have nothing := congrArg (·.flatMap Segment.glyphs)
      joinedCuts.openString_last
    simp only [split, flatMap_glyphs_splitAfter, quote] at nothing
    cases nothing
  · rw [line] at openedLine
    obtain ⟨rfl, -⟩ := List.append_inj' openedLine rfl
    obtain ⟨after, whole⟩ := goesOn
    obtain ⟨opening, text, rfl, opens, noQuote⟩ := cuts.here.1
    rw [← whole] at joinedCuts
    -- What is behind is cut from the opening quotation mark on.
    have parts :
        after.flatMap Segment.glyphs =
          opening :: ((text ++ [.lineFeed]) ++
            .ofByte (Text.byte '"') :: Glyph.decode behind) := by
      have all := joinedCuts.flatMap_glyphs
      rw [List.flatMap_append, Glyph.decode_behind_newline,
        ← cuts.flatMap_glyphs, quote, List.flatMap_append] at all
      simpa [Segment.glyphs] using all
    have afterRead :
        ∀ glyph ∈ after.flatMap Segment.glyphs, glyph.IsRead := by
      intro glyph member
      have inText :
          glyph ∈ (before ++ after).flatMap Segment.glyphs := by
        rw [List.flatMap_append]
        exact List.mem_append_right _ member
      rw [joinedCuts.flatMap_glyphs] at inText
      exact read _ glyph inText
    have cutAfter := joinedCuts.behind.eq_splitAfter afterRead
    have noQuoteLine : ∀ glyph ∈ text ++ [.lineFeed], glyph.is '"' = false := by
      intro glyph member
      rcases List.mem_append.mp member with inside | last
      · exact noQuote glyph inside
      · rw [List.mem_singleton.mp last]
        decide
    rw [parts, splitAfter_string opens noQuoteLine (by decide)] at cutAfter
    rw [← whole, cutAfter]
    exact ⟨_, _, rfl⟩

end Segment

end Script
