import Script.Proofs.Token.Munch
import Script.Proofs.Token.Numbering

namespace Script

/-!
# Texts that are joined by a line feed

The segments of a text that has no open string stay as they are when a line feed
and another text come behind it.  So the tokens of the joined text are those of
the two, the latter ones on later lines.
-/

/-- A line feed ends no lexeme. -/
theorem Lexeme.not_lineFeed
    {kind : TokenKind}
    {literal : Literal}
    {glyphs : List Glyph}
    (lexeme : Lexeme kind literal glyphs) :
    glyphs.getLast? ≠ some .lineFeed := by
  have noDigit : Glyph.lineFeed.isDigit ≠ true := by
    decide
  have noPoint : Glyph.lineFeed.is '.' ≠ true := by
    decide
  have noStart : Glyph.lineFeed.startsName ≠ true := by
    decide +kernel
  have noName : Glyph.lineFeed.continuesName ≠ true := by
    decide +kernel
  intro last
  have member := List.mem_of_getLast? last
  cases lexeme with
  | mark isMark spelled =>
      have never :
          ∀ mark ∈ TokenKind.marks,
            Glyph.lineFeed.code ∉ mark.name.toList.map Char.toNat := by
        decide
      exact never kind isMark
        (spelled ▸ List.mem_map_of_mem (f := Glyph.code) member)
  | whole _ isDigit =>
      exact noDigit (isDigit _ member)
  | fraction _ isDigitBefore isPoint _ isDigitAfter =>
      rcases List.mem_append.mp member with early | late
      · exact noDigit (isDigitBefore _ early)
      · rcases List.mem_cons.mp late with rfl | late
        · exact noPoint isPoint
        · exact noDigit (isDigitAfter _ late)
  | string _ _ closes =>
      rw [List.getLast?_concat] at last
      cases last
      exact absurd closes (by decide)
  | keyword starts continues | name starts continues =>
      rcases List.mem_cons.mp member with rfl | late
      · exact noStart starts
      · exact noName (continues _ late)

namespace Segment

/-- A line feed with something in front of it ends a segment only when this is an
open string. -/
theorem IsClassed.of_lineFeed
    {segment : Segment}
    {before : List Glyph}
    (classed : segment.IsClassed)
    (ends : segment.glyphs = before ++ [.lineFeed])
    (someGlyph : before ≠ []) :
    ∃ glyphs, segment = .openString glyphs := by
  have last : segment.glyphs.getLast? = some .lineFeed := by
    rw [ends, List.getLast?_concat]
  cases segment with
  | lexeme kind literal glyphs =>
      exact (Lexeme.not_lineFeed classed last).elim
  | blank glyph | stray glyph =>
      have short := congrArg List.length ends
      simp only [glyphs, List.length_append, List.length_singleton] at short
      exact (someGlyph (List.length_eq_zero_iff.mp (by omega))).elim
  | comment glyphs =>
      obtain ⟨first, second, text, rfl, isFirst, isSecond, noLineFeed⟩ :=
        classed
      have member := List.mem_of_getLast? last
      rcases List.mem_cons.mp member with rfl | late
      · exact absurd isFirst (by decide)
      · rcases List.mem_cons.mp late with rfl | late
        · exact absurd isSecond (by decide)
        · exact absurd (noLineFeed _ late) (by decide)
  | openString glyphs =>
      exact ⟨glyphs, rfl⟩

/-- No lexeme is the beginning of an open string. -/
theorem not_lexeme_of_noQuote
    {kind : TokenKind}
    {literal : Literal}
    {glyphs more inner : List Glyph}
    {opening : Glyph}
    (opens : opening.is '"' = true)
    (noQuote : ∀ glyph ∈ inner, glyph.is '"' = false)
    (longer : opening :: inner = glyphs ++ more) :
    ¬ Lexeme kind literal glyphs := by
  rcases opening with ⟨code, raw⟩
  obtain rfl : code = 34 := eq_of_beq opens
  intro lexeme
  cases lexeme with
  | mark isMark spelled =>
      cases Glyph.formsMark_of_spelled isMark spelled with
      | alone found | slash found | apart found | joined found =>
          obtain ⟨rfl, -⟩ := List.cons.inj longer
          cases found
  | whole someDigit isDigit =>
      obtain ⟨digit, tail, rfl⟩ := List.exists_cons_of_ne_nil someDigit
      obtain ⟨rfl, -⟩ := List.cons.inj longer
      cases isDigit _ List.mem_cons_self
  | fraction someDigit isDigit =>
      obtain ⟨digit, tail, rfl⟩ := List.exists_cons_of_ne_nil someDigit
      obtain ⟨rfl, -⟩ := List.cons.inj longer
      cases isDigit _ List.mem_cons_self
  | @string _ closing text _ _ closes =>
      obtain ⟨-, rfl⟩ := List.cons.inj longer
      rw [noQuote closing (by simp)] at closes
      cases closes
  | keyword starts | name starts =>
      obtain ⟨rfl, -⟩ := List.cons.inj longer
      exact absurd (Glyph.only_name_of_startsName starts).2.2.2.2.1
        (by simp [Glyph.is])

/-- A segment that ends where it ends, whatever follows: no open string. -/
def IsClosed : Segment → Prop
  | .openString _ =>
      False
  | _ =>
      True

theorem IsSound.isClosed
    {segment : Segment}
    (sound : segment.IsSound) :
    segment.IsClosed := by
  cases segment with
  | openString =>
      cases sound
  | lexeme | blank | comment | stray =>
      trivial

/-- A closed segment is not the beginning of an open string. -/
theorem IsClassed.not_openString
    {segment : Segment}
    {glyphs more : List Glyph}
    (classed : segment.IsClassed)
    (closed : segment.IsClosed)
    (openClassed : (openString glyphs).IsClassed) :
    glyphs ≠ segment.glyphs ++ more := by
  obtain ⟨opening, inner, rfl, opens, noQuote⟩ := openClassed
  intro longer
  cases segment with
  | lexeme kind literal glyphs =>
      exact not_lexeme_of_noQuote opens noQuote longer classed
  | blank glyph =>
      obtain rfl : opening = glyph := (List.cons.inj longer).1
      rcases opening with ⟨code, raw⟩
      obtain rfl : code = 34 := eq_of_beq opens
      cases classed
  | comment glyphs =>
      obtain ⟨first, second, text, rfl, isFirst, -⟩ := classed
      obtain rfl : opening = first := (List.cons.inj longer).1
      rw [Glyph.is, eq_of_beq opens] at isFirst
      cases isFirst
  | stray glyph =>
      -- With a quotation mark behind it, it would be a string.
      obtain rfl : opening = glyph := (List.cons.inj longer).1
      exact classed.2 _ _ _
        (@Lexeme.string opening opening [] opens (by simp) opens)
  | openString =>
      exact closed

/-- A line feed behind a text is one more segment, when there is no open string
in front of it. -/
theorem Cuts.append_lineFeed
    {segments : List Segment}
    {text : List Glyph}
    (cuts : Cuts segments text)
    (closed : ∀ segment ∈ segments, segment.IsClosed) :
    Cuts (segments ++ [.blank .lineFeed]) (text ++ [.lineFeed]) := by
  induction cuts with
  | nothing =>
      have alone : (blank .lineFeed).IsLongest [] := by
        intro other more _ _ inside
        exact List.prefix_nil.mp inside
      exact .more (show Glyph.lineFeed.separates = true by decide) alone
        .nothing
  | @more segment segments rest classed longest _ inductionHypothesis =>
      rw [List.cons_append, List.append_assoc]
      refine .more classed ?_ (inductionHypothesis fun other member =>
        closed other (List.mem_cons_of_mem _ member))
      intro other further otherClassed longer inside
      rcases List.prefix_concat_iff.mp inside with whole | early
      · rw [whole, ← List.append_assoc] at longer
        have someGlyph : segment.glyphs ++ rest ≠ [] :=
          List.append_ne_nil_of_left_ne_nil classed.glyphs_ne_nil _
        obtain ⟨glyphs, rfl⟩ := otherClassed.of_lineFeed longer someGlyph
        rw [List.append_assoc] at longer
        exact (classed.not_openString (closed segment List.mem_cons_self)
          otherClassed longer).elim
      · exact longest other further otherClassed longer early

section Join

variable {first : Text} (closed : ∀ segment ∈ split first, segment.IsClosed)

include closed

theorem split_line :
    split (first ++ [Text.newline]) = split first ++ [.blank .lineFeed] := by
  have read (text : Text) : ∀ glyph ∈ Glyph.decode text, glyph.IsRead :=
    fun _ => Glyph.isRead_of_mem_decode
  have cuts :=
    (cuts_splitAfter (Glyph.decode first) (read first)).append_lineFeed closed
  rw [← Glyph.decode_line] at cuts
  exact (cuts.eq_splitAfter (read _)).symm

/-- A text without an open string keeps its segments when a line feed and another
text come behind it. -/
theorem split_join (second : Text) :
    split (first ++ Text.newline :: second) =
      split first ++ .blank .lineFeed :: split second := by
  have line := split_line closed
  have apart : CutsApart (Glyph.decode (first ++ [Text.newline]))
      (Glyph.decode second) := by
    refine cutsApart _ _ fun last found => ?_
    simpa [Glyph.decode_line, eq_comm] using found
  rw [CutsApart, ← Glyph.decode_newline, ← split, ← split, ← split, line]
    at apart
  rcases apart with whole | ⟨before, inner, opened, -⟩
  · rw [whole, List.append_assoc]
    rfl
  · cases (List.append_inj_right' opened rfl)

end Join

end Segment

namespace Scan

/-- Scanning ends as many lines below as there are line feeds in the text. -/
theorem lastLine_split
    (line : Nat)
    (source : Text) :
    lastLine line (Segment.split source) = line + Text.newlines source := by
  have read : ∀ glyph ∈ Glyph.decode source, glyph.IsRead :=
    fun _ => Glyph.isRead_of_mem_decode
  have counted := Glyph.newlines_bytes read
  rw [Glyph.bytes_decode] at counted
  rw [lastLine_eq_countP, Segment.split, Segment.flatMap_glyphs_splitAfter,
    counted]

/-- The tokens of a joined text are those of the two texts, the latter ones on
later lines. -/
theorem lexemes_join
    {first : Text}
    (closed : ∀ segment ∈ Segment.split first, segment.IsClosed)
    (second : Text) :
    lexemes 1 (Segment.split (first ++ Text.newline :: second)) =
      lexemes 1 (Segment.split first) ++
        (lexemes 1 (Segment.split second)).map
          (Token.shift (1 + Text.newlines first : Nat)) := by
  rw [Segment.split_join closed, lexemes_append, lastLine_split, lexemes]
  have further :
      1 + Text.newlines first + Segment.newlines (.blank .lineFeed) =
        1 + (1 + Text.newlines first) := by
    rw [show Segment.newlines (.blank .lineFeed) = 1 from rfl]
    omega
  rw [further, lexemes_shift]
  rfl

/-- Lexemes are on the line on which scanning begins or below it. -/
theorem le_line_of_mem_lexemes
    {line : Nat}
    {segments : List Segment}
    {token : Token}
    (member : token ∈ lexemes line segments) :
    line ≤ token.line := by
  induction segments generalizing line with
  | nil =>
      cases member
  | cons segment rest inductionHypothesis =>
      rcases List.mem_append.mp member with here | later
      · cases segment with
        | lexeme kind literal glyphs =>
            obtain rfl := List.mem_singleton.mp here
            simp only
            omega
        | blank | comment | stray | openString =>
            cases here
      · have below := inductionHypothesis later
        omega

end Scan

end Script
