import Script.Proofs.Token.Munch

namespace Script

/-!
# The scanner is exact

Scanning tells all of a source text and nothing else: the text is cut into longest
segments without loss, its tokens are the lexemes in order and the end of the
input, and its problems are the stray characters and the open string.
-/

namespace Segment

/-- What does not follow a segment that is cut as long as possible: names, runs of
digits and marks end where nothing can extend them, a point belongs to a number
when a digit is behind it, and comments and open strings run on to the end of
their line and of the text. -/
def Stops (rest : List Glyph) : Segment → Prop
  | .lexeme .identifier _ _ | .lexeme (.keyword _) _ _ =>
      ∀ next ∈ rest.head?, next.continuesName = false
  | .lexeme .number _ glyphs =>
      (∀ next ∈ rest.head?, next.isDigit = false) ∧
        ((∀ glyph ∈ glyphs, glyph.is '.' = false) →
          ∀ point digit behind,
            rest = point :: digit :: behind → point.is '.' = true →
              digit.isDigit = false)
  | .lexeme .bang _ _ | .lexeme .equal _ _ | .lexeme .less _ _
  | .lexeme .greater _ _ =>
      ∀ next ∈ rest.head?, next.is '=' = false
  | .lexeme .slash _ _ =>
      ∀ next ∈ rest.head?, next.is '/' = false
  | .comment _ =>
      ∀ next ∈ rest.head?, next.is '\n' = true
  | .openString _ =>
      rest = []
  | _ =>
      True

section Stops

variable {segment : Segment} {rest : List Glyph}

/-- A longest segment is not made longer by the next glyph. -/
theorem IsLongest.not_longer
    (longest : segment.IsLongest rest)
    (other : Segment)
    (classed : other.IsClassed)
    {next : Glyph}
    (isNext : next ∈ rest.head?) :
    other.glyphs ≠ segment.glyphs ++ [next] := by
  intro longer
  obtain ⟨behind, rfl⟩ := List.head?_eq_some_iff.mp isNext
  exact List.cons_ne_nil next []
    (longest other [next] classed longer ⟨behind, rfl⟩)

theorem IsLongest.not_pair
    {kind : TokenKind}
    {literal : Literal}
    {glyphs : List Glyph}
    (longest : (lexeme kind literal glyphs).IsLongest rest)
    (pair : TokenKind)
    (isPair : pair ∈ TokenKind.marks)
    (spelled :
      glyphs.map Glyph.code ++ ['='.toNat] =
        pair.name.toList.map Char.toNat) :
    ∀ next ∈ rest.head?, next.is '=' = false := by
  intro next isNext
  cases equals : next.is '=' with
  | false =>
      rfl
  | true =>
      refine (longest.not_longer (.lexeme pair .nil (glyphs ++ [next]))
        (.mark isPair ?_) isNext rfl).elim
      rw [← spelled, List.map_append, List.map_singleton, eq_of_beq equals]

theorem IsLongest.not_comment
    {first : Glyph}
    {kind : TokenKind}
    {literal : Literal}
    (longest : (lexeme kind literal [first]).IsLongest rest)
    (isSlash : first.is '/' = true) :
    ∀ next ∈ rest.head?, next.is '/' = false := by
  intro next isNext
  cases isSecond : next.is '/' with
  | false =>
      rfl
  | true =>
      exact (longest.not_longer (.comment [first, next])
        ⟨first, next, [], rfl, isSlash, isSecond, by simp⟩ isNext rfl).elim

theorem IsLongest.stops_mark
    {kind : TokenKind}
    {literal : Literal}
    {glyphs : List Glyph}
    (longest : (lexeme kind literal glyphs).IsLongest rest)
    (isMark : kind ∈ TokenKind.marks)
    (spelled : glyphs.map Glyph.code = kind.name.toList.map Char.toNat) :
    (lexeme kind literal glyphs).Stops rest := by
  cases kind with
  | bang =>
      exact longest.not_pair .bangEqual (by decide)
        (by rw [spelled]; decide)
  | equal =>
      exact longest.not_pair .equalEqual (by decide)
        (by rw [spelled]; decide)
  | less =>
      exact longest.not_pair .lessEqual (by decide)
        (by rw [spelled]; decide)
  | greater =>
      exact longest.not_pair .greaterEqual (by decide)
        (by rw [spelled]; decide)
  | slash =>
      obtain ⟨first, rfl, isFirst⟩ := List.map_eq_singleton_iff.mp spelled
      exact longest.not_comment (beq_iff_eq.mpr isFirst)
  | identifier | number | keyword =>
      simp [TokenKind.marks] at isMark
  | _ =>
      trivial

theorem IsLongest.stops_word
    {first : Glyph}
    {kind : TokenKind}
    {literal : Literal}
    {tail : List Glyph}
    (longest : (lexeme kind literal (first :: tail)).IsLongest rest)
    (starts : first.startsName = true)
    (continues : ∀ glyph ∈ tail, glyph.continuesName = true) :
    ∀ next ∈ rest.head?, next.continuesName = false := by
  intro next isNext
  cases goesOn : next.continuesName with
  | false =>
      rfl
  | true =>
      have longer :
          ∀ glyph ∈ tail ++ [next], glyph.continuesName = true := by
        simpa [or_imp, forall_and] using ⟨continues, goesOn⟩
      by_cases keyword :
          ∃ word : Keyword,
            Glyph.bytes (first :: (tail ++ [next])) =
              Text.utf8 word.spelling
      · obtain ⟨word, spelled⟩ := keyword
        exact (longest.not_longer
          (.lexeme (.keyword word) .nil (first :: (tail ++ [next])))
          (.keyword starts longer spelled) isNext rfl).elim
      · exact (longest.not_longer
          (.lexeme .identifier .nil (first :: (tail ++ [next])))
          (.name starts longer fun word spelled => keyword ⟨word, spelled⟩)
          isNext rfl).elim

theorem IsLongest.stops_whole
    {digits : List Glyph}
    {literal : Literal}
    (longest : (lexeme .number literal digits).IsLongest rest)
    (someDigit : digits ≠ [])
    (isDigit : ∀ digit ∈ digits, digit.isDigit = true) :
    (lexeme .number literal digits).Stops rest := by
  constructor
  · intro next isNext
    cases goesOn : next.isDigit with
    | false =>
        rfl
    | true =>
        refine (longest.not_longer
          (.lexeme .number _ (digits ++ [next]))
          (.whole (by simp) ?_) isNext rfl).elim
        simpa [or_imp, forall_and] using ⟨isDigit, goesOn⟩
  · rintro - point digit behind rfl isPoint
    cases goesOn : digit.isDigit with
    | false =>
        rfl
    | true =>
        have nothing := longest (.lexeme .number _ (digits ++ [point, digit]))
          [point, digit]
          (.fraction someDigit isDigit isPoint (by simp) (by simpa using goesOn))
          rfl ⟨behind, rfl⟩
        cases nothing

theorem IsLongest.stops_fraction
    {before after : List Glyph}
    {point : Glyph}
    {literal : Literal}
    (longest :
      (lexeme .number literal (before ++ point :: after)).IsLongest rest)
    (someBefore : before ≠ [])
    (isDigitBefore : ∀ digit ∈ before, digit.isDigit = true)
    (isPoint : point.is '.' = true)
    (isDigitAfter : ∀ digit ∈ after, digit.isDigit = true) :
    (lexeme .number literal (before ++ point :: after)).Stops rest := by
  constructor
  · intro next isNext
    cases goesOn : next.isDigit with
    | false =>
        rfl
    | true =>
        refine (longest.not_longer
          (.lexeme .number _ (before ++ point :: (after ++ [next])))
          (.fraction someBefore isDigitBefore isPoint (by simp) ?_) isNext
          (by simp [glyphs])).elim
        simpa [or_imp, forall_and] using ⟨isDigitAfter, goesOn⟩
  · intro noPoint
    have notPoint := noPoint point (by simp)
    rw [isPoint] at notPoint
    cases notPoint

/-- A longest segment is not followed by what could extend it. -/
theorem IsLongest.stops
    (longest : segment.IsLongest rest)
    (classed : segment.IsClassed) :
    segment.Stops rest := by
  cases segment with
  | lexeme kind literal glyphs =>
      cases (show Lexeme kind literal glyphs from classed) with
      | mark isMark spelled =>
          exact longest.stops_mark isMark spelled
      | whole someDigit isDigit =>
          exact longest.stops_whole someDigit isDigit
      | fraction someBefore isDigitBefore isPoint _ isDigitAfter =>
          exact longest.stops_fraction someBefore isDigitBefore isPoint
            isDigitAfter
      | string =>
          trivial
      | keyword starts continues =>
          exact longest.stops_word starts continues
      | name starts continues =>
          exact longest.stops_word starts continues
  | blank | stray =>
      trivial
  | comment glyphs =>
      obtain ⟨first, second, text, rfl, isFirst, isSecond, noLineFeed⟩ :=
        classed
      intro next isNext
      cases isLineFeed : next.is '\n' with
      | true =>
          rfl
      | false =>
          refine (longest.not_longer
            (.comment (first :: second :: (text ++ [next])))
            ⟨first, second, _, rfl, isFirst, isSecond, ?_⟩ isNext rfl).elim
          simpa [or_imp, forall_and] using ⟨noLineFeed, isLineFeed⟩
  | openString glyphs =>
      obtain ⟨opening, inner, rfl, opens, noQuote⟩ := classed
      cases rest with
      | nil =>
          rfl
      | cons next behind =>
          cases closes : next.is '"' with
          | true =>
              exact (longest.not_longer
                (.lexeme .string _ (opening :: inner ++ [next]))
                (.string opens noQuote closes) rfl rfl).elim
          | false =>
              refine (longest.not_longer
                (.openString (opening :: (inner ++ [next])))
                ⟨opening, _, rfl, opens, ?_⟩ rfl rfl).elim
              simpa [or_imp, forall_and] using ⟨noQuote, closes⟩

end Stops

/-- Segments with the lines on which they end, when the first one begins on
`line`. -/
def lined
    (line : Nat) :
    List Segment → List (Segment × Nat)
  | [] =>
      []
  | segment :: rest =>
      let last := line + Text.newlines segment.bytes
      (segment, last) :: lined last rest

/-- Counting the line feeds among bytes gives the tokens that scanning gives. -/
theorem tokens_lined
    (line : Nat)
    (segments : List Segment)
    (read : ∀ segment ∈ segments, ∀ glyph ∈ segment.glyphs, glyph.IsRead) :
    (Scan.ofSegments line segments).tokens =
        (lined line segments).filterMap
            (fun (segment, last) => segment.token? last) ++
          [.endAt (line + Text.newlines (segments.flatMap bytes) : Nat)] ∧
      (Scan.ofSegments line segments).problems =
        (lined line segments).filterMap
          (fun (segment, last) => segment.problem? last) := by
  induction segments generalizing line with
  | nil =>
      exact ⟨rfl, rfl⟩
  | cons segment rest inductionHypothesis =>
      have count : Text.newlines segment.bytes = segment.newlines :=
        Glyph.newlines_bytes (read segment List.mem_cons_self)
      have further :
          Text.newlines ((segment :: rest).flatMap bytes) =
            segment.newlines + Text.newlines (rest.flatMap bytes) := by
        rw [← count]
        simp [Text.newlines, List.count_append]
      obtain ⟨tokens, problems⟩ :=
        inductionHypothesis (line + segment.newlines) fun other member =>
          read other (List.mem_cons_of_mem _ member)
      simp only [Scan.ofSegments, lined, tokens, problems, count, further,
        List.filterMap_cons, Nat.add_assoc]
      constructor
      · cases segment.token? (line + segment.newlines) <;> rfl
      · cases segment.problem? (line + segment.newlines) <;> rfl

section Split

variable {source : Text} {segment : Segment}

/-- The segments of a text are a cut of it into longest segments. -/
theorem cuts_split (source : Text) :
    Cuts (split source) (Glyph.decode source) :=
  cuts_splitAfter _ fun _ member => Glyph.isRead_of_mem_decode member

theorem isRead_of_mem_split
    {glyph : Glyph}
    (member : segment ∈ split source)
    (inside : glyph ∈ segment.glyphs) :
    glyph.IsRead := by
  have decoded : glyph ∈ Glyph.decode source := by
    rw [← (cuts_split source).flatMap_glyphs]
    exact List.mem_flatMap.mpr ⟨segment, member, inside⟩
  exact Glyph.isRead_of_mem_decode decoded

/-- The bytes of the segments are the text. -/
theorem bytes_split (source : Text) :
    (split source).flatMap bytes = source := by
  have bytes := Glyph.bytes_decode source
  rw [← (cuts_split source).flatMap_glyphs, Glyph.bytes, List.flatMap_assoc]
    at bytes
  exact bytes

/-- A segment is made as its class says and is the longest at its place. -/
theorem here_of_split
    {before after : List Segment}
    (parts : split source = before ++ segment :: after) :
    segment.IsClassed ∧ segment.IsLongest (after.flatMap glyphs) :=
  (parts ▸ cuts_split source).here

theorem isClassed_of_mem_split (member : segment ∈ split source) :
    segment.IsClassed := by
  obtain ⟨before, after, parts⟩ := List.append_of_mem member
  exact (here_of_split parts).1

/-- What comes behind a segment does not extend it. -/
theorem stops_of_split
    {before after : List Segment}
    (parts : split source = before ++ segment :: after) :
    segment.Stops (after.flatMap glyphs) := by
  obtain ⟨classed, longest⟩ := here_of_split parts
  exact longest.stops classed

end Split

end Segment

namespace Scan

/-- The tokens are the lexemes in order, each with the line on which it ends, and
then the end of the input. -/
theorem tokens_ofSource (source : Text) :
    (ofSource source).tokens =
      (Segment.lined 1 (Segment.split source)).filterMap
          (fun (segment, last) => segment.token? last) ++
        [.endAt (1 + Text.newlines source : Nat)] := by
  have tokens :=
    (Segment.tokens_lined 1 (Segment.split source)
      fun _ member _ inside => Segment.isRead_of_mem_split member inside).1
  rwa [Segment.bytes_split] at tokens

/-- The problems are the stray characters and the open string in order. -/
theorem problems_ofSource (source : Text) :
    (ofSource source).problems =
      (Segment.lined 1 (Segment.split source)).filterMap
        (fun (segment, last) => segment.problem? last) :=
  (Segment.tokens_lined 1 (Segment.split source)
    fun _ member _ inside => Segment.isRead_of_mem_split member inside).2

/-- A scan of a source text that tells exactly of the given segments. -/
structure IsExact
    (scan : Scan)
    (source : Text)
    (segments : List Segment) :
    Prop where
  /-- The bytes of the segments are the text. -/
  lossless : segments.flatMap Segment.bytes = source
  /-- No segment is empty. -/
  someByte : ∀ segment ∈ segments, segment.bytes ≠ []
  /-- Every segment is made as its class says and is the longest at its place. -/
  cuts : Segment.Cuts segments (Glyph.decode source)
  /-- The text has no other cut like that. -/
  only :
    ∀ others, Segment.Cuts others (Glyph.decode source) → others = segments
  /-- What comes behind a segment does not extend it. -/
  stops :
    ∀ before segment after,
      segments = before ++ segment :: after →
        segment.Stops (after.flatMap Segment.glyphs)
  /-- A segment that is a lexeme has its kind and its literal. -/
  dictates :
    ∀ segment ∈ segments, ∀ kind literal,
      Lexeme kind literal segment.glyphs →
        segment = .lexeme kind literal segment.glyphs
  /-- The tokens are the lexemes in order, each with the line on which it ends,
  and then the end of the input. -/
  tokens :
    scan.tokens =
      (Segment.lined 1 segments).filterMap
          (fun (segment, last) => segment.token? last) ++
        [.endAt (1 + Text.newlines source : Nat)]
  /-- The problems are the stray characters and the open string in order. -/
  problems :
    scan.problems =
      (Segment.lined 1 segments).filterMap
        (fun (segment, last) => segment.problem? last)

/-- Scanning is exact for every source text. -/
theorem ofSource_exact (source : Text) :
    (ofSource source).IsExact source (Segment.split source) where
  lossless := Segment.bytes_split source
  someByte := by
    intro segment member nothing
    have classed := Segment.isClassed_of_mem_split member
    obtain ⟨first, rest, shape⟩ :=
      List.exists_cons_of_ne_nil classed.glyphs_ne_nil
    have firstRead :=
      Segment.isRead_of_mem_split member (shape ▸ List.mem_cons_self)
    rw [Segment.bytes, shape, Glyph.bytes, List.flatMap_cons,
      List.append_eq_nil_iff] at nothing
    exact firstRead.someByte nothing.1
  cuts := Segment.cuts_split source
  only := fun _ otherCuts =>
    otherCuts.eq_splitAfter fun _ member => Glyph.isRead_of_mem_decode member
  stops := fun _ _ _ parts => Segment.stops_of_split parts
  dictates := by
    intro segment member kind literal isLexeme
    exact (Segment.isClassed_of_mem_split member).unique
      (show Segment.IsClassed (.lexeme kind literal segment.glyphs) from
        isLexeme)
      rfl
      fun _ inside => Segment.isRead_of_mem_split member inside
  tokens := tokens_ofSource source
  problems := problems_ofSource source

end Scan

end Script
