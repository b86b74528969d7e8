import Script.Proofs.Token.Exact
import Script.Proofs.Token.Respaced

namespace Script

/-!
# Counted lines

Every line that scanning tells is one more than the number of line feeds in front
of a place in the text: the end of a lexeme, the end of the text, or a character
that begins no lexeme.
-/

namespace Segment

/-- Whether a segment is a problem. -/
def isProblem : Segment → Bool
  | .stray _ | .openString _ =>
      true
  | _ =>
      false

theorem isSome_token?
    (segment : Segment)
    (line : Nat) :
    (segment.token? line).isSome = segment.isLexeme := by
  cases segment <;> rfl

theorem isSome_problem?
    (segment : Segment)
    (line : Nat) :
    (segment.problem? line).isSome = segment.isProblem := by
  cases segment <;> rfl

section Lined

variable (line : Nat)

theorem lined_append (front back : List Segment) :
    lined line (front ++ back) =
      lined line front ++
        lined (line + Text.newlines (front.flatMap bytes)) back := by
  induction front generalizing line with
  | nil =>
      rfl
  | cons segment front inductionHypothesis =>
      simp only [List.cons_append, lined, inductionHypothesis,
        List.flatMap_cons, Text.newlines, List.count_append, Nat.add_assoc]

theorem map_fst_lined (segments : List Segment) :
    (lined line segments).map Prod.fst = segments := by
  induction segments generalizing line with
  | nil =>
      rfl
  | cons segment rest inductionHypothesis =>
      rw [lined, List.map_cons, inductionHypothesis]

/-- What is picked from segments that all have a line, when having it picked
depends on the segment alone. -/
theorem length_filterMap_lined
    {pick : Segment × Nat → Option α}
    {picked : Segment → Bool}
    (isPicked : ∀ segment last, (pick (segment, last)).isSome = picked segment)
    (segments : List Segment) :
    ((lined line segments).filterMap pick).length =
      segments.countP picked := by
  induction segments generalizing line with
  | nil =>
      rfl
  | cons segment rest inductionHypothesis =>
      have here := isPicked segment (line + Text.newlines segment.bytes)
      rw [lined, List.filterMap_cons, List.countP_cons, ← here]
      cases pick (segment, line + Text.newlines segment.bytes) with
      | none =>
          simpa using inductionHypothesis _
      | some value =>
          simpa using inductionHypothesis _

/-- Whatever is picked from the segments of a text is picked from one of them, on
the line that the line feeds up to its end tell. -/
theorem filterMap_lined_eq_append
    {pick : Segment × Nat → Option α}
    {picked : Segment → Bool}
    (isPicked : ∀ segment last, (pick (segment, last)).isSome = picked segment)
    {segments : List Segment}
    {front back : List α}
    {value : α}
    (split : (lined line segments).filterMap pick = front ++ value :: back) :
    ∃ before segment after,
      segments = before ++ segment :: after ∧
        before.countP picked = front.length ∧
        pick
            (segment,
              line + Text.newlines (before.flatMap bytes ++ segment.bytes)) =
          some value := by
  obtain ⟨early, later, parts, rfl, laterShape⟩ :=
    List.filterMap_eq_append_iff.mp split
  obtain ⟨skipped, place, others, rfl, none, found, rfl⟩ :=
    List.filterMap_eq_cons_iff.mp laterShape
  have whole := congrArg (List.map Prod.fst) parts
  rw [map_fst_lined, ← List.append_assoc, List.map_append, List.map_cons]
    at whole
  have cut := parts
  rw [whole, lined_append, lined, ← List.append_assoc] at cut
  obtain ⟨beforeShape, hereShape⟩ :=
    List.append_inj cut (by rw [← List.length_map Prod.fst, map_fst_lined, List.length_map])
  refine ⟨_, _, _, whole, ?_, ?_⟩
  · rw [← length_filterMap_lined line isPicked, beforeShape,
      List.filterMap_append, List.filterMap_eq_nil_iff.mpr none,
      List.append_nil]
  · have place := (List.cons.inj hereShape).1
    rw [← found, ← place]
    simp only [Text.newlines, List.count_append, Nat.add_assoc]

end Lined

/-- Lines never decrease from one segment to the next. -/
theorem pairwise_lined
    (line : Nat)
    (segments : List Segment) :
    (lined line segments).Pairwise (·.2 ≤ ·.2) ∧
      ∀ entry ∈ lined line segments,
        line ≤ entry.2 ∧
          entry.2 ≤ line + Text.newlines (segments.flatMap bytes) := by
  induction segments generalizing line with
  | nil =>
      exact ⟨.nil, by simp [lined]⟩
  | cons segment rest inductionHypothesis =>
      obtain ⟨ordered, bounds⟩ :=
        inductionHypothesis (line + Text.newlines segment.bytes)
      have further :
          Text.newlines ((segment :: rest).flatMap bytes) =
            Text.newlines segment.bytes +
              Text.newlines (rest.flatMap bytes) := by
        simp [Text.newlines, List.count_append]
      rw [lined, further]
      refine ⟨.cons (fun entry member => (bounds entry member).1) ordered, ?_⟩
      intro entry member
      rcases List.mem_cons.mp member with rfl | later
      · simp only
        omega
      · have := bounds entry later
        omega

/-- A character that begins no lexeme is no line feed. -/
theorem newlines_stray
    {glyph : Glyph}
    (classed : (stray glyph).IsClassed)
    (read : glyph.IsRead) :
    Text.newlines (stray glyph).bytes = 0 := by
  have notLineFeed : glyph.is '\n' = false := by
    have apart := classed.1
    simp only [Glyph.separates, Bool.or_eq_false_iff] at apart
    exact apart.2
  have count := read.newlines
  rw [notLineFeed] at count
  simpa [bytes, glyphs, Glyph.bytes] using count

end Segment

/-- A token is that of the lexeme with `earlier` lexemes before it, and it has the
line on which the lexeme ends. -/
def Token.IsCounted
    (token : Token)
    (source : Text)
    (segments : List Segment)
    (earlier : Nat) :
    Prop :=
  ∃ before kind literal glyphs after,
    segments = before ++ .lexeme kind literal glyphs :: after ∧
      before.countP Segment.isLexeme = earlier ∧
      source =
        before.flatMap Segment.bytes ++ token.lexeme ++
          after.flatMap Segment.bytes ∧
      token.kind = kind ∧
      token.literal = literal ∧
      token.lexeme = Glyph.bytes glyphs ∧
      token.line =
        (1 + Text.newlines
          (before.flatMap Segment.bytes ++ token.lexeme) : Nat)

/-- A problem is that of the stray character or the open string with `earlier` such
segments before it: on the line of the character, or on the last line of the
text. -/
def Diagnostic.IsCounted
    (problem : Diagnostic)
    (source : Text)
    (segments : List Segment)
    (earlier : Nat) :
    Prop :=
  ∃ before segment after,
    segments = before ++ segment :: after ∧
      before.countP Segment.isProblem = earlier ∧
      ((∃ glyph,
          segment = .stray glyph ∧
            source =
              before.flatMap Segment.bytes ++ glyph.raw ++
                after.flatMap Segment.bytes ∧
            problem =
              .onLine (1 + Text.newlines (before.flatMap Segment.bytes) : Nat)
                (.unexpectedCharacter glyph.code)) ∨
        ∃ glyphs,
          segment = .openString glyphs ∧
            problem =
              .onLine (1 + Text.newlines source : Nat) .unterminatedString)

namespace Scan

/-- A scan of a source text with the given segments that counts lines from one:
each line that it tells is one more than the number of line feeds in front of the
place that it tells of. -/
structure IsCounted
    (scan : Scan)
    (source : Text)
    (segments : List Segment) :
    Prop where
  /-- There is a token for each lexeme and one for the end of the input. -/
  tokenCount : scan.tokens.length = segments.countP Segment.isLexeme + 1
  /-- The tokens before the last one are those of the lexemes in order. -/
  lexeme :
    ∀ (front back : List Token) (token : Token),
      scan.tokens = front ++ token :: back →
      back ≠ [] →
      token.IsCounted source segments front.length
  /-- The last token ends the input on the last line of the text. -/
  ending : scan.tokens.getLast? = some (.endAt (1 + Text.newlines source : Nat))
  /-- There is a problem for each stray character and each open string. -/
  problemCount : scan.problems.length = segments.countP Segment.isProblem
  /-- The problems are those of the stray characters and the open string in
  order. -/
  problem :
    ∀ (front back : List Diagnostic) (problem : Diagnostic),
      scan.problems = front ++ problem :: back →
      problem.IsCounted source segments front.length
  /-- Lines never decrease along the tokens. -/
  ordered : scan.tokens.Pairwise (·.line ≤ ·.line)

section OfSource

variable {source : Text}

/-- Behind an open string there is nothing. -/
theorem openString_last
    {before after : List Segment}
    {glyphs : List Glyph}
    (parts : Segment.split source = before ++ .openString glyphs :: after) :
    source = before.flatMap Segment.bytes ++ Segment.bytes (.openString glyphs) := by
  have stops : after.flatMap Segment.glyphs = [] :=
    Segment.stops_of_split parts
  have nothing : after.flatMap Segment.bytes = [] := by
    have bytes := congrArg Glyph.bytes stops
    rw [Glyph.bytes, List.flatMap_assoc] at bytes
    exact bytes
  rw [← Segment.bytes_split source, parts, List.flatMap_append,
    List.flatMap_cons, nothing, List.append_nil]

/-- A token that others follow is that of a lexeme. -/
theorem lexeme_isCounted
    {front back : List Token}
    {token : Token}
    (split : (ofSource source).tokens = front ++ token :: back)
    (others : back ≠ []) :
    token.IsCounted source (Segment.split source) front.length := by
  obtain ⟨rest, last, rfl⟩ :
      ∃ rest last, back = rest ++ [last] :=
    ⟨_, _, (List.dropLast_append_getLast others).symm⟩
  rw [tokens_ofSource, ← List.cons_append, ← List.append_assoc] at split
  obtain ⟨lexemes, -⟩ := List.append_inj' split rfl
  obtain ⟨before, segment, after, parts, count, found⟩ :=
    Segment.filterMap_lined_eq_append 1
      (fun segment last => segment.isSome_token? last) lexemes
  cases segment with
  | lexeme kind literal glyphs =>
      cases found
      refine ⟨before, kind, literal, glyphs, after, parts, count, ?_, rfl, rfl,
        rfl, rfl⟩
      rw [← Segment.bytes_split source, parts]
      simp [Segment.bytes, Segment.glyphs]
  | blank | comment | stray | openString =>
      cases found

/-- A problem is that of a stray character or of an open string. -/
theorem problem_isCounted
    {front back : List Diagnostic}
    {problem : Diagnostic}
    (split : (ofSource source).problems = front ++ problem :: back) :
    problem.IsCounted source (Segment.split source) front.length := by
  rw [problems_ofSource] at split
  obtain ⟨before, segment, after, parts, count, found⟩ :=
    Segment.filterMap_lined_eq_append 1
      (fun segment last => segment.isSome_problem? last) split
  refine ⟨before, segment, after, parts, count, ?_⟩
  cases segment with
  | stray glyph =>
      cases found
      have member : Segment.stray glyph ∈ Segment.split source := by
        rw [parts]
        simp
      have noLineFeed :=
        Segment.newlines_stray (Segment.isClassed_of_mem_split member)
          (Segment.isRead_of_mem_split member List.mem_cons_self)
      refine .inl ⟨glyph, rfl, ?_, ?_⟩
      · rw [← Segment.bytes_split source, parts]
        simp [Segment.bytes, Segment.glyphs, Glyph.bytes]
      · simp only [Text.newlines, List.count_append] at noLineFeed ⊢
        rw [noLineFeed]
        rfl
  | openString glyphs =>
      cases found
      exact .inr ⟨glyphs, rfl, by rw [← openString_last parts]⟩
  | lexeme | blank | comment =>
      cases found

/-- Lines never decrease along the tokens. -/
theorem lines_ordered (source : Text) :
    (ofSource source).tokens.Pairwise (·.line ≤ ·.line) := by
  obtain ⟨rising, bounds⟩ := Segment.pairwise_lined 1 (Segment.split source)
  have line_eq :
      ∀ (segment : Segment) (last : Nat) (token : Token),
        segment.token? last = some token → token.line = last := by
    intro segment last token found
    cases segment <;> cases found
    rfl
  rw [tokens_ofSource]
  refine List.pairwise_append.mpr ⟨?_, List.pairwise_singleton _ _, ?_⟩
  · refine List.pairwise_filterMap.mpr (rising.imp ?_)
    intro earlier later order token found other otherFound
    rw [line_eq _ _ _ found, line_eq _ _ _ otherFound]
    exact_mod_cast order
  · intro token member last isLast
    obtain ⟨entry, entryMember, found⟩ := List.mem_filterMap.mp member
    obtain rfl := List.mem_singleton.mp isLast
    have bound := (bounds entry entryMember).2
    rw [Segment.bytes_split] at bound
    rw [line_eq _ _ _ found]
    exact Int.ofNat_le.mpr bound

theorem length_tokens (source : Text) :
    (ofSource source).tokens.length =
      (Segment.split source).countP Segment.isLexeme + 1 := by
  rw [tokens_ofSource, List.length_append,
    Segment.length_filterMap_lined 1 fun segment last =>
      segment.isSome_token? last]
  rfl

theorem length_problems (source : Text) :
    (ofSource source).problems.length =
      (Segment.split source).countP Segment.isProblem := by
  rw [problems_ofSource,
    Segment.length_filterMap_lined 1 fun segment last =>
      segment.isSome_problem? last]

/-- The last token ends the input on the last line. -/
theorem getLast?_tokens (source : Text) :
    (ofSource source).tokens.getLast? =
      some (.endAt (1 + Text.newlines source : Nat)) := by
  rw [tokens_ofSource, List.getLast?_append]
  rfl

end OfSource

/-- Every source text is scanned with its lines counted. -/
theorem ofSource_counted (source : Text) :
    (ofSource source).IsCounted source (Segment.split source) where
  tokenCount := length_tokens source
  lexeme := fun _ _ _ split others => lexeme_isCounted split others
  ending := getLast?_tokens source
  problemCount := length_problems source
  problem := fun _ _ _ split => problem_isCounted split
  ordered := lines_ordered source

end Scan

end Script
