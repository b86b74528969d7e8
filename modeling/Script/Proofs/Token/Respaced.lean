import Script.Proofs.Token.Joined

namespace Script

/-!
# Lexemes apart from their layout

A lexeme tells its kind and its literal wherever it stands.  A space ends every
lexeme, so the lexemes of a text, written with single spaces between them, are
scanned without problems as the same lexemes again, whatever stood between them
before.
-/

namespace Glyph

/-- The glyph of a space. -/
def space : Glyph :=
  ofByte (Text.byte ' ')

/-- A space is a blank and no part of a mark, a number or a name. -/
structure IsSpace (glyph : Glyph) : Prop where
  separates : glyph.separates = true
  noSlash : glyph.is '/' = false
  noQuote : glyph.is '"' = false
  noPoint : glyph.is '.' = false
  noDigit : glyph.isDigit = false
  noStart : glyph.startsName = false
  noName : glyph.continuesName = false
  noMark :
    ∀ mark ∈ TokenKind.marks,
      glyph.code ∉ mark.name.toList.map Char.toNat

theorem space_isSpace : space.IsSpace where
  separates := by decide
  noSlash := by decide
  noQuote := by decide
  noPoint := by decide
  noDigit := by decide
  noStart := by decide +kernel
  noName := by decide +kernel
  noMark := by decide

end Glyph

namespace Lexeme

variable
  {kind otherKind : TokenKind}
  {literal otherLiteral : Literal}
  {glyphs other : List Glyph}

/-- Only a slash alone is a lexeme that begins with a slash. -/
theorem eq_of_slash
    {first : Glyph}
    {rest : List Glyph}
    (lexeme : Lexeme kind literal (first :: rest))
    (isSlash : first.is '/' = true) :
    rest = [] := by
  rcases first with ⟨code, raw⟩
  obtain rfl : code = 47 := eq_of_beq isSlash
  generalize shape : Glyph.mk 47 raw :: rest = glyphs at lexeme
  cases lexeme with
  | mark isMark spelled =>
      cases Glyph.formsMark_of_spelled isMark spelled with
      | alone | slash | apart =>
          exact (List.cons.inj shape).2
      | joined found =>
          obtain ⟨rfl, -⟩ := List.cons.inj shape
          cases found
  | whole someDigit isDigit =>
      cases isDigit _ (shape ▸ List.mem_cons_self)
  | fraction someDigit isDigit =>
      obtain ⟨digit, tail, rfl⟩ := List.exists_cons_of_ne_nil someDigit
      obtain ⟨rfl, -⟩ := List.cons.inj shape
      cases isDigit _ List.mem_cons_self
  | string opens =>
      obtain ⟨rfl, -⟩ := List.cons.inj shape
      cases opens
  | keyword starts | name starts =>
      obtain ⟨rfl, -⟩ := List.cons.inj shape
      exact absurd (Glyph.only_name_of_startsName starts).2.2.1
        (by simp [Glyph.is])

/-- A lexeme with a space behind it begins no longer lexeme. -/
theorem ne_append_space
    {more : List Glyph}
    (lexeme : Lexeme kind literal glyphs)
    (longer : Lexeme otherKind otherLiteral other) :
    other ≠ glyphs ++ Glyph.space :: more := by
  have isSpace := Glyph.space_isSpace
  intro shape
  have member : Glyph.space ∈ other := by
    rw [shape]
    simp
  cases longer with
  | mark isMark spelled =>
      exact isSpace.noMark _ isMark
        (spelled ▸ List.mem_map_of_mem (f := Glyph.code) member)
  | whole _ isDigit =>
      have digit := isDigit _ member
      rw [isSpace.noDigit] at digit
      cases digit
  | fraction _ isDigitBefore isPoint _ isDigitAfter =>
      rcases List.mem_append.mp member with early | late
      · have digit := isDigitBefore _ early
        rw [isSpace.noDigit] at digit
        cases digit
      · rcases List.mem_cons.mp late with rfl | late
        · rw [isSpace.noPoint] at isPoint
          cases isPoint
        · have digit := isDigitAfter _ late
          rw [isSpace.noDigit] at digit
          cases digit
  | @string opening closing inner opens noQuote closes =>
      obtain ⟨front, last, behind⟩ :
          ∃ front last, Glyph.space :: more = front ++ [last] :=
        ⟨_, _, (List.dropLast_append_getLast (List.cons_ne_nil _ _)).symm⟩
      rw [behind, ← List.append_assoc] at shape
      have inside : opening :: inner = glyphs ++ front :=
        (List.append_inj' shape rfl).1
      exact Segment.not_lexeme_of_noQuote opens noQuote inside lexeme
  | keyword starts continues | name starts continues =>
      rcases List.mem_cons.mp member with rfl | late
      · rw [isSpace.noStart] at starts
        cases starts
      · have goesOn := continues _ late
        rw [isSpace.noName] at goesOn
        cases goesOn

end Lexeme

namespace Segment

/-- A text that is empty or begins with a space. -/
def StartsApart (text : List Glyph) : Prop :=
  ∀ next ∈ text.head?, next = Glyph.space

/-- A lexeme is longest in front of a space. -/
theorem isLongest_of_startsApart
    {kind : TokenKind}
    {literal : Literal}
    {glyphs rest : List Glyph}
    (isLexeme : Lexeme kind literal glyphs)
    (apart : StartsApart rest) :
    (lexeme kind literal glyphs).IsLongest rest := by
  have classed : (lexeme kind literal glyphs).IsClassed := isLexeme
  have someGlyph := classed.glyphs_ne_nil
  intro other more otherClassed shape inside
  cases more with
  | nil =>
      rfl
  | cons next more =>
      obtain ⟨behind, rfl⟩ := inside
      obtain rfl : next = Glyph.space := apart next rfl
      obtain ⟨first, tail, parts⟩ := List.exists_cons_of_ne_nil someGlyph
      rw [Segment.glyphs] at parts
      subst parts
      cases other with
      | lexeme otherKind otherLiteral otherGlyphs =>
          exact (isLexeme.ne_append_space otherClassed shape).elim
      | blank glyph | stray glyph =>
          simp [Segment.glyphs] at shape
      | comment text =>
          obtain ⟨slash, second, text, rfl, isSlash, isSecond, -⟩ :=
            otherClassed
          obtain ⟨rfl, later⟩ := List.cons.inj shape
          rw [isLexeme.eq_of_slash isSlash] at later
          obtain rfl := (List.cons.inj later).1
          rw [Glyph.space_isSpace.noSlash] at isSecond
          cases isSecond
      | openString text =>
          obtain ⟨opening, inner, rfl, opens, noQuote⟩ := otherClassed
          exact (not_lexeme_of_noQuote opens noQuote shape isLexeme).elim

/-- A space in front of a text is a segment of its own. -/
theorem Cuts.space
    {segments : List Segment}
    {rest : List Glyph}
    (cuts : Cuts segments rest)
    (read : ∀ glyph ∈ Glyph.space :: rest, glyph.IsRead) :
    Cuts (.blank .space :: segments) (.space :: rest) := by
  have separates := Glyph.space_isSpace.separates
  have whole :
      Glyph.space :: rest = (front Glyph.space rest).glyphs ++ rest := by
    rw [front_of_separates separates]
    rfl
  have longest := front_isLongest read whole
  rw [front_of_separates separates] at longest
  exact .more separates longest cuts

/-- A lexeme whose glyphs are read again from their bytes. -/
structure IsReread (segment : Segment) : Prop where
  lexeme :
    ∃ kind literal,
      segment = .lexeme kind literal segment.glyphs ∧
        Lexeme kind literal segment.glyphs
  reading : Glyph.IsReading segment.glyphs

theorem IsReread.isClassed
    {segment : Segment}
    (reread : segment.IsReread) :
    segment.IsClassed := by
  obtain ⟨kind, literal, shape, isLexeme⟩ := reread.lexeme
  rw [shape]
  exact isLexeme

theorem IsReread.isRead
    {segment : Segment}
    (reread : segment.IsReread) :
    ∀ glyph ∈ segment.glyphs, glyph.IsRead := by
  rw [← reread.reading]
  exact fun glyph => Glyph.isRead_of_mem_decode

/-- Segments with a space between each two and some spaces behind the last. -/
def respaced
    (behind : Nat)
    (segments : List Segment) :
    List Segment :=
  segments.intersperse (.blank .space) ++
    List.replicate behind (.blank .space)

/-- The text of segments with a space between each two and some spaces behind
the last. -/
def respacedText
    (behind : Nat)
    (segments : List Segment) :
    Text :=
  [Text.byte ' '].intercalate (segments.map bytes) ++
    List.replicate behind (Text.byte ' ')

section Respaced

variable (behind : Nat)

theorem mem_respaced
    {segment : Segment} :
    (segments : List Segment) →
    segment ∈ respaced behind segments →
    segment = .blank .space ∨ segment ∈ segments
  | [], member =>
      .inl (List.eq_of_mem_replicate member)
  | [last], member => by
      rcases List.mem_cons.mp member with rfl | later
      · exact .inr List.mem_cons_self
      · exact .inl (List.eq_of_mem_replicate later)
  | first :: second :: rest, member => by
      rcases List.mem_cons.mp member with rfl | later
      · exact .inr List.mem_cons_self
      · rcases List.mem_cons.mp later with rfl | later
        · exact .inl rfl
        · exact (mem_respaced (second :: rest) later).imp_right
            (List.mem_cons_of_mem _)

theorem decode_space (line rest : Text) :
    Glyph.decode (line ++ Text.byte ' ' :: rest) =
      Glyph.decode line ++ .space :: Glyph.decode rest :=
  Glyph.decode_append_plain (by decide) line rest

theorem decode_spaces :
    Glyph.decode (List.replicate behind (Text.byte ' ')) =
      (List.replicate behind (Segment.blank .space)).flatMap glyphs := by
  induction behind with
  | zero =>
      rfl
  | succ behind inductionHypothesis =>
      rw [List.replicate_succ, List.replicate_succ, List.flatMap_cons,
        ← inductionHypothesis]
      exact decode_space [] _

/-- The glyphs of lexemes with spaces between them. -/
theorem decode_respacedText :
    (segments : List Segment) →
    (∀ segment ∈ segments, segment.IsReread) →
    Glyph.decode (respacedText behind segments) =
      (respaced behind segments).flatMap glyphs
  | [], _ =>
      decode_spaces behind
  | [last], reread => by
      have reading :
          Glyph.decode last.bytes = last.glyphs :=
        (reread last List.mem_cons_self).reading
      cases behind with
      | zero =>
          simpa [respacedText, respaced] using reading
      | succ behind =>
          have spaces := decode_spaces behind
          simp only [respacedText, respaced, List.map_singleton,
            List.intercalate_singleton, List.intersperse_singleton,
            List.replicate_succ, decode_space, reading, spaces,
            List.singleton_append, List.flatMap_cons]
          rfl
  | first :: second :: rest, reread => by
      have reading :
          Glyph.decode first.bytes = first.glyphs :=
        (reread first List.mem_cons_self).reading
      have later :=
        decode_respacedText (second :: rest) fun segment member =>
          reread segment (List.mem_cons_of_mem _ member)
      have text :
          respacedText behind (first :: second :: rest) =
            first.bytes ++
              Text.byte ' ' :: respacedText behind (second :: rest) := by
        simp [respacedText, List.intercalate_cons_cons]
      have parts :
          respaced behind (first :: second :: rest) =
            first :: .blank .space :: respaced behind (second :: rest) :=
        rfl
      rw [text, parts, decode_space, reading, later]
      rfl

theorem cuts_spaces
    (read :
      ∀ glyph ∈ (List.replicate behind (blank .space)).flatMap glyphs,
        glyph.IsRead) :
    Cuts (List.replicate behind (.blank .space))
      ((List.replicate behind (blank .space)).flatMap glyphs) := by
  induction behind with
  | zero =>
      exact .nothing
  | succ behind inductionHypothesis =>
      have later := inductionHypothesis fun glyph member =>
        read glyph (List.mem_cons_of_mem _ member)
      exact later.space read

theorem startsApart_spaces :
    StartsApart ((List.replicate behind (blank .space)).flatMap glyphs) := by
  cases behind with
  | zero =>
      exact fun next isNext => nomatch isNext
  | succ behind =>
      exact fun next isNext => (Option.some.inj isNext).symm

/-- Lexemes with spaces between them are the longest segments of their text. -/
theorem cuts_respaced :
    (segments : List Segment) →
    (∀ segment ∈ segments, segment.IsReread) →
    (∀ glyph ∈ (respaced behind segments).flatMap glyphs, glyph.IsRead) →
    Cuts (respaced behind segments)
      ((respaced behind segments).flatMap glyphs)
  | [], _, read =>
      cuts_spaces behind read
  | [last], reread, read => by
      obtain ⟨kind, literal, shape, isLexeme⟩ :=
        (reread last List.mem_cons_self).lexeme
      have spaces := cuts_spaces behind fun glyph member =>
        read glyph (List.mem_append_right _ member)
      have longest :=
        isLongest_of_startsApart isLexeme (startsApart_spaces behind)
      rw [← shape] at longest
      exact .more (shape ▸ isLexeme) longest spaces
  | first :: second :: rest, reread, read => by
      obtain ⟨kind, literal, shape, isLexeme⟩ :=
        (reread first List.mem_cons_self).lexeme
      have readSpace :
          ∀ glyph ∈
              .space :: (respaced behind (second :: rest)).flatMap glyphs,
            glyph.IsRead :=
        fun glyph member => read glyph (List.mem_append_right _ member)
      have later :=
        (cuts_respaced (second :: rest)
          (fun segment member =>
            reread segment (List.mem_cons_of_mem _ member))
          fun glyph member =>
            readSpace glyph (List.mem_cons_of_mem _ member)).space readSpace
      have longest :=
        isLongest_of_startsApart isLexeme
          (fun next isNext => (Option.some.inj isNext).symm :
            StartsApart
              (.space :: (respaced behind (second :: rest)).flatMap glyphs))
      rw [← shape] at longest
      exact .more (shape ▸ isLexeme) longest later

/-- A text of lexemes with spaces between them is cut at the spaces. -/
theorem split_respacedText
    {segments : List Segment}
    (reread : ∀ segment ∈ segments, segment.IsReread) :
    split (respacedText behind segments) = respaced behind segments := by
  have glyphs := decode_respacedText behind segments reread
  have read :
      ∀ glyph ∈ (respaced behind segments).flatMap Segment.glyphs,
        glyph.IsRead := by
    rw [← glyphs]
    exact fun glyph => Glyph.isRead_of_mem_decode
  have cuts := cuts_respaced behind segments reread read
  rw [split, glyphs]
  exact (cuts.eq_splitAfter read).symm

end Respaced

/-- Whether a segment is a lexeme. -/
def isLexeme : Segment → Bool
  | .lexeme _ _ _ =>
      true
  | _ =>
      false

/-- The lexemes of a text are read again from their bytes. -/
theorem isReread_of_mem_split
    {source : Text}
    {segment : Segment}
    (member : segment ∈ split source)
    (lexeme : segment.isLexeme = true) :
    segment.IsReread := by
  have cuts :=
    cuts_splitAfter (Glyph.decode source) fun _ => Glyph.isRead_of_mem_decode
  obtain ⟨before, after, parts⟩ := List.append_of_mem member
  rw [← split, parts] at cuts
  have classed := cuts.here.1
  cases segment with
  | lexeme kind literal glyphs =>
      have inside : glyphs <:+: Glyph.decode source := by
        rw [← cuts.flatMap_glyphs, List.flatMap_append, List.flatMap_cons]
        exact ⟨_, _, List.append_assoc _ _ _⟩
      exact ⟨⟨kind, literal, rfl, classed⟩, Glyph.isReading_of_infix inside⟩
  | blank | comment | stray | openString =>
      cases lexeme

end Segment

/-- The kind and the lexeme of a token. -/
def Token.key (token : Token) : TokenKind × Text :=
  (token.kind, token.lexeme)

namespace Scan

open Segment (respaced respacedText)

/-- The tokens of segments, without their lines. -/
def unlinedTokens (segments : List Segment) : List Token :=
  segments.filterMap (·.token? 0)

theorem unlinedTokens_cons
    (segment : Segment)
    (rest : List Segment) :
    unlinedTokens (segment :: rest) =
      (segment.token? 0).toList ++ unlinedTokens rest := by
  cases segment <;> rfl

/-- Scanning gives the tokens of the segments on whatever lines. -/
theorem unlined_lexemes
    (line : Nat)
    (segments : List Segment) :
    (lexemes line segments).map Token.unlined = unlinedTokens segments := by
  induction segments generalizing line with
  | nil =>
      rfl
  | cons segment rest inductionHypothesis =>
      rw [lexemes, List.map_append, inductionHypothesis, unlinedTokens_cons]
      cases segment <;> rfl

theorem unlined_ofSource (source : Text) :
    (ofSource source).tokens.map Token.unlined =
      unlinedTokens (Segment.split source) ++ [.endAt 0] := by
  rw [ofSource, tokens_ofSegments, List.map_append, unlined_lexemes]
  rfl

theorem unlinedTokens_filter (segments : List Segment) :
    unlinedTokens (segments.filter Segment.isLexeme) =
      unlinedTokens segments := by
  rw [unlinedTokens, List.filterMap_filter]
  congr 1
  funext segment
  cases segment <;> rfl

/-- Spaces give no tokens. -/
theorem unlinedTokens_respaced
    (behind : Nat) :
    (segments : List Segment) →
    unlinedTokens (respaced behind segments) = unlinedTokens segments
  | [] => by
      induction behind with
      | zero =>
          rfl
      | succ behind inductionHypothesis =>
          exact inductionHypothesis
  | [last] => by
      have spaces := unlinedTokens_respaced behind []
      rw [unlinedTokens_cons, ← spaces]
      exact unlinedTokens_cons last _
  | first :: second :: rest => by
      have later := unlinedTokens_respaced behind (second :: rest)
      rw [unlinedTokens_cons first, ← later]
      exact unlinedTokens_cons first _

theorem lexeme_lexemes
    (line : Nat)
    (segments : List Segment) :
    (lexemes line segments).map Token.lexeme =
      (segments.filter Segment.isLexeme).map Segment.bytes := by
  induction segments generalizing line with
  | nil =>
      rfl
  | cons segment rest inductionHypothesis =>
      rw [lexemes, List.map_append, inductionHypothesis]
      cases segment <;> rfl

/-- The lexemes of tokens with a space between each two. -/
def spaced (tokens : List Token) : Text :=
  [Text.byte ' '].intercalate (tokens.map Token.lexeme)

/-- An empty text at the end adds a space. -/
theorem intercalate_concat_nil
    (separator : Text) :
    (texts : List Text) →
    separator.intercalate (texts ++ [[]]) =
      separator.intercalate texts ++ if texts.isEmpty then [] else separator
  | [] =>
      rfl
  | [last] => by
      simp [List.intercalate_cons_cons]
  | first :: second :: rest => by
      have later := intercalate_concat_nil separator (second :: rest)
      simp only [List.cons_append, List.isEmpty_cons] at later ⊢
      rw [List.intercalate_cons_cons, later, List.intercalate_cons_cons]
      simp

/-- The text of the lexemes, with or without the empty one at the end. -/
theorem spaced_eq
    {source : Text}
    {kept : List Token}
    (isKept :
      kept = (ofSource source).tokens ∨
        kept = (ofSource source).tokens.dropLast) :
    ∃ behind,
      spaced kept =
        respacedText behind
          ((Segment.split source).filter Segment.isLexeme) := by
  rw [ofSource, tokens_ofSegments, List.dropLast_concat] at isKept
  rcases isKept with rfl | rfl
  · rw [spaced, List.map_append, lexeme_lexemes, List.map_singleton,
      Token.endAt, intercalate_concat_nil]
    split
    · exact ⟨0, rfl⟩
    · exact ⟨1, rfl⟩
  · refine ⟨0, ?_⟩
    rw [spaced, lexeme_lexemes, respacedText, List.replicate_zero,
      List.append_nil]

/-- The lexemes of a source text, written with single spaces between them, are
scanned without problems as the same lexemes. -/
theorem ofSource_spaced
    {source : Text}
    {kept : List Token}
    (isKept :
      kept = (ofSource source).tokens ∨
        kept = (ofSource source).tokens.dropLast) :
    (ofSource (spaced kept)).problems = [] ∧
      (ofSource (spaced kept)).tokens.map Token.unlined =
        (ofSource source).tokens.map Token.unlined := by
  obtain ⟨behind, text⟩ := spaced_eq isKept
  have isLexeme :
      ∀ segment ∈ (Segment.split source).filter Segment.isLexeme,
        segment ∈ Segment.split source ∧ segment.isLexeme = true :=
    fun _ => List.mem_filter.mp
  have cut :
      Segment.split (spaced kept) =
        respaced behind
          ((Segment.split source).filter Segment.isLexeme) := by
    rw [text]
    exact Segment.split_respacedText behind fun segment member =>
      Segment.isReread_of_mem_split (isLexeme segment member).1
        (isLexeme segment member).2
  constructor
  · rw [ofSource, problems_eq_nil_iff, cut]
    intro segment member
    rcases Segment.mem_respaced behind _ member with rfl | kept
    · rfl
    · have lexeme := (isLexeme segment kept).2
      cases segment with
      | lexeme =>
          rfl
      | blank | comment | stray | openString =>
          cases lexeme
  · rw [unlined_ofSource, unlined_ofSource, cut, unlinedTokens_respaced,
      unlinedTokens_filter]

/-- A token is the end of the input or a lexeme of its text. -/
theorem cases_of_mem_tokens
    {source : Text}
    {token : Token}
    (member : token ∈ (ofSource source).tokens) :
    (token.kind = .endOfInput ∧ token.literal = .nil) ∨
      token.kind ≠ .endOfInput ∧
        ∃ segment : Segment,
          segment.IsReread ∧
            token.lexeme = segment.bytes ∧
            segment = .lexeme token.kind token.literal segment.glyphs := by
  rw [ofSource, tokens_ofSegments] at member
  rcases List.mem_append.mp member with inside | last
  · obtain ⟨segment, segmentMember, line, isToken⟩ := mem_lexemes inside
    refine .inr ⟨kind_of_mem_lexemes inside, segment, ?_⟩
    cases segment with
    | lexeme kind literal glyphs =>
        obtain rfl := Option.some.inj isToken
        exact ⟨Segment.isReread_of_mem_split segmentMember rfl, rfl, rfl⟩
    | blank | comment | stray | openString =>
        cases isToken
  · obtain rfl := List.mem_singleton.mp last
    exact .inl ⟨rfl, rfl⟩

/-- A lexeme of a kind has one literal, in whatever text it is. -/
theorem literal_eq_of_lexeme
    {first second : Text}
    {token other : Token}
    (member : token ∈ (ofSource first).tokens)
    (otherMember : other ∈ (ofSource second).tokens)
    (kind : token.kind = other.kind)
    (lexeme : token.lexeme = other.lexeme) :
    token.literal = other.literal := by
  rcases cases_of_mem_tokens member with
    ⟨isEnd, literal⟩ | ⟨notEnd, segment, reread, bytes, shape⟩
  · rcases cases_of_mem_tokens otherMember with
      ⟨-, otherLiteral⟩ | ⟨notEnd, -⟩
    · rw [literal, otherLiteral]
    · exact (notEnd (kind ▸ isEnd)).elim
  · rcases cases_of_mem_tokens otherMember with
      ⟨isEnd, -⟩ | ⟨-, otherSegment, otherReread, otherBytes, otherShape⟩
    · exact (notEnd (kind ▸ isEnd)).elim
    · have same : segment.glyphs = otherSegment.glyphs := by
        rw [← reread.reading, ← otherReread.reading]
        exact congrArg Glyph.decode
          (bytes.symm.trans (lexeme.trans otherBytes))
      have equal := reread.isClassed.unique otherReread.isClassed same
        reread.isRead
      rw [shape, otherShape] at equal
      exact (Segment.lexeme.inj equal).2.1

/-- What entries have in common is the same in lists with the same keys. -/
theorem map_eq_map_of_keys
    {α κ β : Type}
    {key : α → κ}
    {entry : α → β}
    {first second : List α}
    (keys : first.map key = second.map key)
    (determined :
      ∀ one ∈ first, ∀ other ∈ second,
        key one = key other → entry one = entry other) :
    first.map entry = second.map entry := by
  induction first generalizing second with
  | nil =>
      obtain rfl : second = [] := by simpa using keys.symm
      rfl
  | cons one first inductionHypothesis =>
      cases second with
      | nil =>
          cases keys
      | cons other second =>
          obtain ⟨here, later⟩ := List.cons.inj keys
          rw [List.map_cons, List.map_cons,
            determined one List.mem_cons_self other List.mem_cons_self here,
            inductionHypothesis later fun one member other otherMember =>
              determined one (List.mem_cons_of_mem _ member) other
                (List.mem_cons_of_mem _ otherMember)]

/-- Texts with the same kinds and lexemes have the same tokens up to their
lines. -/
theorem unlined_eq_of_keys
    {first second : Text}
    (keys :
      (ofSource first).tokens.map Token.key = (ofSource second).tokens.map Token.key) :
    (ofSource first).tokens.map Token.unlined =
      (ofSource second).tokens.map Token.unlined := by
  refine map_eq_map_of_keys keys fun token member other otherMember same => ?_
  have parts := Prod.mk.inj same
  have literal := literal_eq_of_lexeme member otherMember parts.1 parts.2
  simp only [Token.unlined, parts, literal]

end Scan

end Script
