import Script.Proofs.Parsing.Bound
import Script.Proofs.Relabel.StmtParser
import Script.Proofs.Session.Pieces
import Script.Proofs.Token.Joined

namespace Script

/-!
# Scanning and parsing line by line

A line feed ends whatever is in front of it, except an open string.  So a text
without an open string may stand in front of a line feed and another text: both
are scanned as they are scanned alone, the latter one further down.  When the
first text is a program without problems the other one is also parsed as it is
parsed alone, whatever problems it has, unless it begins with an `else`.
-/

/-- A problem some lines further down. -/
def Diagnostic.shift (lines : Int) : Diagnostic → Diagnostic :=
  reline (· + lines)

namespace Segment

theorem problem?_shift
    (segment : Segment)
    (line lines : Nat) :
    segment.problem? (line + lines) =
      (segment.problem? line).map (Diagnostic.shift lines) := by
  cases segment <;>
    simp [problem?, Diagnostic.shift, Diagnostic.reline, Diagnostic.onLine]

end Segment

namespace Scan

/-- A scan some lines further down. -/
def shift
    (lines : Int)
    (scan : Scan) :
    Scan where
  tokens := scan.tokens.map (Token.shift lines)
  problems := scan.problems.map (Diagnostic.shift lines)

/-- The tokens without the end of the input. -/
def lexical (scan : Scan) : List Token :=
  scan.tokens.filter (·.kind != .endOfInput)

/-- The tokens of a source text without the end of the input are its lexemes. -/
theorem lexical_ofSource (source : Text) :
    (ofSource source).lexical = lexemes 1 (Segment.split source) := by
  have kept :
      (lexemes 1 (Segment.split source)).filter (·.kind != .endOfInput) =
        lexemes 1 (Segment.split source) :=
    List.filter_eq_self.mpr fun token member => by
      simpa using kind_of_mem_lexemes member
  rw [lexical, ofSource, tokens_ofSegments, List.filter_append, kept]
  simp [Token.endAt]

/-- Further down there are the same tokens and problems on later lines. -/
theorem ofSegments_shift
    (line lines : Nat)
    (segments : List Segment) :
    ofSegments (line + lines) segments =
      (ofSegments line segments).shift lines := by
  induction segments generalizing line with
  | nil =>
      simp [ofSegments, shift, Token.shift, Token.endAt]
  | cons segment rest inductionHypothesis =>
      have ends :
          line + lines + segment.newlines = line + segment.newlines + lines := by
        omega
      simp only [ofSegments, ends, inductionHypothesis, shift,
        segment.token?_shift (line + segment.newlines),
        segment.problem?_shift (line + segment.newlines), List.map_append,
        Option.toList_map]

/-- Segments in a row are scanned one after the other. -/
theorem ofSegments_append
    (line : Nat)
    (first second : List Segment) :
    ofSegments line (first ++ second) =
      { tokens :=
          lexemes line first ++ (ofSegments (lastLine line first) second).tokens
        problems :=
          (ofSegments line first).problems ++
            (ofSegments (lastLine line first) second).problems } := by
  induction first generalizing line with
  | nil =>
      rfl
  | cons segment rest inductionHypothesis =>
      simp only [List.cons_append, ofSegments, lexemes, lastLine,
        inductionHypothesis, List.append_assoc]

/-- An open string is reported. -/
theorem isClosed_of_problems
    {line : Nat}
    {segments : List Segment}
    (closed :
      ∀ problem ∈ (ofSegments line segments).problems,
        problem.problem ≠ .unterminatedString) :
    ∀ segment ∈ segments, segment.IsClosed := by
  induction segments generalizing line with
  | nil =>
      simp
  | cons segment rest inductionHypothesis =>
      refine List.forall_mem_cons.mpr ⟨?_, inductionHypothesis
        fun problem member => closed problem (List.mem_append_right _ member)⟩
      cases segment with
      | openString glyphs =>
          exact (closed _ (List.mem_append_left _ List.mem_cons_self) rfl).elim
      | lexeme | blank | comment | stray =>
          trivial

/-- A text without an open string, a line feed and another text are scanned as
the two texts are, the latter one further down. -/
theorem ofSource_join
    {first : Text}
    (closed : ∀ segment ∈ Segment.split first, segment.IsClosed)
    (second : Text) :
    let further := (ofSource second).shift (1 + Text.newlines first : Nat)
    ofSource (first ++ Text.newline :: second) =
      { tokens := (ofSource first).lexical ++ further.tokens
        problems := (ofSource first).problems ++ further.problems } := by
  have lineFeed :
      ofSegments (1 + Text.newlines first)
          (.blank .lineFeed :: Segment.split second) =
        (ofSource second).shift (1 + Text.newlines first : Nat) := by
    have next :
        1 + Text.newlines first + Segment.newlines (.blank .lineFeed) =
          1 + (1 + Text.newlines first) := by
      rw [show Segment.newlines (.blank .lineFeed) = 1 from rfl]
      omega
    rw [ofSegments, next, ofSegments_shift]
    rfl
  rw [lexical_ofSource]
  dsimp only
  rw [ofSource, Segment.split_join closed, ofSegments_append, lastLine_split,
    lineFeed]
  rfl

end Scan

namespace Program

open Grammar

/-- The tokens of a list begin with no `else` when the list does not. -/
theorem noElse_start
    {tokens : List Token}
    (noElse : ∀ token ∈ tokens.head?, token.kind ≠ .keyword .elseWord) :
    NoElse (Cursor.start tokens).rest := by
  intro token rest shape
  refine noElse token ?_
  have begins : (Cursor.start tokens).rest <+: tokens :=
    List.takeWhile_prefix _
  rw [shape] at begins
  obtain ⟨behind, rfl⟩ := begins
  rfl

/-- Scanning and parsing go line by line.  A text in which no string is open, a
line feed and another text have the tokens and the problems of the two, those of
the latter further down.  When the first text parses without problems and no
`else` comes next, the statements are those of the first text and those that
survive in the other one, and the problems are those of the other one. -/
theorem ofSource_lineByLine
    {first second : Text}
    (closed :
      ∀ problem ∈ (Scan.ofSource first).problems,
        problem.problem ≠ .unterminatedString) :
    let joined := first ++ Text.newline :: second
    let lines : Int := (1 + Text.newlines first : Nat)
    Scan.ofSource joined =
        { tokens :=
            (Scan.ofSource first).tokens.filter (·.kind != .endOfInput) ++
              (Scan.ofSource second).tokens.map (Token.shift lines)
          problems :=
            (Scan.ofSource first).problems ++
              (Scan.ofSource second).problems.map (Diagnostic.shift lines) } ∧
      ((ofSource first).problems = [] →
        (∀ token ∈ (Scan.ofSource second).tokens.head?,
          token.kind ≠ .keyword .elseWord) →
        ofSource joined =
          { statements :=
              (ofSource first).statements ++
                Stmt.relabelAll (Token.shift lines) (ofSource second).statements
            problems :=
              (ofSource second).problems.map (Diagnostic.shift lines) }) := by
  intro joined lines
  have scanned :
      Scan.ofSource joined =
        { tokens :=
            (Scan.ofSource first).lexical ++
              (Scan.ofSource second).tokens.map (Token.shift lines)
          problems :=
            (Scan.ofSource first).problems ++
              (Scan.ofSource second).problems.map (Diagnostic.shift lines) } :=
    Scan.ofSource_join (Scan.isClosed_of_problems closed) second
  refine ⟨scanned, fun silent noElse => ?_⟩
  have accepts := accepts_of_problems silent
  have noProblem : (Scan.ofSource first).problems = [] :=
    (Scan.problems_eq_nil_iff 1 _).mpr accepts.sound
  have someToken : (Scan.ofSource second).tokens ≠ [] := by
    simp [Scan.ofSource, Scan.tokens_ofSegments]
  have parsed :=
    ofTokens_append (fun _ => Scan.kind_of_mem_lexemes) accepts.derived
      (show (Scan.ofSource second).tokens.map (Token.shift lines) ≠ [] by
        simpa using someToken)
      (noElse_start (by simpa [Token.shift] using noElse))
  have relined :
      ofTokens ((Scan.ofSource second).tokens.map (Token.shift lines)) =
        (ofTokens (Scan.ofSource second).tokens).reline (· + lines) :=
    ofTokens_reline (· + lines) someToken
  rw [← Scan.lexical_ofSource, relined] at parsed
  conv_lhs => rw [ofSource, scanned]
  dsimp only
  rw [parsed, noProblem, List.nil_append, reline, ofSource, ofSource,
    List.map_append]
  rfl

/-- A conditional, and a comment that ends in the middle of a character. -/
def halfComment : Text :=
  Text.utf8 "if (a)\n  print 1.5; // " ++ [0xe2, 0x82]

/-- A class with a broken method, and a string that is never closed. -/
def brokenClass : Text :=
  Text.utf8 "class C \x7b m( \x7d print 2; \"open"

/-- The statements of both texts survive, and the problems of the second one are
two lines further down. -/
theorem ofSource_lineByLine_halfComment :
    (ofSource brokenClass).problems.map Diagnostic.line = [1, 1] ∧
      Scan.ofSource (halfComment ++ Text.newline :: brokenClass) =
        { tokens :=
            (Scan.ofSource halfComment).tokens.filter (·.kind != .endOfInput) ++
              (Scan.ofSource brokenClass).tokens.map (Token.shift (2 : Nat))
          problems :=
            (Scan.ofSource halfComment).problems ++
              (Scan.ofSource brokenClass).problems.map
                (Diagnostic.shift (2 : Nat)) } ∧
      ofSource (halfComment ++ Text.newline :: brokenClass) =
        { statements :=
            (ofSource halfComment).statements ++
              Stmt.relabelAll (Token.shift (2 : Nat))
                (ofSource brokenClass).statements
          problems :=
            (ofSource brokenClass).problems.map (Diagnostic.shift (2 : Nat)) } := by
  have closed : (Scan.ofSource halfComment).problems = [] :=
    List.isEmpty_iff.mp (by decide +kernel)
  have silent : (ofSource halfComment).problems = [] :=
    List.isEmpty_iff.mp (by decide +kernel)
  have noElse :
      ∀ token ∈ (Scan.ofSource brokenClass).tokens.head?,
        token.kind ≠ .keyword .elseWord := by
    decide +kernel
  have lines : 1 + Text.newlines halfComment = 2 := by
    decide +kernel
  have joined :=
    @ofSource_lineByLine halfComment brokenClass (by rw [closed]; simp)
  rw [lines] at joined
  exact ⟨by decide +kernel, joined.1, joined.2 silent noElse⟩

end Program

end Script
