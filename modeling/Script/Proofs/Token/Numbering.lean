import Script.Token.Scan
import Script.Proofs.Relabel.Tree
import Script.Proofs.Token.Spelling

namespace Script

/-!
# Lines of tokens

Scanning numbers the lines.  The tokens of two texts in a row are those of the
one and then those of the other, with the lines counted on; and counting from
another line changes the lines of the tokens and nothing else.
-/

namespace Token

/-- A token some lines further down. -/
def shift
    (lines : Int)
    (token : Token) :
    Token :=
  { token with line := token.line + lines }

/-- A token without its line. -/
def unlined (token : Token) : Token :=
  { token with line := 0 }

theorem shift_relabels (lines : Int) : Relabels (shift lines) where
  kind _ := rfl
  lexeme _ := rfl
  literal _ := rfl

theorem unlined_relabels : Relabels unlined where
  kind _ := rfl
  lexeme _ := rfl
  literal _ := rfl

theorem shift_comp_shift (lines more : Int) :
    shift more ∘ shift lines = shift (lines + more) := by
  funext token
  simp [shift, Int.add_assoc]

theorem shift_zero : shift 0 = id := by
  funext token
  simp [shift]

/-- Without its line a token is the same wherever it is. -/
theorem unlined_comp_shift (lines : Int) :
    unlined ∘ shift lines = unlined :=
  rfl

end Token

namespace Segment

/-- A segment that is no problem. -/
def IsSound (segment : Segment) : Prop :=
  segment.problem? 0 = none

theorem IsSound.problem?
    {segment : Segment}
    (sound : segment.IsSound)
    (line : Nat) :
    segment.problem? line = none := by
  cases segment with
  | stray glyph | openString glyphs =>
      cases sound
  | lexeme | blank | comment =>
      rfl

theorem token?_shift
    (segment : Segment)
    (line lines : Nat) :
    segment.token? (line + lines) =
      (segment.token? line).map (Token.shift lines) := by
  cases segment <;> simp [token?, Token.shift]

end Segment

namespace Scan

/-- The tokens of segments of which the first begins on `line`. -/
def lexemes
    (line : Nat) :
    List Segment → List Token
  | [] =>
      []
  | segment :: rest =>
      (segment.token? (line + segment.newlines)).toList ++
        lexemes (line + segment.newlines) rest

/-- The line on which segments end of which the first begins on `line`. -/
def lastLine
    (line : Nat) :
    List Segment → Nat
  | [] =>
      line
  | segment :: rest =>
      lastLine (line + segment.newlines) rest

/-- Scanning gives the lexemes and the end of the input. -/
theorem tokens_ofSegments
    (line : Nat)
    (segments : List Segment) :
    (ofSegments line segments).tokens =
      lexemes line segments ++ [.endAt (lastLine line segments)] := by
  induction segments generalizing line with
  | nil =>
      rfl
  | cons segment rest inductionHypothesis =>
      simp only [ofSegments, lexemes, lastLine, inductionHypothesis,
        List.append_assoc]

theorem lexemes_append
    (line : Nat)
    (first second : List Segment) :
    lexemes line (first ++ second) =
      lexemes line first ++ lexemes (lastLine line first) second := by
  induction first generalizing line with
  | nil =>
      rfl
  | cons segment rest inductionHypothesis =>
      simp only [List.cons_append, lexemes, lastLine, inductionHypothesis,
        List.append_assoc]

/-- Scanning goes down a line at each line feed. -/
theorem lastLine_eq_countP
    (line : Nat)
    (segments : List Segment) :
    lastLine line segments =
      line + (segments.flatMap Segment.glyphs).countP (·.is '\n') := by
  induction segments generalizing line with
  | nil =>
      rfl
  | cons segment rest inductionHypothesis =>
      rw [lastLine, inductionHypothesis, List.flatMap_cons, List.countP_append,
        Segment.newlines, Nat.add_assoc]

/-- Lines are counted on from where the counting begins. -/
theorem lastLine_eq
    (line : Nat)
    (segments : List Segment) :
    lastLine line segments = line + lastLine 0 segments := by
  rw [lastLine_eq_countP, lastLine_eq_countP 0, Nat.zero_add]

/-- Further down there are the same tokens on later lines. -/
theorem lexemes_shift
    (line lines : Nat)
    (segments : List Segment) :
    lexemes (line + lines) segments =
      (lexemes line segments).map (Token.shift lines) := by
  induction segments generalizing line with
  | nil =>
      rfl
  | cons segment rest inductionHypothesis =>
      have ends :
          line + lines + segment.newlines = line + segment.newlines + lines := by
        omega
      rw [lexemes, lexemes, ends, inductionHypothesis, List.map_append,
        segment.token?_shift (line + segment.newlines)]
      cases segment.token? (line + segment.newlines) <;> rfl

theorem mem_lexemes
    {line : Nat}
    {segments : List Segment}
    {token : Token}
    (member : token ∈ lexemes line segments) :
    ∃ segment ∈ segments, ∃ last, segment.token? last = some token := by
  induction segments generalizing line with
  | nil =>
      cases member
  | cons segment rest inductionHypothesis =>
      rcases List.mem_append.mp member with here | later
      · exact ⟨segment, List.mem_cons_self, _, Option.mem_toList.mp here⟩
      · obtain ⟨found, foundMember, isToken⟩ := inductionHypothesis later
        exact ⟨found, List.mem_cons_of_mem _ foundMember, isToken⟩

/-- The end of the input is no lexeme. -/
theorem kind_of_mem_lexemes
    {line : Nat}
    {source : Text}
    {token : Token}
    (member : token ∈ lexemes line (Segment.split source)) :
    token.kind ≠ .endOfInput := by
  obtain ⟨segment, segmentMember, last, isToken⟩ := mem_lexemes member
  have spelled := Segment.splitAfter_spelled 0 _ segment segmentMember
  cases segment with
  | lexeme kind literal glyphs =>
      cases isToken
      exact spelled.2
  | blank | comment | stray | openString =>
      cases isToken

theorem mem_problems
    {line : Nat}
    {segments : List Segment}
    {problem : Diagnostic}
    (member : problem ∈ (ofSegments line segments).problems) :
    ∃ segment ∈ segments, ∃ last, segment.problem? last = some problem := by
  induction segments generalizing line with
  | nil =>
      cases member
  | cons segment rest inductionHypothesis =>
      rcases List.mem_append.mp member with here | later
      · exact ⟨segment, List.mem_cons_self, _, Option.mem_toList.mp here⟩
      · obtain ⟨found, foundMember, isProblem⟩ := inductionHypothesis later
        exact ⟨found, List.mem_cons_of_mem _ foundMember, isProblem⟩

/-- Scanning finds no problem when no segment is one. -/
theorem problems_eq_nil_iff
    (line : Nat)
    (segments : List Segment) :
    (ofSegments line segments).problems = [] ↔
      ∀ segment ∈ segments, segment.IsSound := by
  induction segments generalizing line with
  | nil =>
      simp [ofSegments]
  | cons segment rest inductionHypothesis =>
      have here (last : Nat) :
          (segment.problem? last).toList = [] ↔ segment.IsSound := by
        cases segment <;> simp [Segment.IsSound, Segment.problem?]
      simp only [ofSegments, List.append_eq_nil_iff, here, inductionHypothesis,
        List.forall_mem_cons]

end Scan

end Script
