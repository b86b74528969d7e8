import Script.Proofs.Token.Lexeme

namespace Script

/-!
# The longest segments

The scanner takes the longest segment at each place, and there is only one way to
cut a text like that.  What it tells of a text are the lexemes and the problems
of this cut.
-/

theorem prefix_takeWhile
    {α : Type}
    {test : α → Bool}
    {front text : List α}
    (taken : ∀ entry ∈ front, test entry = true)
    (begins : front <+: text) :
    front <+: text.takeWhile test := by
  obtain ⟨behind, rfl⟩ := begins
  rw [List.takeWhile_append_of_pos taken]
  exact List.prefix_append _ _

namespace Segment

/-- A segment that ends within a longer one, or is that one. -/
def Within (segment longest : Segment) : Prop :=
  segment.glyphs <+: longest.glyphs ∧
    (segment.glyphs = longest.glyphs → segment = longest)

theorem within_of_eq
    {segment longest : Segment}
    (same : longest = segment) :
    segment.Within longest := by
  subst same
  exact ⟨List.prefix_rfl, fun _ => rfl⟩

section Within

variable {first : Glyph} {rest tail : List Glyph}

theorem within_slash :
    (lexeme .slash .nil [first]).Within (slash first rest) := by
  unfold slash
  split
  · split
    · exact ⟨by simp [glyphs], by simp [glyphs]⟩
    · exact within_of_eq rfl
  · exact within_of_eq rfl

theorem within_joined (kinds : TokenKind × TokenKind) :
    (lexeme kinds.1 .nil [first]).Within (joined kinds first rest) := by
  unfold joined
  split
  · split
    · exact ⟨by simp [glyphs], by simp [glyphs]⟩
    · exact within_of_eq rfl
  · exact within_of_eq rfl

/-- Digits end within the number at their place. -/
theorem within_number_whole
    (read : ∀ glyph ∈ first :: rest, glyph.IsRead)
    (isDigit : ∀ digit ∈ first :: tail, digit.isDigit = true)
    (begins : tail <+: rest) :
    (lexeme .number (.ofNumeral (first :: tail)) (first :: tail)).Within
      (number first rest) := by
  have isFirst := isDigit first List.mem_cons_self
  have taken : tail <+: rest.takeWhile Glyph.isDigit :=
    prefix_takeWhile
      (fun digit member => isDigit digit (List.mem_cons_of_mem _ member)) begins
  rcases number_cases read isFirst with
    ⟨-, digits, rfl, same⟩ | ⟨_, _, _, glyphs, -, -, -, rfl, same⟩
  · rw [same]
    refine ⟨(List.prefix_cons_inj first).mpr taken, fun equal => ?_⟩
    rw [Segment.glyphs, Segment.glyphs] at equal
    rw [equal]
  · rw [same]
    refine ⟨(List.prefix_cons_inj first).mpr
      (taken.trans (List.prefix_append _ _)), fun equal => ?_⟩
    rw [Segment.glyphs, Segment.glyphs] at equal
    rw [equal]

/-- Digits with a point among them end within the number at their place. -/
theorem within_number_fraction
    {point : Glyph}
    {after : List Glyph}
    (read : ∀ glyph ∈ first :: rest, glyph.IsRead)
    (isDigit : ∀ digit ∈ first :: tail, digit.isDigit = true)
    (isPoint : point.is '.' = true)
    (someAfter : after ≠ [])
    (isDigitAfter : ∀ digit ∈ after, digit.isDigit = true)
    (begins : tail ++ point :: after <+: rest) :
    (lexeme .number (.ofNumeral (first :: tail ++ point :: after))
        (first :: tail ++ point :: after)).Within
      (number first rest) := by
  have isFirst := isDigit first List.mem_cons_self
  have isDigitTail : ∀ digit ∈ tail, digit.isDigit = true :=
    fun digit member => isDigit digit (List.mem_cons_of_mem _ member)
  have noDigit : point.isDigit = false := by
    rcases point with ⟨code, raw⟩
    obtain rfl : code = 46 := eq_of_beq isPoint
    rfl
  obtain ⟨digit, others, rfl⟩ := List.exists_cons_of_ne_nil someAfter
  obtain ⟨behind, rfl⟩ := begins
  have taken :
      (tail ++ point :: digit :: others ++ behind).takeWhile Glyph.isDigit =
        tail := by
    rw [List.append_assoc, List.takeWhile_append_of_pos isDigitTail,
      List.cons_append, List.takeWhile_cons]
    simp [noDigit]
  have dropped :
      (tail ++ point :: digit :: others ++ behind).dropWhile Glyph.isDigit =
        point :: digit :: (others ++ behind) := by
    rw [List.append_assoc, List.dropWhile_append_of_pos isDigitTail,
      List.cons_append, List.dropWhile_cons]
    simp [noDigit]
  have isDigitSecond := isDigitAfter digit List.mem_cons_self
  have longer : others <+: (others ++ behind).takeWhile Glyph.isDigit :=
    prefix_takeWhile
      (fun other member => isDigitAfter other (List.mem_cons_of_mem _ member))
      (List.prefix_append _ _)
  rcases number_cases read isFirst with
    ⟨none, -⟩ | ⟨_, _, _, glyphs, shape, -, -, rfl, same⟩
  · rw [dropped] at none
    simp [fraction, isPoint, isDigitSecond] at none
  · rw [dropped] at shape
    cases shape
    rw [same, taken]
    refine ⟨?_, fun equal => ?_⟩
    · simpa [Segment.glyphs] using longer
    · rw [Segment.glyphs, Segment.glyphs] at equal
      rw [equal]

/-- A closed string is the string at its place. -/
theorem within_string
    {inner : List Glyph}
    {closing : Glyph}
    (noQuote : ∀ glyph ∈ inner, glyph.is '"' = false)
    (closes : closing.is '"' = true)
    (begins : inner ++ [closing] <+: rest) :
    (lexeme .string (.text (Glyph.bytes inner))
        (first :: inner ++ [closing])).Within
      (string first rest) := by
  obtain ⟨behind, rfl⟩ := begins
  have inside : ∀ glyph ∈ inner, (!glyph.is '"') = true := by
    simpa using noQuote
  apply within_of_eq
  unfold string
  rw [List.append_assoc, List.takeWhile_append_of_pos inside,
    List.dropWhile_append_of_pos inside]
  simp [closes]

/-- What is in front of a quotation mark ends within the string at its place. -/
theorem within_openString
    (noQuote : ∀ glyph ∈ tail, glyph.is '"' = false)
    (begins : tail <+: rest) :
    (openString (first :: tail)).Within (string first rest) := by
  have inside : ∀ glyph ∈ tail, (!glyph.is '"') = true := by
    simpa using noQuote
  have taken := prefix_takeWhile inside begins
  have stopped := List.head?_dropWhile_not (!Glyph.is · '"') rest
  unfold string
  dsimp only
  split
  · rename_i closing behind shape
    rw [shape] at stopped
    refine ⟨(List.prefix_cons_inj first).mpr
      (taken.trans (List.prefix_append _ _)), fun equal => ?_⟩
    obtain rfl :
        tail = rest.takeWhile (!Glyph.is · '"') ++ [closing] :=
      (List.cons.inj equal).2
    have outside := inside closing (by simp)
    rw [show (!closing.is '"') = false from by simpa using stopped] at outside
    cases outside
  · refine ⟨(List.prefix_cons_inj first).mpr taken, fun equal => ?_⟩
    rw [glyphs, glyphs] at equal
    rw [equal]

/-- What is in front of a line feed ends within the comment at its place. -/
theorem within_comment
    {second : Glyph}
    (isSecond : second.is '/' = true)
    (noLineFeed : ∀ glyph ∈ tail, glyph.is '\n' = false)
    (begins : second :: tail <+: rest) :
    (comment (first :: second :: tail)).Within (slash first rest) := by
  obtain ⟨behind, rfl⟩ := begins
  have inside : ∀ glyph ∈ tail, (!glyph.is '\n') = true := by
    simpa using noLineFeed
  have taken := prefix_takeWhile inside (List.prefix_append tail behind)
  have same :
      slash first (second :: tail ++ behind) =
        .comment
          (first :: second :: (tail ++ behind).takeWhile (!·.is '\n')) := by
    simp [slash, isSecond]
  rw [same]
  refine ⟨?_, fun equal => ?_⟩
  · simpa [glyphs] using taken
  · rw [glyphs, glyphs] at equal
    rw [equal]

theorem glyphs_word :
    (word first rest).glyphs = first :: rest.takeWhile Glyph.continuesName := by
  unfold word
  dsimp only
  split <;> rfl

/-- A keyword ends within the word at its place. -/
theorem within_keyword
    {keyword : Keyword}
    (continues : ∀ glyph ∈ tail, glyph.continuesName = true)
    (spelled : Glyph.bytes (first :: tail) = Text.utf8 keyword.spelling)
    (begins : tail <+: rest) :
    (lexeme (.keyword keyword) .nil (first :: tail)).Within
      (word first rest) := by
  have taken := prefix_takeWhile continues begins
  have found :
      Keyword.ofText? (Text.utf8 keyword.spelling) = some keyword := by
    cases keyword <;> decide
  refine ⟨?_, fun equal => ?_⟩
  · rw [glyphs_word]
    exact (List.prefix_cons_inj first).mpr taken
  · rw [glyphs_word] at equal
    obtain rfl : tail = rest.takeWhile Glyph.continuesName :=
      (List.cons.inj equal).2
    unfold word
    simp only [spelled, found]

/-- A name ends within the word at its place. -/
theorem within_name
    (continues : ∀ glyph ∈ tail, glyph.continuesName = true)
    (noKeyword :
      ∀ keyword : Keyword,
        Glyph.bytes (first :: tail) ≠ Text.utf8 keyword.spelling)
    (begins : tail <+: rest) :
    (lexeme .identifier .nil (first :: tail)).Within (word first rest) := by
  have taken := prefix_takeWhile continues begins
  have notFound : Keyword.ofText? (Glyph.bytes (first :: tail)) = none := by
    cases found : Keyword.ofText? (Glyph.bytes (first :: tail)) with
    | none =>
        rfl
    | some keyword =>
        exact (noKeyword keyword
          (Keyword.eq_spelling_of_ofText? found)).elim
  refine ⟨?_, fun equal => ?_⟩
  · rw [glyphs_word]
    exact (List.prefix_cons_inj first).mpr taken
  · rw [glyphs_word] at equal
    obtain rfl : tail = rest.takeWhile Glyph.continuesName :=
      (List.cons.inj equal).2
    unfold word
    simp only [notFound]

/-- A lexeme ends within the segment at its place. -/
theorem within_lexeme
    {kind : TokenKind}
    {literal : Literal}
    {glyphs : List Glyph}
    (read : ∀ glyph ∈ first :: rest, glyph.IsRead)
    (isLexeme : Lexeme kind literal glyphs)
    (begins : glyphs <+: first :: rest) :
    (lexeme kind literal glyphs).Within (front first rest) := by
  cases isLexeme with
  | mark isMark spelled =>
      cases Glyph.formsMark_of_spelled isMark spelled with
      | alone found =>
          obtain ⟨rfl, -⟩ := List.cons_prefix_cons.mp begins
          exact within_of_eq (front_of_mark? found)
      | slash isSlash isKind =>
          obtain ⟨rfl, -⟩ := List.cons_prefix_cons.mp begins
          rw [isKind, front_of_slash isSlash]
          exact within_slash
      | apart found isKind =>
          obtain ⟨rfl, -⟩ := List.cons_prefix_cons.mp begins
          rw [isKind, front_of_joining? found]
          exact within_joined _
      | joined found equals isKind =>
          obtain ⟨rfl, later⟩ := List.cons_prefix_cons.mp begins
          obtain ⟨behind, rfl⟩ := later
          rw [isKind, front_of_joining? found]
          apply within_of_eq
          simp [joined, equals]
  | whole someDigit isDigit =>
      obtain ⟨digit, tail, rfl⟩ := List.exists_cons_of_ne_nil someDigit
      obtain ⟨rfl, later⟩ := List.cons_prefix_cons.mp begins
      rw [front_of_isDigit (isDigit digit List.mem_cons_self)]
      exact within_number_whole read isDigit later
  | fraction someBefore isDigitBefore isPoint someAfter isDigitAfter =>
      obtain ⟨digit, tail, rfl⟩ := List.exists_cons_of_ne_nil someBefore
      obtain ⟨rfl, later⟩ := List.cons_prefix_cons.mp begins
      rw [front_of_isDigit (isDigitBefore digit List.mem_cons_self)]
      exact within_number_fraction read isDigitBefore isPoint someAfter
        isDigitAfter later
  | string opens noQuote closes =>
      obtain ⟨rfl, later⟩ := List.cons_prefix_cons.mp begins
      rw [front_of_quote opens]
      exact within_string noQuote closes later
  | keyword starts continues spelled =>
      obtain ⟨rfl, later⟩ := List.cons_prefix_cons.mp begins
      rw [front_of_startsName starts]
      exact within_keyword continues spelled later
  | name starts continues noKeyword =>
      obtain ⟨rfl, later⟩ := List.cons_prefix_cons.mp begins
      rw [front_of_startsName starts]
      exact within_name continues noKeyword later

/-- A character that begins nothing is the segment at its place. -/
theorem within_stray
    (read : ∀ glyph ∈ first :: rest, glyph.IsRead)
    (noBlank : first.separates = false)
    (noLexeme : ∀ kind literal tail, ¬ Lexeme kind literal (first :: tail)) :
    (stray first).Within (front first rest) := by
  obtain ⟨tail, shape, -⟩ := front_begins first rest
  have classed := front_isClassed read
  cases made : front first rest with
  | lexeme kind literal glyphs =>
      rw [made] at shape classed
      obtain rfl : glyphs = first :: tail := shape
      exact (noLexeme kind literal tail classed).elim
  | blank glyph =>
      rw [made] at shape classed
      obtain rfl : glyph = first := (List.cons.inj shape).1
      rw [show glyph.separates = true from classed] at noBlank
      cases noBlank
  | comment glyphs =>
      rw [made] at shape classed
      obtain ⟨slash, second, text, rfl, isSlash, -⟩ := classed
      obtain rfl : slash = first := (List.cons.inj shape).1
      have alone : Lexeme .slash .nil [slash] := by
        refine .mark (by decide) ?_
        rw [List.map_singleton, eq_of_beq isSlash]
        decide
      exact (noLexeme _ _ _ alone).elim
  | stray glyph =>
      rw [made] at shape
      obtain rfl : glyph = first := (List.cons.inj shape).1
      exact within_of_eq rfl
  | openString glyphs =>
      rw [made] at shape classed
      obtain ⟨opening, inner, rfl, opens, noQuote⟩ := classed
      obtain rfl : opening = first := (List.cons.inj shape).1
      exact (noLexeme _ _ _ (.string opens noQuote opens)).elim

end Within

/-- What is made as its class says has a glyph. -/
theorem IsClassed.glyphs_ne_nil
    {segment : Segment}
    (classed : segment.IsClassed) :
    segment.glyphs ≠ [] := by
  cases segment with
  | lexeme kind literal glyphs =>
      change glyphs ≠ []
      cases (show Lexeme kind literal glyphs from classed) with
      | mark isMark spelled =>
          cases Glyph.formsMark_of_spelled isMark spelled <;>
            exact List.cons_ne_nil _ _
      | whole someDigit =>
          exact someDigit
      | fraction | string | keyword | name =>
          simp
  | blank | stray =>
      exact List.cons_ne_nil _ _
  | comment glyphs =>
      obtain ⟨first, second, text, rfl, -⟩ := classed
      exact List.cons_ne_nil _ _
  | openString glyphs =>
      obtain ⟨opening, inner, rfl, -⟩ := classed
      exact List.cons_ne_nil _ _

/-- Whatever is made as its class says ends within the segment at its place. -/
theorem IsClassed.within_front
    {segment : Segment}
    {first : Glyph}
    {rest : List Glyph}
    (classed : segment.IsClassed)
    (read : ∀ glyph ∈ first :: rest, glyph.IsRead)
    (begins : segment.glyphs <+: first :: rest) :
    segment.Within (front first rest) := by
  cases segment with
  | lexeme kind literal glyphs =>
      exact within_lexeme read classed begins
  | blank glyph =>
      obtain ⟨rfl, -⟩ := List.cons_prefix_cons.mp begins
      exact within_of_eq (front_of_separates classed)
  | comment glyphs =>
      obtain ⟨slash, second, text, rfl, isSlash, isSecond, noLineFeed⟩ :=
        classed
      obtain ⟨rfl, later⟩ := List.cons_prefix_cons.mp begins
      rw [front_of_slash isSlash]
      exact within_comment isSecond noLineFeed later
  | stray glyph =>
      obtain ⟨rfl, -⟩ := List.cons_prefix_cons.mp begins
      exact within_stray read classed.1 classed.2
  | openString glyphs =>
      obtain ⟨opening, inner, rfl, opens, noQuote⟩ := classed
      obtain ⟨rfl, later⟩ := List.cons_prefix_cons.mp begins
      rw [front_of_quote opens]
      exact within_openString noQuote later

/-- Nothing that is made as its class says is longer at the place of a segment
in front of `rest`. -/
def IsLongest
    (segment : Segment)
    (rest : List Glyph) :
    Prop :=
  ∀ (other : Segment) (more : List Glyph),
    other.IsClassed → other.glyphs = segment.glyphs ++ more → more <+: rest →
      more = []

/-- The cuts of a text into longest segments. -/
inductive Cuts : List Segment → List Glyph → Prop where
  | nothing :
      Cuts [] []
  | more
      {segment : Segment}
      {segments : List Segment}
      {rest : List Glyph}
      (classed : segment.IsClassed)
      (longest : segment.IsLongest rest)
      (later : Cuts segments rest) :
      Cuts (segment :: segments) (segment.glyphs ++ rest)

theorem front_isLongest
    {first : Glyph}
    {rest behind : List Glyph}
    (read : ∀ glyph ∈ first :: rest, glyph.IsRead)
    (whole : first :: rest = (front first rest).glyphs ++ behind) :
    (front first rest).IsLongest behind := by
  intro other more classed longer inside
  have begins : other.glyphs <+: first :: rest := by
    rw [longer, whole]
    exact (List.prefix_append_right_inj _).mpr inside
  have short := (classed.within_front read begins).1.length_le
  rw [longer, List.length_append] at short
  exact List.length_eq_zero_iff.mp (by omega)

/-- The scanner cuts a text into longest segments. -/
theorem cuts_splitAfter
    (text : List Glyph)
    (read : ∀ glyph ∈ text, glyph.IsRead) :
    Cuts (splitAfter 0 text) text := by
  match text with
  | [] =>
      exact .nothing
  | first :: rest =>
      obtain ⟨tail, behind, whole, shape, cut⟩ := splitAfter_cons first rest
      have parts : first :: rest = (front first rest).glyphs ++ behind := by
        rw [shape, whole]
        rfl
      have later := cuts_splitAfter behind fun glyph member =>
        read glyph (parts ▸ List.mem_append_right _ member)
      rw [cut, parts]
      exact .more (front_isClassed read) (front_isLongest read parts) later
termination_by text.length
decreasing_by
  simp only [whole, List.length_cons, List.length_append]
  omega

/-- There is no other cut of a text into longest segments. -/
theorem Cuts.eq_splitAfter
    {segments : List Segment}
    {text : List Glyph}
    (cuts : Cuts segments text)
    (read : ∀ glyph ∈ text, glyph.IsRead) :
    segments = splitAfter 0 text := by
  induction cuts with
  | nothing =>
      rfl
  | @more segment segments rest classed longest _ inductionHypothesis =>
      obtain ⟨first, tail, shape⟩ :=
        List.exists_cons_of_ne_nil classed.glyphs_ne_nil
      rw [shape, List.cons_append] at read ⊢
      have begins : segment.glyphs <+: first :: (tail ++ rest) := by
        rw [shape]
        exact List.prefix_append _ _
      obtain ⟨⟨more, longer⟩, same⟩ := classed.within_front read begins
      obtain ⟨frontTail, behind, whole, frontShape, cut⟩ :=
        splitAfter_cons first (tail ++ rest)
      have inside : more <+: rest := by
        refine ⟨behind, ?_⟩
        rw [shape, frontShape, List.cons_append] at longer
        rw [← (List.cons.inj longer).2, List.append_assoc] at whole
        exact (List.append_cancel_left whole).symm
      have nothing := longest _ more (front_isClassed read) longer.symm inside
      rw [nothing, List.append_nil] at longer
      obtain rfl : tail = frontTail := by
        rw [shape, frontShape] at longer
        exact (List.cons.inj longer).2
      obtain rfl : rest = behind := List.append_cancel_left whole
      rw [cut, same longer, inductionHypothesis fun glyph member =>
        read glyph
          (List.mem_cons_of_mem _ (List.mem_append_right _ member))]

/-- The segments of a cut are the text, without gaps. -/
theorem Cuts.flatMap_glyphs
    {segments : List Segment}
    {text : List Glyph}
    (cuts : Cuts segments text) :
    segments.flatMap glyphs = text := by
  induction cuts with
  | nothing =>
      rfl
  | more _ _ _ inductionHypothesis =>
      rw [List.flatMap_cons, inductionHypothesis]

/-- Each segment of a cut is made as its class says and is the longest one at its
place. -/
theorem Cuts.here
    {before after : List Segment}
    {segment : Segment}
    {text : List Glyph}
    (cuts : Cuts (before ++ segment :: after) text) :
    segment.IsClassed ∧ segment.IsLongest (after.flatMap glyphs) := by
  induction before generalizing text with
  | nil =>
      cases cuts with
      | more classed longest later =>
          rw [later.flatMap_glyphs]
          exact ⟨classed, longest⟩
  | cons first before inductionHypothesis =>
      cases cuts with
      | more _ _ later =>
          exact inductionHypothesis later

/-- Glyphs are made as at most one class says. -/
theorem IsClassed.unique
    {segment other : Segment}
    (classed : segment.IsClassed)
    (otherClassed : other.IsClassed)
    (same : segment.glyphs = other.glyphs)
    (read : ∀ glyph ∈ segment.glyphs, glyph.IsRead) :
    segment = other := by
  obtain ⟨first, rest, shape⟩ :=
    List.exists_cons_of_ne_nil classed.glyphs_ne_nil
  rw [shape] at read
  obtain ⟨tail, frontShape, short⟩ := front_begins first rest
  have within :=
    classed.within_front read (shape ▸ List.prefix_rfl)
  have otherWithin :=
    otherClassed.within_front read (same ▸ shape ▸ List.prefix_rfl)
  have equal : segment.glyphs = (front first rest).glyphs := by
    refine within.1.eq_of_length_le ?_
    rw [frontShape, shape]
    simpa using short.length_le
  rw [within.2 equal, otherWithin.2 (same ▸ equal)]

end Segment

end Script
