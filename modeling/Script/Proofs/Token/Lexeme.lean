import Script.Proofs.Text.Decoding
import Script.Proofs.Token.Spelling
import Mathlib.Tactic.FinCases
import Mathlib.Tactic.IntervalCases

namespace Script

/-!
# The lexemes of the language

What a lexeme is, said without the scanner: marks spelled like their kinds,
numbers, strings and words.  Every segment at the front of a text belongs to the
class that it says it does.
-/

namespace TokenKind

/-- The kinds of marks.  A mark is spelled like the name of its kind. -/
def marks : List TokenKind :=
  [.leftParen, .rightParen, .leftBrace, .rightBrace, .comma, .dot, .minus,
   .plus, .semicolon, .slash, .star, .bang, .bangEqual, .equal, .equalEqual,
   .greater, .greaterEqual, .less, .lessEqual]

end TokenKind

namespace Decimal

/-- The decimal that digits and, behind a point, more digits spell. -/
def ofText (text : Text) : Decimal :=
  ofDigits
    (text.takeWhile (· != Text.byte '.'))
    ((text.dropWhile (· != Text.byte '.')).drop 1)

/-- A text without a point. -/
theorem ofText_whole
    {digits : Text}
    (noPoint : ∀ byte ∈ digits, (byte != Text.byte '.') = true) :
    ofText digits = ofDigits digits [] := by
  rw [ofText, List.takeWhile_eq_self_iff.mpr noPoint,
    List.dropWhile_eq_nil_iff.mpr noPoint]
  rfl

/-- A text with a point. -/
theorem ofText_fraction
    {whole : Text}
    (noPoint : ∀ byte ∈ whole, (byte != Text.byte '.') = true)
    (fraction : Text) :
    ofText (whole ++ Text.byte '.' :: fraction) = ofDigits whole fraction := by
  have stops : (Text.byte '.' != Text.byte '.') = false := by
    decide
  rw [ofText, List.takeWhile_append_of_pos noPoint,
    List.dropWhile_append_of_pos noPoint]
  simp only [List.takeWhile_cons, List.dropWhile_cons, stops,
    Bool.false_eq_true, if_false, List.append_nil, List.drop_succ_cons,
    List.drop_zero]

end Decimal

/-- The number that a lexeme denotes. -/
def Literal.ofNumeral (glyphs : List Glyph) : Literal :=
  .number (Decimal.ofText (Glyph.bytes glyphs)).toFloat

/-- The glyphs of lexemes, with the kinds and the literals of their tokens. -/
inductive Lexeme : TokenKind → Literal → List Glyph → Prop where
  | mark
      {kind : TokenKind}
      {glyphs : List Glyph}
      (isMark : kind ∈ TokenKind.marks)
      (spelled : glyphs.map Glyph.code = kind.name.toList.map Char.toNat) :
      Lexeme kind .nil glyphs
  | whole
      {digits : List Glyph}
      (someDigit : digits ≠ [])
      (isDigit : ∀ digit ∈ digits, digit.isDigit = true) :
      Lexeme .number (.ofNumeral digits) digits
  | fraction
      {before after : List Glyph}
      {point : Glyph}
      (someBefore : before ≠ [])
      (isDigitBefore : ∀ digit ∈ before, digit.isDigit = true)
      (isPoint : point.is '.' = true)
      (someAfter : after ≠ [])
      (isDigitAfter : ∀ digit ∈ after, digit.isDigit = true) :
      Lexeme .number (.ofNumeral (before ++ point :: after))
        (before ++ point :: after)
  | string
      {opening closing : Glyph}
      {inner : List Glyph}
      (opens : opening.is '"' = true)
      (noQuote : ∀ glyph ∈ inner, glyph.is '"' = false)
      (closes : closing.is '"' = true) :
      Lexeme .string (.text (Glyph.bytes inner))
        (opening :: inner ++ [closing])
  | keyword
      {first : Glyph}
      {rest : List Glyph}
      {word : Keyword}
      (starts : first.startsName = true)
      (continues : ∀ glyph ∈ rest, glyph.continuesName = true)
      (spelled : Glyph.bytes (first :: rest) = Text.utf8 word.spelling) :
      Lexeme (.keyword word) .nil (first :: rest)
  | name
      {first : Glyph}
      {rest : List Glyph}
      (starts : first.startsName = true)
      (continues : ∀ glyph ∈ rest, glyph.continuesName = true)
      (noKeyword :
        ∀ word : Keyword,
          Glyph.bytes (first :: rest) ≠ Text.utf8 word.spelling) :
      Lexeme .identifier .nil (first :: rest)

namespace Segment

/-- Segments that are made as their class says. -/
def IsClassed : Segment → Prop
  | .lexeme kind literal glyphs =>
      Lexeme kind literal glyphs
  | .blank glyph =>
      glyph.separates = true
  | .comment glyphs =>
      ∃ first second text,
        glyphs = first :: second :: text ∧
          first.is '/' = true ∧
          second.is '/' = true ∧
          ∀ glyph ∈ text, glyph.is '\n' = false
  | .stray glyph =>
      glyph.separates = false ∧
        ∀ kind literal rest, ¬ Lexeme kind literal (glyph :: rest)
  | .openString glyphs =>
      ∃ opening inner,
        glyphs = opening :: inner ∧
          opening.is '"' = true ∧
          ∀ glyph ∈ inner, glyph.is '"' = false

end Segment

namespace Glyph

theorem eq_of_ofNat
    {code : Nat}
    {character : Char}
    (same : Char.ofNat code = character)
    (notZero : character.toNat ≠ 0) :
    code = character.toNat := by
  subst same
  by_cases valid : code.isValidChar
  · rw [Char.ofNat, dif_pos valid]
    rfl
  · rw [Char.ofNat, dif_neg valid] at notZero
    exact absurd rfl notZero

/-- A mark that stands alone is a mark that is spelled with one glyph. -/
theorem spelled_of_mark?
    {glyph : Glyph}
    {kind : TokenKind}
    (found : glyph.mark? = some kind) :
    kind ∈ TokenKind.marks ∧
      [glyph].map code = kind.name.toList.map Char.toNat := by
  unfold mark? at found
  split at found <;> cases found
  all_goals
    rename_i same
    rw [List.map_singleton, eq_of_ofNat same (by decide)]
    decide

/-- A mark that may join is spelled with one glyph, and the pair with two. -/
theorem spelled_of_joining?
    {glyph : Glyph}
    {kinds : TokenKind × TokenKind}
    (found : glyph.joining? = some kinds) :
    (kinds.1 ∈ TokenKind.marks ∧ kinds.2 ∈ TokenKind.marks) ∧
      [glyph.code] = kinds.1.name.toList.map Char.toNat ∧
        [glyph.code, '='.toNat] = kinds.2.name.toList.map Char.toNat := by
  unfold joining? at found
  split at found <;> cases found
  all_goals
    rename_i same
    rw [eq_of_ofNat same (by decide)]
    decide

/-- The marks by their glyphs. -/
inductive FormsMark (kind : TokenKind) : List Glyph → Prop where
  | alone {glyph : Glyph} (found : glyph.mark? = some kind) :
      FormsMark kind [glyph]
  | slash {glyph : Glyph} (found : glyph.is '/' = true) (same : kind = .slash) :
      FormsMark kind [glyph]
  | apart
      {glyph : Glyph}
      {kinds : TokenKind × TokenKind}
      (found : glyph.joining? = some kinds)
      (same : kind = kinds.1) :
      FormsMark kind [glyph]
  | joined
      {glyph second : Glyph}
      {kinds : TokenKind × TokenKind}
      (found : glyph.joining? = some kinds)
      (equals : second.is '=' = true)
      (same : kind = kinds.2) :
      FormsMark kind [glyph, second]

theorem formsMark_of_spelled
    {kind : TokenKind}
    {glyphs : List Glyph}
    (isMark : kind ∈ TokenKind.marks)
    (spelled : glyphs.map Glyph.code = kind.name.toList.map Char.toNat) :
    FormsMark kind glyphs := by
  rcases glyphs with - | ⟨⟨first, raw⟩, - | ⟨⟨second, rawSecond⟩, - | ⟨_, _⟩⟩⟩
  · fin_cases isMark <;> cases spelled
  · fin_cases isMark <;> cases spelled <;>
      first
        | exact .alone rfl
        | exact .slash rfl rfl
        | exact .apart rfl rfl
  · fin_cases isMark <;> cases spelled <;> exact .joined rfl rfl rfl
  · fin_cases isMark <;> cases spelled

/-- The characters that begin marks, blanks, strings and numbers. -/
def nameless : List Char :=
  "()\x7b\x7d,.-+;*!=<>/ \r\t\n\"0123456789".toList

theorem code_ne_of_startsName
    {glyph : Glyph}
    {character : Char}
    (starts : glyph.startsName = true)
    (member : character ∈ nameless) :
    glyph.code ≠ character.toNat := by
  have never :
      nameless.all fun character =>
        !({ code := character.toNat, raw := [] } : Glyph).startsName := by
    decide +kernel
  intro same
  have noStart := List.all_eq_true.mp never character member
  rw [← same] at noStart
  exact absurd starts (by simpa [startsName, Glyph.is] using noStart)

/-- What begins a name begins nothing else. -/
theorem only_name_of_startsName
    {glyph : Glyph}
    (starts : glyph.startsName = true) :
    glyph.mark? = none ∧
      glyph.joining? = none ∧
        glyph.is '/' = false ∧
          glyph.separates = false ∧
            glyph.is '"' = false ∧ glyph.isDigit = false := by
  have differs (character : Char) (member : character ∈ nameless) :=
    code_ne_of_startsName starts member
  have isNot (character : Char) (member : character ∈ nameless) :
      glyph.is character = false :=
    beq_eq_false_iff_ne.mpr (differs character member)
  refine ⟨?_, ?_, isNot _ (by decide), ?_, isNot _ (by decide), ?_⟩
  · cases found : glyph.mark? with
    | none =>
        rfl
    | some kind =>
        unfold mark? at found
        split at found <;> cases found
        all_goals
          rename_i same
          exact (differs _ (by decide) (eq_of_ofNat same (by decide))).elim
  · cases found : glyph.joining? with
    | none =>
        rfl
    | some kinds =>
        unfold joining? at found
        split at found <;> cases found
        all_goals
          rename_i same
          exact (differs _ (by decide) (eq_of_ofNat same (by decide))).elim
  · simp [separates, isNot _ (show ' ' ∈ nameless by decide),
      isNot _ (show '\r' ∈ nameless by decide),
      isNot _ (show '\t' ∈ nameless by decide),
      isNot _ (show '\n' ∈ nameless by decide)]
  · by_contra isDigit
    simp only [Glyph.isDigit, Bool.and_eq_true, decide_eq_true_eq,
      Bool.not_eq_false] at isDigit
    obtain ⟨low, high⟩ := isDigit
    have digits :
        (List.range' 48 10).all fun code =>
          nameless.any (·.toNat == code) := by
      decide +kernel
    have listed :=
      List.all_eq_true.mp digits glyph.code (by
        rw [List.mem_range'_1]
        omega)
    obtain ⟨character, member, same⟩ := List.any_eq_true.mp listed
    exact differs character member (eq_of_beq same).symm

end Glyph

namespace Segment

section Front

variable {first : Glyph} {rest : List Glyph}

theorem front_of_mark?
    {kind : TokenKind}
    (found : first.mark? = some kind) :
    front first rest = .lexeme kind .nil [first] := by
  simp only [front, found]

theorem front_of_joining?
    {kinds : TokenKind × TokenKind}
    (found : first.joining? = some kinds) :
    front first rest = joined kinds first rest := by
  rcases first with ⟨code, raw⟩
  unfold Glyph.joining? at found
  split at found <;> cases found
  all_goals
    rename_i same
    obtain rfl := Glyph.eq_of_ofNat same (by decide)
    rfl

theorem front_of_slash (isSlash : first.is '/' = true) :
    front first rest = slash first rest := by
  rcases first with ⟨code, raw⟩
  obtain rfl : code = 47 := eq_of_beq isSlash
  rfl

theorem front_of_separates (separates : first.separates = true) :
    front first rest = .blank first := by
  rcases first with ⟨code, raw⟩
  simp only [Glyph.separates, Glyph.is, Bool.or_eq_true, beq_iff_eq]
    at separates
  rcases separates with ((rfl | rfl) | rfl) | rfl <;> rfl

theorem front_of_quote (isQuote : first.is '"' = true) :
    front first rest = string first rest := by
  rcases first with ⟨code, raw⟩
  obtain rfl : code = 34 := eq_of_beq isQuote
  rfl

theorem front_of_isDigit (isDigit : first.isDigit = true) :
    front first rest = number first rest := by
  rcases first with ⟨code, raw⟩
  simp only [Glyph.isDigit, Bool.and_eq_true, decide_eq_true_eq] at isDigit
  obtain ⟨low, high⟩ := isDigit
  interval_cases code <;> rfl

theorem front_of_startsName (starts : first.startsName = true) :
    front first rest = word first rest := by
  obtain ⟨noMark, noJoining, noSlash, noBlank, noQuote, noDigit⟩ :=
    Glyph.only_name_of_startsName starts
  simp [front, noMark, noJoining, noSlash, noBlank, noQuote, noDigit, starts]

end Front

/-! The literal of a number is the one that its text denotes. -/

/-- A digit with the digits that follow it. -/
theorem isDigit_run
    {first : Glyph}
    (rest : List Glyph)
    (isDigit : first.isDigit = true) :
    ∀ glyph ∈ first :: rest.takeWhile Glyph.isDigit, glyph.isDigit = true := by
  intro glyph member
  rcases List.mem_cons.mp member with rfl | inside
  · exact isDigit
  · exact List.mem_takeWhile_imp inside

theorem byte_of_isDigit
    {digit : Glyph}
    (read : digit.IsRead)
    (isDigit : digit.isDigit = true) :
    ∀ byte ∈ digit.raw, (byte != Text.byte '.') = true := by
  simp only [Glyph.isDigit, Bool.and_eq_true, decide_eq_true_eq] at isDigit
  have notPoint : (Text.byte '.').toNat < 48 := by
    decide
  intro byte member
  rw [read.plain (by omega), List.mem_singleton] at member
  rw [member, bne_iff_ne, ne_eq, ← UInt8.toNat_inj, UInt8.toNat_ofNat',
    Nat.mod_eq_of_lt (by omega)]
  omega

theorem bytes_of_isDigit
    {digits : List Glyph}
    (read : ∀ digit ∈ digits, digit.IsRead)
    (isDigit : ∀ digit ∈ digits, digit.isDigit = true) :
    ∀ byte ∈ Glyph.bytes digits, (byte != Text.byte '.') = true := by
  intro byte member
  obtain ⟨digit, digitMember, inside⟩ := List.mem_flatMap.mp member
  exact byte_of_isDigit (read digit digitMember) (isDigit digit digitMember)
    byte inside

theorem bytes_of_isPoint
    {point : Glyph}
    (read : point.IsRead)
    (isPoint : point.is '.' = true) :
    point.raw = [Text.byte '.'] := by
  rcases point with ⟨code, raw⟩
  obtain rfl : code = 46 := eq_of_beq isPoint
  exact read.plain (show 46 < 0x80 by decide)

/-- A number without a point. -/
theorem ofText_whole
    {digits : List Glyph}
    (read : ∀ digit ∈ digits, digit.IsRead)
    (isDigit : ∀ digit ∈ digits, digit.isDigit = true) :
    Decimal.ofText (Glyph.bytes digits) =
      Decimal.ofDigits (Glyph.bytes digits) [] :=
  Decimal.ofText_whole (bytes_of_isDigit read isDigit)

/-- A number with a point. -/
theorem ofText_fraction
    {before after : List Glyph}
    {point : Glyph}
    (readBefore : ∀ digit ∈ before, digit.IsRead)
    (isDigitBefore : ∀ digit ∈ before, digit.isDigit = true)
    (readPoint : point.IsRead)
    (isPoint : point.is '.' = true) :
    Decimal.ofText (Glyph.bytes (before ++ point :: after)) =
      Decimal.ofDigits (Glyph.bytes before) (Glyph.bytes after) := by
  have text :
      Glyph.bytes (before ++ point :: after) =
        Glyph.bytes before ++ Text.byte '.' :: Glyph.bytes after := by
    simp [Glyph.bytes, bytes_of_isPoint readPoint isPoint]
  rw [text]
  exact Decimal.ofText_fraction (bytes_of_isDigit readBefore isDigitBefore) _

/-- What is read at a point and a digit. -/
theorem fraction_cases (after : List Glyph) :
    fraction after = [] ∨
      ∃ point digit behind,
        after = point :: digit :: behind ∧
          point.is '.' = true ∧
          digit.isDigit = true ∧
          fraction after = digit :: behind.takeWhile Glyph.isDigit := by
  match after with
  | [] | [_] =>
      exact .inl rfl
  | point :: digit :: behind =>
      by_cases both : (point.is '.' && digit.isDigit) = true
      · right
        have parts := Bool.and_eq_true_iff.mp both
        exact ⟨point, digit, behind, rfl, parts.1, parts.2,
          by simp only [fraction, both, if_true]⟩
      · left
        simp only [fraction, both]
        rfl

/-- A number has the literal that its text denotes, whether it has a point or
not. -/
theorem number_cases
    {first : Glyph}
    {rest : List Glyph}
    (read : ∀ glyph ∈ first :: rest, glyph.IsRead)
    (isDigit : first.isDigit = true) :
    (fraction (rest.dropWhile Glyph.isDigit) = [] ∧
        ∃ digits,
          digits = first :: rest.takeWhile Glyph.isDigit ∧
            number first rest = .lexeme .number (.ofNumeral digits) digits) ∨
      ∃ point digit behind glyphs,
        rest.dropWhile Glyph.isDigit = point :: digit :: behind ∧
          point.is '.' = true ∧
          digit.isDigit = true ∧
          glyphs =
            first :: rest.takeWhile Glyph.isDigit ++
              point :: digit :: behind.takeWhile Glyph.isDigit ∧
          number first rest = .lexeme .number (.ofNumeral glyphs) glyphs := by
  have readRest : ∀ glyph ∈ rest, glyph.IsRead :=
    fun glyph member => read glyph (List.mem_cons_of_mem _ member)
  have readWhole :
      ∀ glyph ∈ first :: rest.takeWhile Glyph.isDigit, glyph.IsRead := by
    intro glyph member
    rcases List.mem_cons.mp member with rfl | inside
    · exact read _ List.mem_cons_self
    · exact readRest glyph ((List.takeWhile_prefix _).subset inside)
  have isDigitWhole := isDigit_run rest isDigit
  rcases fraction_cases (rest.dropWhile Glyph.isDigit) with
    none | ⟨point, digit, behind, shape, isPoint, isDigitAfter, digits⟩
  · refine .inl ⟨none, _, rfl, ?_⟩
    rw [Literal.ofNumeral, ofText_whole readWhole isDigitWhole]
    simp [number, none, Glyph.bytes]
  · refine .inr ⟨point, digit, behind, _, shape, isPoint, isDigitAfter, rfl, ?_⟩
    have readPoint : point.IsRead := by
      refine readRest point ((List.dropWhile_suffix Glyph.isDigit).subset ?_)
      rw [shape]
      exact List.mem_cons_self
    rw [Literal.ofNumeral,
      ofText_fraction readWhole isDigitWhole readPoint isPoint]
    rw [shape] at digits
    simp [number, digits, shape]

/-- A glyph that begins nothing is not the first one of a lexeme. -/
theorem not_lexeme_of_beginsNothing
    {first : Glyph}
    (noMark : first.mark? = none)
    (noJoining : first.joining? = none)
    (noSlash : first.is '/' = false)
    (noQuote : first.is '"' = false)
    (noDigit : first.isDigit = false)
    (noName : first.startsName = false)
    (kind : TokenKind)
    (literal : Literal)
    (rest : List Glyph) :
    ¬ Lexeme kind literal (first :: rest) := by
  generalize shape : first :: rest = glyphs
  intro lexeme
  cases lexeme with
  | mark isMark spelled =>
      cases Glyph.formsMark_of_spelled isMark spelled with
      | alone found =>
          cases shape
          rw [noMark] at found
          cases found
      | slash found =>
          cases shape
          rw [noSlash] at found
          cases found
      | apart found | joined found =>
          cases shape
          rw [noJoining] at found
          cases found
  | whole someDigit isDigit =>
      have digit := isDigit first (shape ▸ List.mem_cons_self)
      rw [noDigit] at digit
      cases digit
  | @fraction before after point someBefore isDigit =>
      obtain ⟨digit, others, rfl⟩ := List.exists_cons_of_ne_nil someBefore
      have digit := isDigit digit List.mem_cons_self
      cases shape
      rw [noDigit] at digit
      cases digit
  | string opens =>
      cases shape
      rw [noQuote] at opens
      cases opens
  | keyword starts | name starts =>
      cases shape
      rw [noName] at starts
      cases starts

section Front

variable {first : Glyph} {rest : List Glyph}

theorem joined_isClassed
    {kinds : TokenKind × TokenKind}
    (found : first.joining? = some kinds) :
    (joined kinds first rest).IsClassed := by
  obtain ⟨⟨isMark, isPair⟩, alone, pair⟩ := Glyph.spelled_of_joining? found
  unfold joined
  split
  · rename_i second behind
    split
    · rename_i equals
      refine .mark isPair ?_
      rw [← pair, ← eq_of_beq equals]
      rfl
    · exact .mark isMark alone
  · exact .mark isMark alone

theorem slash_isClassed (isSlash : first.is '/' = true) :
    (slash first rest).IsClassed := by
  have alone : Lexeme .slash .nil [first] := by
    refine .mark (by decide) ?_
    rw [List.map_singleton, eq_of_beq isSlash]
    decide
  unfold slash
  split
  · rename_i second behind
    split
    · rename_i isSecond
      refine ⟨first, second, _, rfl, isSlash, isSecond, fun glyph member => ?_⟩
      simpa using List.mem_takeWhile_imp member
    · exact alone
  · exact alone

theorem string_isClassed (isQuote : first.is '"' = true) :
    (string first rest).IsClassed := by
  have noQuote :
      ∀ glyph ∈ rest.takeWhile (!·.is '"'), glyph.is '"' = false := by
    intro glyph member
    simpa using List.mem_takeWhile_imp member
  unfold string
  dsimp only
  split
  · rename_i closing behind shape
    have stopped := List.head?_dropWhile_not (!Glyph.is · '"') rest
    rw [shape] at stopped
    exact .string isQuote noQuote (by simpa using stopped)
  · exact ⟨first, _, rfl, isQuote, noQuote⟩

theorem number_isClassed
    (read : ∀ glyph ∈ first :: rest, glyph.IsRead)
    (isDigit : first.isDigit = true) :
    (number first rest).IsClassed := by
  have isDigitWhole := isDigit_run rest isDigit
  rcases number_cases read isDigit with
    ⟨-, digits, rfl, same⟩ |
      ⟨point, digit, behind, glyphs, -, isPoint, isDigitAfter, rfl, same⟩
  · rw [same]
    exact .whole (by simp) isDigitWhole
  · rw [same]
    exact .fraction (by simp) isDigitWhole isPoint (by simp)
      (isDigit_run behind isDigitAfter)

theorem word_isClassed (starts : first.startsName = true) :
    (word first rest).IsClassed := by
  have continues :
      ∀ glyph ∈ rest.takeWhile Glyph.continuesName,
        glyph.continuesName = true :=
    fun glyph member => List.mem_takeWhile_imp member
  unfold word
  dsimp only
  split
  · rename_i keyword found
    exact .keyword starts continues (Keyword.eq_spelling_of_ofText? found)
  · rename_i found
    refine .name starts continues fun word spelled => ?_
    have never := List.find?_eq_none.mp found word (by cases word <;> decide)
    exact never (beq_iff_eq.mpr spelled.symm)

/-- The segment at the front of a text is what its class says. -/
theorem front_isClassed
    (read : ∀ glyph ∈ first :: rest, glyph.IsRead) :
    (front first rest).IsClassed := by
  unfold front
  split
  · rename_i kind _ found
    obtain ⟨isMark, spelled⟩ := Glyph.spelled_of_mark? found
    exact .mark isMark spelled
  · rename_i kinds _ found
    exact joined_isClassed found
  · rename_i noMark noJoining
    split
    · rename_i isSlash
      exact slash_isClassed isSlash
    · rename_i noSlash
      split
      · rename_i separates
        exact separates
      · rename_i noBlank
        split
        · rename_i isQuote
          exact string_isClassed isQuote
        · rename_i noQuote
          split
          · rename_i isDigit
            exact number_isClassed read isDigit
          · rename_i noDigit
            split
            · rename_i starts
              exact word_isClassed starts
            · rename_i noName
              exact ⟨Bool.not_eq_true _ ▸ noBlank,
                not_lexeme_of_beginsNothing noMark noJoining
                  (Bool.not_eq_true _ ▸ noSlash)
                  (Bool.not_eq_true _ ▸ noQuote)
                  (Bool.not_eq_true _ ▸ noDigit)
                  (Bool.not_eq_true _ ▸ noName)⟩

end Front

end Segment

end Script
