import Script.Proofs.Printing.Tree
import Script.Proofs.Token.Respaced

namespace Script

/-!
# The words of a program

The tokens of a source text are lexemes.  Their names and operators are words of
a printed tree, their numbers are not negative, and a mark or a keyword is known
from its kind.
-/

open SExpression.Shape

/-- The token of a mark or a keyword, on no line. -/
def TokenKind.token (kind : TokenKind) : Token where
  kind := kind
  lexeme := Text.utf8 kind.name
  literal := .nil
  line := 0

/-- A token is a lexeme of the language. -/
def Token.IsLexeme (token : Token) : Prop :=
  ∃ glyphs,
    Lexeme token.kind token.literal glyphs ∧
      (∀ glyph ∈ glyphs, glyph.IsRead) ∧
      token.lexeme = Glyph.bytes glyphs

/-- The tokens of a text are lexemes, up to the end of the input. -/
theorem Scan.isLexeme_of_mem_tokens
    {source : Text}
    {token : Token}
    (member : token ∈ (Scan.ofSource source).tokens)
    (notEnd : token.kind ≠ .endOfInput) :
    token.IsLexeme := by
  rcases cases_of_mem_tokens member with
    ⟨isEnd, -⟩ | ⟨-, segment, reread, lexeme, shape⟩
  · exact (notEnd isEnd).elim
  · have isClassed := reread.isClassed
    rw [shape] at isClassed
    exact ⟨segment.glyphs, isClassed, reread.isRead, lexeme⟩

/-! Names. -/

theorem isPlain_of_read
    {glyph : Glyph}
    (read : glyph.IsRead)
    (apart : ∀ character ∈ delimiters, glyph.code ≠ character.toNat) :
    ∀ byte ∈ glyph.raw, isPlain byte = true := by
  have narrow :
      delimiters.all fun delimiter =>
        (Text.byte delimiter).toNat == delimiter.toNat &&
          decide (delimiter.toNat < 0x80) := by
    decide
  intro byte member
  refine List.all_eq_true.mpr fun delimiter isDelimiter => bne_iff_ne.mpr ?_
  rintro rfl
  have value := List.all_eq_true.mp narrow delimiter isDelimiter
  simp only [Bool.and_eq_true, beq_iff_eq, decide_eq_true_eq] at value
  by_cases small : glyph.code < 0x80
  · rw [read.plain small, List.mem_singleton] at member
    rw [member, UInt8.toNat_ofNat', Nat.mod_eq_of_lt (by omega)] at value
    exact apart delimiter isDelimiter value.1
  · have wide := UInt8.le_iff_toNat_le.mp (read.wide (by omega) _ member)
    simp only [UInt8.reduceToNat] at wide
    omega

theorem isPlain_of_continuesName
    {glyph : Glyph}
    (read : glyph.IsRead)
    (continues : glyph.continuesName = true) :
    ∀ byte ∈ glyph.raw, isPlain byte = true := by
  refine isPlain_of_read read fun character isDelimiter => ?_
  rcases Bool.or_eq_true_iff.mp continues with starts | isDigit
  · have nameless :
        delimiters.all fun character => character ∈ Glyph.nameless := by
      decide
    exact Glyph.code_ne_of_startsName starts
      (of_decide_eq_true (List.all_eq_true.mp nameless character isDelimiter))
  · have noDigit : delimiters.all fun character => character.toNat < 48 := by
      decide
    have below :=
      of_decide_eq_true (List.all_eq_true.mp noDigit character isDelimiter)
    simp only [Glyph.isDigit, Bool.and_eq_true, decide_eq_true_eq] at isDigit
    omega

/-- The first byte of a name is neither a digit nor a sign. -/
theorem first_of_startsName
    {glyph : Glyph}
    {byte : UInt8}
    {rest : Text}
    (read : glyph.IsRead)
    (starts : glyph.startsName = true)
    (split : glyph.raw = byte :: rest) :
    ¬ Decimal.IsDigit byte ∧ byte ≠ Text.byte '+' := by
  have member : byte ∈ glyph.raw := by
    rw [split]
    exact List.mem_cons_self
  by_cases small : glyph.code < 0x80
  · rw [read.plain small, List.mem_singleton] at member
    have value : byte.toNat = glyph.code := by
      rw [member, UInt8.toNat_ofNat', Nat.mod_eq_of_lt (by omega)]
    have noDigit := (Glyph.only_name_of_startsName starts).2.2.2.2.2
    simp only [Glyph.isDigit, Bool.and_eq_false_iff, decide_eq_false_iff_not]
      at noDigit
    refine ⟨fun isDigit => ?_, ?_⟩
    · unfold Decimal.IsDigit at isDigit
      omega
    · rintro rfl
      exact Glyph.code_ne_of_startsName starts
        (show '+' ∈ Glyph.nameless by decide) value.symm
  · have wide := UInt8.le_iff_toNat_le.mp (read.wide (by omega) byte member)
    simp only [UInt8.reduceToNat] at wide
    refine ⟨fun isDigit => ?_, ?_⟩
    · unfold Decimal.IsDigit at isDigit
      omega
    · rintro rfl
      exact absurd wide (by decide)

/-- A name is a word. -/
theorem isWord_of_name
    {first : Glyph}
    {rest : List Glyph}
    (read : ∀ glyph ∈ first :: rest, glyph.IsRead)
    (starts : first.startsName = true)
    (continues : ∀ glyph ∈ rest, glyph.continuesName = true) :
    IsWord (Glyph.bytes (first :: rest)) := by
  have readFirst := read first List.mem_cons_self
  obtain ⟨byte, others, split⟩ :=
    List.exists_cons_of_ne_nil readFirst.someByte
  have apart := first_of_startsName readFirst starts split
  have text :
      Glyph.bytes (first :: rest) = byte :: (others ++ Glyph.bytes rest) := by
    rw [Glyph.bytes, List.flatMap_cons, split]
    rfl
  refine ⟨fun member inside => ?_, ⟨byte, _, text, apart.1⟩, ?_⟩
  · obtain ⟨glyph, isGlyph, inGlyph⟩ := List.mem_flatMap.mp inside
    refine isPlain_of_continuesName (read glyph isGlyph) ?_ member inGlyph
    rcases List.mem_cons.mp isGlyph with rfl | later
    · exact Bool.or_eq_true_iff.mpr (.inl starts)
    · exact continues glyph later
  · rw [text]
    intro infinite
    exact apart.2 (List.cons.inj infinite).1

/-! The tokens of names, marks, keywords and literals. -/

variable {token : Token}

/-- A name is a word and no keyword, and nothing but its lexeme and its line is
in its token. -/
theorem Token.IsLexeme.name
    (isLexeme : token.IsLexeme)
    (kind : token.kind = .identifier) :
    IsWord token.lexeme ∧
      (∀ word : Keyword, token.lexeme ≠ Text.utf8 word.spelling) ∧
      token.unlined = .nameAt token.lexeme 0 := by
  obtain ⟨glyphs, lexeme, read, text⟩ := isLexeme
  rcases token with ⟨tokenKind, tokenLexeme, literal, line⟩
  dsimp only at kind lexeme text
  subst kind text
  cases lexeme with
  | mark isMark =>
      exact absurd isMark (by decide)
  | name starts continues noKeyword =>
      exact ⟨isWord_of_name read starts continues, noKeyword, rfl⟩

/-- Glyphs of ASCII characters have the bytes of the characters. -/
theorem bytes_of_codes
    {glyphs : List Glyph}
    {characters : List Char}
    (read : ∀ glyph ∈ glyphs, glyph.IsRead)
    (codes : glyphs.map Glyph.code = characters.map Char.toNat)
    (narrow : ∀ character ∈ characters, character.toNat < 0x80) :
    Glyph.bytes glyphs = characters.flatMap String.utf8EncodeChar := by
  induction glyphs generalizing characters with
  | nil =>
      obtain rfl : characters = [] := by simpa using codes.symm
      rfl
  | cons glyph glyphs inductionHypothesis =>
      cases characters with
      | nil =>
          cases codes
      | cons character characters =>
          obtain ⟨code, later⟩ := List.cons.inj codes
          have small := narrow character List.mem_cons_self
          have raw : glyph.raw = String.utf8EncodeChar character := by
            have encoded := Glyph.encode_of_lt small
            rw [Glyph.encode, Char.ofNat_toNat] at encoded
            rw [encoded, (read glyph List.mem_cons_self).plain (code ▸ small),
              code]
          have rest :=
            inductionHypothesis
              (fun glyph member => read glyph (List.mem_cons_of_mem _ member))
              later
              (fun character member =>
                narrow character (List.mem_cons_of_mem _ member))
          rw [Glyph.bytes] at rest ⊢
          rw [List.flatMap_cons, List.flatMap_cons, raw, rest]

/-- A mark or a keyword is known from its kind. -/
theorem Token.IsLexeme.fixed
    {kind : TokenKind}
    (isLexeme : token.IsLexeme)
    (ofKind : token.kind = kind)
    (known : kind ∈ TokenKind.marks ∨ ∃ word, kind = .keyword word) :
    token.unlined = kind.token := by
  obtain ⟨glyphs, lexeme, read, text⟩ := isLexeme
  rcases token with ⟨tokenKind, tokenLexeme, literal, line⟩
  dsimp only at ofKind lexeme text
  subst ofKind text
  cases lexeme with
  | mark isMark spelled =>
      have narrow :
          ∀ kind ∈ TokenKind.marks,
            kind.name.toList.all fun character => character.toNat < 0x80 := by
        decide
      have below := List.all_eq_true.mp (narrow _ isMark)
      simp only [Token.unlined, TokenKind.token, Text.utf8,
        bytes_of_codes read spelled fun character member =>
          of_decide_eq_true (below character member)]
  | keyword _ _ spelled =>
      simp only [Token.unlined, TokenKind.token, spelled, TokenKind.name]
  | whole | fraction | string | name =>
      rcases known with isMark | ⟨word, isKeyword⟩
      · exact absurd isMark (by decide)
      · cases isKeyword

/-- The literal of a number is not negative. -/
theorem Token.IsLexeme.number
    (isLexeme : token.IsLexeme)
    (kind : token.kind = .number) :
    ∃ value : Float,
      token.literal = .number value ∧
        value.toBits.toNat ≤ Double.infiniteBits := by
  obtain ⟨glyphs, lexeme, -, -⟩ := isLexeme
  have numeral (decimal : Decimal) :
      decimal.toFloat.toBits.toNat ≤ Double.infiniteBits :=
    decimal.toBits_toFloat ▸ decimal.nearestBits_le
  rw [kind] at lexeme
  generalize token.literal = literal at lexeme
  cases lexeme with
  | mark isMark =>
      exact absurd isMark (by decide)
  | whole | fraction =>
      exact ⟨_, rfl, numeral _⟩

/-- The literal of a string is a text. -/
theorem Token.IsLexeme.string
    (isLexeme : token.IsLexeme)
    (kind : token.kind = .string) :
    ∃ text, token.literal = .text text := by
  obtain ⟨glyphs, lexeme, -, -⟩ := isLexeme
  rw [kind] at lexeme
  generalize token.literal = literal at lexeme
  cases lexeme with
  | mark isMark =>
      exact absurd isMark (by decide)
  | string =>
      exact ⟨_, rfl⟩

end Script
