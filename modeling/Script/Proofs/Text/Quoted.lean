import Mathlib
import Script.Proofs.Text.Encoding
import Script.Text.Quoted

namespace Script

/-!
# Reading quoted texts

A quoted text is read piece by piece, each piece the form of one glyph.  The
forms say where they end, so a quoted text shows where it ends and which text it
is, whatever stands behind it.
-/

namespace Quoted

/-! Numbers with hexadecimal digits. -/

/-- The value of a hexadecimal digit in lower case. -/
def digitValue (digit : UInt8) : Nat :=
  if digit.toNat < 58 then
    digit.toNat - 48
  else
    digit.toNat - 87

/-- The value of hexadecimal digits. -/
def hexValue (digits : Text) : Nat :=
  digits.foldl (fun value digit => value * 16 + digitValue digit) 0

theorem digitValue_digitChar
    {number : Nat}
    (small : number < 16) :
    digitValue (Text.byte (Nat.digitChar number)) = number := by
  revert number
  decide

theorem length_hexadecimal
    (width number : Nat) :
    (Text.hexadecimal width number).length = width := by
  induction width generalizing number with
  | zero =>
      rfl
  | succ width inductionHypothesis =>
      rw [Text.hexadecimal, List.length_append, inductionHypothesis,
        List.length_singleton]

theorem hexValue_hexadecimal
    (width number : Nat) :
    hexValue (Text.hexadecimal width number) = number % 16 ^ width := by
  induction width generalizing number with
  | zero =>
      rw [Nat.pow_zero, Nat.mod_one]
      rfl
  | succ width inductionHypothesis =>
      have shorter := inductionHypothesis (number / 16)
      unfold hexValue at shorter ⊢
      rw [Text.hexadecimal, List.foldl_append, shorter, List.foldl_cons,
        List.foldl_nil, digitValue_digitChar (Nat.mod_lt _ (by decide)),
        Nat.pow_succ, Nat.mul_comm (16 ^ width), Nat.mod_mul]
      omega

theorem hexValue_take
    (width number : Nat)
    (rest : Text) :
    hexValue ((Text.hexadecimal width number ++ rest).take width) =
      number % 16 ^ width := by
  rw [List.take_left' (length_hexadecimal width number), hexValue_hexadecimal]

theorem drop_hexadecimal
    (width number : Nat)
    (rest : Text) :
    (Text.hexadecimal width number ++ rest).drop width = rest :=
  List.drop_left' (length_hexadecimal width number)

/-! The pieces of a quoted text. -/

/-- The byte that a letter after a backslash stands for; any other byte there
stands for itself. -/
def letterByte (letter : UInt8) : UInt8 :=
  let isLetterOf := fun code =>
    (escapeLetter? code).map Text.byte == some letter
  match (List.range 14).find? isLetterOf with
  | some code =>
      code.toUInt8
  | none =>
      letter

/-- What a piece behind a backslash stands for, and the rest behind it. -/
def escaped
    (kind : UInt8)
    (rest : Text) :
    Text × Text :=
  if kind = Text.byte 'x' then
    ([(hexValue (rest.take 2)).toUInt8], rest.drop 2)
  else if kind = Text.byte 'u' then
    (Glyph.encode (hexValue (rest.take 4)), rest.drop 4)
  else if kind = Text.byte 'U' then
    (Glyph.encode (hexValue (rest.take 8)), rest.drop 8)
  else
    ([letterByte kind], rest)

/-- What the piece at the front of a quoted text stands for, and the rest behind
it; there is none at the closing mark. -/
def piece? : Text → Option (Text × Text)
  | [] =>
      none
  | first :: rest =>
      if first = Text.byte '"' then
        none
      else if first = Text.byte '\\' then
        match rest with
        | [] =>
            none
        | kind :: rest =>
            some (escaped kind rest)
      else
        let glyph := Glyph.first first rest
        some (glyph.raw, rest.drop (glyph.raw.length - 1))

theorem piece?_escaped
    (kind : UInt8)
    (rest : Text) :
    piece? (Text.byte '\\' :: kind :: rest) = some (escaped kind rest) :=
  rfl

theorem piece?_plain
    {first : UInt8}
    (notMark : first ≠ Text.byte '"')
    (notBackslash : first ≠ Text.byte '\\')
    (rest : Text) :
    piece? (first :: rest) =
      some
        ((Glyph.first first rest).raw,
          rest.drop ((Glyph.first first rest).raw.length - 1)) := by
  simp only [piece?, if_neg notMark, if_neg notBackslash]

theorem piece?_letter
    {code : Nat}
    {letter : Char}
    (found : escapeLetter? code = some letter)
    (rest : Text) :
    piece? (Text.byte '\\' :: Text.byte letter :: rest) =
      some ([code.toUInt8], rest) := by
  unfold escapeLetter? at found
  split at found
  all_goals cases found
  all_goals rfl

/-- A byte by its number is read as itself. -/
theorem piece?_byte
    (number : Nat)
    (rest : Text) :
    piece?
        (Text.byte '\\' :: Text.byte 'x' ::
          (Text.hexadecimal 2 number ++ rest)) =
      some ([(number % 16 ^ 2).toUInt8], rest) := by
  rw [piece?_escaped, escaped, if_pos rfl, hexValue_take, drop_hexadecimal]

/-- A code point by its number is read as its bytes. -/
theorem piece?_numbered
    {code : Nat}
    (valid : code.isValidChar)
    (rest : Text) :
    piece? (numbered code ++ rest) = some (Glyph.encode code, rest) := by
  have small : code < 0x110000 := by
    unfold Nat.isValidChar at valid
    omega
  unfold numbered
  split
  · rename_i control
    have below : code < 0x80 := by
      simp only [Bool.or_eq_true, decide_eq_true_eq, beq_iff_eq] at control
      omega
    refine (piece?_byte code rest).trans ?_
    rw [Nat.mod_eq_of_lt (by omega), Glyph.encode_of_lt below]
  · split
    · show piece? (Text.byte '\\' :: Text.byte 'u' ::
        (Text.hexadecimal 4 code ++ rest)) = _
      rw [piece?_escaped, escaped, if_neg (by decide), if_pos rfl,
        hexValue_take, drop_hexadecimal, Nat.mod_eq_of_lt (by omega)]
    · show piece? (Text.byte '\\' :: Text.byte 'U' ::
        (Text.hexadecimal 8 code ++ rest)) = _
      rw [piece?_escaped, escaped, if_neg (by decide), if_neg (by decide),
        if_pos rfl, hexValue_take, drop_hexadecimal,
        Nat.mod_eq_of_lt (by omega)]

/-- The form of a character is read as its bytes. -/
theorem piece?_character
    {glyph : Glyph}
    (isCharacter : glyph.IsCharacter)
    (rest : Text) :
    piece? (character '"' glyph.code ++ rest) = some (glyph.raw, rest) := by
  obtain ⟨valid, encoded, head, others, shape, again⟩ := isCharacter
  unfold character
  split
  · rename_i special
    rw [← encoded]
    simp only [Bool.or_eq_true, beq_iff_eq] at special
    rcases special with mark | backslash
    · rw [mark]
      rfl
    · rw [backslash]
      rfl
  · rename_i notSpecial
    split
    · have notHead (code : UInt8) (below : code < 0x80) :
          glyph.code ≠ code.toNat → head ≠ code := by
        rintro different rfl
        have same := again []
        rw [Glyph.first, if_pos below] at same
        exact different (congrArg Glyph.code same.symm)
      simp only [Bool.or_eq_true, beq_iff_eq, not_or] at notSpecial
      have notMark := notHead (Text.byte '"') (by decide) notSpecial.1
      have notBackslash := notHead (Text.byte '\\') (by decide) notSpecial.2
      rw [encoded, shape, List.cons_append,
        piece?_plain notMark notBackslash, again, shape]
      simp
    · split
      · rename_i letter found
        have below : glyph.code < 0x80 := by
          unfold escapeLetter? at found
          split at found
          all_goals first | omega | cases found
        rw [← encoded, Glyph.encode_of_lt below]
        exact piece?_letter found rest
      · rw [← encoded]
        exact piece?_numbered valid rest

/-- The form of a glyph is read as the bytes of the glyph. -/
theorem piece?_glyph
    (lead : UInt8)
    (tail rest : Text) :
    piece? (glyph (Glyph.first lead tail) ++ rest) =
      some ((Glyph.first lead tail).raw, rest) := by
  rcases Glyph.cases_first lead tail with
    ⟨isCharacter, isValid⟩ | ⟨isInvalid, raw⟩
  · rw [glyph, if_neg (by simp [isValid])]
    exact piece?_character isCharacter rest
  · rw [glyph, if_pos isInvalid, raw]
    refine (piece?_byte lead.toNat rest).trans ?_
    simp

/-- Forms in a row, up to the closing mark, show the bytes of their glyphs. -/
theorem glyphs_append_inj
    {first second : List Glyph}
    {after other : Text}
    (reads :
      ∀ shown ∈ first, ∀ rest, piece? (glyph shown ++ rest) =
        some (shown.raw, rest))
    (otherReads :
      ∀ shown ∈ second, ∀ rest, piece? (glyph shown ++ rest) =
        some (shown.raw, rest))
    (same :
      first.flatMap glyph ++ Text.byte '"' :: after =
        second.flatMap glyph ++ Text.byte '"' :: other) :
    Glyph.bytes first = Glyph.bytes second ∧ after = other := by
  have closed (rest : Text) : piece? (Text.byte '"' :: rest) = none := rfl
  induction first generalizing second with
  | nil =>
      cases second with
      | nil =>
          exact ⟨rfl, (List.cons.inj same).2⟩
      | cons shown second =>
          have pieces := congrArg piece? same
          rw [List.flatMap_nil, List.nil_append, closed, List.flatMap_cons,
            List.append_assoc, otherReads shown List.mem_cons_self] at pieces
          cases pieces
  | cons shown first inductionHypothesis =>
      have pieces := congrArg piece? same
      rw [List.flatMap_cons, List.append_assoc,
        reads shown List.mem_cons_self] at pieces
      cases second with
      | nil =>
          cases pieces
      | cons otherShown second =>
          rw [List.flatMap_cons, List.append_assoc,
            otherReads otherShown List.mem_cons_self] at pieces
          obtain ⟨raw, rest⟩ := Prod.mk.inj (Option.some.inj pieces)
          obtain ⟨bytes, behind⟩ :=
            inductionHypothesis
              (fun glyph member => reads glyph (List.mem_cons_of_mem _ member))
              (fun glyph member =>
                otherReads glyph (List.mem_cons_of_mem _ member))
              rest
          refine ⟨?_, behind⟩
          rw [Glyph.bytes, List.flatMap_cons, raw]
          exact congrArg (otherShown.raw ++ ·) bytes

end Quoted

/-- A quoted text shows where it ends and which text it is. -/
theorem Text.quote_append_inj
    {first second after other : Text}
    (same : first.quote ++ after = second.quote ++ other) :
    first = second ∧ after = other := by
  have reads (text : Text) :
      ∀ glyph ∈ Glyph.decode text, ∀ rest,
        Quoted.piece? (Quoted.glyph glyph ++ rest) =
          some (glyph.raw, rest) := by
    intro glyph member rest
    obtain ⟨lead, tail, rfl⟩ := Glyph.first_of_mem_decode member
    exact Quoted.piece?_glyph lead tail rest
  simp only [quote, between, List.cons_append, List.append_assoc,
    List.nil_append, List.cons.injEq, true_and] at same
  obtain ⟨bytes, behind⟩ :=
    Quoted.glyphs_append_inj (reads first) (reads second) same
  rw [Glyph.bytes_decode, Glyph.bytes_decode] at bytes
  exact ⟨bytes, behind⟩

end Script
