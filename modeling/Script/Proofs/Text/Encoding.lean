import Script.Proofs.Text.Pieces

namespace Script.Glyph

/-!
# Writing glyphs

The code point of a glyph, written as UTF-8, is the very bytes the glyph was read
from, unless these are no UTF-8.
-/

/-- The second bytes that a lead byte allows, in numbers. -/
theorem bounds_of_allowsSecond
    {lead second : UInt8}
    (allowed : allowsSecond lead second = true) :
    (0x80 ≤ second.toNat ∧ second.toNat ≤ 0xBF) ∧
      (lead.toNat = 0xE0 → 0xA0 ≤ second.toNat) ∧
      (lead.toNat = 0xED → second.toNat ≤ 0x9F) ∧
      (lead.toNat = 0xF0 → 0x90 ≤ second.toNat) ∧
      (lead.toNat = 0xF4 → second.toNat ≤ 0x8F) := by
  unfold allowsSecond at allowed
  simp only [isTail, UInt8.le_iff_toNat_le, ← UInt8.toNat_inj] at allowed
  repeat' split at allowed
  all_goals
    simp only [Bool.and_eq_true, decide_eq_true_eq, UInt8.reduceToNat] at *
    omega

theorem bounds_of_isTail
    {byte : UInt8}
    (tail : isTail byte = true) :
    0x80 ≤ byte.toNat ∧ byte.toNat ≤ 0xBF := by
  simpa [isTail, UInt8.le_iff_toNat_le] using tail

theorem toNat_ofNat
    {code : Nat}
    (valid : code.isValidChar) :
    (Char.ofNat code).val.toNat = code := by
  rw [Char.ofNat, dif_pos valid]
  rfl

/-- A code point below 0x80 is written as one byte. -/
theorem encode_of_lt
    {code : Nat}
    (small : code < 0x80) :
    encode code = [code.toUInt8] := by
  rw [encode, String.utf8EncodeChar, toNat_ofNat (.inl (by omega)),
    if_pos (by omega)]

/-- A sequence of several bytes is a character and written as it was read. -/
theorem encode_of_sequence?
    {lead : UInt8}
    {rest : Text}
    {glyph : Glyph}
    (found : sequence? lead rest = some glyph) :
    glyph.code.isValidChar ∧ encode glyph.code = glyph.raw := by
  unfold sequence? at found
  repeat' split at found
  all_goals cases found
  · rename_i second behind twoBytes tail
    have range := bounds_of_isTail tail
    simp only [Bool.and_eq_true, decide_eq_true_eq, UInt8.le_iff_toNat_le,
      UInt8.reduceToNat] at twoBytes
    simp only [encode, payload]
    have valid :
        (lead.toNat % 32 * 64 + second.toNat % 64).isValidChar := by
      simp only [Nat.isValidChar]
      omega
    refine ⟨valid, ?_⟩
    rw [String.utf8EncodeChar, toNat_ofNat valid, if_neg (by omega),
      if_pos (by omega)]
    simp only [List.cons.injEq, and_true, ← UInt8.toNat_inj,
      UInt8.toNat_ofNat']
    omega
  · rename_i second behind _ third more threeBytes fits
    simp only [Bool.and_eq_true, decide_eq_true_eq, UInt8.le_iff_toNat_le,
      UInt8.reduceToNat] at threeBytes fits
    have range := bounds_of_allowsSecond fits.1
    have rangeThird := bounds_of_isTail fits.2
    simp only [encode, payload]
    have valid :
        ((lead.toNat % 16 * 64 + second.toNat % 64) * 64 +
          third.toNat % 64).isValidChar := by
      simp only [Nat.isValidChar]
      omega
    refine ⟨valid, ?_⟩
    rw [String.utf8EncodeChar, toNat_ofNat valid, if_neg (by omega),
      if_neg (by omega), if_pos (by omega)]
    simp only [List.cons.injEq, and_true, ← UInt8.toNat_inj,
      UInt8.toNat_ofNat']
    omega
  · rename_i second behind _ third more _ fourth others fits
    simp only [Bool.and_eq_true, decide_eq_true_eq, UInt8.le_iff_toNat_le,
      UInt8.reduceToNat] at fits
    have range := bounds_of_allowsSecond fits.1.1.2
    have rangeThird := bounds_of_isTail fits.1.2
    have rangeFourth := bounds_of_isTail fits.2
    simp only [encode, payload]
    have valid :
        (((lead.toNat % 8 * 64 + second.toNat % 64) * 64 +
          third.toNat % 64) * 64 + fourth.toNat % 64).isValidChar := by
      simp only [Nat.isValidChar]
      omega
    refine ⟨valid, ?_⟩
    rw [String.utf8EncodeChar, toNat_ofNat valid, if_neg (by omega),
      if_neg (by omega), if_neg (by omega)]
    simp only [List.cons.injEq, and_true, ← UInt8.toNat_inj,
      UInt8.toNat_ofNat']
    omega

/-- A sequence has several bytes. -/
theorem two_le_length_of_sequence?
    {lead : UInt8}
    {rest : Text}
    {glyph : Glyph}
    (found : sequence? lead rest = some glyph) :
    2 ≤ glyph.raw.length := by
  unfold sequence? at found
  repeat' split at found
  all_goals cases found
  all_goals simp

/-- A glyph that is a character: it is written as it was read, and read again in
front of whatever text. -/
structure IsCharacter (glyph : Glyph) : Prop where
  valid : glyph.code.isValidChar
  encoded : encode glyph.code = glyph.raw
  own :
    ∃ lead tail,
      glyph.raw = lead :: tail ∧
        ∀ more, first lead (tail ++ more) = glyph

/-- The glyph at the front of a text is a character or one byte that is none. -/
theorem cases_first
    (lead : UInt8)
    (rest : Text) :
    (first lead rest).IsCharacter ∧ (first lead rest).isInvalid = false ∨
      (first lead rest).isInvalid = true ∧ (first lead rest).raw = [lead] := by
  by_cases below : lead < 0x80
  · have here (rest : Text) :
        first lead rest = { code := lead.toNat, raw := [lead] } := by
      rw [first, if_pos below]
    have small : lead.toNat < 0x80 := UInt8.lt_iff_toNat_lt.mp below
    rw [here]
    have valid : lead.toNat.isValidChar := .inl (by omega)
    refine .inl ⟨⟨valid, ?_, lead, [], rfl, fun more => here more⟩, ?_⟩
    · rw [encode_of_lt small]
      simp
    · have notReplacement : lead.toNat ≠ replacement := by
        unfold replacement
        omega
      simp [isInvalid, notReplacement]
  · have wide (rest : Text) :
        first lead rest =
          (sequence? lead rest).getD { code := replacement, raw := [lead] } := by
      rw [first, if_neg below]
    cases found : sequence? lead rest with
    | some glyph =>
        obtain ⟨tail, shape, -, again⟩ := sequence?_of_own found
        have longer := two_le_length_of_sequence? found
        rw [wide, found, Option.getD_some]
        obtain ⟨valid, encoded⟩ := encode_of_sequence? found
        refine .inl ⟨⟨valid, encoded, lead, tail, shape, fun more => ?_⟩, ?_⟩
        · rw [wide, again, Option.getD_some]
        · have notOne : glyph.raw.length ≠ 1 := by omega
          simp [isInvalid, notOne]
    | none =>
        rw [wide, found]
        exact .inr ⟨rfl, rfl⟩

end Script.Glyph
