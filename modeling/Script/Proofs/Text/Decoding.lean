import Script.Token.Segment
import Script.Token.Scan

namespace Script.Glyph

/-!
# What reading a text keeps

Reading loses no byte.  A glyph below 0x80 is one byte, and all other glyphs are
made of bytes from 0x80 on, so the line feeds of a text are the same before and
after it is read.
-/

/-- What a glyph is made of when it was read from a text. -/
structure IsRead (glyph : Glyph) : Prop where
  plain : glyph.code < 0x80 → glyph.raw = [UInt8.ofNat glyph.code]
  wide : 0x80 ≤ glyph.code → ∀ byte ∈ glyph.raw, 0x80 ≤ byte
  someByte : glyph.raw ≠ []

theorem isRead_of_wide
    {glyph : Glyph}
    (code : 0x80 ≤ glyph.code)
    (raw : ∀ byte ∈ glyph.raw, 0x80 ≤ byte)
    (someByte : glyph.raw ≠ []) :
    glyph.IsRead where
  plain below := by omega
  wide _ := raw
  someByte

theorem wide_of_isTail
    {byte : UInt8}
    (tail : isTail byte = true) :
    0x80 ≤ byte := by
  simp only [isTail, Bool.and_eq_true, decide_eq_true_eq] at tail
  exact tail.1

/-- Second bytes are from 0x80 on, and behind the least lead bytes they rule out
overlong forms. -/
theorem wide_of_allowsSecond
    {lead second : UInt8}
    (allowed : allowsSecond lead second = true) :
    0x80 ≤ second ∧
      (lead = 0xE0 → 32 ≤ payload second) ∧
        (lead = 0xF0 → 16 ≤ payload second) := by
  unfold allowsSecond at allowed
  simp only [payload, isTail, UInt8.le_iff_toNat_le, ← UInt8.toNat_inj] at allowed ⊢
  repeat' split at allowed
  all_goals
    simp only [Bool.and_eq_true, decide_eq_true_eq, UInt8.reduceToNat] at *
    omega

/-- A sequence of several bytes is a wide glyph. -/
theorem isRead_of_sequence?
    {lead : UInt8}
    {rest : Text}
    {glyph : Glyph}
    (wide : 0x80 ≤ lead)
    (found : sequence? lead rest = some glyph) :
    glyph.IsRead ∧ glyph.raw <+: lead :: rest := by
  unfold sequence? at found
  repeat' split at found
  all_goals cases found
  · rename_i second behind twoBytes tail
    simp only [Bool.and_eq_true, decide_eq_true_eq, UInt8.le_iff_toNat_le,
      UInt8.reduceToNat] at twoBytes
    refine ⟨isRead_of_wide ?_ ?_ (by simp), by simp⟩
    · dsimp only
      omega
    · simpa [wide] using wide_of_isTail tail
  · rename_i second behind _ third more threeBytes fits
    simp only [Bool.and_eq_true, decide_eq_true_eq, UInt8.le_iff_toNat_le,
      UInt8.reduceToNat] at threeBytes fits
    obtain ⟨wideSecond, least, -⟩ := wide_of_allowsSecond fits.1
    refine ⟨isRead_of_wide ?_ ?_ (by simp), by simp⟩
    · dsimp only
      simp only [← UInt8.toNat_inj, UInt8.reduceToNat] at least
      omega
    · simpa [wide, wideSecond] using wide_of_isTail fits.2
  · rename_i second behind _ third more _ fourth others fits
    simp only [Bool.and_eq_true, decide_eq_true_eq, UInt8.le_iff_toNat_le,
      UInt8.reduceToNat] at fits
    obtain ⟨wideSecond, -, least⟩ := wide_of_allowsSecond fits.1.1.2
    refine ⟨isRead_of_wide ?_ ?_ (by simp), by simp⟩
    · dsimp only
      simp only [← UInt8.toNat_inj, UInt8.reduceToNat] at least
      omega
    · simpa [wide, wideSecond] using
        ⟨wide_of_isTail fits.1.2, wide_of_isTail fits.2⟩

/-- The glyph at the front of a text is made of bytes at its front. -/
theorem isRead_first
    (lead : UInt8)
    (rest : Text) :
    (first lead rest).IsRead ∧ (first lead rest).raw <+: lead :: rest := by
  unfold first
  split
  · rename_i below
    simp only [UInt8.lt_iff_toNat_lt, UInt8.reduceToNat] at below
    refine ⟨⟨fun _ => ?_, fun above => ?_, by simp⟩, by simp⟩
    · simp
    · dsimp only at above
      omega
  · rename_i notBelow
    have wide : 0x80 ≤ lead := UInt8.not_lt.mp notBelow
    cases found : sequence? lead rest with
    | none =>
        refine ⟨isRead_of_wide ?_ ?_ ?_, ?_⟩
        · simp [replacement]
        · simpa using wide
        · simp
        · simp
    | some glyph =>
        exact isRead_of_sequence? wide found

theorem bytes_decodeAfter
    (skipped : Nat)
    (text : Text) :
    bytes (decodeAfter skipped text) = text.drop skipped := by
  induction text generalizing skipped with
  | nil =>
      cases skipped <;> rfl
  | cons lead rest inductionHypothesis =>
      cases skipped with
      | zero =>
          obtain ⟨read, behind, whole⟩ := isRead_first lead rest
          obtain ⟨head, tail, shape⟩ := List.exists_cons_of_ne_nil read.someByte
          have later :=
            inductionHypothesis ((first lead rest).raw.length - 1)
          rw [shape] at whole later
          obtain ⟨rfl, rfl⟩ := List.cons.inj whole
          simp only [decodeAfter, bytes, List.flatMap_cons] at later ⊢
          rw [shape, later]
          simp
      | succ skipped =>
          exact inductionHypothesis skipped

/-- Reading a text loses no byte. -/
theorem bytes_decode (text : Text) :
    bytes (decode text) = text :=
  bytes_decodeAfter 0 text

theorem first_of_mem_decodeAfter
    {skipped : Nat}
    {text : Text}
    {glyph : Glyph}
    (member : glyph ∈ decodeAfter skipped text) :
    ∃ lead rest, glyph = first lead rest := by
  induction text generalizing skipped with
  | nil =>
      cases skipped <;> cases member
  | cons lead rest inductionHypothesis =>
      cases skipped with
      | zero =>
          rw [decodeAfter] at member
          rcases List.mem_cons.mp member with rfl | later
          · exact ⟨lead, rest, rfl⟩
          · exact inductionHypothesis later
      | succ skipped =>
          exact inductionHypothesis member

/-- A glyph of a text was at the front of what followed it. -/
theorem first_of_mem_decode
    {text : Text}
    {glyph : Glyph}
    (member : glyph ∈ decode text) :
    ∃ lead rest, glyph = first lead rest :=
  first_of_mem_decodeAfter member

/-- The glyphs of a text were read from it. -/
theorem isRead_of_mem_decode
    {text : Text}
    {glyph : Glyph}
    (member : glyph ∈ decode text) :
    glyph.IsRead := by
  obtain ⟨lead, rest, rfl⟩ := first_of_mem_decode member
  exact (isRead_first lead rest).1

/-- A glyph has a line feed among its bytes when it is one. -/
theorem IsRead.newlines
    {glyph : Glyph}
    (read : glyph.IsRead) :
    Text.newlines glyph.raw = if glyph.is '\n' then 1 else 0 := by
  by_cases below : glyph.code < 0x80
  · have same : UInt8.ofNat glyph.code = Text.newline ↔ glyph.code = 10 := by
      rw [← UInt8.toNat_inj, UInt8.toNat_ofNat', Nat.mod_eq_of_lt (by omega)]
      rfl
    simp only [read.plain below, Text.newlines, List.count_singleton, Glyph.is,
      beq_iff_eq, same]
    rfl
  · have wide := read.wide (by omega)
    have notLineFeed : glyph.is '\n' = false := by
      rw [Glyph.is, beq_eq_false_iff_ne]
      rintro same
      rw [same] at below
      exact below (by decide)
    rw [notLineFeed, Text.newlines, List.count_eq_zero.mpr]
    · rfl
    · intro member
      exact absurd (wide _ member) (by decide)

/-- A text has as many line feeds as its glyphs. -/
theorem newlines_bytes
    {glyphs : List Glyph}
    (read : ∀ glyph ∈ glyphs, glyph.IsRead) :
    Text.newlines (bytes glyphs) = glyphs.countP (·.is '\n') := by
  induction glyphs with
  | nil =>
      rfl
  | cons glyph rest inductionHypothesis =>
      have here := (read glyph List.mem_cons_self).newlines
      have later :=
        inductionHypothesis fun other member =>
          read other (List.mem_cons_of_mem _ member)
      simp only [Text.newlines, bytes, List.flatMap_cons, List.count_append,
        List.countP_cons] at here later ⊢
      rw [here, later]
      omega

end Script.Glyph
