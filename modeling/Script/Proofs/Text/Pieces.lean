import Script.Proofs.Text.Decoding

namespace Script.Glyph

/-!
# Texts in pieces

Reading looks at most three bytes ahead and never past a byte below 0x80.  So a
text is read afresh behind such a byte, and the bytes of glyphs that stand in a
row in a text are read as the same glyphs when they stand alone.
-/

/-- The glyph of a byte below 0x80. -/
def ofByte (byte : UInt8) : Glyph where
  code := byte.toNat
  raw := [byte]

section Plain

variable {byte : UInt8} (plain : byte < 0x80)

include plain

/-- A byte below 0x80 continues no sequence. -/
theorem isTail_of_plain : isTail byte = false := by
  cases tail : isTail byte with
  | false =>
      rfl
  | true =>
      exact absurd plain (UInt8.not_lt.mpr (wide_of_isTail tail))

theorem allowsSecond_of_plain (lead : UInt8) :
    allowsSecond lead byte = false := by
  cases allowed : allowsSecond lead byte with
  | false =>
      rfl
  | true =>
      exact absurd plain (UInt8.not_lt.mpr (wide_of_allowsSecond allowed).1)

/-- A sequence does not reach a byte below 0x80 behind it. -/
theorem sequence?_append_plain
    (lead : UInt8)
    (line rest : Text) :
    sequence? lead (line ++ byte :: rest) = sequence? lead line := by
  have noTail := isTail_of_plain plain
  have noSecond := allowsSecond_of_plain plain lead
  match line with
  | [] =>
      match rest with
      | [] | [_] | _ :: _ :: _ =>
          simp [sequence?, noTail, noSecond]
  | [second] =>
      cases rest <;> simp [sequence?, noTail]
  | [second, third] =>
      simp [sequence?, noTail]
  | second :: third :: fourth :: line =>
      simp [sequence?]

theorem decodeAfter_append_plain
    (skipped : Nat)
    (line rest : Text)
    (enough : skipped ≤ line.length) :
    decodeAfter skipped (line ++ byte :: rest) =
      decodeAfter skipped line ++ ofByte byte :: decode rest := by
  induction line generalizing skipped with
  | nil =>
      obtain rfl : skipped = 0 := by simpa using enough
      simp [decodeAfter, first, plain, ofByte, decode]
  | cons lead line inductionHypothesis =>
      cases skipped with
      | zero =>
          have same : first lead (line ++ byte :: rest) = first lead line := by
            unfold first
            rw [sequence?_append_plain plain]
          have short := (isRead_first lead line).2.length_le
          rw [List.length_cons] at short
          simp only [List.cons_append, decodeAfter, same, List.cons.injEq,
            true_and]
          exact inductionHypothesis _ (by omega)
      | succ skipped =>
          exact inductionHypothesis skipped (by simpa using enough)

/-- Reading goes on afresh behind a byte below 0x80. -/
theorem decode_append_plain (line rest : Text) :
    decode (line ++ byte :: rest) =
      decode line ++ ofByte byte :: decode rest :=
  decodeAfter_append_plain plain 0 line rest (by omega)

end Plain

/-- A sequence is found wherever its own bytes are. -/
theorem sequence?_of_own
    {lead : UInt8}
    {rest : Text}
    {glyph : Glyph}
    (found : sequence? lead rest = some glyph) :
    ∃ tail,
      glyph.raw = lead :: tail ∧
        tail <+: rest ∧
        ∀ more, sequence? lead (tail ++ more) = some glyph := by
  unfold sequence? at found
  repeat' split at found
  all_goals cases found
  · rename_i second behind twoBytes tail
    refine ⟨[second], rfl, by simp, fun more => ?_⟩
    simp [sequence?, twoBytes, tail]
  · rename_i second notTwo _ third _ threeBytes fits
    refine ⟨[second, third], rfl, by simp, fun more => ?_⟩
    simp only [sequence?, List.cons_append, notTwo, threeBytes, fits, if_true]
    rfl
  · rename_i second notTwo _ third notThree _ fourth _ fits
    refine ⟨[second, third, fourth], rfl, by simp, fun more => ?_⟩
    simp only [sequence?, List.cons_append, notTwo, notThree, fits, if_true]
    rfl

/-- The glyph at the front of a text does not depend on what is behind it. -/
theorem first_of_append
    {lead : UInt8}
    {rest more : Text}
    (within : (first lead (rest ++ more)).raw.length ≤ rest.length + 1) :
    first lead rest = first lead (rest ++ more) := by
  unfold first at within ⊢
  split
  · rfl
  · cases found : sequence? lead rest with
    | some glyph =>
        obtain ⟨tail, -, ⟨behind, rfl⟩, own⟩ := sequence?_of_own found
        rw [List.append_assoc, own]
    | none =>
        cases longer : sequence? lead (rest ++ more) with
        | none =>
            rfl
        | some glyph =>
            obtain ⟨tail, shape, begins, own⟩ := sequence?_of_own longer
            rename_i wide
            simp only [wide, if_false, longer, Option.getD_some, shape,
              List.length_cons] at within
            obtain ⟨behind, rfl⟩ :=
              List.prefix_of_prefix_length_le begins
                (List.prefix_append rest more) (by omega)
            rw [own] at found
            cases found

theorem decodeAfter_eq_drop
    (skipped : Nat)
    (text : Text) :
    decodeAfter skipped text = decode (text.drop skipped) := by
  induction text generalizing skipped with
  | nil =>
      cases skipped <;> rfl
  | cons lead rest inductionHypothesis =>
      cases skipped with
      | zero =>
          rfl
      | succ skipped =>
          exact inductionHypothesis skipped

/-- Glyphs that are read again from their bytes. -/
def IsReading (glyphs : List Glyph) : Prop :=
  decode (bytes glyphs) = glyphs

theorem isReading_decode (text : Text) : IsReading (decode text) := by
  rw [IsReading, bytes_decode]

/-- A glyph and those behind it are read again when the glyph is at the front of
their bytes. -/
theorem isReading_cons
    {lead : UInt8}
    {tail : Text}
    {glyph : Glyph}
    (shape : glyph.raw = lead :: tail)
    (rest : List Glyph) :
    IsReading (glyph :: rest) ↔
      first lead (tail ++ bytes rest) = glyph ∧ IsReading rest := by
  have parts : bytes (glyph :: rest) = lead :: (tail ++ bytes rest) := by
    rw [bytes, List.flatMap_cons, shape]
    rfl
  rw [IsReading, parts, decode, decodeAfter, List.cons.injEq]
  refine and_congr_right fun same => ?_
  rw [same, shape, decodeAfter_eq_drop, List.length_cons, Nat.add_sub_cancel,
    List.drop_left, IsReading]

/-- Glyphs in a row that are read again are so in pieces. -/
theorem IsReading.pieces
    {front back : List Glyph}
    (reading : IsReading (front ++ back)) :
    IsReading front ∧ IsReading back := by
  induction front with
  | nil =>
      exact ⟨rfl, reading⟩
  | cons glyph front inductionHypothesis =>
      have member : glyph ∈ decode (bytes (glyph :: front ++ back)) := by
        rw [reading]
        exact List.mem_cons_self
      obtain ⟨lead, tail, shape⟩ :=
        List.exists_cons_of_ne_nil (isRead_of_mem_decode member).someByte
      obtain ⟨isFirst, later⟩ :=
        (isReading_cons shape (front ++ back)).mp reading
      obtain ⟨frontReading, backReading⟩ := inductionHypothesis later
      refine ⟨(isReading_cons shape front).mpr ⟨?_, frontReading⟩, backReading⟩
      have parts : bytes (front ++ back) = bytes front ++ bytes back :=
        List.flatMap_append
      rw [parts, ← List.append_assoc] at isFirst
      rw [← isFirst]
      refine first_of_append ?_
      rw [isFirst, shape, List.length_cons, List.length_append]
      omega

/-- Glyphs in a row in a text are read again. -/
theorem isReading_of_infix
    {piece : List Glyph}
    {text : Text}
    (inside : piece <:+: decode text) :
    IsReading piece := by
  obtain ⟨before, behind, whole⟩ := inside
  have reading := isReading_decode text
  rw [← whole] at reading
  exact reading.pieces.1.pieces.2

end Script.Glyph
