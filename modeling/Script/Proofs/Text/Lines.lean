import Script.Proofs.Text.Pieces

namespace Script

/-!
# Texts in lines

No glyph goes on behind a line feed, so a text is read line by line: the glyphs
of two texts with a line feed between them are those of the one, the line feed,
and those of the other.
-/

namespace Glyph

/-- The glyph of a line feed. -/
def lineFeed : Glyph where
  code := 10
  raw := [Text.newline]

/-- Reading goes on afresh behind a line feed. -/
theorem decode_behind_newline (line rest : Text) :
    decode (line ++ Text.newline :: rest) =
      decode line ++ lineFeed :: decode rest :=
  decode_append_plain (by decide) line rest

/-- A line feed at the end of a text is its last glyph. -/
theorem decode_line (line : Text) :
    decode (line ++ [Text.newline]) = decode line ++ [lineFeed] :=
  decode_behind_newline line []

/-- Whole lines are read apart from what is behind them. -/
theorem decode_newline
    (line rest : Text) :
    decode (line ++ Text.newline :: rest) =
      decode (line ++ [Text.newline]) ++ decode rest := by
  rw [decode_line, decode_behind_newline, List.append_assoc]
  rfl

end Glyph

namespace Text

/-- There is a piece before the first separator. -/
theorem split_ne_nil
    (separator : UInt8)
    (text : Text) :
    split separator text ≠ [] := by
  cases text with
  | nil =>
      simp [split]
  | cons first rest =>
      unfold split
      split
      · simp
      · split <;> simp

/-- Joining lines puts a line feed behind each but the last. -/
theorem joinLines_cons
    (line : Text)
    {lines : List Text}
    (more : lines ≠ []) :
    joinLines (line :: lines) = line ++ [newline] ++ joinLines lines := by
  obtain ⟨second, rest, rfl⟩ := List.exists_cons_of_ne_nil more
  simp [joinLines, List.intercalate_cons_cons]

/-- A text cut into lines and joined again is as before. -/
theorem joinLines_split (text : Text) :
    joinLines (split newline text) = text := by
  induction text with
  | nil =>
      rfl
  | cons first rest inductionHypothesis =>
      have more := split_ne_nil newline rest
      by_cases ends : first = newline
      · simp only [split, ends, if_true]
        rw [joinLines_cons _ more, inductionHypothesis]
        rfl
      · obtain ⟨line, lines, shape⟩ := List.exists_cons_of_ne_nil more
        rw [shape] at inductionHypothesis
        simp only [split, ends, if_false, shape]
        rw [← inductionHypothesis]
        cases lines with
        | nil =>
            simp [joinLines]
        | cons second lines =>
            have later : second :: lines ≠ [] := by simp
            rw [joinLines_cons _ later, joinLines_cons _ later]
            rfl

end Text

end Script
