import Script.Proofs.Number.Positional
import Script.Proofs.Text.Quoted
import Script.Tree.SExpression

namespace Script

/-!
# Shapes

What a printed tree shows is a shape: a word, a number, a quoted text or a list
of shapes in parentheses.  A text in front of which a shape stands shows where the
shape ends and which one it is, so no two shapes are written alike.
-/

namespace SExpression

/-- What a printed tree shows. -/
inductive Shape where
  | word (text : Text)
  | number (value : Float)
  | string (text : Text)
  | list (items : List Shape)

namespace Shape

mutual

/-- A shape in front of a text. -/
def write : Shape → Text → Text
  | .word text, after =>
      text ++ after
  | .number value, after =>
      NumberFormat.tree.write value ++ after
  | .string text, after =>
      text.quote ++ after
  | .list items, after =>
      Text.byte '(' :: writeItems items (closed after)

/-- Shapes, a space between each two, in front of a text. -/
def writeItems : List Shape → Text → Text
  | [], after =>
      after
  | first :: rest, after =>
      first.write (writeRest rest after)

/-- Shapes, each with a space before it, in front of a text. -/
def writeRest : List Shape → Text → Text
  | [], after =>
      after
  | first :: rest, after =>
      spaced (first.write (writeRest rest after))

end

/-- Characters that end words and numbers. -/
def delimiters : List Char :=
  " ()\"\n".toList

/-- Bytes that may stand in a word or in a number. -/
def isPlain (byte : UInt8) : Bool :=
  delimiters.all fun delimiter => byte != Text.byte delimiter

/-- A text that is no part of a word or a number in front of it. -/
def Ends (after : Text) : Prop :=
  ∀ byte ∈ after.head?, isPlain byte = false

/-- A word: not empty, nothing but plain bytes, and no number. -/
structure IsWord (text : Text) : Prop where
  plain : ∀ byte ∈ text, isPlain byte = true
  first : ∃ first rest, text = first :: rest ∧ ¬ Decimal.IsDigit first
  notInfinite : text ≠ Text.utf8 "+Inf"

/-- A shape of words, of numbers that are not negative, and of texts. -/
inductive Proper : Shape → Prop where
  | word
      {text : Text}
      (isWord : IsWord text) :
      Proper (.word text)
  | number
      {value : Float}
      (isNumber : value.toBits.toNat ≤ Double.infiniteBits) :
      Proper (.number value)
  | string
      {text : Text} :
      Proper (.string text)
  | list
      {items : List Shape}
      (proper : ∀ item ∈ items, Proper item) :
      Proper (.list items)

/-! What is written in front of a text stays in front of a longer one. -/

mutual

theorem write_append :
    (shape : Shape) →
    ∀ after more, shape.write after ++ more = shape.write (after ++ more)
  | .word _, after, more | .number _, after, more
  | .string _, after, more => by
      simp only [write, List.append_assoc]
  | .list items, after, more => by
      simp only [write, List.cons_append, closed, writeItems_append items]

theorem writeItems_append :
    (items : List Shape) →
    ∀ after more,
      writeItems items after ++ more = writeItems items (after ++ more)
  | [], after, more => by
      simp only [writeItems]
  | first :: rest, after, more => by
      simp only [writeItems, write_append first,
        writeRest_append rest]

theorem writeRest_append :
    (items : List Shape) →
    ∀ after more,
      writeRest items after ++ more = writeRest items (after ++ more)
  | [], after, more => by
      simp only [writeRest]
  | first :: rest, after, more => by
      simp only [writeRest, spaced, List.cons_append,
        write_append first, writeRest_append rest]

end

/-! Plain texts. -/

/-- A plain text ends where the plain bytes do. -/
theorem plain_append_inj
    {first second after other : Text}
    (plain : ∀ byte ∈ first, isPlain byte = true)
    (otherPlain : ∀ byte ∈ second, isPlain byte = true)
    (ends : Ends after)
    (otherEnds : Ends other)
    (same : first ++ after = second ++ other) :
    first = second ∧ after = other := by
  have taken
      {text after : Text}
      (plain : ∀ byte ∈ text, isPlain byte = true)
      (ends : Ends after) :
      (text ++ after).takeWhile isPlain = text := by
    rw [List.takeWhile_append_of_pos plain]
    cases after with
    | nil =>
        simp
    | cons byte after =>
        simp [ends byte rfl]
  have texts : first = second := by
    rw [← taken plain ends, same, taken otherPlain otherEnds]
  refine ⟨texts, ?_⟩
  rw [texts] at same
  exact List.append_cancel_left same

theorem isPlain_of_isDigit
    {byte : UInt8}
    (isDigit : Decimal.IsDigit byte) :
    isPlain byte = true := by
  have noDigit :
      delimiters.all fun delimiter =>
        !decide (Decimal.IsDigit (Text.byte delimiter)) := by
    decide
  refine List.all_eq_true.mpr fun delimiter member => bne_iff_ne.mpr ?_
  rintro rfl
  simpa [isDigit] using List.all_eq_true.mp noDigit delimiter member

/-- The text of a number is plain, not empty and no word. -/
theorem number_plain
    {value : Float}
    (isNumber : value.toBits.toNat ≤ Double.infiniteBits) :
    (∀ byte ∈ NumberFormat.tree.write value, isPlain byte = true) ∧
      NumberFormat.tree.write value ≠ [] ∧
      ¬ IsWord (NumberFormat.tree.write value) := by
  unfold NumberFormat.write
  rcases NumberFormat.writeBits_tree_cases isNumber with
    ⟨⟨first, rest, shape, isDigit⟩, bytes⟩ | infinite
  · refine ⟨fun byte member => ?_, by simp [shape], fun isWord => ?_⟩
    · rcases bytes byte member with isDigit | rfl
      · exact isPlain_of_isDigit isDigit
      · decide
    · obtain ⟨start, others, split, noDigit⟩ := isWord.first
      rw [shape] at split
      obtain ⟨rfl, -⟩ := List.cons.inj split
      exact noDigit isDigit
  · rw [infinite]
    exact ⟨List.all_eq_true.mp (by decide), by decide,
      fun isWord => isWord.notInfinite rfl⟩

/-- What a byte at the front of a text is the mark of; plain bytes are none. -/
def mark? (byte : UInt8) : Option UInt8 :=
  if isPlain byte then
    none
  else
    some byte

/-- The mark with which the text of a shape begins. -/
def opening? : Shape → Option UInt8
  | .word _ | .number _ =>
      none
  | .string _ =>
      some (Text.byte '"')
  | .list _ =>
      some (Text.byte '(')

theorem mark?_of_plain
    {text : Text}
    (plain : ∀ byte ∈ text, isPlain byte = true)
    (nonempty : text ≠ [])
    (after : Text) :
    ∃ byte rest, text ++ after = byte :: rest ∧ mark? byte = none := by
  obtain ⟨byte, rest, rfl⟩ := List.exists_cons_of_ne_nil nonempty
  have isPlain := plain byte List.mem_cons_self
  exact ⟨byte, rest ++ after, rfl, by rw [mark?, if_pos isPlain]⟩

/-- The first byte of a shape shows its mark. -/
theorem Proper.opens
    {shape : Shape}
    (proper : shape.Proper)
    (after : Text) :
    ∃ byte rest,
      shape.write after = byte :: rest ∧ mark? byte = shape.opening? := by
  cases proper with
  | word isWord =>
      obtain ⟨first, rest, split, -⟩ := isWord.first
      rw [write]
      exact mark?_of_plain isWord.plain (by simp [split]) after
  | number isNumber =>
      have plain := number_plain isNumber
      rw [write]
      exact mark?_of_plain plain.1 plain.2.1 after
  | string | list =>
      rw [write]
      exact ⟨_, _, rfl, rfl⟩

theorem Proper.write_ne_nil
    {shape : Shape}
    (proper : shape.Proper)
    (after : Text) :
    shape.write after ≠ [] := by
  obtain ⟨byte, rest, split, -⟩ := proper.opens after
  rw [split]
  exact List.cons_ne_nil byte rest

/-- A shape does not begin like the end of a list. -/
theorem Proper.ne_closed
    {shape : Shape}
    (proper : shape.Proper)
    (after other : Text) :
    shape.write after ≠ closed other := by
  obtain ⟨byte, rest, split, opens⟩ := proper.opens after
  have closing : mark? (Text.byte ')') = some (Text.byte ')') := by
    decide
  rw [split, closed]
  intro same
  obtain ⟨rfl, -⟩ := List.cons.inj same
  rw [closing] at opens
  cases shape with
  | word | number =>
      cases opens
  | string | list =>
      exact absurd (Option.some.inj opens) (by decide)

/-- Shapes that are written alike begin with the same mark. -/
theorem Proper.opening?_eq
    {shape second : Shape}
    {after other : Text}
    (proper : shape.Proper)
    (otherProper : second.Proper)
    (same : shape.write after = second.write other) :
    shape.opening? = second.opening? := by
  obtain ⟨byte, rest, split, opens⟩ := proper.opens after
  obtain ⟨otherByte, otherRest, otherSplit, otherOpens⟩ :=
    otherProper.opens other
  rw [split, otherSplit] at same
  obtain ⟨rfl, -⟩ := List.cons.inj same
  rw [← opens, otherOpens]

/-- What a shape in front of a text says about the shape and about the text. -/
def Shown (shape : Shape) : Prop :=
  ∀ (second : Shape) (after other : Text),
    second.Proper →
    Ends after →
    Ends other →
    shape.write after = second.write other →
    shape = second ∧ after = other

theorem ends_closed (after : Text) :
    Ends (closed after) := by
  intro byte isFirst
  obtain rfl : Text.byte ')' = byte := by simpa [closed] using isFirst
  decide

theorem ends_writeRest
    (items : List Shape)
    (after : Text) :
    Ends (writeRest items (closed after)) := by
  cases items with
  | nil =>
      rw [writeRest]
      exact ends_closed after
  | cons first rest =>
      rw [writeRest]
      intro byte isFirst
      obtain rfl : Text.byte ' ' = byte := by simpa [spaced] using isFirst
      decide

theorem writeRest_inj
    {items others : List Shape}
    {after other : Text}
    (shown : ∀ item ∈ items, item.Shown)
    (proper : ∀ item ∈ others, item.Proper)
    (same : writeRest items (closed after) = writeRest others (closed other)) :
    items = others ∧ after = other := by
  induction items generalizing others with
  | nil =>
      cases others with
      | nil =>
          simp only [writeRest] at same
          exact ⟨rfl, (List.cons.inj same).2⟩
      | cons second others =>
          simp only [writeRest] at same
          exact absurd (List.cons.inj same).1 (by decide)
  | cons first items inductionHypothesis =>
      cases others with
      | nil =>
          simp only [writeRest] at same
          exact absurd (List.cons.inj same).1 (by decide)
      | cons second others =>
          simp only [writeRest] at same
          obtain ⟨rfl, later⟩ :=
            shown first List.mem_cons_self second _ _
              (proper second List.mem_cons_self)
              (ends_writeRest items after) (ends_writeRest others other)
              (List.cons.inj same).2
          obtain ⟨rfl, behind⟩ :=
            inductionHypothesis
              (fun item member => shown item (List.mem_cons_of_mem _ member))
              (fun item member => proper item (List.mem_cons_of_mem _ member))
              later
          exact ⟨rfl, behind⟩

theorem writeItems_inj
    {items others : List Shape}
    {after other : Text}
    (properItems : ∀ item ∈ items, item.Proper)
    (shown : ∀ item ∈ items, item.Shown)
    (proper : ∀ item ∈ others, item.Proper)
    (same :
      writeItems items (closed after) = writeItems others (closed other)) :
    items = others ∧ after = other := by
  cases items with
  | nil =>
      cases others with
      | nil =>
          simp only [writeItems] at same
          exact ⟨rfl, (List.cons.inj same).2⟩
      | cons second others =>
          simp only [writeItems] at same
          exact ((proper second List.mem_cons_self).ne_closed _ _
            same.symm).elim
  | cons first items =>
      cases others with
      | nil =>
          simp only [writeItems] at same
          exact ((properItems first List.mem_cons_self).ne_closed _ _
            same).elim
      | cons second others =>
          simp only [writeItems] at same
          exact writeRest_inj shown proper (by simp only [writeRest, same])

theorem shown_word
    {text : Text}
    (isWord : IsWord text) :
    (Shape.word text).Shown := by
  intro second after other proper ends otherEnds same
  have alike := (Proper.word isWord).opening?_eq proper same
  cases proper with
  | word isOther =>
      simp only [write] at same
      obtain ⟨rfl, behind⟩ :=
        plain_append_inj isWord.plain isOther.plain ends otherEnds same
      exact ⟨rfl, behind⟩
  | number isNumber =>
      have plain := number_plain isNumber
      simp only [write] at same
      obtain ⟨rfl, -⟩ :=
        plain_append_inj isWord.plain plain.1 ends otherEnds same
      exact (plain.2.2 isWord).elim
  | string | list =>
      cases alike

theorem shown_number
    {value : Float}
    (isNumber : value.toBits.toNat ≤ Double.infiniteBits) :
    (Shape.number value).Shown := by
  intro second after other proper ends otherEnds same
  have alike := (Proper.number isNumber).opening?_eq proper same
  have plain := number_plain isNumber
  cases proper with
  | word isWord =>
      simp only [write] at same
      obtain ⟨rfl, -⟩ :=
        plain_append_inj plain.1 isWord.plain ends otherEnds same
      exact (plain.2.2 isWord).elim
  | number isOther =>
      simp only [write] at same
      obtain ⟨texts, behind⟩ :=
        plain_append_inj plain.1 (number_plain isOther).1 ends otherEnds same
      obtain rfl :=
        Float.toBits_inj.mp (UInt64.toNat_inj.mp
          (NumberFormat.writeBits_tree_injective isNumber isOther texts))
      exact ⟨rfl, behind⟩
  | string | list =>
      cases alike

theorem shown_string (text : Text) :
    (Shape.string text).Shown := by
  intro second after other proper _ _ same
  have alike := (Proper.string).opening?_eq proper same
  cases proper with
  | string =>
      simp only [write] at same
      obtain ⟨rfl, behind⟩ := Text.quote_append_inj same
      exact ⟨rfl, behind⟩
  | word | number =>
      cases alike
  | list =>
      exact absurd (Option.some.inj alike) (by decide)

theorem shown_list
    {items : List Shape}
    (properItems : ∀ item ∈ items, item.Proper)
    (shown : ∀ item ∈ items, item.Shown) :
    (Shape.list items).Shown := by
  intro second after other proper _ _ same
  have alike := (Proper.list properItems).opening?_eq proper same
  cases proper with
  | list properOthers =>
      simp only [write] at same
      obtain ⟨rfl, behind⟩ :=
        writeItems_inj properItems shown properOthers (List.cons.inj same).2
      exact ⟨rfl, behind⟩
  | word | number =>
      cases alike
  | string =>
      exact absurd (Option.some.inj alike) (by decide)

/-- A text shows which shape is in front of it, and where the shape ends. -/
theorem Proper.shown
    {shape : Shape}
    (proper : shape.Proper) :
    shape.Shown := by
  induction proper with
  | word isWord =>
      exact shown_word isWord
  | number isNumber =>
      exact shown_number isNumber
  | string =>
      exact shown_string _
  | list proper shown =>
      exact shown_list proper shown

/-! Shapes on lines of their own. -/

/-- Shapes, each on a line of its own. -/
def writeLines : List Shape → Text
  | [] =>
      []
  | first :: rest =>
      first.write (Text.newline :: writeLines rest)

/-- Lines show which shapes are on them. -/
theorem writeLines_inj
    {shapes others : List Shape}
    (proper : ∀ shape ∈ shapes, shape.Proper)
    (otherProper : ∀ shape ∈ others, shape.Proper)
    (same : writeLines shapes = writeLines others) :
    shapes = others := by
  have ends (after : Text) : Ends (Text.newline :: after) := by
    intro byte isFirst
    obtain rfl : Text.newline = byte := by simpa using isFirst
    decide
  induction shapes generalizing others with
  | nil =>
      cases others with
      | nil =>
          rfl
      | cons second others =>
          have properSecond := otherProper second List.mem_cons_self
          exact (properSecond.write_ne_nil _ same.symm).elim
  | cons first shapes inductionHypothesis =>
      have properFirst := proper first List.mem_cons_self
      cases others with
      | nil =>
          exact (properFirst.write_ne_nil _ same).elim
      | cons second others =>
          obtain ⟨rfl, later⟩ :=
            properFirst.shown second _ _
              (otherProper second List.mem_cons_self) (ends _) (ends _) same
          obtain rfl :=
            inductionHypothesis
              (fun shape member => proper shape (List.mem_cons_of_mem _ member))
              (fun shape member =>
                otherProper shape (List.mem_cons_of_mem _ member))
              (List.cons.inj later).2
          rfl

end Shape

end SExpression

end Script
