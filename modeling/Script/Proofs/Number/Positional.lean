import Script.Proofs.Number.Bits
import Script.Proofs.Number.Nearest
import Script.Proofs.Token.Lexeme

namespace Script

/-!
# Reading numbers back

A number written without an exponent is a text of digits, maybe with a point.
Read as a numeral, it is the number again, so different numbers are written
differently.
-/

namespace Decimal

/-! The value of digits. -/

theorem foldl_digits
    (digits : Text)
    (value : Nat) :
    digits.foldl (fun value digit => value * 10 + (digit.toNat - 48)) value =
      value * 10 ^ digits.length + digitsValue digits := by
  induction digits generalizing value with
  | nil =>
      simp [digitsValue]
  | cons digit rest inductionHypothesis =>
      rw [digitsValue, List.foldl_cons, List.foldl_cons, inductionHypothesis,
        inductionHypothesis, List.length_cons, Nat.pow_succ]
      ring

/-- Digits in front count for as many tens as there are digits behind. -/
theorem digitsValue_append (front back : Text) :
    digitsValue (front ++ back) =
      digitsValue front * 10 ^ back.length + digitsValue back := by
  rw [digitsValue, List.foldl_append, foldl_digits]
  rfl

theorem digitsValue_zeros (count : Nat) :
    digitsValue (zeros count) = 0 := by
  induction count with
  | zero =>
      rfl
  | succ count inductionHypothesis =>
      exact inductionHypothesis

/-- A byte is a decimal digit. -/
def IsDigit (byte : UInt8) : Prop :=
  48 ≤ byte.toNat ∧ byte.toNat ≤ 57

instance (byte : UInt8) : Decidable (IsDigit byte) :=
  inferInstanceAs (Decidable (48 ≤ byte.toNat ∧ byte.toNat ≤ 57))

theorem IsDigit.notPoint
    {byte : UInt8}
    (isDigit : IsDigit byte) :
    (byte != Text.byte '.') = true := by
  rw [bne_iff_ne]
  rintro rfl
  exact absurd isDigit (by decide)

theorem toNat_byte
    {character : Char}
    (narrow : character.toNat < 256) :
    (Text.byte character).toNat = character.toNat := by
  simp [Text.byte, Nat.mod_eq_of_lt narrow]

theorem toNat_of_isDigit
    {digit : Char}
    (isDigit : digit.isDigit = true) :
    48 ≤ digit.toNat ∧ digit.toNat ≤ 57 :=
  Char.isDigit_iff_toNat.mp isDigit

theorem isDigit_of_mem_toDigits
    {number : Nat}
    {digit : Char}
    (member : digit ∈ Nat.toDigits 10 number) :
    digit.isDigit = true :=
  Nat.isDigit_of_mem_toDigits (by decide) (by decide) member

/-- The digits of a number have its value. -/
theorem digitsValue_ofNat (number : Nat) :
    digitsValue (Text.ofNat number) = number := by
  have bytewise :
      ∀ (digits : List Char) (value : Nat),
        (∀ digit ∈ digits, digit.isDigit = true) →
        (digits.map Text.byte).foldl
            (fun value digit => value * 10 + (digit.toNat - 48)) value =
          Nat.ofDigitChars 10 digits value := by
    intro digits
    induction digits with
    | nil =>
        intro value _
        rfl
    | cons digit rest inductionHypothesis =>
        intro value isDigit
        have bounds := toNat_of_isDigit (isDigit digit List.mem_cons_self)
        rw [List.map_cons, List.foldl_cons, toNat_byte (by omega),
          inductionHypothesis _ fun other member =>
            isDigit other (List.mem_cons_of_mem digit member),
          Nat.ofDigitChars_cons, Nat.mul_comm]
        rfl
  rw [digitsValue, Text.ofNat,
    bytewise _ 0 fun digit => isDigit_of_mem_toDigits,
    Nat.ofDigitChars_ten_toDigits]

theorem isDigit_ofNat (number : Nat) :
    ∀ byte ∈ Text.ofNat number, IsDigit byte := by
  intro byte member
  obtain ⟨digit, digitMember, rfl⟩ := List.mem_map.mp member
  have bounds := toNat_of_isDigit (isDigit_of_mem_toDigits digitMember)
  rwa [IsDigit, toNat_byte (by omega)]

theorem isDigit_zeros (count : Nat) :
    ∀ byte ∈ zeros count, IsDigit byte := by
  intro byte member
  rw [List.eq_of_mem_replicate member]
  decide

/-! Reading back what was written. -/

/-- A text of digits, with more digits behind a point if it has one. -/
structure IsNumeral
    (text whole fraction : Text) :
    Prop where
  spelled :
    text = whole ∧ fraction = [] ∨ text = whole ++ Text.byte '.' :: fraction
  someDigit : whole ≠ []
  whole : ∀ byte ∈ whole, IsDigit byte
  fraction : ∀ byte ∈ fraction, IsDigit byte

namespace IsNumeral

variable {text whole fraction : Text}

theorem ofText (numeral : IsNumeral text whole fraction) :
    Decimal.ofText text = ofDigits whole fraction := by
  have noPoint (byte : UInt8) (member : byte ∈ whole) :=
    (numeral.whole byte member).notPoint
  rcases numeral.spelled with ⟨rfl, rfl⟩ | rfl
  · exact ofText_whole noPoint
  · exact ofText_fraction noPoint fraction

theorem bytes
    (numeral : IsNumeral text whole fraction)
    {byte : UInt8}
    (member : byte ∈ text) :
    IsDigit byte ∨ byte = Text.byte '.' := by
  rcases numeral.spelled with ⟨rfl, -⟩ | rfl
  · exact .inl (numeral.whole byte member)
  · rcases List.mem_append.mp member with before | behind
    · exact .inl (numeral.whole byte before)
    · rcases List.mem_cons.mp behind with point | after
      · exact .inr point
      · exact .inl (numeral.fraction byte after)

theorem first (numeral : IsNumeral text whole fraction) :
    ∃ first rest, text = first :: rest ∧ IsDigit first := by
  obtain ⟨first, rest, rfl⟩ := List.exists_cons_of_ne_nil numeral.someDigit
  have isDigit := numeral.whole first List.mem_cons_self
  rcases numeral.spelled with ⟨rfl, -⟩ | rfl
  · exact ⟨first, rest, rfl, isDigit⟩
  · exact ⟨first, _, rfl, isDigit⟩

end IsNumeral

/-- A number without an exponent is a numeral that reads back. -/
theorem positional_isNumeral (decimal : Decimal) :
    ∃ whole fraction,
      IsNumeral decimal.positional whole fraction ∧
        (ofDigits whole fraction).nearestBits = decimal.nearestBits := by
  have isDigit := isDigit_ofNat decimal.digits
  have someDigit : Text.ofNat decimal.digits ≠ [] := by
    simp [Text.ofNat]
  have value := digitsValue_ofNat decimal.digits
  unfold positional
  dsimp only
  generalize Text.ofNat decimal.digits = digits at isDigit someDigit value
  split
  · rename_i noFraction
    refine ⟨_, [], ⟨.inl ⟨rfl, rfl⟩, by simp [someDigit], ?_, by simp⟩, ?_⟩
    · exact List.forall_mem_append.mpr ⟨isDigit, isDigit_zeros _⟩
    · rw [ofDigits, List.append_nil, digitsValue_append, digitsValue_zeros,
        value]
      simp [nearestBits, zeros, noFraction]
  · have places : -((-decimal.exponent).toNat : Int) = decimal.exponent := by
      omega
    split
    · rename_i many
      refine ⟨_, _, ⟨.inr rfl, ?_, ?_, ?_⟩, ?_⟩
      · refine List.ne_nil_of_length_pos ?_
        rw [List.length_take]
        omega
      · exact fun byte member => isDigit byte (List.mem_of_mem_take member)
      · exact fun byte member => isDigit byte (List.mem_of_mem_drop member)
      · have length :
            (digits.drop (digits.length - (-decimal.exponent).toNat)).length =
              (-decimal.exponent).toNat := by
          rw [List.length_drop]
          omega
        rw [ofDigits, List.take_append_drop, length, places, value]
    · rename_i few
      refine ⟨[Text.byte '0'],
        zeros ((-decimal.exponent).toNat - digits.length) ++ digits,
        ⟨.inr ?_, by simp, ?_, ?_⟩, ?_⟩
      · rw [show Text.utf8 "0." = [Text.byte '0', Text.byte '.'] by decide]
        rfl
      · exact List.forall_mem_singleton.mpr (by decide)
      · exact List.forall_mem_append.mpr ⟨isDigit_zeros _, isDigit⟩
      · have length :
            (zeros ((-decimal.exponent).toNat - digits.length) ++
              digits).length =
              (-decimal.exponent).toNat := by
          rw [List.length_append, zeros, List.length_replicate]
          omega
        have nothing : digitsValue [Text.byte '0'] = 0 := by
          decide
        rw [ofDigits, length, places, digitsValue_append, digitsValue_append,
          digitsValue_zeros, value, nothing]
        simp

/-- The text of a number without an exponent denotes the number. -/
theorem nearestBits_ofText_positional (decimal : Decimal) :
    (ofText decimal.positional).nearestBits = decimal.nearestBits := by
  obtain ⟨whole, fraction, numeral, same⟩ := positional_isNumeral decimal
  rw [numeral.ofText, same]

end Decimal

namespace NumberFormat

variable {bits other : Nat}

/-- The text of a finite double in a printed tree. -/
theorem writeBits_tree_of_lt
    (finite : bits < Double.infiniteBits) :
    tree.writeBits bits = (Decimal.shortest bits).positional := by
  have limit : Double.infiniteBits < Double.signBit := by decide
  have magnitude : Double.magnitude bits = bits :=
    Nat.mod_eq_of_lt (by omega)
  have notNegative : Double.isNegative bits = false := by
    simp [Double.isNegative, Nat.div_eq_of_lt (show bits < Double.signBit by omega)]
  unfold writeBits
  simp only [magnitude, notNegative]
  rw [if_neg (by omega), if_neg (by omega)]
  rfl

theorem writeBits_tree_infinite :
    tree.writeBits Double.infiniteBits = Text.utf8 "+Inf" := by
  decide

/-- A double in a printed tree is digits with a point, or the word for
infinity. -/
theorem writeBits_tree_cases
    (number : bits ≤ Double.infiniteBits) :
    ((∃ first rest,
          tree.writeBits bits = first :: rest ∧ Decimal.IsDigit first) ∧
        ∀ byte ∈ tree.writeBits bits,
          Decimal.IsDigit byte ∨ byte = Text.byte '.') ∨
      tree.writeBits bits = Text.utf8 "+Inf" := by
  rcases Nat.lt_or_eq_of_le number with finite | rfl
  · rw [writeBits_tree_of_lt finite]
    obtain ⟨_, _, numeral, -⟩ :=
      Decimal.positional_isNumeral (Decimal.shortest bits)
    exact .inl ⟨numeral.first, fun byte => numeral.bytes⟩
  · exact .inr writeBits_tree_infinite

theorem writeBits_tree_ne
    (finite : bits < Double.infiniteBits) :
    tree.writeBits bits ≠ tree.writeBits Double.infiniteBits := by
  obtain ⟨_, _, numeral, -⟩ :=
    Decimal.positional_isNumeral (Decimal.shortest bits)
  obtain ⟨first, rest, text, isDigit⟩ := numeral.first
  rw [writeBits_tree_of_lt finite, text, writeBits_tree_infinite]
  intro same
  obtain ⟨rfl, -⟩ := List.cons.inj same
  exact absurd isDigit (by decide)

/-- Doubles that are printed alike in a tree are the same. -/
theorem writeBits_tree_injective
    (number : bits ≤ Double.infiniteBits)
    (otherNumber : other ≤ Double.infiniteBits)
    (same : tree.writeBits bits = tree.writeBits other) :
    bits = other := by
  rcases Nat.lt_or_eq_of_le number with finite | rfl
  · rcases Nat.lt_or_eq_of_le otherNumber with otherFinite | rfl
    · rw [writeBits_tree_of_lt finite, writeBits_tree_of_lt otherFinite]
        at same
      rw [← Decimal.nearestBits_shortest finite,
        ← Decimal.nearestBits_shortest otherFinite,
        ← Decimal.nearestBits_ofText_positional, same,
        Decimal.nearestBits_ofText_positional]
    · exact (writeBits_tree_ne finite same).elim
  · rcases Nat.lt_or_eq_of_le otherNumber with otherFinite | rfl
    · exact (writeBits_tree_ne otherFinite same.symm).elim
    · rfl

end NumberFormat

end Script
