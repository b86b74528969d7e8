import Script.Proofs.Number.Positional
import Script.Proofs.Token.Respaced
import Script.Session

namespace Script

/-!
# Numbers are shown as they are written

A finite number is shown as a sign, digits and, behind a point, more digits,
which is how numbers are written in a program.  So the text of a number is an
expression: scanned, parsed and evaluated, it gives the same number again, bit
for bit, and showing that gives the same text.
-/

namespace Double

open Float.Model Float.Model.UnpackedFloat

/-- The bit of the sign tells a number from its opposite. -/
theorem unpack_eq_neg
    {negative positive : BitVec Format.binary64.numBits}
    (sign : negative.toNat = signBit + positive.toNat) :
    UnpackedFloat.unpack _ negative = (UnpackedFloat.unpack _ positive).neg := by
  have limit : signBit = 2 ^ 63 := by
    decide
  have small : negative.toNat < 2 ^ 64 := negative.isLt
  have mantissa : unpackMantissa negative = unpackMantissa positive := by
    apply BitVec.eq_of_toNat_eq
    simp [unpackMantissa, sign, limit]
    omega
  have exponent : unpackExponent negative = unpackExponent positive := by
    apply BitVec.eq_of_toNat_eq
    simp [unpackExponent, Nat.shiftRight_eq_div_pow, sign, limit]
    omega
  have isSet : unpackSign negative = 1#1 := by
    apply BitVec.eq_of_toNat_eq
    simp [unpackSign, Nat.shiftRight_eq_div_pow, sign, limit]
    omega
  have isClear : unpackSign positive = 0#1 := by
    apply BitVec.eq_of_toNat_eq
    simp [unpackSign, Nat.shiftRight_eq_div_pow]
    omega
  simp only [UnpackedFloat.unpack, mantissa, exponent, isSet, isClear]
  split
  · split <;> rfl
  · split
    · split <;> rfl
    · rfl

/-- A number with the bit of the sign is the opposite of the one without it. -/
theorem eq_neg_of_toBits
    {negative positive : Float}
    (sign : negative.toBits.toNat = signBit + positive.toBits.toNat) :
    negative = -positive := by
  have opposite :
      UnpackedFloat.unpack .binary64 negative.toBits.toBitVec =
        (UnpackedFloat.unpack .binary64 positive.toBits.toBitVec).neg :=
    unpack_eq_neg sign
  have whole := pack_unpack_of_valid negative.toModel.valid
  refine Float.toBits_inj.mp (UInt64.toBitVec_inj.mp (whole.symm.trans ?_))
  exact congrArg (UnpackedFloat.pack _) opposite

/-- A number is its magnitude or the opposite of that, as its sign says. -/
theorem eq_of_magnitude
    {number positive : Float}
    (same : positive.toBits.toNat = magnitude number.toBits.toNat) :
    number =
      if isNegative number.toBits.toNat then -positive else positive := by
  have limit : signBit = 2 ^ 63 := by
    decide
  have small : number.toBits.toNat < 2 ^ 64 := number.toBits.toBitVec.isLt
  rw [magnitude, limit] at same
  split
  · rename_i negative
    have sign : number.toBits.toNat / signBit = 1 := eq_of_beq negative
    rw [limit] at sign
    exact eq_neg_of_toBits (by omega)
  · rename_i notNegative
    have sign : number.toBits.toNat / signBit ≠ 1 := by
      simpa [isNegative] using notNegative
    rw [limit] at sign
    exact Float.toBits_inj.mp (UInt64.toNat_inj.mp (by omega))

end Double

namespace Decimal

/-- A numeral as programs have them: behind its point there is a digit. -/
structure IsWritten
    (text whole fraction : Text) :
    Prop where
  numeral : IsNumeral text whole fraction
  pointed : fraction = [] → text = whole

/-- A number without an exponent ends in a digit. -/
theorem positional_last (decimal : Decimal) :
    ∃ last ∈ decimal.positional.getLast?, IsDigit last := by
  have isDigit := isDigit_ofNat decimal.digits
  have someDigit : Text.ofNat decimal.digits ≠ [] := by
    simp [Text.ofNat]
  unfold positional
  dsimp only
  generalize Text.ofNat decimal.digits = digits at isDigit someDigit
  have ends (front back : Text)
      (someBack : back ≠ [])
      (isDigit : ∀ byte ∈ back, IsDigit byte) :
      ∃ last ∈ (front ++ back).getLast?, IsDigit last := by
    refine ⟨back.getLast someBack, ?_, isDigit _ (List.getLast_mem someBack)⟩
    rw [List.getLast?_append_of_ne_nil _ someBack]
    exact List.getLast?_eq_some_getLast someBack
  split
  · refine ends [] _ (by simp [someDigit]) ?_
    exact List.forall_mem_append.mpr ⟨isDigit, isDigit_zeros _⟩
  · split
    · rename_i some many
      have behind :
          digits.drop (digits.length - (-decimal.exponent).toNat) ≠ [] := by
        refine List.ne_nil_of_length_pos ?_
        rw [List.length_drop]
        omega
      rw [List.append_cons]
      exact ends _ _ behind fun byte member =>
        isDigit byte (List.mem_of_mem_drop member)
    · exact ends _ _ someDigit isDigit

/-- A number without an exponent is written as in a program. -/
theorem positional_isWritten (decimal : Decimal) :
    ∃ whole fraction,
      IsWritten decimal.positional whole fraction ∧
        (ofDigits whole fraction).nearestBits = decimal.nearestBits := by
  obtain ⟨whole, fraction, numeral, value⟩ := positional_isNumeral decimal
  refine ⟨whole, fraction, ⟨numeral, ?_⟩, value⟩
  rintro rfl
  rcases numeral.spelled with ⟨text, -⟩ | text
  · exact text
  · obtain ⟨last, isLast, isDigit⟩ := positional_last decimal
    rw [text, List.getLast?_concat, Option.mem_some_iff] at isLast
    subst isLast
    exact absurd isDigit (by decide)

end Decimal

/-! The text of a number is scanned as one number. -/

namespace Glyph

/-- Bytes below 0x80 are read one by one. -/
theorem decode_plain
    (text : Text)
    (plain : ∀ byte ∈ text, byte < 0x80) :
    decode text = text.map ofByte := by
  induction text with
  | nil =>
      rfl
  | cons byte rest inductionHypothesis =>
      have later := inductionHypothesis fun other member =>
        plain other (List.mem_cons_of_mem _ member)
      have here := decode_append_plain (plain byte List.mem_cons_self) [] rest
      rw [List.map_cons, ← later]
      exact here

@[simp]
theorem bytes_ofByte (text : Text) :
    bytes (text.map ofByte) = text := by
  induction text with
  | nil =>
      rfl
  | cons byte rest inductionHypothesis =>
      exact congrArg (byte :: ·) inductionHypothesis

theorem isDigit_ofByte
    {byte : UInt8}
    (isDigit : Decimal.IsDigit byte) :
    (ofByte byte).isDigit = true := by
  rw [Glyph.isDigit, Bool.and_eq_true]
  exact ⟨decide_eq_true isDigit.1, decide_eq_true isDigit.2⟩

theorem isDigit_map_ofByte
    {digits : Text}
    (isDigit : ∀ byte ∈ digits, Decimal.IsDigit byte) :
    ∀ glyph ∈ digits.map ofByte, glyph.isDigit = true := by
  intro glyph member
  obtain ⟨byte, byteMember, rfl⟩ := List.mem_map.mp member
  exact isDigit_ofByte (isDigit byte byteMember)

end Glyph

namespace Segment

open Glyph (ofByte)

/-- A text is cut behind the segment at its front. -/
theorem splitAfter_front
    {first : Glyph}
    {tail behind : List Glyph}
    {segment : Segment}
    (isFront : front first (tail ++ behind) = segment)
    (glyphs : segment.glyphs = first :: tail) :
    splitAfter 0 (first :: tail ++ behind) = segment :: splitAfter 0 behind := by
  obtain ⟨frontTail, rest, whole, shape, cut⟩ :=
    splitAfter_cons first (tail ++ behind)
  rw [isFront, glyphs] at shape
  obtain rfl := (List.cons.inj shape).2
  rw [List.cons_append, cut, isFront, List.append_cancel_left whole]

section Number

variable {stop : Glyph} (noDigit : stop.isDigit = false) (rest : List Glyph)

include noDigit

/-- Digits end where something else stands behind them. -/
theorem takeWhile_isDigit
    {digits : Text}
    (isDigit : ∀ byte ∈ digits, Decimal.IsDigit byte) :
    (digits.map ofByte ++ stop :: rest).takeWhile Glyph.isDigit =
      digits.map ofByte := by
  rw [takeWhile_append_stop _ noDigit,
    List.takeWhile_eq_self_iff.mpr (Glyph.isDigit_map_ofByte isDigit)]

theorem dropWhile_isDigit
    {digits : Text}
    (isDigit : ∀ byte ∈ digits, Decimal.IsDigit byte) :
    (digits.map ofByte ++ stop :: rest).dropWhile Glyph.isDigit =
      stop :: rest := by
  rw [dropWhile_append_stop _ noDigit,
    List.dropWhile_eq_nil_iff.mpr (Glyph.isDigit_map_ofByte isDigit)]
  rfl

/-- The segment of a numeral, which denotes its decimal. -/
def decimal (text whole fraction : Text) : Segment :=
  .lexeme .number (.number (Decimal.ofDigits whole fraction).toFloat)
    (text.map ofByte)

/-- A numeral is one segment, when neither a digit nor a point is behind it. -/
theorem splitAfter_numeral
    {text whole fraction : Text}
    (written : Decimal.IsWritten text whole fraction)
    (noPoint : stop.is '.' = false) :
    splitAfter 0 (text.map ofByte ++ stop :: rest) =
      decimal text whole fraction :: splitAfter 0 (stop :: rest) := by
  obtain ⟨first, others, rfl⟩ :=
    List.exists_cons_of_ne_nil written.numeral.someDigit
  have isDigit := List.forall_mem_cons.mp written.numeral.whole
  have isFirst := Glyph.isDigit_ofByte isDigit.1
  cases fraction with
  | nil =>
      obtain rfl := written.pointed rfl
      have noFraction : fraction (stop :: rest) = [] := by
        cases rest with
        | nil =>
            rfl
        | cons second behind =>
            simp [fraction, noPoint]
      refine splitAfter_front ?_ rfl
      rw [front_of_isDigit isFirst, number,
        takeWhile_isDigit noDigit rest isDigit.2,
        dropWhile_isDigit noDigit rest isDigit.2, noFraction, ← List.map_cons,
        Glyph.bytes_ofByte]
      simp [decimal, Glyph.bytes]
  | cons digit digits =>
      obtain rfl : text =
          first :: (others ++ Text.byte '.' :: digit :: digits) := by
        rcases written.numeral.spelled with ⟨-, nothing⟩ | text
        · cases nothing
        · exact text
      have isDigitBehind := List.forall_mem_cons.mp written.numeral.fraction
      have isSecond := Glyph.isDigit_ofByte isDigitBehind.1
      have pointNoDigit : (ofByte (Text.byte '.')).isDigit = false := by
        decide
      have tail :
          (others ++ Text.byte '.' :: digit :: digits).map ofByte ++
              stop :: rest =
            others.map ofByte ++ ofByte (Text.byte '.') ::
              ofByte digit :: (digits.map ofByte ++ stop :: rest) := by
        simp
      have behind :
          fraction (ofByte (Text.byte '.') :: ofByte digit ::
              (digits.map ofByte ++ stop :: rest)) =
            (digit :: digits).map ofByte := by
        rw [fraction, isSecond, takeWhile_isDigit noDigit rest isDigitBehind.2]
        rfl
      refine splitAfter_front ?_ rfl
      rw [tail, front_of_isDigit isFirst, number,
        takeWhile_isDigit pointNoDigit _ isDigit.2,
        dropWhile_isDigit pointNoDigit _ isDigit.2, behind, ← List.map_cons,
        Glyph.bytes_ofByte, Glyph.bytes_ofByte]
      simp [decimal]

end Number

/-- The segment of a minus sign. -/
def minus : Segment :=
  .lexeme .minus .nil [ofByte (Text.byte '-')]

/-- The segments of a number with its sign. -/
def signed
    (negative : Bool)
    (text whole fraction : Text) :
    List Segment :=
  (if negative then [minus] else []) ++ [decimal text whole fraction]

/-- The segment of a semicolon. -/
def semicolon : Segment :=
  .lexeme .semicolon .nil [ofByte (Text.byte ';')]

/-- The segments in front of what is printed. -/
def printing : List Segment :=
  [.lexeme (.keyword .printWord) .nil ((Text.utf8 "print").map ofByte),
   .blank .space]

theorem splitAfter_print (rest : List Glyph) :
    splitAfter 0 ((Text.utf8 "print ").map ofByte ++ rest) =
      printing ++ splitAfter 0 rest := by
  have isSpace := Glyph.space_isSpace
  have starts : (ofByte (Text.byte 'p')).startsName = true := by
    decide +kernel
  have continues :
      ((Text.utf8 "rint").map ofByte).takeWhile Glyph.continuesName =
        (Text.utf8 "rint").map ofByte := by
    decide +kernel
  have isWord :
      front (ofByte (Text.byte 'p'))
          ((Text.utf8 "rint").map ofByte ++ .space :: rest) =
        .lexeme (.keyword .printWord) .nil
          ((Text.utf8 "print").map ofByte) := by
    rw [front_of_startsName starts, word,
      takeWhile_append_stop _ isSpace.noName, continues]
    rfl
  have word :
      splitAfter 0
          (ofByte (Text.byte 'p') :: (Text.utf8 "rint").map ofByte ++
            .space :: rest) =
        .lexeme (.keyword .printWord) .nil
            ((Text.utf8 "print").map ofByte) ::
          splitAfter 0 (.space :: rest) :=
    splitAfter_front isWord rfl
  have blank :
      splitAfter 0 ([Glyph.space] ++ rest) =
        .blank .space :: splitAfter 0 rest :=
    splitAfter_front (front_of_separates isSpace.separates) rfl
  exact word.trans (congrArg (_ :: ·) blank)

end Segment

namespace Decimal

/-- A text of digits behind a sign. -/
def signed
    (negative : Bool)
    (text : Text) :
    Text :=
  (if negative then [Text.byte '-'] else []) ++ text

namespace IsWritten

open Segment
open Glyph (ofByte)

variable
  {text whole fraction : Text}
  (written : IsWritten text whole fraction)
  (negative : Bool)

include written

/-- A number in front of a semicolon is a minus sign, if it has one, and a
numeral. -/
theorem splitAfter_signed :
    splitAfter 0 ((signed negative text ++ [Text.byte ';']).map ofByte) =
      Segment.signed negative text whole fraction ++ [semicolon] := by
  have positive :
      splitAfter 0 ((text ++ [Text.byte ';']).map ofByte) =
        [decimal text whole fraction, semicolon] := by
    rw [List.map_append]
    have noDigit : (ofByte (Text.byte ';')).isDigit = false := by
      decide
    exact splitAfter_numeral noDigit [] written (by decide)
  cases negative with
  | false =>
      exact positive
  | true =>
      have sign :
          splitAfter 0
              (([ofByte (Text.byte '-')] ++
                (text ++ [Text.byte ';']).map ofByte)) =
            minus :: splitAfter 0 ((text ++ [Text.byte ';']).map ofByte) :=
        splitAfter_front (front_of_mark? (by decide)) rfl
      rw [positive] at sign
      exact sign

theorem plain :
    ∀ byte ∈ signed negative text ++ [Text.byte ';'], byte < 0x80 := by
  have digits : ∀ byte ∈ text, byte < 0x80 := by
    intro byte member
    rcases written.numeral.bytes member with isDigit | rfl
    · exact UInt8.lt_iff_toNat_lt.mpr (Nat.lt_of_le_of_lt isDigit.2 (by decide))
    · decide
  refine List.forall_mem_append.mpr
    ⟨List.forall_mem_append.mpr ⟨?_, digits⟩,
      List.forall_mem_singleton.mpr (by decide)⟩
  cases negative with
  | false =>
      exact fun byte member => nomatch member
  | true =>
      exact List.forall_mem_singleton.mpr (by decide)

/-- A number and a semicolon. -/
theorem split_signed :
    split (signed negative text ++ [Text.byte ';']) =
      Segment.signed negative text whole fraction ++ [semicolon] := by
  rw [split, Glyph.decode_plain _ (written.plain negative)]
  exact written.splitAfter_signed negative

/-- A number that is printed. -/
theorem split_print :
    split
        (Text.utf8 "print " ++ (signed negative text ++ [Text.byte ';'])) =
      printing ++
        (Segment.signed negative text whole fraction ++ [semicolon]) := by
  have plain :
      ∀ byte ∈ Text.utf8 "print " ++ (signed negative text ++ [Text.byte ';']),
        byte < 0x80 :=
    List.forall_mem_append.mpr ⟨by decide +kernel, written.plain negative⟩
  rw [split, Glyph.decode_plain _ plain, List.map_append, splitAfter_print,
    written.splitAfter_signed]

end IsWritten

end Decimal

/-- A number with a minus sign in front of it, if it has one. -/
def Expr.signed
    (negative : Bool)
    (minus : Token)
    (positive : Float) :
    Expr :=
  if negative then
    .unary minus (.literal (.number positive))
  else
    .literal (.number positive)

namespace Decimal.IsWritten

variable
  {text whole fraction : Text}
  (written : IsWritten text whole fraction)
  (negative : Bool)

include written

/-- A written number is a number with its sign. -/
theorem ofSource_signed :
    ∃ minus : Token,
      minus.kind = .minus ∧
        Program.ofSource (signed negative text ++ [Text.byte ';']) =
          { statements :=
              [.expression
                (.signed negative minus (ofDigits whole fraction).toFloat)]
            problems := [] } := by
  have split := written.split_signed negative
  refine ⟨⟨.minus, [Text.byte '-'], .nil, 1⟩, rfl, ?_⟩
  rw [Program.ofSource, Scan.ofSource, split]
  cases negative <;> rfl

/-- A written number that is printed. -/
theorem ofSource_print :
    ∃ minus : Token,
      minus.kind = .minus ∧
        Program.ofSource
            (Text.utf8 "print " ++ (signed negative text ++ [Text.byte ';'])) =
          { statements :=
              [.print
                (.signed negative minus (ofDigits whole fraction).toFloat)]
            problems := [] } := by
  have split := written.split_print negative
  refine ⟨⟨.minus, [Text.byte '-'], .nil, 1⟩, rfl, ?_⟩
  rw [Program.ofSource, Scan.ofSource, split]
  cases negative <;> rfl

end Decimal.IsWritten

/-- A number with its sign evaluates to the number or to its opposite. -/
theorem Machine.evaluate_signed
    {minus : Token}
    (isMinus : minus.kind = .minus)
    (negative : Bool)
    (positive : Float)
    (fuel : Nat)
    (machine : Machine) :
    evaluate (fuel + 2) (.signed negative minus positive) machine =
      .done (.number (if negative then -positive else positive)) machine := by
  cases negative with
  | false =>
      rfl
  | true =>
      simp [Expr.signed, evaluate, Outcome.bind, Value.ofLiteral, isMinus,
        Value.unary, settle]

/-- Printing a number uses no names. -/
theorem Resolution.ofStatements_print
    (negative : Bool)
    (minus : Token)
    (positive : Float) :
    ofStatements [.print (.signed negative minus positive)] =
      { statements := [.print (.signed negative minus positive)]
        problems := [] } := by
  cases negative <;> rfl

/-- What is told of a number by its text: it is a sign, digits and, behind a
point, more digits; as an expression it gives the number, and printing that
gives the text again. -/
structure ReadsBack
    (number : Float)
    (text : Text) :
    Prop where
  spelled :
    ∃ digits whole fraction,
      text =
          Decimal.signed (Double.isNegative number.toBits.toNat) digits ∧
        Decimal.IsWritten digits whole fraction
  evaluated :
    ∃ minus positive,
      minus.kind = .minus ∧
        let expr :=
          Expr.signed (Double.isNegative number.toBits.toNat) minus positive
        Program.ofSource (text ++ [Text.byte ';']) =
            { statements := [.expression expr], problems := [] } ∧
          ∀ fuel machine,
            Machine.evaluate (fuel + 2) expr machine =
              .done (.number number) machine
  printed :
    ∀ fuel machine,
      Machine.runSource (fuel + 3)
          (Text.utf8 "print " ++ (text ++ [Text.byte ';'])) machine =
        (.finished, machine.print text)

namespace NumberFormat

/-- A finite number is shown with its sign, and without an exponent. -/
theorem display_write
    {number : Float}
    (finite :
      Double.magnitude number.toBits.toNat < Double.infiniteBits) :
    display.write number =
      Decimal.signed (Double.isNegative number.toBits.toNat)
        (Decimal.shortest
          (Double.magnitude number.toBits.toNat)).positional := by
  rw [write, writeBits]
  simp only
  rw [if_neg (by omega), if_neg (by omega)]
  cases Double.isNegative number.toBits.toNat <;> rfl

/-- The text of a finite number reads back, bit for bit. -/
theorem display_readsBack
    (number : Float)
    (finite :
      Double.magnitude number.toBits.toNat < Double.infiniteBits) :
    ReadsBack number (display.write number) := by
  obtain ⟨whole, fraction, written, value⟩ :=
    Decimal.positional_isWritten
      (Decimal.shortest (Double.magnitude number.toBits.toNat))
  have bits :
      (Decimal.ofDigits whole fraction).toFloat.toBits.toNat =
        Double.magnitude number.toBits.toNat := by
    rw [Decimal.toBits_toFloat, value, Decimal.nearestBits_shortest finite]
  have same := Double.eq_of_magnitude bits
  have shown := display_write finite
  have evaluates {minus : Token} (isMinus : minus.kind = .minus) :=
    Machine.evaluate_signed isMinus
      (Double.isNegative number.toBits.toNat)
      (Decimal.ofDigits whole fraction).toFloat
  simp only [← same] at evaluates
  refine ⟨⟨_, whole, fraction, shown, written⟩, ?_, ?_⟩
  · obtain ⟨minus, isMinus, program⟩ :=
      written.ofSource_signed (Double.isNegative number.toBits.toNat)
    rw [← shown] at program
    exact ⟨minus, _, isMinus, program, evaluates isMinus⟩
  · intro fuel machine
    obtain ⟨minus, isMinus, program⟩ :=
      written.ofSource_print (Double.isNegative number.toBits.toNat)
    rw [← shown] at program
    have outcome := evaluates isMinus fuel machine
    simp only [Machine.runSource, program, Resolution.ofStatements_print,
      Machine.runTree, Machine.interpret, Machine.execute, outcome,
      Outcome.bind, Outcome.split, Value.display]
    rfl

/-- The opposite of zero is shown with its sign and reads back as itself. -/
theorem display_readsBack_negativeZero :
    (Double.magnitude (Float.ofBits 0x8000000000000000).toBits.toNat <
        Double.infiniteBits ∧
      display.write (Float.ofBits 0x8000000000000000) = Text.utf8 "-0") ∧
      ReadsBack (Float.ofBits 0x8000000000000000) (Text.utf8 "-0") := by
  have finite :
      Double.magnitude (Float.ofBits 0x8000000000000000).toBits.toNat <
        Double.infiniteBits := by
    decide
  have shown :
      display.write (Float.ofBits 0x8000000000000000) = Text.utf8 "-0" := by
    decide +kernel
  exact ⟨⟨finite, shown⟩, shown ▸ display_readsBack _ finite⟩

end NumberFormat

end Script
