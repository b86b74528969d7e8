import Script.Text

namespace Script

/-!
# Glyphs

A text is read one character at a time.  A glyph is one such step: the code
point it stands for together with the very bytes it was read from.  A byte that
begins no UTF-8 sequence is a glyph by itself and stands for the replacement
character, so reading never fails and loses no byte.
-/

/-- One step of reading a text: a code point and the bytes it was read from. -/
structure Glyph where
  code : Nat
  raw : Text
  deriving Repr, DecidableEq

namespace Glyph

/-- The code point that stands for a byte outside every UTF-8 sequence. -/
def replacement : Nat :=
  0xFFFD

/-- Bytes that continue a sequence of several bytes. -/
def isTail (byte : UInt8) : Bool :=
  0x80 ≤ byte && byte ≤ 0xBF

/-- Second bytes that may follow a lead byte: no overlong form, no surrogate and
nothing beyond the last code point is a sequence. -/
def allowsSecond
    (lead : UInt8)
    (second : UInt8) :
    Bool :=
  if lead = 0xE0 then
    0xA0 ≤ second && second ≤ 0xBF
  else if lead = 0xED then
    0x80 ≤ second && second ≤ 0x9F
  else if lead = 0xF0 then
    0x90 ≤ second && second ≤ 0xBF
  else if lead = 0xF4 then
    0x80 ≤ second && second ≤ 0x8F
  else
    isTail second

/-- The low six bits, which a continuing byte adds to the code point. -/
def payload (byte : UInt8) : Nat :=
  byte.toNat % 64

/-- The sequence of two, three or four bytes that starts with `lead`. -/
def sequence?
    (lead : UInt8) :
    Text → Option Glyph
  | [] =>
      none
  | second :: rest =>
      if 0xC2 ≤ lead && lead ≤ 0xDF then
        if isTail second then
          some
            { code := lead.toNat % 32 * 64 + payload second
              raw := [lead, second] }
        else
          none
      else
        match rest with
        | [] =>
            none
        | third :: rest =>
            if 0xE0 ≤ lead && lead ≤ 0xEF then
              if allowsSecond lead second && isTail third then
                some
                  { code :=
                      (lead.toNat % 16 * 64 + payload second) * 64 +
                        payload third
                    raw := [lead, second, third] }
              else
                none
            else
              match rest with
              | [] =>
                  none
              | fourth :: _ =>
                  if 0xF0 ≤ lead && lead ≤ 0xF4 &&
                      allowsSecond lead second &&
                      isTail third && isTail fourth then
                    some
                      { code :=
                          ((lead.toNat % 8 * 64 + payload second) * 64 +
                            payload third) * 64 + payload fourth
                        raw := [lead, second, third, fourth] }
                  else
                    none

/-- The glyph at the front of a text that starts with `lead`. -/
def first
    (lead : UInt8)
    (rest : Text) :
    Glyph :=
  if lead < 0x80 then
    { code := lead.toNat, raw := [lead] }
  else
    (sequence? lead rest).getD
      { code := replacement, raw := [lead] }

/-- Read a text whose first `skipped` bytes belong to a glyph already read. -/
def decodeAfter : Nat → Text → List Glyph
  | _, [] =>
      []
  | 0, lead :: rest =>
      let glyph := first lead rest
      glyph :: decodeAfter (glyph.raw.length - 1) rest
  | skipped + 1, _ :: rest =>
      decodeAfter skipped rest

/-- Read a text from front to back as glyphs. -/
def decode (text : Text) : List Glyph :=
  decodeAfter 0 text

/-- The bytes that a list of glyphs was read from. -/
def bytes (glyphs : List Glyph) : Text :=
  glyphs.flatMap raw

/-- Whether a glyph is a byte outside every UTF-8 sequence. -/
def isInvalid (glyph : Glyph) : Bool :=
  glyph.code == replacement && glyph.raw.length == 1

/-- The UTF-8 bytes of a code point. -/
def encode (code : Nat) : Text :=
  String.utf8EncodeChar (Char.ofNat code)

end Glyph

/-- Whether a text is UTF-8 throughout. -/
def Text.isValid (text : Text) : Bool :=
  (Glyph.decode text).all (!·.isInvalid)

end Script
