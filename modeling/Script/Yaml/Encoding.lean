import Script.Text.Glyph
import Script.Yaml.Fault

namespace Script.Yaml

/-!
# From bytes to characters

A document is UTF-8, or UTF-16 when it starts with the byte order mark of one
of its two orders.  The bytes are decoded in blocks, the next one when one of
its characters is asked for; a flaw therefore shows before anything that the
same block says.
-/

/-- How characters are written as bytes. -/
inductive Encoding where
  | utf8
  | utf16 (littleEndian : Bool)
  deriving Repr, DecidableEq

/-- What decoding at the front of some bytes comes to. -/
inductive Reading where
  | character (code : Nat) (width : Nat)
  | short (cause : Malformation)
  | flawed (cause : Malformation)
  deriving Repr, DecidableEq

namespace Encoding

/-- Code points that a document may hold. -/
def isAllowed (code : Nat) : Bool :=
  code == 0x09 || code == 0x0A || code == 0x0D ||
    (0x20 ≤ code && code ≤ 0x7E) || code == 0x85 ||
    (0xA0 ≤ code && code ≤ 0xD7FF) || (0xE000 ≤ code && code ≤ 0xFFFD) ||
    (0x10000 ≤ code && code ≤ 0x10FFFF)

/-- A code point that was decoded, if a document may hold it. -/
def allowed
    (code : Nat)
    (width : Nat) :
    Reading :=
  if isAllowed code then
    .character code width
  else
    .flawed .controlCharacter

/-- The number of bytes that a lead byte of UTF-8 announces. -/
def announcedWidth? (lead : UInt8) : Option Nat :=
  if lead < 0x80 then
    some 1
  else if lead < 0xC0 then
    none
  else if lead < 0xE0 then
    some 2
  else if lead < 0xF0 then
    some 3
  else if lead < 0xF8 then
    some 4
  else
    none

/-- The part of the code point that is in a lead byte of UTF-8. -/
def leadPayload
    (lead : UInt8)
    (width : Nat) :
    Nat :=
  match width with
  | 1 =>
      lead.toNat
  | 2 =>
      lead.toNat % 32
  | 3 =>
      lead.toNat % 16
  | _ =>
      lead.toNat % 8

/-- The least code point for which UTF-8 needs a number of bytes. -/
def leastCode (width : Nat) : Nat :=
  match width with
  | 1 =>
      0
  | 2 =>
      0x80
  | 3 =>
      0x800
  | _ =>
      0x10000

/-- Decode the character of UTF-8 at the front of some bytes. -/
def readUtf8 (bytes : Text) : Reading :=
  match bytes with
  | [] =>
      .short .incompleteSequence
  | lead :: rest =>
      match announcedWidth? lead with
      | none =>
          .flawed .invalidLead
      | some width =>
          let tails := rest.take (width - 1)
          if tails.length < width - 1 then
            .short .incompleteSequence
          else if !tails.all Glyph.isTail then
            .flawed .invalidTail
          else
            let code :=
              tails.foldl (fun code tail => code * 64 + Glyph.payload tail)
                (leadPayload lead width)
            if code < leastCode width then
              .flawed .overlongSequence
            else if (0xD800 ≤ code && code ≤ 0xDFFF) || 0x10FFFF < code then
              .flawed .invalidCharacter
            else
              allowed code width

/-- The number that two bytes of UTF-16 spell. -/
def unit
    (littleEndian : Bool)
    (first : UInt8)
    (second : UInt8) :
    Nat :=
  if littleEndian then
    second.toNat * 256 + first.toNat
  else
    first.toNat * 256 + second.toNat

/-- Decode the character of UTF-16 at the front of some bytes. -/
def readUtf16
    (littleEndian : Bool)
    (bytes : Text) :
    Reading :=
  match bytes with
  | first :: second :: rest =>
      let high := unit littleEndian first second
      if 0xDC00 ≤ high && high ≤ 0xDFFF then
        .flawed .lowSurrogate
      else if 0xD800 ≤ high && high ≤ 0xDBFF then
        match rest with
        | third :: fourth :: _ =>
            let low := unit littleEndian third fourth
            if 0xDC00 ≤ low && low ≤ 0xDFFF then
              allowed (0x10000 + high % 1024 * 1024 + low % 1024) 4
            else
              .flawed .missingLowSurrogate
        | _ =>
            .short .incompletePair
      else
        allowed high 2
  | _ =>
      .short .incompleteUnit

/-- Decode the character at the front of some bytes. -/
def read : Encoding → Text → Reading
  | .utf8, bytes =>
      readUtf8 bytes
  | .utf16 littleEndian, bytes =>
      readUtf16 littleEndian bytes

/-- The encoding that the first bytes of a text tell, and the number of bytes
of the mark that tells it. -/
def detect : Text → Encoding × Nat
  | 0xFF :: 0xFE :: _ =>
      (.utf16 true, 2)
  | 0xFE :: 0xFF :: _ =>
      (.utf16 false, 2)
  | 0xEF :: 0xBB :: 0xBF :: _ =>
      (.utf8, 3)
  | _ =>
      (.utf8, 0)

end Encoding

/-- The characters of a document as far as its bytes can be decoded. -/
structure Stream where
  characters : List Char
  /-- The number of characters up to the end of each block without a flaw. -/
  blocks : List Nat
  /-- What is wrong with the bytes behind the last character. -/
  flaw : Option Malformation
  deriving Repr, DecidableEq

namespace Stream

/-- The number of bytes in a block. -/
def blockSize : Nat :=
  512

/-- No character has more bytes than this. -/
def longest : Nat :=
  4

/-- Decode some bytes.  `room` is the number of bytes that the current block
still has, `count` the number of characters decoded so far, and `current` holds
those of the current block, the last one first.  The bound has to be greater
than twice the number of bytes. -/
def decodeBlocks
    (encoding : Encoding) :
    Nat → Nat → Nat → List Char → Text → Stream
  | 0, _, count, current, _ =>
      { characters := current.reverse, blocks := [count], flaw := none }
  | bound + 1, room, count, current, bytes =>
      if bytes.isEmpty then
        { characters := current.reverse, blocks := [count], flaw := none }
      else
        match encoding.read (bytes.take (min room longest)) with
        | .character code width =>
            decodeBlocks encoding bound (room - width) (count + 1)
              (Char.ofNat code :: current) (bytes.drop width)
        | .flawed cause =>
            { characters := current.reverse, blocks := [], flaw := some cause }
        | .short cause =>
            if bytes.length ≤ room then
              { characters := current.reverse
                blocks := [count]
                flaw := some cause }
            else
              let later :=
                decodeBlocks encoding bound blockSize count [] bytes
              { characters := current.reverse ++ later.characters
                blocks := count :: later.blocks
                flaw := later.flaw }

/-- Decode a text. -/
def ofText (text : Text) : Stream :=
  let (encoding, width) := Encoding.detect text
  decodeBlocks encoding (2 * text.length + 2) (blockSize - width) 0 []
    (text.drop width)

end Stream

end Script.Yaml
