import Script.Number.Format
import Script.Text.Quoted
import Script.Yaml.Meaning

namespace Script.Yaml

/-!
# The content of nodes

What a node means when nothing is wanted of it: a scalar means what it spells,
and a collection consists of the contents in it.  The keys of a mapping are
scalars, all of them texts in a textual one.  A content is written out where a
message has to show it, a mapping in the order of its keys.
-/

namespace Timestamp

/-- Whether a timestamp comes before another in order, or with it. -/
def precedes
    (first : Timestamp)
    (second : Timestamp) :
    Bool :=
  let (fraction, instant, shift) := first.rank
  let (otherFraction, otherInstant, otherShift) := second.rank
  fraction < otherFraction ||
    (fraction == otherFraction &&
      (instant < otherInstant ||
        (instant == otherInstant && shift ≤ otherShift)))

end Timestamp

/-- Whether a text comes before another in order, or is the same. -/
def textPrecedes : Text → Text → Bool
  | [], _ =>
      true
  | _ :: _, [] =>
      false
  | first :: rest, second :: others =>
      first < second || (first == second && textPrecedes rest others)

/-- The place of a double among all: what is no number comes first. -/
def doubleRank (bits : Nat) : Int :=
  let magnitude := Double.magnitude bits
  if Double.infiniteBits < magnitude then
    -(wordBound : Int)
  else if Double.isNegative bits then
    -(magnitude : Int)
  else
    magnitude

namespace Meaning

/-- The place of a kind of meaning among all.  Integers that need the sign's bit
are a kind of their own. -/
def kindRank : Meaning → Nat
  | .null =>
      0
  | .truth _ =>
      1
  | .float _ =>
      2
  | .integer value =>
      if value < (wordBound / 2 : Nat) then 3 else 5
  | .text _ =>
      4
  | .timestamp _ =>
      6

/-- Whether a key comes before another in order, or with it. -/
def precedes
    (first : Meaning)
    (second : Meaning) :
    Bool :=
  if first.kindRank = second.kindRank then
    match first, second with
    | .truth value, .truth other =>
        !value || other
    | .float bits, .float other =>
        doubleRank bits ≤ doubleRank other
    | .integer value, .integer other =>
        value ≤ other
    | .text value, .text other =>
        textPrecedes value other
    | .timestamp moment, .timestamp other =>
        moment.precedes other
    | _, _ =>
        true
  else
    first.kindRank < second.kindRank

/-- How a meaning is written. -/
def written : Meaning → Text
  | .null =>
      Text.utf8 "interface \x7b\x7d(nil)"
  | .truth value =>
      Text.utf8 (if value then "true" else "false")
  | .integer value =>
      if value < (wordBound / 2 : Nat) then
        Text.ofInt value
      else
        Text.utf8 "0x" ++ Text.hexadecimal 16 value.toNat
  | .float bits =>
      NumberFormat.token.writeBits bits
  | .timestamp moment =>
      moment.written
  | .text value =>
      Text.quote value

end Meaning

/-- What a node means when nothing is wanted of it. -/
inductive Content where
  | scalar (meaning : Meaning)
  | sequence (items : List Content)
  | mapping (isTextual : Bool) (entries : List (Meaning × Content))
  deriving Repr

namespace Content

/-- The name of the kind of a sequence. -/
def sequenceKind : Text :=
  Text.utf8 "[]interface \x7b\x7d"

/-- The name of the kind of a mapping. -/
def mappingKind (isTextual : Bool) : Text :=
  Text.utf8
    (if isTextual then
      "map[string]interface \x7b\x7d"
    else
      "map[interface \x7b\x7d]interface \x7b\x7d")

/-- The name of the kind of a collection. -/
def kind : Content → Text
  | .scalar meaning =>
      meaning.tag
  | .sequence _ =>
      sequenceKind
  | .mapping isTextual _ =>
      mappingKind isTextual

/-- Parts with a comma between each two, and all of them between braces. -/
def braced (parts : List Text) : Text :=
  Text.utf8 "\x7b" ++ (Text.utf8 ", ").intercalate parts ++ Text.utf8 "\x7d"

/-- Written values of keys, in the order of the keys. -/
def writtenInOrder (entries : List (Meaning × Text)) : List Text :=
  (entries.mergeSort fun first second => first.1.precedes second.1).map
    fun (key, value) => key.written ++ Text.utf8 ":" ++ value

mutual

/-- How a content is written. -/
def written : Content → Text
  | .scalar meaning =>
      meaning.written
  | .sequence items =>
      sequenceKind ++ braced (writtenItems items)
  | .mapping isTextual entries =>
      mappingKind isTextual ++ braced (writtenInOrder (writtenValues entries))

/-- How the items of a sequence are written. -/
def writtenItems : List Content → List Text
  | [] =>
      []
  | item :: rest =>
      written item :: writtenItems rest

/-- The keys of a mapping, and how their values are written. -/
def writtenValues : List (Meaning × Content) → List (Meaning × Text)
  | [] =>
      []
  | (key, value) :: rest =>
      (key, written value) :: writtenValues rest

end

end Content

/-- Give a key a content among others; what is the same key goes away. -/
def putEntry
    (key : Meaning)
    (content : Content) :
    List (Meaning × Content) → List (Meaning × Content)
  | [] =>
      [(key, content)]
  | (other, old) :: rest =>
      if other.isSame key then
        (key, content) :: rest
      else
        (other, old) :: putEntry key content rest

end Script.Yaml
