import Script.Text.Glyph

namespace Script

/-!
# History

The entries of earlier sessions, the oldest first.  A history holds a bounded
number of entries, and a file that it is read from stands for the entries up to
the first line that cannot be one.
-/

/-- Entries, the oldest first. -/
structure History where
  entries : List Text
  deriving Repr, DecidableEq

namespace History

/-- The most entries that a history holds. -/
def capacity : Nat :=
  1000

/-- Lines of this many bytes or more are no entries. -/
def lineBound : Nat :=
  4096

/-- No entries. -/
def empty : History where
  entries := []

/-- The last elements of a list, at most `count` of them. -/
def newest
    (count : Nat)
    (all : List α) :
    List α :=
  all.drop (all.length - count)

/-- Lines that can be an entry: short ones in UTF-8. -/
def isReadable (line : Text) : Bool :=
  line.length < lineBound && line.isValid

/-- A line without a carriage return at its end. -/
def withoutReturn (line : Text) : Text :=
  if line.getLast? == some (Text.byte '\r') then
    line.dropLast
  else
    line

/-- Read a history from the content of a file.  A positive limit keeps the last
lines only; line feeds at the very end make no lines. -/
def ofContent
    (limit : Int)
    (content : Text) :
    History where
  entries :=
    let lines :=
      Text.split Text.newline (Text.trimEnd Text.newline content)
    let kept :=
      if 0 < limit then newest limit.toNat lines else lines
    newest capacity ((kept.takeWhile isReadable).map withoutReturn)

/-- Add an entry, unless it is the same as the latest one. -/
def append
    (history : History)
    (entry : Text) :
    History :=
  if history.entries.getLast? = some entry then
    history
  else
    { entries := newest capacity (history.entries ++ [entry]) }

/-- The content of a file for a history, each entry on a line. -/
def content (history : History) : Text :=
  history.entries.flatMap (· ++ [Text.newline])

end History

end Script
