import Script.Text

namespace Script.Yaml

/-!
# Timestamps

A timestamp is a date, alone or with a time of day behind it.  After a letter T
the time has to tell its zone; after spaces it must not.
-/

/-- Where a time is told: everywhere, or where clocks are ahead by some
seconds. -/
inductive Zone where
  | universal
  | shifted (seconds : Int)
  deriving Repr, DecidableEq

namespace Zone

/-- The seconds that the clocks of a zone are ahead. -/
def shift : Zone → Int
  | .universal =>
      0
  | .shifted seconds =>
      seconds

/-- Zones that are the same wherever they are told: those whose clocks are ahead
by whole hours, and by few enough. -/
def isShared : Zone → Bool
  | .universal =>
      true
  | .shifted seconds =>
      seconds % 3600 == 0 && -12 * 3600 ≤ seconds && seconds ≤ 14 * 3600

/-- How a zone is written. -/
def written : Zone → String
  | .universal =>
      "time.UTC"
  | .shifted seconds =>
      if seconds = 0 then "time.Local" else "time.Location(\"\")"

end Zone

/-- A date and a time of day. -/
structure Timestamp where
  year : Nat
  month : Nat
  day : Nat
  hour : Nat
  minute : Nat
  second : Nat
  nanosecond : Nat
  zone : Zone
  deriving Repr, DecidableEq

namespace Timestamp

/-! Reading. -/

/-- The value of a decimal digit. -/
def digit? (byte : UInt8) : Option Nat :=
  if Text.byte '0' ≤ byte && byte ≤ Text.byte '9' then
    some (byte.toNat - (Text.byte '0').toNat)
  else
    none

/-- A number of one or two digits, and what follows it. -/
def number? : Text → Option (Nat × Text)
  | [] =>
      none
  | first :: rest =>
      (digit? first).map fun tens =>
        match rest with
        | [] =>
            (tens, rest)
        | second :: after =>
            match digit? second with
            | none =>
                (tens, rest)
            | some ones =>
                (tens * 10 + ones, after)

/-- A number of exactly two digits, and what follows it. -/
def twoDigits? (text : Text) : Option (Nat × Text) :=
  (number? text).bind fun (value, rest) =>
    if rest.length + 2 = text.length then some (value, rest) else none

/-- What follows a byte at the front of a text. -/
def after?
    (mark : Char)
    (text : Text) :
    Option Text :=
  match text with
  | [] =>
      none
  | first :: rest =>
      if first = Text.byte mark then some rest else none

/-- Years with a day more. -/
def isLeap (year : Nat) : Bool :=
  year % 4 == 0 && (year % 100 != 0 || year % 400 == 0)

/-- The number of days of a month. -/
def daysIn
    (year : Nat)
    (month : Nat) :
    Nat :=
  if month = 2 then
    if isLeap year then 29 else 28
  else if month ∈ [4, 6, 9, 11] then
    30
  else
    31

/-- A year of four digits, and what follows it. -/
def year? (text : Text) : Option (Nat × Text) := do
  let (century, rest) ← twoDigits? text
  let (year, rest) ← twoDigits? rest
  some (century * 100 + year, rest)

/-- The start of the day at the front of a text, and what follows it. -/
def date? (text : Text) : Option (Timestamp × Text) := do
  let (year, rest) ← year? text
  let (month, rest) ← (after? '-' rest).bind number?
  let (day, rest) ← (after? '-' rest).bind number?
  if 1 ≤ month && month ≤ 12 && 1 ≤ day && day ≤ daysIn year month then
    some
      ({ year, month, day
         hour := 0
         minute := 0
         second := 0
         nanosecond := 0
         zone := .universal },
       rest)
  else
    none

/-- The nanoseconds that the digits behind a point spell; those after the ninth
do not count. -/
def nanosecondsOf (digits : Text) : Nat :=
  let counted := digits.take 9
  counted.foldl (fun value byte => value * 10 + ((digit? byte).getD 0)) 0 *
    Nat.pow 10 (9 - counted.length)

/-- The nanoseconds of the fraction of a second at the front of a text, if
there is one, and what follows it. -/
def cutFraction (text : Text) : Nat × Text :=
  let isDigit (byte : UInt8) : Bool :=
    (digit? byte).isSome
  match text with
  | point :: first :: rest =>
      if (point = Text.byte '.' || point = Text.byte ',') && isDigit first then
        (nanosecondsOf (first :: rest.takeWhile isDigit),
         rest.dropWhile isDigit)
      else
        (0, text)
  | _ =>
      (0, text)

/-- A day at the time at the front of a text, and what follows it. -/
def time?
    (date : Timestamp)
    (text : Text) :
    Option (Timestamp × Text) := do
  let (hour, rest) ← number? text
  let (minute, rest) ← (after? ':' rest).bind number?
  let (second, rest) ← (after? ':' rest).bind number?
  if hour < 24 && minute < 60 && second < 60 then
    let (nanosecond, rest) := cutFraction rest
    some ({ date with hour, minute, second, nanosecond }, rest)
  else
    none

/-- The zone that a text spells: the letter Z, or hours and minutes after a
sign. -/
def zone? (text : Text) : Option Zone :=
  match text with
  | [] =>
      none
  | sign :: rest =>
      if sign = Text.byte 'Z' then
        if rest.isEmpty then some .universal else none
      else if sign = Text.byte '+' || sign = Text.byte '-' then do
        let (hours, rest) ← twoDigits? rest
        let (minutes, rest) ← (after? ':' rest).bind twoDigits?
        if hours ≤ 24 && minutes ≤ 60 && rest.isEmpty then
          let seconds : Int := (hours * 60 + minutes) * 60
          some
            (.shifted (if sign = Text.byte '-' then -seconds else seconds))
        else
          none
      else
        none

/-- The timestamp that a text spells. -/
def ofText? (text : Text) : Option Timestamp := do
  let (date, rest) ← date? text
  match rest with
  | [] =>
      some date
  | first :: rest =>
      if first = Text.byte 'T' || first = Text.byte 't' then
        let (moment, rest) ← time? date rest
        let zone ← zone? rest
        some { moment with zone }
      else if first = Text.byte ' ' then
        let (moment, rest) ← time? date (rest.dropWhile (· == Text.byte ' '))
        if rest.isEmpty then some moment else none
      else
        none

/-! Comparing. -/

/-- The number of days from the first of a year zero to a day. -/
def dayNumber
    (year : Nat)
    (month : Nat)
    (day : Nat) :
    Nat :=
  let leaps := (year + 3) / 4 + (year + 399) / 400 - (year + 99) / 100
  let inYear := (List.range (month - 1)).foldl
    (fun days earlier => days + daysIn year (earlier + 1)) 0
  year * 365 + leaps + inYear + day

/-- The number of whole seconds up to a timestamp. -/
def instant (moment : Timestamp) : Int :=
  let days := dayNumber moment.year moment.month moment.day
  let seconds :=
    ((days * 24 + moment.hour) * 60 + moment.minute) * 60 + moment.second
  (seconds : Int) - moment.zone.shift

/-- Whether two timestamps are the same one.  Zones that are not shared make
any two different. -/
def isSame
    (first : Timestamp)
    (second : Timestamp) :
    Bool :=
  first == second && first.zone.isShared

/-- What timestamps are put in order by: the fraction of the second comes
first. -/
def rank (moment : Timestamp) : Nat × Int × Int :=
  (moment.nanosecond, moment.instant, moment.zone.shift)

/-! Writing. -/

/-- The names of the months. -/
def months : List String :=
  ["January", "February", "March", "April", "May", "June", "July", "August",
   "September", "October", "November", "December"]

/-- How a timestamp is written where it is part of something. -/
def written (moment : Timestamp) : Text :=
  let parts :=
    [Text.ofNat moment.year,
     Text.utf8 "time." ++ Text.utf8 (months.getD (moment.month - 1) ""),
     Text.ofNat moment.day, Text.ofNat moment.hour, Text.ofNat moment.minute,
     Text.ofNat moment.second, Text.ofNat moment.nanosecond,
     Text.utf8 moment.zone.written]
  Text.utf8 "time.Date(" ++ (Text.utf8 ", ").intercalate parts ++
    Text.utf8 ")"

end Timestamp

end Script.Yaml
