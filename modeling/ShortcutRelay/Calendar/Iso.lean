import ShortcutRelay.Calendar.Moment
import ShortcutRelay.Text.Unicode

/-!
# Reading moments

* `Moment.ofIso?` : the moment written by a text in one of the forms of ISO 8601.

The date is `YYYY-MM-DD`, `YYYYMMDD` or a week date with or without its day, any single character
separates it from the time, and the time is `HH[:MM[:SS]]` with or without colons, followed by a
fraction and an offset. Between the clock and the end or the offset, one more byte is passed over.
The text is read as its bytes in UTF-8, and where its end is looked for, a null byte counts as one.
-/

namespace ShortcutRelay.Calendar
open ShortcutRelay.Text

def isDigitByte (b : UInt8) : Bool :=
  '0'.toUInt8 ≤ b && b ≤ '9'.toUInt8

def numberOfBytes (digits : List UInt8) : Nat :=
  digits.foldl (fun n b => 10 * n + (b.toNat - '0'.toNat)) 0

/-- A number of exactly `count` digits and what follows it. -/
def takeNumber? (count : Nat) (bs : List UInt8) : Option (Nat × List UInt8) :=
  let digits := bs.take count
  if digits.length = count ∧ digits.all isDigitByte then
    some (numberOfBytes digits, bs.drop count)
  else none

def begins (c : Char) (bs : List UInt8) : Bool :=
  bs.head? == some c.toUInt8

def ends (bs : List UInt8) : Bool :=
  bs.isEmpty || begins '\x00' bs

/-! ## Dates -/

/-- The number of the Monday of the first week of a year, the week that holds the first
Thursday. -/
def firstMonday (year : Nat) : Nat :=
  let first := daysBeforeYear year + 1
  let weekday := weekdayOfOrdinal first
  if 3 < weekday then first + 7 - weekday else first - weekday

/-- Whether a year has a week 53: it begins on a Thursday, or on a Wednesday before a leap day. -/
def hasLongWeekYear (year : Nat) : Bool :=
  let weekday := weekdayOfOrdinal (daysBeforeYear year + 1)
  weekday == 3 || (weekday == 2 && isLeap year)

def Date.ofWeek? (year week day : Nat) : Option Date :=
  if year < 1 ∨ week < 1 ∨ 53 < week ∨ (week = 53 ∧ ¬ hasLongWeekYear year) ∨ day < 1 ∨ 7 < day then
    none
  else Date.ofOrdinal? (firstMonday year + 7 * (week - 1) + day - 1)

/-- The length of the date at the start of a text, judged by its fourth and fifth characters. A
week date without dashes ends where an even count of digits is left for the time. -/
def dateLength (bs : List UInt8) : Nat :=
  let dashAt (i : Nat) : Bool := begins '-' (bs.drop i)
  let weekAt (i : Nat) : Bool := begins 'W' (bs.drop i)
  if bs.length = 7 then 7
  else if dashAt 4 then
    if weekAt 5 then
      if dashAt 8 && !(bs.drop 10).head?.any isDigitByte then 10 else 8
    else 10
  else if weekAt 4 then
    let stop := 7 + ((bs.drop 7).takeWhile isDigitByte).length
    if stop < 9 then stop else if stop % 2 = 0 then 7 else 8
  else 8

def readDate? (length : Nat) (bs : List UInt8) : Option Date := do
  let (year, rest) ← takeNumber? 4 bs
  let dashed := begins '-' rest
  let rest := if dashed then rest.drop 1 else rest
  let skipDash (bs : List UInt8) : Option (List UInt8) :=
    if dashed then (if begins '-' bs then some (bs.drop 1) else none) else some bs
  if begins 'W' rest then
    let (week, rest) ← takeNumber? 2 (rest.drop 1)
    if bs.length - rest.length < length then
      let (day, _) ← takeNumber? 1 (← skipDash rest)
      Date.ofWeek? year week day
    else Date.ofWeek? year week 1
  else
    let (month, rest) ← takeNumber? 2 rest
    let (day, _) ← takeNumber? 2 (← skipDash rest)
    (Date.of year month day).toOption

/-! ## Times -/

structure Clock where
  hour : Nat := 0
  minute : Nat := 0
  second : Nat := 0
  microsecond : Nat := 0

/-- A clock with its hour (0), minute (1) or second (2) replaced. -/
def Clock.put (c : Clock) (field value : Nat) : Clock :=
  if field = 0 then { c with hour := value }
  else if field = 1 then { c with minute := value }
  else { c with second := value }

/-- The fraction of a second: up to six digits count and further digits are passed over. The flag
says whether the text ends there. -/
def readFraction? (c : Clock) (bs : List UInt8) : Option (Clock × Bool) := do
  let count := min 6 bs.length
  let (n, rest) ← takeNumber? count bs
  return ({ c with microsecond := n * Nat.pow 10 (6 - count) }, ends (rest.dropWhile isDigitByte))

/-- The fields of a clock from field `3 - fuel` on. `colons` says whether colons stand between
them; the flag of the result, whether the text ends after the clock. -/
def readFields? (c : Clock) (colons : Bool) : Nat → List UInt8 → Option (Clock × Bool)
  | 0, bs => readFraction? c bs
  | fuel + 1, bs => do
    let (n, rest) ← takeNumber? 2 bs
    let c := c.put (2 - fuel) n
    let isColon := begins ':' rest
    let colons := if fuel = 2 then isColon else colons
    match rest with
    | [] => return (c, true)
    | [_] => return (c, ends rest)
    | _ :: after =>
      if colons && isColon then readFields? c colons fuel after
      else if begins '.' rest || begins ',' rest then readFraction? c after
      else if !colons then readFields? c colons fuel rest
      else none

/-- A clock and whether the text ends after it. -/
def readClock? (bs : List UInt8) : Option (Clock × Bool) :=
  readFields? {} true 3 bs

/-- The microseconds of an offset. A whole offset of zero seconds is zero whatever its
fraction. -/
def Clock.offset (c : Clock) (negative : Bool) : Int :=
  let seconds := 3600 * c.hour + 60 * c.minute + c.second
  if seconds = 0 then 0
  else
    let n : Int := seconds * 1000000 + c.microsecond
    if negative then -n else n

/-- A time of day and its offset: universal time for `Z`, a signed clock, or none. -/
def readTime? (bs : List UInt8) : Option (Clock × Option Int) := do
  let isZoneMark (b : UInt8) : Bool := ['+', '-', 'Z'].any (·.toUInt8 == b)
  let zone := bs.dropWhile (!isZoneMark ·)
  let (clock, ended) ← readClock? (bs.takeWhile (!isZoneMark ·))
  if zone.isEmpty then
    if ended then some (clock, none) else none
  else if begins 'Z' zone then
    if ends (zone.drop 1) then some (clock, some 0) else none
  else
    let (shift, ended) ← readClock? (zone.drop 1)
    if ended then some (clock, some (shift.offset (begins '-' zone))) else none

def Moment.ofIso? (s : String) : Option Moment := do
  let bs := encodeUtf8 s
  if bs.length < 7 then none
  else
    let length := dateLength bs
    let date ← readDate? length bs
    let (clock, offset) ← match bs.drop length with
      | [] => some ({}, none)
      | mark :: rest => readTime? (rest.drop (utf8Width mark - 1))
    (Moment.of date.year date.month date.day clock.hour clock.minute clock.second
      clock.microsecond offset).toOption

end ShortcutRelay.Calendar
