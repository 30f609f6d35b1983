import ShortcutRelay.Calendar.Date
import ShortcutRelay.Decimal.Binary

/-!
# Moments

* `Moment` : a date and a time of day, with or without an offset from universal time;
* `Moment.of` : the moment of its parts, or what is wrong with them;
* `Moment.ofEpoch` : the moment in universal time of a number of seconds since 1970;
* `Moment.toEpoch` : the seconds since 1970, a moment without an offset being taken as universal
  time.
-/

namespace ShortcutRelay.Calendar
open ShortcutRelay.Decimal

/-- A date and a time of day; `offset` is the distance from universal time in microseconds. -/
structure Moment where
  date : Date
  hour : Nat
  minute : Nat
  second : Nat
  microsecond : Nat
  offset : Option Int
  deriving DecidableEq, Repr

def microsecondsPerDay : Int :=
  86400 * 1000000

def Moment.of (year month day hour minute second microsecond : Nat) (offset : Option Int) :
    Except CalendarError Moment := do
  if let some o := offset then
    if o ≤ -microsecondsPerDay ∨ microsecondsPerDay ≤ o then throw (.offset o)
  let date ← Date.of year month day
  if 23 < hour then throw .hour
  if 59 < minute then throw .minute
  if 59 < second then throw .second
  return ⟨date, hour, minute, second, microsecond, offset⟩

def Moment.secondOfDay (m : Moment) : Nat :=
  3600 * m.hour + 60 * m.minute + m.second

/-- The day number of the first day of 1970. -/
def epochOrdinal : Int :=
  719163

/-- The microseconds since 1970 of the date and time as they are written. -/
def Moment.writtenMicroseconds (m : Moment) : Int :=
  ((m.date.ordinal - epochOrdinal) * 86400 + m.secondOfDay) * 1000000 + m.microsecond

/-- A whole number of microseconds in seconds, correctly rounded. -/
def secondsOfMicroseconds (n : Int) : Float :=
  let x := Float.ofScientific n.natAbs true 6
  if n < 0 then -x else x

/-- The seconds since 1970. With an offset the exact number is rounded once; without one the
fraction is added to the whole seconds. The first day of the calendar has no predecessor to
compare with and is refused without an offset. -/
def Moment.toEpoch (m : Moment) : Except CalendarError Float :=
  match m.offset with
  | some o => .ok (secondsOfMicroseconds (m.writtenMicroseconds - o))
  | none =>
    if m.date.ordinal = 1 then .error (.year 0)
    else
      let whole := (m.date.ordinal - epochOrdinal) * 86400 + m.secondOfDay
      .ok (Float.ofInt whole + Float.ofNat m.microsecond / 1000000.0)

def Moment.ofDate (d : Date) : Moment :=
  ⟨d, 0, 0, 0, 0, some 0⟩

/-- The whole number nearest to `mantissa · 2 ^ exponent`, a tie going to the even one. -/
def roundedToEven (mantissa : Nat) (exponent : Int) : Nat :=
  let scale := Nat.pow 2 exponent.natAbs
  if 0 ≤ exponent then mantissa * scale
  else
    let lower := mantissa / scale
    let rest := 2 * (mantissa % scale)
    if rest < scale || (rest == scale && lower % 2 == 0) then lower else lower + 1

/-- The part of `mantissa · 2 ^ exponent` before the point. -/
def wholePart (mantissa : Nat) (exponent : Int) : Nat :=
  let scale := Nat.pow 2 exponent.natAbs
  if 0 ≤ exponent then mantissa * scale else mantissa / scale

/-- Seconds since 1970 as whole seconds and microseconds, both negative or both not. The fraction
is scaled as a double before it is rounded. -/
def splitSeconds (x : Float) : Except CalendarError (Int × Int) :=
  match FloatValue.ofFloat x with
  | .notANumber => .error .notANumber
  | .infinite _ => .error .seconds
  | .finite negative mantissa exponent =>
    let whole := wholePart mantissa exponent
    let sign : Int := if negative then -1 else 1
    if Nat.pow 2 63 ≤ whole ∧ ¬ (negative ∧ whole = Nat.pow 2 63) then .error .seconds
    else
      let fraction := (x - Float.ofInt (sign * whole)) * 1000000.0
      match FloatValue.ofFloat fraction with
      | .finite _ m e => .ok (sign * whole, sign * roundedToEven m e)
      | _ => .ok (sign * whole, 0)

def distantYearOf (day : Int) : Int :=
  (day - 1).fdiv 146097 * 400 + yearOfDay ((day - 1).fmod 146097).toNat

/-- Whether a broken-down time can hold a year, which it counts from 1900 in 32 bits. -/
def fitsBrokenDown (year : Int) : Bool :=
  -0x80000000 ≤ year - 1900 && year - 1900 < 0x80000000

/-- The moment in universal time of a whole number of seconds and one of microseconds since
1970. -/
def Moment.ofMicroseconds? (seconds microseconds : Int) : Option Moment := do
  let total := seconds * 1000000 + microseconds
  let second := total.fdiv 1000000
  let date ← Date.ofOrdinal? (second.fdiv 86400 + epochOrdinal).toNat
  let s := (second.fmod 86400).toNat
  return ⟨date, s / 3600, s / 60 % 60, s % 60, (total.fmod 1000000).toNat, some 0⟩

/-- The moment in universal time of a number of seconds since 1970, rounded to microseconds. -/
def Moment.ofEpoch (x : Float) : Except CalendarError Moment := do
  let (seconds, microseconds) ← splitSeconds x
  match Moment.ofMicroseconds? seconds microseconds with
  | some m => return m
  | none =>
    let day := (seconds * 1000000 + microseconds).fdiv 86400000000 + epochOrdinal
    let year := distantYearOf day
    if fitsBrokenDown year then throw (.year year) else throw .distantYear

/-- A number of microseconds as a fraction, none where it is zero. -/
def fractionText (microsecond : Nat) : String :=
  if microsecond = 0 then "" else "." ++ padded 6 microsecond

def offsetText (offset : Int) : String :=
  let n := offset.natAbs
  let seconds := n / 1000000 % 60
  let fraction := n % 1000000
  let sign := if offset < 0 then "-" else "+"
  let tail :=
    if seconds = 0 ∧ fraction = 0 then "" else ":" ++ padded 2 seconds ++ fractionText fraction
  sign ++ padded 2 (n / 3600000000) ++ ":" ++ padded 2 (n / 60000000 % 60) ++ tail

/-- The text of a moment, with `separator` between date and time. -/
def Moment.textWith (separator : String) (m : Moment) : String :=
  m.date.iso ++ separator ++ padded 2 m.hour ++ ":" ++ padded 2 m.minute ++ ":" ++
    padded 2 m.second ++ fractionText m.microsecond ++ (m.offset.map offsetText).getD ""

def Moment.iso (m : Moment) : String :=
  m.textWith "T"

end ShortcutRelay.Calendar
