/-!
# Dates

The Gregorian calendar, extended to the years 1 to 9999.

* `Date` : a year, a month and a day;
* `Date.of` : the date of three numbers, or what is wrong with them;
* `Date.ordinal`, `Date.ofOrdinal?` : the count of days from the first day of year 1, which is
  day 1.
-/

namespace ShortcutRelay.Calendar

structure Date where
  year : Nat
  month : Nat
  day : Nat
  deriving DecidableEq, Repr

/-- What keeps numbers from being a point of the calendar. -/
inductive CalendarError
  | year (n : Int)
  | month
  | day
  | hour
  | minute
  | second
  | offset (microseconds : Int)
  | notANumber
  | seconds
  | distantYear
  deriving DecidableEq, Repr

def isLeap (year : Nat) : Bool :=
  year % 4 == 0 && (year % 100 != 0 || year % 400 == 0)

def daysInMonth (year month : Nat) : Nat :=
  if month = 2 then (if isLeap year then 29 else 28)
  else if month = 4 ∨ month = 6 ∨ month = 9 ∨ month = 11 then 30
  else 31

def Date.of (year month day : Nat) : Except CalendarError Date :=
  if year < 1 ∨ 9999 < year then .error (.year year)
  else if month < 1 ∨ 12 < month then .error .month
  else if day < 1 ∨ daysInMonth year month < day then .error .day
  else .ok ⟨year, month, day⟩

def daysBeforeYear (year : Nat) : Nat :=
  let y := year - 1
  365 * y + y / 4 - y / 100 + y / 400

def daysBeforeMonth (year month : Nat) : Nat :=
  ((List.range' 1 (month - 1)).map (daysInMonth year)).foldr Nat.add 0

def Date.ordinal (d : Date) : Nat :=
  daysBeforeYear d.year + daysBeforeMonth d.year d.month + d.day

/-- The month and day of the `day`-th day of a year, counted from zero. -/
def monthAndDay (year : Nat) (day : Nat) : Nat × Nat :=
  (List.range' 1 12).foldl
    (fun found month =>
      if daysBeforeMonth year month ≤ day then (month, day - daysBeforeMonth year month + 1)
      else found)
    (1, 1)

/-- The year that holds a number of days, counted from zero. -/
def yearOfDay (day : Nat) : Nat :=
  let guess := day / 366 + 1
  ((List.range' guess 30).reverse.find? (daysBeforeYear · ≤ day)).getD guess

def Date.ofOrdinal? (n : Nat) : Option Date :=
  if n < 1 ∨ daysBeforeYear 10000 < n then none
  else
    let year := yearOfDay (n - 1)
    let (month, day) := monthAndDay year (n - 1 - daysBeforeYear year)
    some ⟨year, month, day⟩

def weekdayOfOrdinal (n : Nat) : Nat :=
  (n + 6) % 7

/-- A number with at least `count` digits. -/
def padded (count n : Nat) : String :=
  let digits := Nat.toDigits 10 n
  String.ofList (List.replicate (count - digits.length) '0' ++ digits)

def Date.iso (d : Date) : String :=
  padded 4 d.year ++ "-" ++ padded 2 d.month ++ "-" ++ padded 2 d.day

end ShortcutRelay.Calendar
