import ShortcutRelay.Document.Basic
import ShortcutRelay.Decimal.Shortest
import ShortcutRelay.Decimal.Whole
import ShortcutRelay.Text.Pieces
import ShortcutRelay.Text.Quoted

/-!
# Documents as text

* `Document.shown` : the form of a document in a message, in which texts are quoted;
* `Document.isShowable` : whether a document has such a form.
-/

namespace ShortcutRelay
open Calendar Text

/-- A length of time as days, seconds and microseconds, those that are zero left out. -/
def shownDuration (microseconds : Int) : String :=
  let days := microseconds.fdiv microsecondsPerDay
  let rest := microseconds.fmod microsecondsPerDay
  let part (name : String) (n : Int) : List String :=
    if n = 0 then [] else [name ++ "=" ++ toString n]
  let parts := part "days" days ++ part "seconds" (rest / 1000000) ++
    part "microseconds" (rest % 1000000)
  "datetime.timedelta(" ++ (if parts.isEmpty then "0" else joinWith ", " parts) ++ ")"

def shownOffset (offset : Int) : String :=
  if offset = 0 then "datetime.timezone.utc"
  else "datetime.timezone(" ++ shownDuration offset ++ ")"

def shownDate (d : Date) : String :=
  "datetime.date(" ++ joinWith ", " ([d.year, d.month, d.day].map toString) ++ ")"

/-- A moment in a message; seconds and microseconds that are zero are left out at the end. -/
def shownMoment (m : Moment) : String :=
  let parts := [m.date.year, m.date.month, m.date.day, m.hour, m.minute] ++
    (if m.second = 0 ∧ m.microsecond = 0 then [] else [m.second]) ++
    (if m.microsecond = 0 then [] else [m.microsecond])
  let zone := match m.offset with
    | some o => ["tzinfo=" ++ shownOffset o]
    | none => []
  "datetime.datetime(" ++ joinWith ", " (parts.map toString ++ zone) ++ ")"

def shownBool (b : Bool) : String :=
  if b then "True" else "False"

mutual

def Document.shown : Document → String
  | .null => "None"
  | .bool b => shownBool b
  | .int n => toString n
  | .float x => Decimal.plain.write x
  | .text s => quote s
  | .date d => shownDate d
  | .moment m => shownMoment m
  | .bytes bs => quoteBytes bs
  | .list items => "[" ++ joinWith ", " (shownItems items) ++ "]"
  | .map entries => "\x7b" ++ joinWith ", " (shownEntries entries) ++ "\x7d"
  | .set [] => "set()"
  | .set (item :: items) => "\x7b" ++ joinWith ", " (item.shown :: shownItems items) ++ "\x7d"
  | .pair a b => "(" ++ a.shown ++ ", " ++ b.shown ++ ")"

def shownItems : List Document → List String
  | [] => []
  | item :: items => item.shown :: shownItems items

def shownEntries : List (Document × Document) → List String
  | [] => []
  | (k, v) :: entries => (k.shown ++ ": " ++ v.shown) :: shownEntries entries

end

mutual

/-- Whether a document can be shown in a message: no whole number in it has too many digits. -/
def Document.isShowable : Document → Bool
  | .int n => Decimal.isWritable n
  | .list items => areShowable items
  | .map entries => areShowableEntries entries
  | .set items => areShowable items
  | .pair a b => a.isShowable && b.isShowable
  | _ => true

def areShowable : List Document → Bool
  | [] => true
  | item :: items => item.isShowable && areShowable items

def areShowableEntries : List (Document × Document) → Bool
  | [] => true
  | (k, v) :: entries => k.isShowable && v.isShowable && areShowableEntries entries

end

def Calendar.CalendarError.message : CalendarError → String
  | .year _ => "<out of range>"
  | .month => "month must be in 1..12"
  | .day => "day is out of range for month"
  | .hour => "hour must be in 0..23"
  | .minute => "minute must be in 0..59"
  | .second => "second must be in 0..59"
  | .offset n =>
    "offset must be a timedelta strictly between -timedelta(hours=24) and " ++
      "timedelta(hours=24), not " ++ shownDuration n ++ "."
  | .notANumber => "Invalid value NaN (not a number)"
  | .seconds => "<out of range>"
  | .distantYear => "<os error>"

end ShortcutRelay
