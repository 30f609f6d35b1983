import ShortcutRelay.Text.Pieces
import ShortcutRelay.Yaml.Node

/-!
# Plain scalars by their shape

* `Kind` : the kinds of values;
* `kindOfText` : the kind of a scalar whose tag says nothing, which is seen in its text;
* `kindOfTag?` : the kind that a tag names.

Numbers may hold underscores and may be written in base 2, 8, 10, 16 or 60; a number with a
fraction needs a point and, where it has an exponent, the sign of the exponent.
-/

namespace ShortcutRelay.Yaml
open Decimal Text

/-- The kinds of values that a tag can name or that the text of a plain scalar can show. -/
inductive Kind
  | null
  | boolean
  | integer
  | float
  | timestamp
  | binary
  | text
  | sequence
  | mapping
  | set
  | pairs
  | merge
  | default
  deriving DecidableEq, Repr

def tagStart : String :=
  "tag:yaml.org,2002:"

/-- The kinds of the tags by the ends of their names. -/
def kindNames : List (String × Kind) :=
  [("null", .null), ("bool", .boolean), ("int", .integer), ("float", .float),
   ("timestamp", .timestamp), ("binary", .binary), ("str", .text), ("seq", .sequence),
   ("map", .mapping), ("set", .set), ("omap", .pairs), ("pairs", .pairs), ("merge", .merge),
   ("value", .default)]

def kindOfTag? (tag : String) : Option Kind :=
  (afterStart? tagStart tag).bind fun name => kindNames.lookup name

/-! ## Shapes -/

/-- A sign, if one stands at the start, and what follows it. -/
def withoutSign (cs : List Char) : List Char :=
  (signed cs).2

def isDigitOrBar (c : Char) : Bool :=
  isDigit c || c == '_'

/-- Whether characters are nothing but a run that is not empty. -/
def isRun (p : Char → Bool) (cs : List Char) : Bool :=
  !cs.isEmpty && cs.all p

/-- Whether a part of a number in base sixty is one: one digit, or two of which the first is
below six. -/
def isSixtieth : List Char → Bool
  | [a] => isDigit a
  | [a, b] => '0' ≤ a && a ≤ '5' && isDigit b
  | _ => false

/-- Whether characters are an exponent with its sign, or nothing. -/
def isSignedExponent : List Char → Bool
  | [] => true
  | e :: s :: digits => (e == 'e' || e == 'E') && (s == '-' || s == '+') && isRun isDigit digits
  | _ => false

def isIntegerShape (cs : List Char) : Bool :=
  match withoutSign cs with
  | ['0'] => true
  | '0' :: 'b' :: rest => isRun (fun c => c == '0' || c == '1' || c == '_') rest
  | '0' :: 'x' :: rest => isRun (fun c => (hexValue? c).isSome || c == '_') rest
  | '0' :: rest => isRun (fun c => ('0' ≤ c && c ≤ '7') || c == '_') rest
  | c :: rest =>
    isDigit c &&
      match splitOn ':' rest with
      | first :: more => first.all isDigitOrBar && more.all isSixtieth
      | [] => false
  | [] => false

def isPointShape (cs : List Char) : Bool :=
  match withoutSign cs with
  | '.' :: c :: rest =>
    cs.head? == some '.' && isDigit c && isSignedExponent (rest.dropWhile isDigitOrBar)
  | c :: rest =>
    isDigit c &&
      match rest.dropWhile isDigitOrBar with
      | '.' :: rest => isSignedExponent (rest.dropWhile isDigitOrBar)
      | _ => false
  | [] => false

def isSixtyPointShape (cs : List Char) : Bool :=
  match withoutSign cs with
  | c :: rest =>
    isDigit c &&
      match splitOn ':' rest with
      | first :: more =>
        !more.isEmpty && first.all isDigitOrBar && more.dropLast.all isSixtieth &&
          match more.getLast? with
          | some last =>
            match last.dropWhile (· != '.') with
            | '.' :: fraction =>
              isSixtieth (last.takeWhile (· != '.')) && fraction.all isDigitOrBar
            | _ => false
          | none => false
      | [] => false
  | [] => false

def isInfinityShape (cs : List Char) : Bool :=
  let word := String.ofList (withoutSign cs)
  [".inf", ".Inf", ".INF"].contains word ||
    [".nan", ".NaN", ".NAN"].contains (String.ofList cs)

def isFloatShape (cs : List Char) : Bool :=
  isPointShape cs || isSixtyPointShape cs || isInfinityShape cs

/-- The words for truth values. -/
def truthWords : List (String × Bool) :=
  [("yes", true), ("no", false), ("true", true), ("false", false), ("on", true), ("off", false)]

/-- Whether a text is a word for a truth value: in small letters, with a capital or in
capitals. -/
def isTruthShape (cs : List Char) : Bool :=
  let capitalized : List Char → List Char
    | [] => []
    | c :: cs => c.toUpper :: cs
  truthWords.any fun (word, _) =>
    cs == word.toList || cs == capitalized word.toList || cs == word.toList.map Char.toUpper

/-- The parts of a date and a time as they are written. -/
structure Stamp where
  year : Nat
  month : Nat
  day : Nat
  time : Option (Nat × Nat × Nat) := none
  fraction : List Char := []
  zone : Option (Bool × Nat × Nat) := none

def shortNumber? (cs : List Char) : Option (Nat × List Char) :=
  let digits := (cs.take 2).takeWhile isDigit
  if digits.isEmpty then none else some (numberOf digits, cs.drop digits.length)

def fixedNumber? (count : Nat) (cs : List Char) : Option (Nat × List Char) :=
  let digits := cs.take count
  if digits.length = count ∧ digits.all isDigit then some (numberOf digits, cs.drop count)
  else none

def after? (c : Char) : List Char → Option (List Char)
  | x :: cs => if x = c then some cs else none
  | [] => none

def isGap (c : Char) : Bool :=
  c == ' ' || c == '\t'

/-- The zone at the end of a time: none, `Z` or a signed offset in hours with minutes. -/
def readZone? (cs : List Char) : Option (Option (Bool × Nat × Nat)) :=
  match cs, cs.dropWhile isGap with
  | [], _ => some none
  | _, ['Z'] => some (some (false, 0, 0))
  | _, sign :: rest =>
    if sign == '+' || sign == '-' then do
      let (hour, rest) ← shortNumber? rest
      match rest with
      | [] => some (some (sign == '-', hour, 0))
      | rest => do
        let (minute, rest) ← fixedNumber? 2 (← after? ':' rest)
        if rest.isEmpty then some (some (sign == '-', hour, minute)) else none
    else none
  | _, [] => none

/-- A date, or a date and a time. A date alone has two digits for month and day where `strict` is
set. -/
def readStamp? (strict : Bool) (cs : List Char) : Option Stamp := do
  let (year, rest) ← fixedNumber? 4 cs
  let start ← after? '-' rest
  let (month, rest) ← shortNumber? start
  let middle ← after? '-' rest
  let (day, rest) ← shortNumber? middle
  match rest with
  | [] => if strict && cs.length != 10 then none else some { year, month, day }
  | c :: more =>
    let timeText ←
      if c == 'T' || c == 't' then some more
      else if isGap c then some (more.dropWhile isGap)
      else none
    let (hour, rest) ← shortNumber? timeText
    let (minute, rest) ← fixedNumber? 2 (← after? ':' rest)
    let (second, rest) ← fixedNumber? 2 (← after? ':' rest)
    let (fraction, rest) := match rest with
      | '.' :: rest => (rest.takeWhile isDigit, rest.dropWhile isDigit)
      | rest => ([], rest)
    let zone ← readZone? rest
    some { year, month, day, time := some (hour, minute, second), fraction, zone }

/-- Characters without a line feed at their end. -/
def withoutLastBreak (cs : List Char) : List Char :=
  if cs.getLast? == some '\n' then cs.dropLast else cs

def kindOfText (text : String) : Kind :=
  let cs := withoutLastBreak text.toList
  let word := String.ofList cs
  if text = "\n" then .text
  else if ["", "~", "null", "Null", "NULL"].contains word then .null
  else if word = "<<" then .merge
  else if word = "=" then .default
  else if isTruthShape cs then .boolean
  else if isFloatShape cs then .float
  else if isIntegerShape cs then .integer
  else if (readStamp? true cs).isSome then .timestamp
  else .text

end ShortcutRelay.Yaml
