import ShortcutRelay.Decimal.Reading
import ShortcutRelay.Text.Hex
import ShortcutRelay.Text.Quoted

/-!
# Reading whole numbers

* `readWhole` : the whole number written by a text in a base: blanks around it, a sign, the mark
  of the base and digits with single underscores between them; or what is wrong with the text;
* `digitLimit` : how many digits a number in a base that is no power of two may have;
* `isWritable` : whether a number stays within the limit when it is written.
-/

namespace ShortcutRelay.Decimal
open ShortcutRelay.Text

def digitIn? (base : Nat) (c : Char) : Option Nat :=
  let value := (digitValue? c).orElse fun _ => hexValue? c
  value.bind fun d => if d < base then some d else none

/-- The values of digits between which single underscores may stand; `may` says whether one may
stand here. -/
def digitsIn? (base : Nat) : Bool → List Char → Option (List Nat)
  | _, [] => some []
  | may, '_' :: c :: cs => do
    let d ← if may then digitIn? base c else none
    return d :: (← digitsIn? base true cs)
  | _, c :: cs => do
    let d ← digitIn? base c
    return d :: (← digitsIn? base true cs)

def isBaseMark (base : Nat) (c : Char) : Bool :=
  (base == 2 && (c == 'b' || c == 'B')) || (base == 8 && (c == 'o' || c == 'O')) ||
    (base == 16 && (c == 'x' || c == 'X'))

/-- What follows the mark of a base, if a text begins with it, and whether it does. -/
def withoutBaseMark (base : Nat) : List Char → Bool × List Char
  | '0' :: c :: rest => if isBaseMark base c then (true, rest) else (false, '0' :: c :: rest)
  | cs => (false, cs)

/-- The sign and the digits of the whole number written by a text in a base. -/
def wholeDigits? (base : Nat) (cs : List Char) : Option (Bool × List Nat) := do
  let cs := cs.dropWhile isPadding
  let (negative, cs) := signed (cs.reverse.dropWhile isPadding).reverse
  let (marked, cs) := withoutBaseMark base cs
  let digits ← digitsIn? base marked cs
  if digits.isEmpty then none else return (negative, digits)

def wholeOfDigits (base : Nat) (negative : Bool) (digits : List Nat) : Int :=
  let n := digits.foldl (fun n d => base * n + d) 0
  if negative then -(n : Int) else n

/-- How many digits a number in a base that is no power of two may have. -/
def digitLimit : Nat :=
  4300

def digitLimitText (count : Nat) : String :=
  "Exceeds the limit (" ++ toString digitLimit ++ " digits) for integer string conversion: " ++
    "value has " ++ toString count ++ " digits; use sys.set_int_max_str_digits() to increase " ++
    "the limit"

/-- Whether a number has few enough digits to be written. -/
def isWritable (n : Int) : Bool :=
  n.natAbs < Nat.pow 10 digitLimit

def writeLimitText : String :=
  "Exceeds the limit (" ++ toString digitLimit ++ " digits) for integer string conversion; use " ++
    "sys.set_int_max_str_digits() to increase the limit"

/-- The length to which a text is shown when it is no number. -/
def shownLength : Nat :=
  200

def wholeErrorText (base : Nat) (cs : List Char) : String :=
  "invalid literal for int() with base " ++ toString base ++ ": " ++
    String.ofList ((quote (String.ofList cs)).toList.take shownLength)

/-- The whole number written by a text in a base, or what is wrong with the text. -/
def readWhole (base : Nat) (cs : List Char) : Except String Int :=
  match wholeDigits? base cs with
  | none => .error (wholeErrorText base cs)
  | some (negative, digits) =>
    if base = 10 ∧ digitLimit < digits.length then .error (digitLimitText digits.length)
    else .ok (wholeOfDigits base negative digits)

end ShortcutRelay.Decimal
