import ShortcutRelay.Text.Blank
import ShortcutRelay.Text.Case

/-!
# Reading numbers

* `readFloat?` : the double written by a text: blanks around it, a sign, digits of any script with
  single underscores between them, a point, an exponent, or the words for infinity and not a
  number;
* `decimalFloat` : the double nearest to `digits · 10 ^ exponent`.
-/

namespace ShortcutRelay.Decimal
open ShortcutRelay.Text

/-- The code points of the zeros of all scripts; the nine other digits follow each of them. -/
def zeroCodes : List Nat :=
  [48, 1632, 1776, 1984, 2406, 2534, 2662, 2790, 2918, 3046, 3174, 3302, 3430, 3558, 3664, 3792,
   3872, 4160, 4240, 6112, 6160, 6470, 6608, 6784, 6800, 6992, 7088, 7232, 7248, 42528, 43216,
   43264, 43472, 43504, 43600, 44016, 65296, 66720, 68912, 69734, 69872, 69942, 70096, 70384,
   70736, 70864, 71248, 71360, 71472, 71904, 72016, 72784, 73040, 73120, 92768, 92864, 93008,
   120782, 120792, 120802, 120812, 120822, 123200, 123632, 125264, 130032]

/-- The value of a decimal digit of any script. -/
def digitValue? (c : Char) : Option Nat :=
  (zeroCodes.find? fun z => z ≤ c.toNat && c.toNat ≤ z + 9).map (c.toNat - ·)

def isDigit (c : Char) : Bool :=
  '0' ≤ c && c ≤ '9'

def numberOf (digits : List Char) : Nat :=
  digits.foldl (fun n c => 10 * n + (c.toNat - 48)) 0

/-- The double nearest to `digits · 10 ^ exponent`. Outside the range of doubles the exponent is
cut off before the power is computed. -/
def decimalFloat (digits : List Char) (exponent : Int) : Float :=
  let digits := digits.dropWhile (· == '0')
  let size := digits.length + exponent
  if digits.isEmpty || size < -400 then 0.0
  else if 400 < size then 1.0 / 0.0
  else
    let n := numberOf digits
    if exponent < 0 then Float.ofScientific n true exponent.natAbs
    else Float.ofScientific n false exponent.natAbs

def toAscii (c : Char) : Char :=
  if c.toNat < 128 then c
  else if isBlank c then ' '
  else match digitValue? c with
    | some d => Char.ofNat (48 + d)
    | none => c

/-- The text without its underscores, each of which must stand between two digits; `previous` is
the character in front. -/
def withoutUnderscores? (previous : Char) : List Char → Option (List Char)
  | [] => if previous == '_' then none else some []
  | c :: cs =>
    if c == '_' then
      if isDigit previous then withoutUnderscores? c cs else none
    else if previous == '_' && !isDigit c then none
    else (withoutUnderscores? c cs).map (c :: ·)

def signed : List Char → Bool × List Char
  | '-' :: cs => (true, cs)
  | '+' :: cs => (false, cs)
  | cs => (false, cs)

def readExponent? : List Char → Option Int
  | [] => some 0
  | c :: cs =>
    if c == 'e' || c == 'E' then
      let (negative, digits) := signed cs
      if digits.isEmpty || !digits.all isDigit then none
      else
        let n : Int := numberOf digits
        some (if negative then -n else n)
    else none

/-- An unsigned number: digits with at most one point, at least one digit, and an exponent. -/
def readMagnitude? (cs : List Char) : Option Float :=
  let whole := cs.takeWhile isDigit
  let rest := cs.dropWhile isDigit
  let (fraction, rest) := match rest with
    | '.' :: cs => (cs.takeWhile isDigit, cs.dropWhile isDigit)
    | cs => ([], cs)
  if whole.isEmpty && fraction.isEmpty then none
  else (readExponent? rest).map fun e => decimalFloat (whole ++ fraction) (e - fraction.length)

/-- The words for infinity and not a number, in any case. -/
def readWord? (cs : List Char) : Option Float :=
  let word := String.ofList (cs.map Char.toLower)
  if word = "inf" || word = "infinity" then some (1.0 / 0.0)
  else if word = "nan" then some (0.0 / 0.0)
  else none

/-- Whether a character may surround a number: a blank, the separators of ASCII apart. -/
def isPadding (c : Char) : Bool :=
  isBlank c && !(28 ≤ c.toNat && c.toNat ≤ 31)

def readFloat? (s : String) : Option Float := do
  let cs := s.toList.dropWhile isPadding
  let cs := (cs.reverse.dropWhile isPadding).reverse
  let cs := cs.map toAscii
  let cs ← if cs.contains '_' then withoutUnderscores? '.' cs else some cs
  let (negative, cs) := signed cs
  let x ← (readMagnitude? cs).orElse fun _ => readWord? cs
  return if negative then -x else x

end ShortcutRelay.Decimal
