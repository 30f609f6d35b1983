import ShortcutRelay.Decimal.Binary

/-!
# The shortest decimal of a double

* `Digits` : a decimal `0.d₁d₂… · 10 ^ point`;
* `shortest` : of the decimals with the fewest digits that read back as `mantissa · 2 ^ exponent`,
  the one nearest to it;
* `Layout` : the choices of a number format;
* `Layout.write` : a double in a format, in its shortest digits;
* `plain` : the format of numbers in texts and messages;
* `inJson` : the same format with the spellings of JSON for what is not a finite number.

A double stands for every real that is closer to it than to its neighbours, the two midpoints
included when its mantissa is even. The search tests, for 1, 2, … 17 digits, the two decimals of
that length around the value, in whole numbers only.
-/

namespace ShortcutRelay.Decimal

/-! ## Digits -/

/-- The decimal `0.d₁d₂… · 10 ^ point`. -/
structure Digits where
  digits : List Nat
  point : Int
  deriving DecidableEq, Repr

def digitsOf (n : Nat) : List Nat :=
  (Nat.toDigits 10 n).map (·.toNat - 48)

/-- The least `e` with `num / den < 10 ^ e`, for `0 < num`; below one the value is multiplied by
ten at most `fuel` times. -/
def magnitude (num den : Nat) : Nat → Int
  | 0 => 0
  | fuel + 1 =>
    if den ≤ num then ((digitsOf (num / den)).length : Int)
    else if den ≤ 10 * num then 0
    else magnitude (10 * num) den fuel - 1

/-- A value `center` with the reals `low … high` that round to it, in multiples of
`num / den`. -/
structure Interval where
  low : Nat
  center : Nat
  high : Nat
  closed : Bool
  num : Nat
  den : Nat

/-- Whether `n · 10 ^ k` lies in the interval, given `scaled = n · 10 ^ k · den` and the interval's
own unit. -/
def Interval.holds (i : Interval) (scaled unit : Nat) : Bool :=
  if i.closed then i.low * unit ≤ scaled && scaled ≤ i.high * unit
  else i.low * unit < scaled && scaled < i.high * unit

/-- The multiple of `10 ^ k` that is nearest to the centre among the two around it that lie in
the interval; the even one of two that are equally near. -/
def Interval.nearest? (i : Interval) (k : Int) : Option Nat :=
  let unit := if 0 ≤ k then i.num else i.num * Nat.pow 10 k.natAbs
  let step := if 0 ≤ k then i.den * Nat.pow 10 k.natAbs else i.den
  let value := i.center * unit
  let lower := value / step
  let below := value - lower * step
  let above := (lower + 1) * step - value
  match i.holds (lower * step) unit, i.holds ((lower + 1) * step) unit with
  | false, false => none
  | true, false => some lower
  | false, true => some (lower + 1)
  | true, true =>
    if below < above || (below == above && lower % 2 == 0) then some lower else some (lower + 1)

/-- The reals that round to `mantissa · 2 ^ exponent`. -/
def Interval.ofBinary (mantissa : Nat) (exponent : Int) : Interval :=
  let power := exponent - 2
  { low := if mantissa = Nat.pow 2 52 ∧ -1074 < exponent then 4 * mantissa - 1 else 4 * mantissa - 2
    center := 4 * mantissa
    high := 4 * mantissa + 2
    closed := mantissa % 2 == 0
    num := if 0 ≤ power then Nat.pow 2 power.natAbs else 1
    den := if 0 ≤ power then 1 else Nat.pow 2 power.natAbs }

def Digits.trimmed (n : Nat) (k : Int) : Digits :=
  let all := digitsOf n
  { digits := (all.reverse.dropWhile (· == 0)).reverse, point := all.length + k }

/-- The shortest decimal that reads back as `mantissa · 2 ^ exponent`, for a mantissa that is not
zero. -/
def shortest (mantissa : Nat) (exponent : Int) : Digits :=
  let i := Interval.ofBinary mantissa exponent
  let top := magnitude (i.center * i.num) i.den 400
  let fitting? (count : Nat) : Option Digits :=
    (i.nearest? (top - count)).map fun n => Digits.trimmed n (top - count)
  ((List.range' 1 17).findSome? fitting?).getD ⟨[0], 1⟩

/-! ## Formats -/

/-- A number format: where positional notation begins and ends, counted in powers of ten of the
first digit, and the words for what is not a finite number. -/
structure Layout where
  positionalFrom : Int
  positionalBelow : Int
  notANumber : String
  infinity : String

/-- Positional from `0.0001` up to sixteen digits before the point. -/
def plain : Layout :=
  ⟨-4, 16, "nan", "inf"⟩

/-- The plain format with the words of JSON. -/
def inJson : Layout :=
  { plain with notANumber := "NaN", infinity := "Infinity" }

def digitChar (d : Nat) : Char :=
  Char.ofNat (48 + d)

/-- Digits with a point; a whole number ends in `.0`. -/
def positional (d : Digits) : String :=
  let cs := d.digits.map digitChar
  String.ofList <|
    if d.point ≤ 0 then '0' :: '.' :: List.replicate d.point.natAbs '0' ++ cs
    else
      let count := d.point.natAbs
      if cs.length ≤ count then cs ++ List.replicate (count - cs.length) '0' ++ ['.', '0']
      else cs.take count ++ '.' :: cs.drop count

def scientific (d : Digits) : String :=
  let cs := d.digits.map digitChar
  let exponent := d.point - 1
  let size := Nat.toDigits 10 exponent.natAbs
  let body := if cs.length ≤ 1 then cs else cs.take 1 ++ '.' :: cs.drop 1
  let padded := if size.length < 2 then '0' :: size else size
  String.ofList (body ++ 'e' :: (if exponent < 0 then '-' else '+') :: padded)

def Layout.write (l : Layout) (x : Float) : String :=
  match FloatValue.ofFloat x with
  | .notANumber => l.notANumber
  | .infinite negative => if negative then "-" ++ l.infinity else l.infinity
  | .finite negative mantissa exponent =>
    let d : Digits := if mantissa = 0 then ⟨[0], 1⟩ else shortest mantissa exponent
    let size := d.point - 1
    let body :=
      if l.positionalFrom ≤ size ∧ size < l.positionalBelow then positional d else scientific d
    if negative then "-" ++ body else body

end ShortcutRelay.Decimal
