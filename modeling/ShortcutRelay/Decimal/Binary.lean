/-!
# Floating-point numbers as exact values

* `FloatValue` : not a number, an infinity, or a sign with `mantissa · 2 ^ exponent`;
* `FloatValue.ofFloat` : the exact value of a double;
* `integer?` : the whole number that a double is equal to;
* `ofInteger?` : the double nearest to a whole number, where it is finite.
-/

namespace ShortcutRelay.Decimal

inductive FloatValue
  | notANumber
  | infinite (negative : Bool)
  | finite (negative : Bool) (mantissa : Nat) (exponent : Int)
  deriving DecidableEq, Repr

/-- The exact value of a double, read off its sign, exponent and fraction bits. -/
def FloatValue.ofFloat (x : Float) : FloatValue :=
  let bits : Nat := x.toBits.toNat
  let negative := bits / Nat.pow 2 63 == 1
  let biased : Nat := bits / Nat.pow 2 52 % Nat.pow 2 11
  let fraction : Nat := bits % Nat.pow 2 52
  if biased == 2047 then (if fraction == 0 then .infinite negative else .notANumber)
  else if biased == 0 then .finite negative fraction (-1074)
  else .finite negative (Nat.pow 2 52 + fraction) ((biased : Int) - 1075)

/-- `mantissa · 2 ^ exponent` where that is a whole number. -/
def wholeValue? (mantissa : Nat) (exponent : Int) : Option Nat :=
  let scale := Nat.pow 2 exponent.natAbs
  if 0 ≤ exponent then some (mantissa * scale)
  else if mantissa % scale = 0 then some (mantissa / scale)
  else none

def integer? (x : Float) : Option Int :=
  match FloatValue.ofFloat x with
  | .finite negative mantissa exponent =>
    (wholeValue? mantissa exponent).map fun n => if negative then -(n : Int) else n
  | _ => none

/-- The double nearest to a whole number, a tie going to the even neighbour; none for a number
that rounds to `2 ^ 1024` or more. -/
def ofInteger? (n : Int) : Option Float :=
  let x := Float.ofInt n
  if x.isFinite then some x else none

end ShortcutRelay.Decimal
