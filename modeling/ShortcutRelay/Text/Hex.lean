/-!
# Hexadecimal digits

* `hex` : a number written with at least the given count of digits `0`–`9`, `a`–`f`;
* `hexValue?` : the value of one digit of either case.
-/

namespace ShortcutRelay.Text

/-- The digit of a value below sixteen. -/
def hexDigit (n : Nat) : Char :=
  if n < 10 then Char.ofNat (48 + n) else Char.ofNat (87 + n)

def hexDigits : Nat → Nat → List Char
  | 0, _ => []
  | count + 1, n => hexDigits count (n / 16) ++ [hexDigit (n % 16)]

def hex (count n : Nat) : String :=
  String.ofList (hexDigits count n)

def hexValue? (c : Char) : Option Nat :=
  if '0' ≤ c ∧ c ≤ '9' then some (c.toNat - 48)
  else if 'a' ≤ c ∧ c ≤ 'f' then some (c.toNat - 87)
  else if 'A' ≤ c ∧ c ≤ 'F' then some (c.toNat - 55)
  else none

def hexNumber? (digits : List Char) : Option Nat :=
  digits.foldl (fun n c => do return 16 * (← n) + (← hexValue? c)) (some 0)

end ShortcutRelay.Text
