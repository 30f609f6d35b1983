/-!
# Base 64

* `decodeBase64` : the bytes that a text in base 64 stands for, other characters being skipped.
-/

namespace ShortcutRelay.Text

/-- Why a text is not in base 64. -/
inductive Base64Error
  | oneCharacterLeft (count : Nat)
  | padding
  deriving DecidableEq, Repr

def Base64Error.message : Base64Error → String
  | oneCharacterLeft count =>
    "Invalid base64-encoded string: number of data characters (" ++ toString count ++
      ") cannot be 1 more than a multiple of 4"
  | padding => "Incorrect padding"

/-- The value of a character of the alphabet. -/
def base64Value? (c : Char) : Option Nat :=
  if 'A' ≤ c ∧ c ≤ 'Z' then some (c.toNat - 65)
  else if 'a' ≤ c ∧ c ≤ 'z' then some (c.toNat - 71)
  else if '0' ≤ c ∧ c ≤ '9' then some (c.toNat + 4)
  else if c = '+' then some 62
  else if c = '/' then some 63
  else none

/-- The values of the characters up to the padding that ends the text, and whether there was such
padding. `count` is the number of values before, `pads` that of padding characters just before. -/
def base64Values (count pads : Nat) : List Char → List Nat × Bool
  | [] => ([], false)
  | c :: cs =>
    if c = '=' then
      if 2 ≤ count % 4 ∧ 4 ≤ count % 4 + pads + 1 then ([], true)
      else base64Values count (if 2 ≤ count % 4 then pads + 1 else pads) cs
    else
      match base64Value? c with
      | none => base64Values count pads cs
      | some v =>
        let (values, ended) := base64Values (count + 1) 0 cs
        (v :: values, ended)

/-- The bytes of values of six bits each; what is left over at the end is dropped. -/
def packSixes : List Nat → List UInt8
  | a :: b :: c :: d :: rest =>
    [(4 * a + b / 16).toUInt8, (16 * b + c / 4).toUInt8, (64 * c + d).toUInt8] ++ packSixes rest
  | [a, b, c] => [(4 * a + b / 16).toUInt8, (16 * b + c / 4).toUInt8]
  | [a, b] => [(4 * a + b / 16).toUInt8]
  | _ => []

/-- The bytes that a text in base 64 stands for. -/
def decodeBase64 (cs : List Char) : Except Base64Error (List UInt8) :=
  let (values, ended) := base64Values 0 0 cs
  if ended || values.length % 4 = 0 then .ok (packSixes values)
  else if values.length % 4 = 1 then .error (.oneCharacterLeft values.length)
  else .error .padding

end ShortcutRelay.Text
