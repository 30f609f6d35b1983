import ShortcutRelay.Text.Hex
import ShortcutRelay.Text.Pieces

/-!
# Nonces

* `nonceOf` : the nonce made from a random number of 128 bits: a version 4 UUID in capitals;
* `isNonce` : whether a text is one.
-/

namespace ShortcutRelay.Protocol
open Text

/-- The hexadecimal digits of a UUID: the thirteenth is the version, and the seventeenth has the
two bits of the variant. -/
def uuidDigits (random : Nat) : List Char :=
  let digits := (hexDigits 32 random).map Char.toUpper
  let variant := "89AB".toList.getD (random / Nat.pow 2 60 % 4) '8'
  digits.take 12 ++ '4' :: (digits.drop 13).take 3 ++ variant :: digits.drop 17

def uuidGroups : List Nat :=
  [8, 4, 4, 4, 12]

/-- Digits cut into groups of given lengths. -/
def cutGroups : List Nat → List Char → List (List Char)
  | [], _ => []
  | n :: ns, cs => cs.take n :: cutGroups ns (cs.drop n)

def nonceOf (random : Nat) : String :=
  joinWith "-" ((cutGroups uuidGroups (uuidDigits random)).map String.ofList)

def isNonce (s : String) : Bool :=
  let groups := splitOn '-' s.toList
  let digits := groups.flatten
  groups.map List.length == uuidGroups &&
    digits.all (fun c => ('0' ≤ c && c ≤ '9') || ('A' ≤ c && c ≤ 'F')) &&
    digits.getD 12 ' ' == '4' && "89AB".toList.contains (digits.getD 16 ' ')

end ShortcutRelay.Protocol
