/-!
# Blank characters

A property of characters is a sorted list of disjoint ranges of code points.

* `inRanges` : whether a number lies in one of the ranges;
* `isBlank` : the white space of Unicode together with the four separators `U+001C`–`U+001F`;
* `trim` : a text without the blanks at its two ends.
-/

namespace ShortcutRelay.Text

/-! ## Ranges of code points -/

/-- Whether `n` lies in one of the ranges; the search stops at the first range above `n`. -/
def inRanges (n : Nat) : List (Nat × Nat) → Bool
  | [] => false
  | (first, last) :: rest => first ≤ n && (n ≤ last || inRanges n rest)

/-! ## Blanks -/

def blankRanges : List (Nat × Nat) :=
  [(9, 13), (28, 32), (133, 133), (160, 160), (5760, 5760), (8192, 8202), (8232, 8233),
   (8239, 8239), (8287, 8287), (12288, 12288)]

def isBlank (c : Char) : Bool :=
  inRanges c.toNat blankRanges

def trimChars (cs : List Char) : List Char :=
  ((cs.dropWhile isBlank).reverse.dropWhile isBlank).reverse

def trim (s : String) : String :=
  String.ofList (trimChars s.toList)

def isBlankText (s : String) : Bool :=
  s.toList.all isBlank

end ShortcutRelay.Text
