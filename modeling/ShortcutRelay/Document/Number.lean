import ShortcutRelay.Document.Shown
import ShortcutRelay.Decimal.Reading

/-!
# Documents as numbers, and numbers as texts

* `Document.toFloat` : the double that a document stands for, or why there is none;
* `wholeText` : the digits of a whole number, or that they are too many;
* `Document.plainText` : the form of a document as a text of its own, in which texts are not quoted.
-/

namespace ShortcutRelay
open Decimal

/-- Why a document is not a double, or a number has no text. -/
inductive NumberError
  | malformed (shown : String)
  | notNumeric (kind : String)
  | tooLarge
  | tooManyDigits
  deriving DecidableEq, Repr

def NumberError.message : NumberError → String
  | .malformed shown => "could not convert string to float: " ++ shown
  | .notNumeric kind => "float() argument must be a string or a real number, not '" ++ kind ++ "'"
  | .tooLarge => "int too large to convert to float"
  | .tooManyDigits => writeLimitText

def floatOfInt (n : Int) : Except NumberError Float :=
  match ofInteger? n with
  | some x => .ok x
  | none => .error .tooLarge

/-- The double that a document stands for: a truth value counts as 1 or 0 and a text is read. -/
def Document.toFloat : Document → Except NumberError Float
  | .bool b => .ok (if b then 1.0 else 0.0)
  | .int n => floatOfInt n
  | .float x => .ok x
  | .text s =>
    match readFloat? s with
    | some x => .ok x
    | none => .error (.malformed (Text.quote s))
  | .bytes bs =>
    if bs.all (· < 128) then
      match readFloat? (String.ofList (bs.map fun b => Char.ofNat b.toNat)) with
      | some x => .ok x
      | none => .error (.malformed (Text.quoteBytes bs))
    else .error (.malformed (Text.quoteBytes bs))
  | d => .error (.notNumeric d.fullKind)

def wholeText (n : Int) : Except NumberError String :=
  if isWritable n then .ok (toString n) else .error .tooManyDigits

/-- A document as a text of its own. -/
def Document.plainText : Document → Except NumberError String
  | .text s => .ok s
  | .date d => .ok d.iso
  | .moment m => .ok (m.textWith " ")
  | d => if d.isShowable then .ok d.shown else .error .tooManyDigits

end ShortcutRelay
