import ShortcutRelay.Json.Basic
import ShortcutRelay.Decimal.Whole
import ShortcutRelay.Text.Hex

/-!
# Reading JSON

* `JsonError` : why a text has no value;
* `Json.parse` : the value of a text.

The grammar is that of RFC 8259 with three more numbers, `NaN`, `Infinity` and `-Infinity`. Of
members with the same key the first gives the position and the last the value. Every reader takes
what is left of the text and returns what it leaves; the nesting of arrays and objects is bounded by
the length of the text. Surrogates are read as they are, but two escapes for a pair of them are one
character.
-/

namespace ShortcutRelay

/-- Why a text has no JSON value: it breaks the grammar, or a whole number in it has too many
digits. -/
inductive JsonError
  | malformed
  | tooManyDigits (count : Nat)
  deriving DecidableEq, Repr

def JsonError.message : JsonError → String
  | malformed => "malformed"
  | tooManyDigits count => Decimal.digitLimitText count

namespace Json
open Decimal Text

/-- Whether a code point may stand between the parts of a value. -/
def isSpace : CodePoint → Bool
  | .char c => c == ' ' || c == '\n' || c == '\r' || c == '\t'
  | .surrogate _ => false

def skipSpace (ps : List CodePoint) : List CodePoint :=
  ps.dropWhile isSpace

/-! ## Texts -/

def escapeOf? (c : Char) : Option Char :=
  [('"', '"'), ('\\', '\\'), ('/', '/'), ('b', '\x08'), ('f', '\x0c'), ('n', '\n'), ('r', '\r'),
    ('t', '\t')].lookup c

def fourDigits? : List CodePoint → Option (Nat × List CodePoint)
  | .char a :: .char b :: .char c :: .char d :: ps => (hexNumber? [a, b, c, d]).map (·, ps)
  | _ => none

/-- The code point of a `\u` escape after its `u`: two escapes make one character where they are
a high and a low surrogate. -/
def unicodeEscape? (ps : List CodePoint) : Option (CodePoint × List CodePoint) := do
  let (high, rest) ← fourDigits? ps
  if 0xd800 ≤ high ∧ high < 0xdc00 then
    match rest with
    | .char '\\' :: .char 'u' :: more =>
      let (low, rest') ← fourDigits? more
      if 0xdc00 ≤ low ∧ low < 0xe000 then
        return (.ofNat (0x10000 + (high - 0xd800) * 0x400 + (low - 0xdc00)), rest')
      else return (.ofNat high, rest)
    | _ => return (.ofNat high, rest)
  else return (.ofNat high, rest)

/-- The code points up to the closing quote, at most `fuel` of them. -/
def readTextBody : Nat → List CodePoint → Option (List CodePoint × List CodePoint)
  | 0, _ => none
  | _, [] => none
  | fuel + 1, p :: ps =>
    if p = .char '"' then some ([], ps)
    else if p = .char '\\' then
      match ps with
      | .char 'u' :: ps => do
        let (x, ps) ← unicodeEscape? ps
        let (xs, rest) ← readTextBody fuel ps
        return (x :: xs, rest)
      | .char e :: ps => do
        let x ← escapeOf? e
        let (xs, rest) ← readTextBody fuel ps
        return (.char x :: xs, rest)
      | _ => none
    else if p.toNat < 32 then none
    else do
      let (xs, rest) ← readTextBody fuel ps
      return (p :: xs, rest)

def readText (ps : List CodePoint) : Option (List CodePoint × List CodePoint) :=
  readTextBody (ps.length + 1) ps

/-! ## Numbers -/

/-- A point with at least one digit, where the text begins with them. -/
def fractionOf (cs : List Char) : List Char × List Char :=
  match cs with
  | '.' :: rest =>
    let digits := rest.takeWhile isDigit
    if digits.isEmpty then ([], cs) else (digits, rest.dropWhile isDigit)
  | _ => ([], cs)

/-- An exponent with at least one digit, where the text begins with one. -/
def exponentOf (cs : List Char) : Option Int × List Char :=
  match cs with
  | c :: rest =>
    if c == 'e' || c == 'E' then
      let (negative, digits) := signed rest
      let number := digits.takeWhile isDigit
      if number.isEmpty then (none, cs)
      else
        let n : Int := numberOf number
        (some (if negative then -n else n), digits.dropWhile isDigit)
    else (none, cs)
  | [] => (none, cs)

/-- The digits before the point: a zero, or digits of which the first is not zero. -/
def wholeOf? (cs : List Char) : Option (List Char × List Char) :=
  match cs with
  | '0' :: rest => some (['0'], rest)
  | _ =>
    let digits := cs.takeWhile isDigit
    if digits.isEmpty then none else some (digits, cs.dropWhile isDigit)

def readNumber (cs : List Char) : Except JsonError (Json × List Char) :=
  let (negative, digits) := match cs with
    | '-' :: rest => (true, rest)
    | _ => (false, cs)
  match wholeOf? digits with
  | none => .error .malformed
  | some (whole, rest) =>
    let (fraction, rest) := fractionOf rest
    let (exponent, rest) := exponentOf rest
    if fraction.isEmpty && exponent.isNone then
      if digitLimit < whole.length then .error (.tooManyDigits whole.length)
      else
        let n : Int := numberOf whole
        .ok (.int (if negative then -n else n), rest)
    else
      let x := decimalFloat (whole ++ fraction) (exponent.getD 0 - fraction.length)
      .ok (.float (if negative then -x else x), rest)

/-! ## Values -/

def words : List (List Char × Json) :=
  [("null".toList, .null), ("true".toList, .bool true), ("false".toList, .bool false),
   ("NaN".toList, .float (0.0 / 0.0)), ("Infinity".toList, .float (1.0 / 0.0)),
   ("-Infinity".toList, .float (-1.0 / 0.0))]

def readWord? (cs : List Char) : Option (Json × List Char) :=
  (words.find? fun w => w.1.isPrefixOf cs).map fun w => (w.2, cs.drop w.1.length)

def isLexical (c : Char) : Bool :=
  c.isAlphanum || c == '+' || c == '-' || c == '.'

/-- The characters in front that may stand in a word or in a number, and what follows them. -/
def splitLexeme : List CodePoint → List Char × List CodePoint
  | .char c :: ps =>
    if isLexical c then
      let (cs, rest) := splitLexeme ps
      (c :: cs, rest)
    else ([], .char c :: ps)
  | ps => ([], ps)

def readPlain (cs : List Char) : Except JsonError (Json × List Char) :=
  match readWord? cs with
  | some found => .ok found
  | none => readNumber cs

def readLexeme (ps : List CodePoint) : Except JsonError (Json × List CodePoint) := do
  let (cs, rest) := splitLexeme ps
  let (value, left) ← readPlain cs
  return (value, left.map .char ++ rest)

mutual

def readValue (fuel : Nat) (ps : List CodePoint) : Except JsonError (Json × List CodePoint) :=
  match fuel, ps with
  | 0, _ => .error .malformed
  | _, [] => .error .malformed
  | _ + 1, .char '"' :: ps =>
    match readText ps with
    | some (s, rest) => .ok (.text s, rest)
    | none => .error .malformed
  | fuel + 1, .char '[' :: ps =>
    match skipSpace ps with
    | .char ']' :: rest => .ok (.array [], rest)
    | ps => (readItems fuel ps).map fun (items, rest) => (.array items, rest)
  | fuel + 1, .char '\x7b' :: ps =>
    match skipSpace ps with
    | .char '\x7d' :: rest => .ok (.object [], rest)
    | ps => (readMembers fuel [] ps).map fun (members, rest) => (.object members, rest)
  | _ + 1, ps => readLexeme ps

def readItems (fuel : Nat) (ps : List CodePoint) : Except JsonError (List Json × List CodePoint) :=
  match fuel with
  | 0 => .error .malformed
  | fuel + 1 => do
    let (item, rest) ← readValue fuel ps
    match skipSpace rest with
    | .char ']' :: rest => return ([item], rest)
    | .char ',' :: rest =>
      let (items, rest) ← readItems fuel (skipSpace rest)
      return (item :: items, rest)
    | _ => .error .malformed

def readMembers (fuel : Nat) (members : List (List CodePoint × Json)) (ps : List CodePoint) :
    Except JsonError (List (List CodePoint × Json) × List CodePoint) :=
  match fuel, ps with
  | fuel + 1, .char '"' :: ps =>
    match readText ps with
    | none => .error .malformed
    | some (key, rest) =>
      match skipSpace rest with
      | .char ':' :: rest => do
        let (value, rest) ← readValue fuel (skipSpace rest)
        let members := putEntry key value members
        match skipSpace rest with
        | .char '\x7d' :: rest => return (members, rest)
        | .char ',' :: rest => readMembers fuel members (skipSpace rest)
        | _ => .error .malformed
      | _ => .error .malformed
  | _, _ => .error .malformed

end

def parse (ps : List CodePoint) : Except JsonError Json := do
  let (value, rest) ← readValue (2 * ps.length + 2) (skipSpace ps)
  if (skipSpace rest).isEmpty then return value else throw .malformed

end Json

end ShortcutRelay
