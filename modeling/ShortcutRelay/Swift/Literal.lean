import ShortcutRelay.Decimal.Shortest
import ShortcutRelay.Document.Number

/-!
# Swift literals

* `escape` : a text as it stands between the quotes of a string literal;
* `literal`, `localized` : a text as an expression, looked up under a key in the second case;
* `formatValue` : a value as it is written in conditions, comments and logs;
* `condition` : the expression that compares an entry of the shared store with a value.
-/

namespace ShortcutRelay.Swift

/-- The escape of a character inside a string literal. -/
def escapeChar (c : Char) : List Char :=
  if c = '\\' then ['\\', '\\']
  else if c = '"' then ['\\', '"']
  else if c = '\n' then ['\\', 'n']
  else if c = '\r' then ['\\', 'r']
  else if c = '\t' then ['\\', 't']
  else [c]

def escape (s : String) : String :=
  String.ofList (s.toList.flatMap escapeChar)

def inQuotes (s : String) : String :=
  "\"" ++ s ++ "\""

def literal (s : String) : String :=
  inQuotes (escape s)

def localized (key default : String) : String :=
  "String(localized: " ++ inQuotes key ++ ", defaultValue: " ++ literal default ++ ")"

/-- A text that the system looks up under a key when it shows it. -/
def resource (key default : String) : String :=
  "LocalizedStringResource(" ++ inQuotes key ++ ", defaultValue: " ++ literal default ++ ")"

/-- The bound from which whole doubles are written with an exponent. -/
def wholeBound : Nat :=
  Nat.pow 10 21

/-- A double: without a point where it is whole and below `10 ^ 21`. -/
def formatFloat (x : Float) : String :=
  match Decimal.FloatValue.ofFloat x with
  | .notANumber => "NaN"
  | .infinite negative => if negative then "-Infinity" else "Infinity"
  | .finite .. =>
    match Decimal.integer? x with
    | some n => if n.natAbs < wholeBound then toString n else Decimal.plain.write x
    | none => Decimal.plain.write x

/-- A value as it is written in conditions, comments and logs. -/
def formatValue : Document → Except NumberError String
  | .bool b => .ok (if b then "true" else "false")
  | .int n => wholeText n
  | .float x => .ok (formatFloat x)
  | d => d.plainText

/-! ## Conditions on the shared state -/

/-- The expression that compares an entry with a value: numbers and truth values, which are
stored as 1 and 0, as doubles, texts as texts, and for anything else whether the entry exists. -/
def condition (key : String) (value : Document) : Except NumberError String :=
  let number := "defaults.double(forKey: " ++ literal key ++ ")"
  let text := "defaults.string(forKey: " ++ literal key ++ ")"
  match value with
  | .bool b => .ok (number ++ " == " ++ (if b then "1" else "0"))
  | .int _ | .float _ => (number ++ " == " ++ ·) <$> formatValue value
  | .text s => .ok (text ++ " == " ++ literal s)
  | _ => .ok (text ++ " != nil")

end ShortcutRelay.Swift
