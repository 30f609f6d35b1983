import ShortcutRelay.Calendar.Moment
import ShortcutRelay.Decimal.Whole
import ShortcutRelay.Failure
import ShortcutRelay.OrderedMap
import ShortcutRelay.PropertyList.Markup
import ShortcutRelay.Text.Base64

/-!
# Property lists from markup

* `Problem` : why events are no property list;
* `Builder` : the parts of a property list that were built so far;
* `buildList` : the property list of events.
-/

namespace ShortcutRelay.PropertyList
open Text Calendar

/-- Why a file is no property list: what keeps it from being read, or a value of another shape than
the one that belongs there. -/
inductive Problem
  | unreadable (reason : Unreadable)
  | misshapen (part : Misshapen)
  deriving DecidableEq, Repr

/-- A container that is being filled. A dictionary keeps the place of a key that comes again. -/
inductive Frame
  | dictionary (entries : List (String × Document))
  | array (items : List Document)

/-- A container in its place: the key it was begun under, if it was. -/
structure Level where
  frame : Frame
  key : Option String

/-- The parts that were built so far: the containers that are open, the key whose value comes next,
the value at the top and the characters of the current element. -/
structure Builder where
  levels : List Level := []
  key : Option String := none
  root : Document := .null
  characters : List Char := []

/-- Something that is wrong with a value. -/
def badValue {α : Type} (text : String) : Except Problem α :=
  .error (.unreadable (.badValue text))

/-- Something that stands where it cannot. -/
def unexpected {α : Type} (what : String) (line : Nat) : Except Problem α :=
  badValue ("unexpected " ++ what ++ " at line " ++ toString line)

namespace Builder

/-- Checks that a value may come here, and takes the key it comes under. -/
def takeKey (b : Builder) (line : Nat) : Except Problem (Option String × Builder) :=
  match b.key, b.levels with
  | some key, ⟨.dictionary _, _⟩ :: _ => .ok (some key, { b with key := none })
  | some _, [] => .error (.misshapen .keyOutsideDictionary)
  | some _, _ => unexpected "element" line
  | none, [] => .ok (none, b)
  | none, ⟨.array _, _⟩ :: _ => .ok (none, b)
  | none, _ => unexpected "element" line

/-- Puts a value into the container that is open, or at the top. -/
def put (b : Builder) (key : Option String) (value : Document) : Builder :=
  match b.levels, key with
  | ⟨.dictionary entries, k⟩ :: levels, some key =>
    { b with levels := ⟨.dictionary (putEntry key value entries), k⟩ :: levels }
  | ⟨.array items, k⟩ :: levels, _ => { b with levels := ⟨.array (items ++ [value]), k⟩ :: levels }
  | _, _ => { b with root := value }

def add (b : Builder) (line : Nat) (value : Document) : Except Problem Builder := do
  let (key, b) ← b.takeKey line
  return b.put key value

def openLevel (b : Builder) (line : Nat) (frame : Frame) : Except Problem Builder := do
  let (key, b) ← b.takeKey line
  return { b with levels := ⟨frame, key⟩ :: b.levels }

def closeLevel (b : Builder) : Builder :=
  match b.levels with
  | [] => b
  | ⟨.dictionary entries, key⟩ :: levels => { b with levels }.put key (.ofFields entries)
  | ⟨.array items, key⟩ :: levels => { b with levels }.put key (.list items)

end Builder

/-! ## Values -/

def integerOf (cs : List Char) : Except Problem Document :=
  let base := match cs with
    | '0' :: c :: _ => if c = 'x' ∨ c = 'X' then 16 else 10
    | _ => 10
  match Decimal.readWhole base cs with
  | .ok n => .ok (.int n)
  | .error text => badValue text

def realOf (cs : List Char) : Except Problem Document :=
  match (Document.text (String.ofList cs)).toFloat with
  | .ok x => .ok (.float x)
  | .error e => badValue e.message

/-- The numbers of a date from the year down, as many as there are up to the mark of universal
time. `separators` stand before the numbers, each of which has two digits. -/
def dateParts? : List Char → List Char → Option (List Nat)
  | _, 'Z' :: _ => some []
  | separator :: separators, s :: a :: b :: rest =>
    if s = separator ∧ a.isDigit ∧ b.isDigit then
      (dateParts? separators rest).map (Decimal.numberOf [a, b] :: ·)
    else none
  | _, _ => none

def dateOf (cs : List Char) : Except Problem Document := do
  let year := cs.take 4
  if year.length ≠ 4 ∨ !year.all Char.isDigit then throw (.misshapen .notADate)
  let moment (month day hour minute second : Nat) : Except Problem Document :=
    match Moment.of (Decimal.numberOf year) month day hour minute second 0 none with
    | .ok m => .ok (.moment m)
    | .error e => badValue e.message
  match dateParts? ['-', '-', 'T', ':', ':'] (cs.drop 4) with
  | none => throw (.misshapen .notADate)
  | some [] => throw (.misshapen .dateWithoutMonth)
  | some [_] => throw (.misshapen .dateWithoutDay)
  | some (month :: day :: time) =>
    moment month day (time.getD 0 0) (time.getD 1 0) (time.getD 2 0)

def dataOf (cs : List Char) : Except Problem Document :=
  match decodeBase64 cs with
  | .ok bytes => .ok (.bytes bytes)
  | .error e => badValue e.message

/-! ## Events -/

def closeElement (b : Builder) (name : String) (line : Nat) : Except Problem Builder :=
  let cleared := { b with characters := [] }
  match name with
  | "dict" =>
    match b.key with
    | some key =>
      if key = "" then .ok b.closeLevel
      else badValue ("missing value for key '" ++ key ++ "' at line " ++ toString line)
    | none => .ok b.closeLevel
  | "array" => .ok b.closeLevel
  | "key" =>
    if (b.key.getD "") ≠ "" then unexpected "key" line
    else
      match b.levels with
      | [] => .error (.misshapen .keyOutsideDictionary)
      | ⟨.dictionary _, _⟩ :: _ => .ok { cleared with key := some (String.ofList b.characters) }
      | _ => unexpected "key" line
  | "true" => b.add line (.bool true)
  | "false" => b.add line (.bool false)
  | "integer" => do cleared.add line (← integerOf b.characters)
  | "real" => do cleared.add line (← realOf b.characters)
  | "string" => cleared.add line (.text (String.ofList b.characters))
  | "data" => do cleared.add line (← dataOf b.characters)
  | "date" => do cleared.add line (← dateOf b.characters)
  | _ => .ok b

def buildEvent (b : Builder) : Event → Except Problem Builder
  | .begin name line =>
    let b := { b with characters := [] }
    match name with
    | "dict" => b.openLevel line (.dictionary [])
    | "array" => b.openLevel line (.array [])
    | _ => .ok b
  | .close name line => closeElement b name line
  | .characters cs => .ok { b with characters := b.characters ++ cs }
  | .entityDeclared =>
    badValue "XML entity declarations are not supported in plist files"
  | .broken => .error (.unreadable .badMarkup)

/-- The property list of events, null for events without one. -/
def buildList (events : List Event) : Except Problem Document := do
  return (← events.foldlM buildEvent {}).root

end ShortcutRelay.PropertyList
