import ShortcutRelay.Config.File
import ShortcutRelay.Decimal.Whole
import ShortcutRelay.Document.Shown
import ShortcutRelay.Document.Number
import ShortcutRelay.Yaml.Shape

/-!
# Documents from YAML

* `scalarValue` : the value of a scalar of a given kind;
* `Tree.value` : the value of a node of a tree;
* `readDocument` : the document of a text;
* `reader` : the same as a reader of configurations.

The entries of mappings under the merge key come first, those of earlier ones in a list winning,
and a key that is given again keeps its place and takes the last value.
-/

namespace ShortcutRelay.Yaml
open Decimal Text Calendar

/-! ## Scalars -/

def readWhole (base : Nat) (cs : List Char) : Except YamlError Int :=
  (Decimal.readWhole base cs).mapError .badInteger

/-- A number in base sixty, its parts from the greatest one down. -/
def readSixties (parts : List (List Char)) : Except YamlError Int :=
  parts.foldlM (fun n part => do return 60 * n + (← readWhole 10 part)) 0

def integerValue (text : String) : Except YamlError Int := do
  let cs := text.toList.filter (· != '_')
  if cs.isEmpty then throw .emptyNumber
  let (negative, cs) := signed cs
  let n ← match cs with
    | [] => throw .emptyNumber
    | ['0'] => pure 0
    | '0' :: 'b' :: rest => readWhole 2 rest
    | '0' :: 'x' :: rest => readWhole 16 rest
    | '0' :: _ => readWhole 8 cs
    | _ => if cs.contains ':' then readSixties (splitOn ':' cs) else readWhole 10 cs
  return if negative then -n else n

def readDouble (cs : List Char) : Except YamlError Float :=
  match readFloat? (String.ofList cs) with
  | some x => .ok x
  | none => .error (.badFloat (quote (String.ofList cs)))

def sumSixties (parts : List Float) : Except YamlError Float := do
  let add (found : Float × Nat) (x : Float) : Except YamlError (Float × Nat) := do
    let unit ← (floatOfInt found.2).mapError .number
    return (found.1 + x * unit, 60 * found.2)
  return (← parts.reverse.foldlM add (0.0, 1)).1

def floatValue (text : String) : Except YamlError Float := do
  let cs := (lower (String.ofList (text.toList.filter (· != '_')))).toList
  if cs.isEmpty then throw .emptyNumber
  let (negative, cs) := signed cs
  let x ←
    if cs = ".inf".toList then pure (1.0 / 0.0)
    else if cs = ".nan".toList then return 0.0 / 0.0
    else if cs.contains ':' then sumSixties (← (splitOn ':' cs).mapM readDouble)
    else readDouble cs
  return if negative then -x else x

def truthValue (text : String) : Except YamlError Bool :=
  match truthWords.lookup (lower text) with
  | some b => .ok b
  | none => .error (.badBoolean (quote (lower text)))

def liftCalendar {α : Type} (r : Except CalendarError α) : Except YamlError α :=
  r.mapError .calendar

def zoneOffset (negative : Bool) (hour minute : Nat) : Int :=
  let n : Int := (3600 * hour + 60 * minute) * 1000000
  if negative then -n else n

def timestampValue (text : String) : Except YamlError Document := do
  let some s := readStamp? false (withoutLastBreak text.toList) | throw .badTimestamp
  match s.time with
  | none => return .date (← liftCalendar (Date.of s.year s.month s.day))
  | some (hour, minute, second) =>
    let digits := s.fraction.take 6
    let microsecond := numberOf digits * Nat.pow 10 (6 - digits.length)
    let offset := s.zone.map fun (negative, h, m) => zoneOffset negative h m
    return .moment
      (← liftCalendar (Moment.of s.year s.month s.day hour minute second microsecond offset))

def sixtyFourValue? (c : Char) : Option Nat :=
  if 'A' ≤ c ∧ c ≤ 'Z' then some (c.toNat - 65)
  else if 'a' ≤ c ∧ c ≤ 'z' then some (c.toNat - 71)
  else if isDigit c then some (c.toNat + 4)
  else if c = '+' then some 62
  else if c = '/' then some 63
  else none

/-- The bytes of digits in base 64, four of which make three bytes. Other characters are passed
over; the last group is filled with equal signs. -/
def decodeSixtyFour : List Nat → List Char → Option (List UInt8)
  | [], [] => some []
  | _, [] => none
  | group, c :: cs =>
    match sixtyFourValue? c with
    | some d =>
      match group with
      | [x, y, z] =>
        let n := ((x * 64 + y) * 64 + z) * 64 + d
        (decodeSixtyFour [] cs).map fun bytes =>
          (n / 65536).toUInt8 :: (n / 256).toUInt8 :: n.toUInt8 :: bytes
      | _ => decodeSixtyFour (group ++ [d]) cs
    | none =>
      if c = '=' then
        match group with
        | [x, y, z] => some [(x * 4 + y / 16).toUInt8, (y * 16 + z / 4).toUInt8]
        | [x, y] =>
          if (cs.filter fun c => c == '=' || (sixtyFourValue? c).isSome).head? = some '=' then
            some [(x * 4 + y / 16).toUInt8]
          else decodeSixtyFour group cs
        | _ => decodeSixtyFour group cs
      else decodeSixtyFour group cs

def binaryValue (text : String) : Except YamlError Document :=
  if text.toList.all (·.toNat < 128) then
    match decodeSixtyFour [] text.toList with
    | some bytes => .ok (.bytes bytes)
    | none => .error .malformed
  else .error .malformed

def scalarValue (kind : Kind) (text : String) : Except YamlError Document :=
  match kind with
  | .null => .ok .null
  | .boolean => do return .bool (← truthValue text)
  | .integer => do return .int (← integerValue text)
  | .float => do return .float (← floatValue text)
  | .timestamp => timestampValue text
  | .binary => binaryValue text
  | .text => .ok (.text text)
  | _ => .error .malformed

/-! ## Keys -/

/-- A number as an exact fraction of powers of two, for comparison. -/
def exactNumber? : Document → Option (Int × Int)
  | .bool b => some (if b then 1 else 0, 0)
  | .int n => some (n, 0)
  | .float x =>
    match FloatValue.ofFloat x with
    | .finite negative m e => some (if negative then -(m : Int) else m, e)
    | _ => none
  | _ => none

/-- Whether two numbers given as multiples of powers of two are equal. -/
def sameNumber (a b : Int × Int) : Bool :=
  let low := min a.2 b.2
  a.1 * Nat.pow 2 (a.2 - low).toNat == b.1 * Nat.pow 2 (b.2 - low).toNat

/-- Whether two keys are the same: numbers and truth values by their value, moments with an offset
by their instant, all others by what they are. Two values that are not a number differ. -/
def sameKey (a b : Document) : Bool :=
  match exactNumber? a, exactNumber? b with
  | some x, some y => sameNumber x y
  | _, _ =>
    match a, b with
    | .null, .null => true
    | .text s, .text t => s == t
    | .bytes s, .bytes t => s == t
    | .date d, .date e => d == e
    | .moment m, .moment n =>
      match m.offset, n.offset with
      | some o, some p => m.writtenMicroseconds - o == n.writtenMicroseconds - p
      | none, none => m == n
      | _, _ => false
    | .float x, .float y => x == y
    | _, _ => false

def putField (key value : Document) : List (Document × Document) → List (Document × Document)
  | [] => [(key, value)]
  | (k, v) :: rest =>
    if sameKey k key then (k, value) :: rest else (k, v) :: putField key value rest

/-! ## Nodes -/

def Node.kind : Node → Except YamlError Kind
  | .scalar .byText text => .ok (kindOfText text)
  | .scalar .default _ => .ok .text
  | .scalar (.given name) _ | .sequence (.given name) _ | .mapping (.given name) _ =>
    match kindOfTag? name with
    | some kind => .ok kind
    | none => .error .malformed
  | .sequence _ _ => .ok .sequence
  | .mapping _ _ => .ok .mapping
  | .anchored .. | .alias _ => .error .malformed

/-- Whether a node is a scalar of a kind. -/
def Node.isScalarOf (kind : Kind) : Node → Bool
  | .scalar tag text => (Node.scalar tag text).kind.toOption == some kind
  | _ => false

/-- Whether the values of a kind have contents, which are made after the value itself. -/
def Kind.hasContents : Kind → Bool
  | .sequence | .mapping | .set | .pairs => true
  | _ => false

namespace Tree

/-- The anchor of a node and the node that it stands for. -/
def resolve (t : Tree) : Node → Option String × Node
  | .anchored name n => (some name, n)
  | .alias name => (some name, (t.named.lookup name).getD (.sequence .default []))
  | n => (none, n)

/-- An entry of a mapping, in which a default key is an ordinary text. -/
def ownEntry (e : Node × Node) : Node × Node :=
  match e with
  | (.scalar tag text, v) =>
    if (Node.scalar tag text).isScalarOf .default then (.scalar .default text, v) else e
  | _ => e

/-- The entries of a mapping with those of the values under its merge keys in front: of mappings,
or of lists of mappings whose first one comes last. -/
def flatten (t : Tree) : Nat → List (Node × Node) → Except YamlError (List (Node × Node))
  | 0, _ => .error .malformed
  | fuel + 1, entries => do
    let merged ← (entries.filter (·.1.isScalarOf .merge)).mapM fun e =>
      match (t.resolve e.2).2 with
      | .mapping _ inner => t.flatten fuel inner
      | .sequence _ items => do
        let parts ← items.mapM fun item =>
          match (t.resolve item).2 with
          | .mapping _ inner => t.flatten fuel inner
          | _ => throw .malformed
        return parts.reverse.flatten
      | _ => throw .malformed
    return merged.flatten ++ (entries.filter (!·.1.isScalarOf .merge)).map ownEntry

/-- The text of a mapping with a default key: the scalar under it. -/
def defaultText? (t : Tree) : Nat → List (Node × Node) → Option String
  | 0, _ => none
  | fuel + 1, entries =>
    match (entries.find? (·.1.isScalarOf .default)).map fun e => (t.resolve e.2).2 with
    | some (.scalar _ text) => some text
    | some (.mapping _ inner) => t.defaultText? fuel inner
    | _ => none

/-- The value of a node of a kind without contents. -/
def simpleValue (t : Tree) (fuel : Nat) (kind : Kind) : Node → Except YamlError Document
  | .scalar _ text => scalarValue kind text
  | .mapping _ entries =>
    match t.defaultText? fuel entries with
    | some text => scalarValue kind text
    | none => .error .malformed
  | _ => .error .malformed

/-! ## The order of errors

Contents are made level by level, so an error near the root comes before one further away. -/

/-- A check of nodes, which remembers the anchors of the collections it has begun with. -/
abbrev Checking := StateT (List String) (Except YamlError)

/-- Checks what a node is made of at once; a collection is given back for its contents. -/
def checkNode (t : Tree) (fuel : Nat) (n : Node) : Checking (List Node) := do
  let (name, n) := t.resolve n
  if name.any (← get).contains then return []
  let kind ← n.kind
  if kind.hasContents then
    modify (name.toList ++ ·)
    return [n]
  else
    discard (t.simpleValue fuel kind n)
    return []

def checkKey (t : Tree) (fuel : Nat) (n : Node) : Checking Unit := do
  discard (t.checkNode fuel n)
  if (← (t.resolve n).2.kind).hasContents then throw .malformed

/-- Checks the contents of a collection and gives back the collections among them. -/
def checkContents (t : Tree) (fuel : Nat) (n : Node) : Checking (List Node) := do
  match ← n.kind, n with
  | .sequence, .sequence _ items => return (← items.mapM (t.checkNode fuel)).flatten
  | .pairs, .sequence _ items =>
    let parts ← items.mapM fun item => do
      match (t.resolve item).2 with
      | .mapping _ [(key, value)] =>
        return (← t.checkNode fuel key) ++ (← t.checkNode fuel value)
      | _ => throw .malformed
    return parts.flatten
  | .mapping, .mapping _ entries | .set, .mapping _ entries =>
    let parts ← (← t.flatten fuel entries).mapM fun (key, value) => do
      t.checkKey fuel key
      t.checkNode fuel value
    return parts.flatten
  | _, _ => throw .malformed

/-- Checks the contents of collections level by level. -/
def checkLevels (t : Tree) (fuel : Nat) : Nat → List Node → Checking Unit
  | _, [] => return
  | 0, _ => throw .malformed
  | levels + 1, nodes => do
    t.checkLevels fuel levels (← nodes.mapM (t.checkContents fuel)).flatten

/-! ## Values -/

/-- Makes values, remembering those of the collections that have an anchor. -/
abbrev Making := StateT (List (String × Document)) (Except YamlError)

/-- The value of a node. -/
def value (t : Tree) : Nat → Node → Making Document
  | 0, _ => throw .malformed
  | fuel + 1, .anchored name n => do
    let d ← t.value fuel n
    modify ((name, d) :: ·)
    return d
  | fuel + 1, .alias name => do
    match (← get).lookup name with
    | some d => return d
    | none => t.value fuel (t.resolve (.alias name)).2
  | fuel + 1, n => do
    let fields (entries : List (Node × Node)) : Making (List (Document × Document)) := do
      (← t.flatten fuel entries).foldlM
        (fun fields (k, v) => return putField (← t.value fuel k) (← t.value fuel v) fields) []
    match ← n.kind, n with
    | .sequence, .sequence _ items => return .list (← items.mapM (t.value fuel))
    | .pairs, .sequence _ items =>
      return .list (← items.mapM fun item => do
        match (t.resolve item).2 with
        | .mapping _ [(k, v)] => return .pair (← t.value fuel k) (← t.value fuel v)
        | _ => throw .malformed)
    | .mapping, .mapping _ entries => return .map (← fields entries)
    | .set, .mapping _ entries => return .set ((← fields entries).map (·.1))
    | kind, n => t.simpleValue fuel kind n

end Tree

mutual

def Node.size : Node → Nat
  | .scalar .. | .alias _ => 1
  | .sequence _ items => sizeOfItems items + 1
  | .mapping _ entries => sizeOfEntries entries + 1
  | .anchored _ n => n.size + 1

def sizeOfItems : List Node → Nat
  | [] => 0
  | n :: rest => n.size + sizeOfItems rest

def sizeOfEntries : List (Node × Node) → Nat
  | [] => 0
  | (k, v) :: rest => k.size + v.size + sizeOfEntries rest

end

/-- The document of a tree. A way down from the root passes through no node twice between two
aliases, and through no alias twice. -/
def Tree.document (t : Tree) : Except YamlError Document := do
  let fuel := Nat.pow (t.root.size + 2) 2
  let check := do t.checkLevels fuel fuel (← t.checkNode fuel t.root)
  discard (check.run [])
  return (← (t.value fuel t.root).run []).1

/-- The document of a YAML text, null for a text without one. -/
def readDocument (text : String) : Except YamlError Document := do
  match ← Tree.ofTokens (← tokens text) with
  | none => return .null
  | some t => t.document

/-- The wording of an error in a value; what breaks the grammar is worded where the file is
named. -/
def YamlError.message : YamlError → String
  | .malformed => "<yaml error>"
  | .noCharacter n =>
    if n < Nat.pow 2 31 then "chr() arg not in range(0x110000)"
    else "Python int too large to convert to C int"
  | .surrogate => "surrogates not allowed"
  | .badInteger text => text
  | .badFloat shown => "could not convert string to float: " ++ shown
  | .badBoolean shown => shown
  | .badTimestamp => "'NoneType' object has no attribute 'groupdict'"
  | .emptyNumber => "string index out of range"
  | .number e => e.message
  | .calendar e => e.message

/-- The reader of configurations in YAML. -/
def reader : Reader := fun text =>
  (readDocument text).mapError fun
    | .malformed => .malformed
    | e => .other e.message

end ShortcutRelay.Yaml
