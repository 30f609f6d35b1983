import ShortcutRelay.Decimal.Shortest
import ShortcutRelay.Failure
import ShortcutRelay.Json.Basic
import ShortcutRelay.Text.Hex
import ShortcutRelay.Text.Pieces

/-!
# Writing JSON

* `Script` : which characters or code points a value is written in;
* `Json.pretty` : one item or member a line, indented by two spaces a level;
* `Json.inlineAscii` : everything on one line, in ASCII characters only;
* `Document.toJson` : the JSON value of a document, or the first thing that keeps it from having one.
-/

namespace ShortcutRelay.Json
open Text

/-- What a value is written in: how a character of the layout is written, and how a code point that
needs no escape in JSON. -/
structure Script (α : Type) where
  plain : Char → α
  other : CodePoint → List α

def shortEscape? (c : Char) : Option Char :=
  [('"', '"'), ('\\', '\\'), ('\n', 'n'), ('\r', 'r'), ('\t', 't'), ('\x0c', 'f'),
    ('\x08', 'b')].lookup c

def unicodeEscape (n : Nat) : List Char :=
  '\\' :: 'u' :: hexDigits 4 n

namespace Script

/-- Every code point as it is. -/
def full : Script CodePoint where
  plain := .char
  other p := [p]

/-- ASCII characters only. All others are escaped, those above `0xffff` as two surrogates. -/
def ascii : Script Char where
  plain := id
  other p :=
    let n := p.toNat
    if n < 127 then [Char.ofNat n]
    else if n < 0x10000 then unicodeEscape n
    else unicodeEscape (0xd800 + (n - 0x10000) / 0x400) ++
      unicodeEscape (0xdc00 + (n - 0x10000) % 0x400)

variable {α : Type} (w : Script α)

def text (s : String) : List α :=
  s.toList.map w.plain

def escape (p : CodePoint) : List α :=
  match p.char?.bind shortEscape? with
  | some e => [w.plain '\\', w.plain e]
  | none => if p.toNat < 32 then (unicodeEscape p.toNat).map w.plain else w.other p

def quoted (ps : List CodePoint) : List α :=
  w.plain '"' :: ps.flatMap w.escape ++ [w.plain '"']

end Script

def boolWord (b : Bool) : String :=
  if b then "true" else "false"

def lineBreak (depth : Nat) : List CodePoint :=
  .char '\n' :: List.replicate (2 * depth) (.char ' ')

/-- A name with the value behind it. -/
def membered (key value : List CodePoint) : List CodePoint :=
  Script.full.quoted key ++ codePoints ": " ++ value

mutual

def prettyAt (depth : Nat) : Json → List CodePoint
  | null => codePoints "null"
  | bool b => codePoints (boolWord b)
  | int n => codePoints (toString n)
  | float x => codePoints (Decimal.inJson.write x)
  | text s => Script.full.quoted s
  | array [] => codePoints "[]"
  | array (item :: items) =>
    .char '[' :: lineBreak (depth + 1) ++
      List.intercalate (.char ',' :: lineBreak (depth + 1))
        (prettyAt (depth + 1) item :: prettyItems (depth + 1) items) ++
      lineBreak depth ++ [.char ']']
  | object [] => codePoints "\x7b\x7d"
  | object ((key, value) :: members) =>
    .char '\x7b' :: lineBreak (depth + 1) ++
      List.intercalate (.char ',' :: lineBreak (depth + 1))
        (membered key (prettyAt (depth + 1) value) :: prettyMembers (depth + 1) members) ++
      lineBreak depth ++ [.char '\x7d']

def prettyItems (depth : Nat) : List Json → List (List CodePoint)
  | [] => []
  | item :: items => prettyAt depth item :: prettyItems depth items

def prettyMembers (depth : Nat) : List (List CodePoint × Json) → List (List CodePoint)
  | [] => []
  | (key, value) :: members =>
    membered key (prettyAt depth value) :: prettyMembers depth members

end

def pretty (j : Json) : List CodePoint :=
  prettyAt 0 j

mutual

def onOneLine {α : Type} (w : Script α) : Json → List α
  | null => w.text "null"
  | bool b => w.text (boolWord b)
  | int n => w.text (toString n)
  | float x => w.text (Decimal.inJson.write x)
  | text s => w.quoted s
  | array items =>
    w.text "[" ++ List.intercalate (w.text ", ") (inlineItems w items) ++ w.text "]"
  | object members =>
    w.text "\x7b" ++ List.intercalate (w.text ", ") (inlineMembers w members) ++ w.text "\x7d"

def inlineItems {α : Type} (w : Script α) : List Json → List (List α)
  | [] => []
  | item :: items => onOneLine w item :: inlineItems w items

def inlineMembers {α : Type} (w : Script α) : List (List CodePoint × Json) → List (List α)
  | [] => []
  | (key, value) :: members =>
    (w.quoted key ++ w.text ": " ++ onOneLine w value) :: inlineMembers w members

end

def inlineAscii (j : Json) : String :=
  String.ofList (onOneLine .ascii j)

end ShortcutRelay.Json

namespace ShortcutRelay

/-! ## Documents -/

/-- A whole number that is to be written in JSON. -/
def writable (n : Int) : Except Unserializable Int :=
  if Decimal.isWritable n then .ok n else .error .tooManyDigits

/-- The key of a member: a text, or a simple value as it is written in JSON. -/
def memberKey (d : Document) : Except Unserializable String :=
  match d with
  | .text s => .ok s
  | .null => .ok "null"
  | .bool b => .ok (Json.boolWord b)
  | .int n => do return toString (← writable n)
  | .float x => .ok (Decimal.inJson.write x)
  | d => .error (.key d.fullKind)

mutual

/-- The JSON value of a document, or the first thing that keeps it from having one. -/
def Document.toJson : Document → Except Unserializable Json
  | .null => .ok .null
  | .bool b => .ok (.bool b)
  | .int n => do return .int (← writable n)
  | .float x => .ok (.float x)
  | .text s => .ok (.ofString s)
  | .list items => do return .array (← itemsToJson items)
  | .pair a b => do return .array [← a.toJson, ← b.toJson]
  | .map entries => do return .object (← entriesToJson entries)
  | d => .error (.value d.kind)

def itemsToJson : List Document → Except Unserializable (List Json)
  | [] => .ok []
  | item :: items => do
    let j ← item.toJson
    return j :: (← itemsToJson items)

def entriesToJson :
    List (Document × Document) → Except Unserializable (List (List CodePoint × Json))
  | [] => .ok []
  | (k, v) :: entries => do
    let key ← memberKey k
    let j ← v.toJson
    return Json.named key j :: (← entriesToJson entries)

end

end ShortcutRelay
