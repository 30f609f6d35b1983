import ShortcutRelay.Decimal.Reading
import ShortcutRelay.Text.Unicode
import ShortcutRelay.Yaml.Cursor

/-!
# The parts of a YAML text

Readers of the parts that carry text: directives, anchors, tags and the five styles of scalars.

* `Directive`, `readDirective` : a line that begins with a percent sign;
* `readAnchor`, `Tag`, `readTag` : the properties of a node;
* `readPlain`, `readQuoted`, `readBlock` : scalars.
-/

namespace ShortcutRelay.Yaml
open Decimal Text

/-! ## Names, handles and resource names -/

def readName : Reading String := do
  let name ← takeWhile isNameChar
  if name.isEmpty then malformed
  return String.ofList name

def isTagChar (c : Char) : Bool :=
  isNameChar c || ";/?:@&=+$,.!~*'()[]".toList.contains c

/-- The bytes of a run of escapes, each a percent sign with two hexadecimal digits. -/
def readEscapedBytes : Nat → Reading (List UInt8)
  | 0 => return []
  | fuel + 1 => do
    if (← peek) == '%' then
      let c ← get
      match hexNumber? [c.peekAt 1, c.peekAt 2] with
      | some n =>
        forward 3
        return n.toUInt8 :: (← readEscapedBytes fuel)
      | none => malformed
    else return []

/-- The suffix of a tag or the replacement of a handle, with its escapes undone. -/
def readTagText : Nat → Reading (List Char)
  | 0 => return []
  | fuel + 1 => do
    let text ← takeWhile isTagChar
    if (← peek) == '%' then
      let bytes ← readEscapedBytes ((← get).rest.length)
      match String.fromUTF8? ⟨bytes.toArray⟩ with
      | some s => return text ++ s.toList ++ (← readTagText fuel)
      | none => malformed
    else return text

/-- A suffix that is not empty. -/
def readTagSuffix : Reading String := do
  let text ← readTagText ((← get).rest.length + 1)
  if text.isEmpty then malformed
  return String.ofList text

def readHandle : Reading String := do
  expect (· == '!')
  forward 1
  if (← peek) == ' ' then return "!"
  let name ← takeWhile isNameChar
  expect (· == '!')
  forward 1
  return String.ofList ('!' :: name ++ ['!'])

/-! ## Directives -/

/-- A line that begins with a percent sign. -/
inductive Directive
  | version (major : Nat)
  | handle (handle replacement : String)
  | reserved

def readVersionNumber : Reading Nat := do
  let digits ← takeWhile isDigit
  if digits.isEmpty then malformed
  return numberOf digits

def readDirective : Reading Directive := do
  forward 1
  let name ← readName
  expect isSpaceOrEnd
  let directive ← match name with
    | "YAML" => do
      skipSpaces
      let major ← readVersionNumber
      expect (· == '.')
      forward 1
      discard readVersionNumber
      expect isSpaceOrEnd
      pure (.version major)
    | "TAG" => do
      skipSpaces
      let handle ← readHandle
      expect (· == ' ')
      skipSpaces
      let replacement ← readTagSuffix
      expect isSpaceOrEnd
      pure (.handle handle replacement)
    | _ => do
      discard <| takeWhile (!isBreakOrEnd ·)
      pure .reserved
  skipRestOfLine
  return directive

/-! ## Anchors and tags -/

def readAnchor : Reading String := do
  forward 1
  let name ← readName
  expect fun c => isGapOrEnd c || "?:,]\x7d%@`".toList.contains c
  return name

/-- A tag: a handle, if it has one, and a suffix. -/
structure Tag where
  handle : Option String
  suffix : String

/-- Whether an exclamation mark stands between the first mark of a tag and its end. -/
def hasSecondMark (c : Cursor) : Bool :=
  ((c.rest.drop 1).takeWhile (!isSpaceOrEnd ·)).contains '!'

def readTag : Reading Tag := do
  let c ← get
  let tag ← do
    if c.peekAt 1 == '<' then
      forward 2
      let suffix ← readTagSuffix
      expect (· == '>')
      forward 1
      pure (Tag.mk none suffix)
    else if isGapOrEnd (c.peekAt 1) then
      forward 1
      pure (Tag.mk none "!")
    else if hasSecondMark c then
      let handle ← readHandle
      pure (Tag.mk (some handle) (← readTagSuffix))
    else
      forward 1
      pure (Tag.mk (some "!") (← readTagSuffix))
  expect isSpaceOrEnd
  return tag

/-! ## Quoted scalars -/

def simpleEscape? (c : Char) : Option Char :=
  [('0', '\x00'), ('a', '\x07'), ('b', '\x08'), ('t', '\t'), ('\t', '\t'), ('n', '\n'),
    ('v', '\x0b'), ('f', '\x0c'), ('r', '\r'), ('e', '\x1b'), (' ', ' '), ('"', '"'), ('\\', '\\'),
    ('/', '/'), ('N', '\u0085'), ('_', '\u00a0'), ('L', '\u2028'), ('P', '\u2029')].lookup c

def escapeLength? (c : Char) : Option Nat :=
  [('x', 2), ('u', 4), ('U', 8)].lookup c

/-- The line breaks of empty lines; the marks of documents must not stand inside quotes. -/
def readQuotedBreaks : Nat → Reading (List Char)
  | 0 => return []
  | fuel + 1 => do
    if (← get).atDocumentMark then malformed
    discard <| takeWhile fun c => c == ' ' || c == '\t'
    match (← get).lineBreak? with
    | some (b, c) =>
      set c
      return b :: (← readQuotedBreaks fuel)
    | none => return []

/-- A line break folded with the empty lines after it: a single one becomes a space. -/
def foldBreak (b : Char) (more : List Char) : List Char :=
  if b != '\n' then b :: more else if more.isEmpty then [' '] else more

/-- Blanks inside quotes: kept within a line, dropped around a line break. -/
def readQuotedBlanks : Reading (List Char) := do
  let blanks ← takeWhile fun c => c == ' ' || c == '\t'
  let c ← get
  if c.peek == endMark then malformed
  match c.lineBreak? with
  | some (b, c) =>
    set c
    return foldBreak b (← readQuotedBreaks (c.rest.length + 1))
  | none => return blanks

def readEscape : Reading (List CodePoint) := do
  let c ← get
  match simpleEscape? c.peek with
  | some x =>
    forward 1
    return [.char x]
  | none =>
    match escapeLength? c.peek with
    | some count =>
      let digits := (c.rest.drop 1).take count
      match hexNumber? digits with
      | some n =>
        if digits.length < count then malformed
        if 0x10ffff < n then throw (.noCharacter n)
        forward (1 + count)
        return [.ofNat n]
      | none => malformed
    | none =>
      match c.lineBreak? with
      | some (_, c) =>
        set c
        return (← readQuotedBreaks (c.rest.length + 1)).map .char
      | none => malformed

/-- The code points inside quotes up to the closing one. -/
def readQuotedBody (mark : Char) : Nat → Reading (List CodePoint)
  | 0 => malformed
  | fuel + 1 => do
    let text ← takeWhile fun c => !(isGapOrEnd c || c == '\'' || c == '"' || c == '\\')
    let text := text.map CodePoint.char
    let c ← get
    if c.peek == '\'' && mark == '\'' && c.peekAt 1 == '\'' then
      forward 2
      return text ++ .char '\'' :: (← readQuotedBody mark fuel)
    else if c.peek == mark then
      forward 1
      return text
    else if c.peek == '\\' && mark == '"' then
      forward 1
      let escape ← readEscape
      return text ++ escape ++ (← readQuotedBody mark fuel)
    else if c.peek == '\'' || c.peek == '"' || c.peek == '\\' then
      forward 1
      return text ++ .char c.peek :: (← readQuotedBody mark fuel)
    else
      let blanks ← readQuotedBlanks
      return text ++ blanks.map .char ++ (← readQuotedBody mark fuel)

/-- The code points with a character for every high surrogate in front of a low one. -/
def pairUp : List CodePoint → List CodePoint
  | .surrogate high :: .surrogate low :: rest =>
    if high.val < 0x400 ∧ 0x400 ≤ low.val then
      .char (Char.ofNat (0x10000 + 0x400 * high.val + (low.val - 0x400))) :: pairUp rest
    else .surrogate high :: pairUp (.surrogate low :: rest)
  | p :: rest => p :: pairUp rest
  | [] => []

/-- A scalar between single or double quotes. The texts of documents are made of characters, so a
surrogate by itself is an error. -/
def readQuoted : Reading String := do
  let mark ← peek
  forward 1
  match characters? (pairUp (← readQuotedBody mark ((← get).rest.length + 2))) with
  | some s => return s
  | none => throw .surrogate

/-! ## Block scalars -/

/-- What happens to the line breaks at the end of a block scalar: one is kept, none or all. -/
inductive Chomping
  | clip
  | strip
  | keep
  deriving DecidableEq

/-- The chomping of an indicator. -/
def chompingOf? (c : Char) : Option Chomping :=
  if c == '+' then some .keep else if c == '-' then some .strip else none

def readChomping : Reading (Option Chomping) := do
  let found := chompingOf? (← peek)
  if found.isSome then forward 1
  return found

def readIncrement : Reading (Option Nat) := do
  let c ← peek
  if isDigit c then
    if c == '0' then malformed
    forward 1
    return some (c.toNat - 48)
  else return none

/-- The two indicators of a block scalar, in either order. -/
def readIndicators : Reading (Chomping × Option Nat) := do
  let found ← match ← readChomping with
    | some chomping => do pure (chomping, ← readIncrement)
    | none => do
      let increment ← readIncrement
      let chomping ← if increment.isSome then readChomping else pure none
      pure (chomping.getD .clip, increment)
  expect isSpaceOrEnd
  return found

/-- The line breaks in front of the first line, and the greatest column of a space there. -/
def readIndentation : Nat → Nat → Reading (List Char × Nat)
  | 0, deepest => return ([], deepest)
  | fuel + 1, deepest => do
    let c ← get
    match c.lineBreak? with
    | some (b, c) =>
      set c
      let (breaks, deepest) ← readIndentation fuel deepest
      return (b :: breaks, deepest)
    | none =>
      if c.peek == ' ' then
        set c.next
        readIndentation fuel (max deepest c.next.column)
      else return ([], deepest)

def skipToColumn (indent : Nat) : Reading Unit := do
  let c ← get
  let spaces := (c.rest.takeWhile (· == ' ')).length
  forward (min spaces (indent - c.column))

/-- The line breaks of empty lines and the indentation after them. -/
def readBlockBreaks (indent : Nat) : Nat → Reading (List Char)
  | 0 => return []
  | fuel + 1 => do
    skipToColumn indent
    match (← get).lineBreak? with
    | some (b, c) =>
      set c
      return b :: (← readBlockBreaks indent fuel)
    | none => return []

/-- What a block scalar has read: its text, the last line break and the empty lines after it. -/
structure BlockText where
  text : List Char
  lastBreak : List Char
  breaks : List Char

/-- The lines of a block scalar. A line break between two lines that both begin with neither a
space nor a tab is folded. -/
def readBlockLines (folded : Bool) (indent : Nat) : Nat → BlockText → Reading BlockText
  | 0, block => return block
  | fuel + 1, block => do
    let c ← get
    if c.column != indent || c.peek == endMark then return block
    let indented (x : Char) : Bool := x == ' ' || x == '\t'
    let flush := !indented c.peek
    let line ← takeWhile (!isBreakOrEnd ·)
    let lastBreak ← match (← get).lineBreak? with
      | some (b, c) => do
        set c
        pure [b]
      | none => pure []
    let breaks ← readBlockBreaks indent ((← get).rest.length + 1)
    let text := block.text ++ block.breaks ++ line
    let c ← get
    if c.column == indent && c.peek != endMark then
      let join :=
        if folded && lastBreak == ['\n'] && flush && !indented c.peek then
          (if breaks.isEmpty then [' '] else [])
        else lastBreak
      readBlockLines folded indent fuel ⟨text ++ join, lastBreak, breaks⟩
    else return ⟨text, lastBreak, breaks⟩

def readBlock (folded : Bool) (parent : Int) : Reading String := do
  forward 1
  let (chomping, increment) ← readIndicators
  skipRestOfLine
  let least := max 1 (parent + 1).toNat
  let fuel := (← get).rest.length + 1
  let (breaks, indent) ← match increment with
    | some n => do
      let indent := least + n - 1
      pure (← readBlockBreaks indent fuel, indent)
    | none => do
      let (breaks, deepest) ← readIndentation fuel 0
      pure (breaks, max least deepest)
  let block ← readBlockLines folded indent fuel ⟨[], [], breaks⟩
  return String.ofList <| block.text ++
    (if chomping == .strip then [] else block.lastBreak) ++
    (if chomping == .keep then block.breaks else [])

/-! ## Plain scalars -/

/-- The number of characters of a plain scalar that stand here without a gap. -/
def plainLength (inFlow : Bool) : List Char → Nat
  | [] => 0
  | c :: rest =>
    let next := rest.head?.getD endMark
    let stopsColon := isGapOrEnd next || (inFlow && ",[]\x7b\x7d".toList.contains next)
    if isGapOrEnd c || (c == ':' && stopsColon) ||
        (inFlow && ",?[]\x7b\x7d".toList.contains c) then 0
    else plainLength inFlow rest + 1

/-- The line breaks of empty lines inside a plain scalar; none where a document mark stops it. -/
def readPlainBreaks : Nat → Reading (Option (List Char))
  | 0 => return some []
  | fuel + 1 => do
    skipSpaces
    match (← get).lineBreak? with
    | some (b, c) =>
      set c
      if c.atDocumentMark then return none
      return (← readPlainBreaks fuel).map (b :: ·)
    | none => return some []

/-- The gap after a part of a plain scalar, and whether it holds a line break. -/
def readPlainGap : Reading (List Char × Bool) := do
  let spaces ← takeWhile (· == ' ')
  match (← get).lineBreak? with
  | some (b, c) =>
    set c
    if c.atDocumentMark then return ([], true)
    match ← readPlainBreaks (c.rest.length + 1) with
    | some more => return (foldBreak b more, true)
    | none => return ([], true)
  | none => return (spaces, false)

/-- What a plain scalar has read: its text and whether a key may begin after it. -/
structure PlainText where
  text : List Char
  keyAllowed : Bool

/-- The parts of a plain scalar with the gaps between them. -/
def readPlainParts (inFlow : Bool) (indent : Int) (gap : List Char) :
    Nat → PlainText → Reading PlainText
  | 0, plain => return plain
  | fuel + 1, plain => do
    let c ← get
    let count := if c.peek == '#' then 0 else plainLength inFlow c.rest
    if count = 0 then return plain
    forward count
    let text := plain.text ++ gap ++ c.rest.take count
    let (gap, broken) ← readPlainGap
    let plain : PlainText := ⟨text, broken⟩
    let c ← get
    if gap.isEmpty || c.peek == '#' || (!inFlow && c.column < indent) then return plain
    readPlainParts inFlow indent gap fuel plain

def readPlain (inFlow : Bool) (parent : Int) : Reading PlainText := do
  readPlainParts inFlow (parent + 1) [] ((← get).rest.length + 1) ⟨[], false⟩

end ShortcutRelay.Yaml
