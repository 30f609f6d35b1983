import ShortcutRelay.Document.Number
import ShortcutRelay.Text.Hex

/-!
# Positions in a YAML text

* `YamlError` : why a text is not a YAML document, or one of its values is none;
* `Cursor` : the characters that are left, with line and column;
* `Reading` : a reader of characters, with the small readers `peek`, `forward`, `takeWhile`.

A text that has come to its end goes on with `endMark` for ever.
-/

namespace ShortcutRelay.Yaml
open Calendar

/-- Why a text cannot be read. The first cause covers all that breaks the grammar or the rules on
tags; the others are values that their tags do not admit. -/
inductive YamlError
  | malformed
  | noCharacter (code : Nat)
  | surrogate
  | badInteger (text : String)
  | badFloat (shown : String)
  | badBoolean (shown : String)
  | badTimestamp
  | emptyNumber
  | number (error : NumberError)
  | calendar (error : CalendarError)
  deriving DecidableEq, Repr

/-! ## Character classes -/

/-- What stands after the last character. -/
def endMark : Char :=
  '\x00'

def isBreak (c : Char) : Bool :=
  c == '\n' || c == '\r' || c == '\u0085' || c == '\u2028' || c == '\u2029'

def isBreakOrEnd (c : Char) : Bool :=
  isBreak c || c == endMark

def isSpaceOrEnd (c : Char) : Bool :=
  isBreakOrEnd c || c == ' '

def isGapOrEnd (c : Char) : Bool :=
  isSpaceOrEnd c || c == '\t'

def isNameChar (c : Char) : Bool :=
  ('0' ≤ c && c ≤ '9') || ('A' ≤ c && c ≤ 'Z') || ('a' ≤ c && c ≤ 'z') || c == '-' || c == '_'

def isAllowed (c : Char) : Bool :=
  let n := c.toNat
  n == 9 || n == 10 || n == 13 || (0x20 ≤ n && n ≤ 0x7e) || n == 0x85 ||
    (0xa0 ≤ n && n ≤ 0xd7ff) || (0xe000 ≤ n && n ≤ 0xfffd) || 0x10000 ≤ n

/-! ## Cursors -/

/-- The characters that are left, and how far, on which line and in which column they begin. -/
structure Cursor where
  rest : List Char
  index : Nat := 0
  line : Nat := 0
  column : Nat := 0

namespace Cursor

/-- The character `n` places ahead. -/
def peekAt (c : Cursor) (n : Nat) : Char :=
  (c.rest[n]?).getD endMark

def peek (c : Cursor) : Char :=
  c.peekAt 0

def next (c : Cursor) : Cursor :=
  match c.rest with
  | [] => { c with index := c.index + 1, column := c.column + 1 }
  | x :: rest =>
    if isBreak x && !(x == '\r' && rest.head? == some '\n') then
      { rest, index := c.index + 1, line := c.line + 1, column := 0 }
    else
      { rest, index := c.index + 1, line := c.line,
        column := if x == '\ufeff' then c.column else c.column + 1 }

def forward (c : Cursor) : Nat → Cursor
  | 0 => c
  | n + 1 => c.next.forward n

def takeWhile (c : Cursor) (p : Char → Bool) : List Char × Cursor :=
  let taken := c.rest.takeWhile p
  (taken, c.forward taken.length)

def startsWith (c : Cursor) (text : String) : Bool :=
  text.toList.isPrefixOf c.rest

/-- Whether a line with three equal marks alone stands here: the start of a document or its
end. -/
def atDocumentMark (c : Cursor) : Bool :=
  (c.startsWith "---" || c.startsWith "...") && isGapOrEnd (c.peekAt 3)

/-- The line break that stands here and the cursor after it. All but the two separators of
Unicode count as a line feed. -/
def lineBreak? (c : Cursor) : Option (Char × Cursor) :=
  if c.startsWith "\r\n" then some ('\n', c.forward 2)
  else if c.peek == '\u2028' || c.peek == '\u2029' then some (c.peek, c.next)
  else if isBreak c.peek then some ('\n', c.next)
  else none

/-- The cursor after a line break, if one stands here. -/
def afterBreak (c : Cursor) : Cursor :=
  match c.lineBreak? with
  | some (_, c) => c
  | none => c

end Cursor

/-! ## Readers -/

/-- A reader of characters. -/
abbrev Reading := StateT Cursor (Except YamlError)

def malformed {α : Type} : Reading α :=
  throw .malformed

def peek : Reading Char :=
  return (← get).peek

def forward (n : Nat) : Reading Unit :=
  modify (·.forward n)

def takeWhile (p : Char → Bool) : Reading (List Char) := do
  let (taken, c) := (← get).takeWhile p
  set c
  return taken

def skipSpaces : Reading Unit := do
  discard <| takeWhile (· == ' ')

/-- Fails unless the next character satisfies `p`. -/
def expect (p : Char → Bool) : Reading Unit := do
  if !p (← peek) then malformed

def skipRestOfLine : Reading Unit := do
  skipSpaces
  if (← peek) == '#' then discard <| takeWhile (!isBreakOrEnd ·)
  expect isBreakOrEnd
  modify Cursor.afterBreak

end ShortcutRelay.Yaml
