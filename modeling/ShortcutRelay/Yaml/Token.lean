import ShortcutRelay.Yaml.Lexeme

/-!
# YAML tokens

* `Token` : the marks, properties and scalars of a text;
* `tokens` : the tokens of a text.

Block collections are recognised by the column of their first entry. A key without a mark of its
own is recognised only at the colon that follows it; the token of its mark is then put in front of
it.
-/

namespace ShortcutRelay.Yaml

/-- A mark, a property or a scalar. The marks of block collections and of keys may stand for
nothing in the text. A damaged token stands where the text names no character; nothing is read
beyond it. -/
inductive Token
  | directive (d : Directive)
  | documentStart
  | documentEnd
  | blockSequenceStart
  | blockMappingStart
  | blockEnd
  | flowSequenceStart
  | flowSequenceEnd
  | flowMappingStart
  | flowMappingEnd
  | blockEntry
  | flowEntry
  | key
  | value
  | alias (name : String)
  | anchor (name : String)
  | tag (t : Tag)
  | scalar (text : String) (plain : Bool)
  | damaged (error : YamlError)
  | streamEnd

/-- A place where a key without a mark may begin: in front of which token, and where in the text.
A required one stands at the indentation of its block, where nothing but a key can stand. -/
structure KeyPlace where
  token : Nat
  isRequired : Bool
  index : Nat
  line : Nat
  column : Nat

/-- The state between two tokens: the place in the text, the tokens read, the columns of the open
blocks, how many flow collections are open, whether a key may begin here, and for each level of
flow collections the place where one may have begun. -/
structure Scan where
  cursor : Cursor
  tokens : Array Token := #[]
  indent : Int := -1
  outer : List Int := []
  flow : Int := 0
  keyAllowed : Bool := true
  places : List (Int × KeyPlace) := []

/-- A step of the scan. -/
abbrev Scanning := StateT Scan (Except YamlError)

namespace Scan

def read {α : Type} (r : Reading α) : Scanning α := do
  let s ← get
  let (a, c) ← r.run s.cursor
  set { s with cursor := c }
  return a

def push (t : Token) : Scanning Unit :=
  modify fun s => { s with tokens := s.tokens.push t }

def fail : Scanning Unit :=
  throw .malformed

def inFlow (s : Scan) : Bool :=
  s.flow != 0

def allowKey (allowed : Bool) : Scanning Unit :=
  modify fun s => { s with keyAllowed := allowed }

/-! ## Keys and indentation -/

/-- Passes over spaces, comments and line breaks up to the next token; a line break in a block
lets a key begin. -/
def skipToToken : Nat → Scanning Unit
  | 0 => return
  | fuel + 1 => do
    read skipSpaces
    if (← read peek) == '#' then discard <| read (takeWhile (!isBreakOrEnd ·))
    match (← get).cursor.lineBreak? with
    | some (_, c) =>
      modify fun s => { s with cursor := c, keyAllowed := s.keyAllowed || !s.inFlow }
      skipToToken fuel
    | none => return

/-- Gives up the places of keys on earlier lines or too far back; a required one is an error. -/
def dropOldPlaces : Scanning Unit := do
  let s ← get
  let isOld (p : KeyPlace) : Bool := p.line != s.cursor.line || 1024 < s.cursor.index - p.index
  if s.places.any fun p => isOld p.2 && p.2.isRequired then fail
  set { s with places := s.places.filter fun p => !isOld p.2 }

/-- Gives up the place of a key on the present level; a required one is an error. -/
def dropPlace : Scanning Unit := do
  let s ← get
  if let some p := s.places.lookup s.flow then
    if p.isRequired then fail
    set { s with places := s.places.filter (·.1 != s.flow) }

/-- Remembers that a key may begin at the next token. -/
def savePlace : Scanning Unit := do
  if (← get).keyAllowed then
    dropPlace
    let s ← get
    let place : KeyPlace :=
      { token := s.tokens.size
        isRequired := !s.inFlow && s.indent == s.cursor.column
        index := s.cursor.index
        line := s.cursor.line
        column := s.cursor.column }
    set { s with places := (s.flow, place) :: s.places }

/-- Closes the blocks that are indented deeper than a column. -/
def closeBlocks (column : Int) : Nat → Scanning Unit
  | 0 => return
  | fuel + 1 => do
    let s ← get
    if !s.inFlow && column < s.indent then
      set { s with
        indent := s.outer.head?.getD (-1)
        outer := s.outer.drop 1
        tokens := s.tokens.push .blockEnd }
      closeBlocks column fuel

def unwind (column : Int) : Scanning Unit := do
  closeBlocks column ((← get).outer.length + 1)

/-- Opens a block at a column that is deeper than the present one. -/
def openBlock (column : Nat) : Scanning Bool := do
  let s ← get
  if s.indent < column then
    set { s with indent := column, outer := s.indent :: s.outer }
    return true
  else return false

/-! ## Tokens -/

/-- The mark of a document, or a directive, which closes all blocks. -/
def atLineStart (t : Scanning Token) : Scanning Unit := do
  unwind (-1)
  dropPlace
  allowKey false
  push (← t)

/-- A mark of `count` characters. -/
def mark (count : Nat) (t : Token) : Scanning Token := do
  read (forward count)
  return t

def openFlow (t : Token) : Scanning Unit := do
  savePlace
  modify fun s => { s with flow := s.flow + 1, keyAllowed := true }
  push (← mark 1 t)

def closeFlow (t : Token) : Scanning Unit := do
  dropPlace
  modify fun s => { s with flow := s.flow - 1, keyAllowed := false }
  push (← mark 1 t)

def flowEntry : Scanning Unit := do
  allowKey true
  dropPlace
  push (← mark 1 .flowEntry)

def blockEntry : Scanning Unit := do
  let s ← get
  if !s.inFlow then
    if !s.keyAllowed then fail
    if ← openBlock s.cursor.column then push .blockSequenceStart
  allowKey true
  dropPlace
  push (← mark 1 .blockEntry)

def explicitKey : Scanning Unit := do
  let s ← get
  if !s.inFlow then
    if !s.keyAllowed then fail
    if ← openBlock s.cursor.column then push .blockMappingStart
  allowKey (!s.inFlow)
  dropPlace
  push (← mark 1 .key)

/-- Puts tokens in front of a token that was read. -/
def insertAt (position : Nat) (ts : Array Token) : Scanning Unit :=
  modify fun s =>
    { s with tokens := s.tokens.extract 0 position ++ ts ++ s.tokens.extract position }

def value : Scanning Unit := do
  let s ← get
  match s.places.lookup s.flow with
  | some p =>
    set { s with places := s.places.filter (·.1 != s.flow) }
    let isFirst ← if s.inFlow then pure false else openBlock p.column
    insertAt p.token (if isFirst then #[.blockMappingStart, .key] else #[.key])
    allowKey false
  | none =>
    if !s.inFlow then
      if !s.keyAllowed then fail
      if ← openBlock s.cursor.column then push .blockMappingStart
    allowKey (!s.inFlow)
    dropPlace
  push (← mark 1 .value)

/-- Ends the scan at a damaged token. The tokens from the first place on where a key may have begun
are held back with it, since it is not known whether it was one. -/
def stopAt (e : YamlError) : Scanning Unit :=
  modify fun s =>
    let known := s.places.foldl (fun n p => min n p.2.token) s.tokens.size
    { s with
      cursor := { s.cursor with rest := [] }
      tokens := (s.tokens.extract 0 known).push (.damaged e)
      places := [] }

/-- A property or a scalar with which a key may begin. -/
def content (t : Scanning Token) : Scanning Unit := do
  savePlace
  allowKey false
  match t.run (← get) with
  | .ok (token, s) =>
    set s
    push token
  | .error .malformed => fail
  | .error e => stopAt e

def blockScalar (folded : Bool) : Scanning Unit := do
  allowKey true
  dropPlace
  let text ← read (readBlock folded (← get).indent)
  push (.scalar text false)

def plainScalar : Scanning Unit := do
  savePlace
  let s ← get
  let plain ← read (readPlain s.inFlow s.indent)
  allowKey plain.keyAllowed
  push (.scalar (String.ofList plain.text) true)

def startsPlain (s : Scan) : Bool :=
  let c := s.cursor.peek
  let special := "-?:,[]\x7b\x7d#&*!|>'\"%@`".toList
  !(isGapOrEnd c || special.contains c) ||
    (!isGapOrEnd (s.cursor.peekAt 1) && (c == '-' || (!s.inFlow && (c == '?' || c == ':'))))

def nextToken (s : Scan) : Scanning Unit :=
  let c := s.cursor
  let gapFollows := isGapOrEnd (c.peekAt 1)
  if c.peek == '%' && c.column == 0 then
    atLineStart do return .directive (← read readDirective)
  else if c.column == 0 && c.atDocumentMark then
    atLineStart (mark 3 (if c.peek == '-' then .documentStart else .documentEnd))
  else match c.peek with
    | '[' => openFlow .flowSequenceStart
    | '\x7b' => openFlow .flowMappingStart
    | ']' => closeFlow .flowSequenceEnd
    | '\x7d' => closeFlow .flowMappingEnd
    | ',' => flowEntry
    | '*' => content do return .alias (← read readAnchor)
    | '&' => content do return .anchor (← read readAnchor)
    | '!' => content do return .tag (← read readTag)
    | '\'' | '"' => content do return .scalar (← read readQuoted) false
    | x =>
      if x == '-' && gapFollows then blockEntry
      else if x == '?' && (s.inFlow || gapFollows) then explicitKey
      else if x == ':' && (s.inFlow || gapFollows) then value
      else if x == '|' && !s.inFlow then blockScalar false
      else if x == '>' && !s.inFlow then blockScalar true
      else if s.startsPlain then plainScalar
      else fail

/-- The tokens up to the end of the text. -/
def run : Nat → Scanning Unit
  | 0 => return
  | fuel + 1 => do
    skipToToken ((← get).cursor.rest.length + 1)
    dropOldPlaces
    let s ← get
    unwind s.cursor.column
    if s.cursor.rest.isEmpty then
      unwind (-1)
      dropPlace
      push .streamEnd
    else
      nextToken (← get)
      run fuel

end Scan

/-- A text without a byte order mark at its start. -/
def skipByteOrderMark (c : Cursor) : Cursor :=
  if c.peek == '\ufeff' then c.next else c

def tokens (text : String) : Except YamlError (List Token) := do
  let cs := text.toList
  if !cs.all isAllowed then throw .malformed
  let start : Scan := { cursor := skipByteOrderMark { rest := cs } }
  let (_, s) ← (Scan.run (2 * cs.length + 2)).run start
  return s.tokens.toList

end ShortcutRelay.Yaml
