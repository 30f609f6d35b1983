import ShortcutRelay.Text.Hex
import ShortcutRelay.Text.Pieces

/-!
# Markup

The events of an XML document, in order, up to its end or to the first place where it breaks the
grammar.

* `Event` : the beginning or the end of an element, characters, or the declaration of an entity;
* `Markup.events` : the events of a document.
-/

namespace ShortcutRelay.PropertyList
open Text

/-- An event of a document. Elements come with the number of their line. -/
inductive Event
  | begin (name : String) (line : Nat)
  | close (name : String) (line : Nat)
  | characters (cs : List Char)
  | entityDeclared
  | broken

namespace Markup

/-! ## Characters and names -/

def isAllowed (c : Char) : Bool :=
  c == '\t' || c == '\n' || c == '\r' ||
    (0x20 ≤ c.toNat && c.toNat != 0xFFFE && c.toNat != 0xFFFF)

def isSpace (c : Char) : Bool :=
  c == ' ' || c == '\t' || c == '\n' || c == '\r'

def skipSpace (cs : List Char) : List Char :=
  cs.dropWhile isSpace

def isNameStart (c : Char) : Bool :=
  c.isAlpha || c == '_' || c == ':' || 0xC0 ≤ c.toNat

def isNamePart (c : Char) : Bool :=
  isNameStart c || c.isDigit || c == '-' || c == '.' || c.toNat == 0xB7

def name? : List Char → Option (String × List Char)
  | [] => none
  | c :: cs =>
    if isNameStart c then
      some (String.ofList (c :: cs.takeWhile isNamePart), cs.dropWhile isNamePart)
    else none

def after? (start : String) (cs : List Char) : Option (List Char) :=
  if start.toList.isPrefixOf cs then some (cs.drop start.length) else none

/-- What stands in front of the first occurrence of a text, and what follows it. -/
def upTo? (mark : List Char) : List Char → Option (List Char × List Char)
  | [] => none
  | c :: cs =>
    if mark.isPrefixOf (c :: cs) then some ([], (c :: cs).drop mark.length)
    else (upTo? mark cs).map fun (before, rest) => (c :: before, rest)

def quoted? : List Char → Option (List Char × List Char)
  | c :: cs => if c == '"' || c == '\'' then upTo? [c] cs else none
  | [] => none

/-! ## References -/

def entities : List (String × Char) :=
  [("amp", '&'), ("lt", '<'), ("gt", '>'), ("quot", '"'), ("apos", '\'')]

/-- The character with a number, if documents may hold it. -/
def numbered? (n : Nat) : Option Char :=
  let c := Char.ofNat n
  if c.toNat == n && isAllowed c then some c else none

def number? : List Char → Option Nat
  | [] => none
  | 'x' :: digits => if digits.isEmpty then none else hexNumber? digits
  | digits => if digits.all Char.isDigit then (String.ofList digits).toNat? else none

/-- The characters of the reference after an ampersand. An entity that is not known stands for
nothing where declarations may stand elsewhere, as `mayBeElsewhere` says. -/
def reference? (mayBeElsewhere : Bool) (cs : List Char) : Option (List Char × List Char) := do
  match cs with
  | '#' :: cs =>
    let (digits, rest) ← upTo? [';'] cs
    return ([← (number? digits).bind numbered?], rest)
  | cs =>
    let (name, rest) ← name? cs
    let rest ← after? ";" rest
    match entities.lookup name with
    | some c => return ([c], rest)
    | none => if mayBeElsewhere then return ([], rest) else none

/-! ## Tags -/

/-- Whether every reference in the value of an attribute can be followed. -/
def isValue (mayBeElsewhere : Bool) : Nat → List Char → Bool
  | 0, _ => false
  | _, [] => true
  | _, '<' :: _ => false
  | fuel + 1, '&' :: cs =>
    match reference? mayBeElsewhere cs with
    | some (_, rest) => isValue mayBeElsewhere fuel rest
    | none => false
  | fuel + 1, _ :: cs => isValue mayBeElsewhere fuel cs

/-- What follows the attributes of a tag whose names are not among those seen. -/
def attributes? (mayBeElsewhere : Bool) : Nat → List String → List Char → Option (List Char)
  | 0, _, _ => none
  | fuel + 1, seen, cs => do
    match skipSpace cs with
    | '>' :: _ => return skipSpace cs
    | '/' :: _ => return skipSpace cs
    | inside =>
      if inside.length = cs.length then none
      else
        let (name, rest) ← name? inside
        if name ∈ seen then none
        else
          let rest ← after? "=" (skipSpace rest)
          let (value, rest) ← quoted? (skipSpace rest)
          if isValue mayBeElsewhere (value.length + 1) value then
            attributes? mayBeElsewhere fuel (name :: seen) rest
          else none

def startTag? (mayBeElsewhere : Bool) (cs : List Char) : Option (String × Bool × List Char) := do
  let (name, rest) ← name? cs
  match ← attributes? mayBeElsewhere (rest.length + 1) [] rest with
  | '>' :: rest => return (name, false, rest)
  | '/' :: '>' :: rest => return (name, true, rest)
  | _ => none

def endTag? (cs : List Char) : Option (String × List Char) := do
  let (name, rest) ← name? cs
  return (name, ← after? ">" (skipSpace rest))

def comment? (cs : List Char) : Option (List Char) := do
  let (_, rest) ← upTo? ['-', '-'] cs
  after? ">" rest

/-- What follows a processing instruction whose beginning was read. Its name is not that of the
declaration of a document. -/
def instruction? (cs : List Char) : Option (List Char) := do
  let (name, rest) ← name? cs
  if name.toLower = "xml" then none
  else
    match rest with
    | '?' :: '>' :: rest => return rest
    | c :: _ => if isSpace c then (upTo? ['?', '>'] rest).map Prod.snd else none
    | [] => none

/-! ## The part before the first element -/

/-- Whether the value of a part of the declaration may hold a character. -/
def isDeclared (c : Char) : Bool :=
  c.isAlphanum || c == '.' || c == '_' || c == '-'

/-- The value of a part of the declaration, which has a space in front of it, and what follows; none
where the part is not there. -/
def declared? (part : String) (cs : List Char) : Option (String × List Char) := do
  let inside := skipSpace cs
  if inside.length = cs.length then none
  let rest ← after? "=" (skipSpace (← after? part inside))
  let (value, rest) ← quoted? (skipSpace rest)
  if value.all isDeclared then return (String.ofList value, rest) else none

def isEncodingName (name : String) : Bool :=
  match name.toList with
  | c :: _ => c.isAlpha
  | [] => false

/-- The encoding that the parts of the declaration after the version name, if they name one. -/
def declaredEncoding? (cs : List Char) : Option (Option String) := do
  let (encoding, rest) := match declared? "encoding" cs with
    | some (name, rest) => (some name, rest)
    | none => (none, cs)
  if !(encoding.all isEncodingName) then none
  let rest ← match declared? "standalone" rest with
    | some (value, rest) => if value == "yes" || value == "no" then some rest else none
    | none => some rest
  if (skipSpace rest).isEmpty then return encoding else none

/-- What the declaration at the beginning of a document says about its encoding, and what follows.
The declaration may be missing. -/
def declaration? (cs : List Char) : Option (Option String × List Char) :=
  match after? "<?xml" cs with
  | some (c :: rest) =>
    if isSpace c then do
      let (inside, rest) ← upTo? ['?', '>'] (c :: rest)
      let (_, inside) ← declared? "version" inside
      return (← declaredEncoding? inside, rest)
    else some (none, cs)
  | _ => some (none, cs)

/-- Whether a text may stand behind a text between quotes in a declaration. -/
def endsQuoted : List Char → Bool
  | c :: _ => isSpace c || c == '>' || c == '%' || c == '['
  | [] => true

def literal? (cs : List Char) : Option (List Char × List Char) := do
  let (text, rest) ← quoted? cs
  if endsQuoted rest then return (text, rest) else none

/-- Whether a public name may hold a character. -/
def isPublic (c : Char) : Bool :=
  c == ' ' || c == '\n' || c.isAlphanum || "-'()+,./:=?;!*#@$_%".toList.contains c

def space? (cs : List Char) : Option (List Char) :=
  let rest := skipSpace cs
  if rest.length = cs.length then none else some rest

/-- Where more declarations stand, if a document type says so, and what follows. -/
def externalId? (cs : List Char) : Option (Bool × List Char) :=
  match after? "SYSTEM" cs, after? "PUBLIC" cs with
  | some rest, _ => do
    let (_, rest) ← literal? (← space? rest)
    return (true, rest)
  | none, some rest => do
    let (name, rest) ← literal? (← space? rest)
    if !name.all isPublic then none
    let (_, rest) ← literal? (← space? rest)
    return (true, rest)
  | none, none => some (false, cs)

/-- Whether a declaration of an entity is complete up to what the entity stands for. -/
def declaresEntity (cs : List Char) : Bool :=
  let found : Option Unit := do
    let rest ← space? cs
    let rest := ((after? "%" rest).bind space?).getD rest
    let (_, rest) ← name? rest
    let rest ← space? rest
    match literal? rest with
    | some _ => return ()
    | none =>
      let (isExternal, rest) ← externalId? rest
      if isExternal then
        let _ ← upTo? ['>'] rest
        return ()
      else none
  found.isSome

/-- The declarations that say nothing about entities. -/
def declarationNames : List String :=
  ["<!ELEMENT", "<!ATTLIST", "<!NOTATION"]

/-- What follows the subset of declarations inside a document type; `true` stands for a declaration
of an entity. -/
def subset? : Nat → List Char → Option (Bool × List Char)
  | 0, _ => none
  | fuel + 1, cs =>
    match skipSpace cs with
    | ']' :: rest => some (false, rest)
    | '%' :: rest => do
      let (_, rest) ← upTo? [';'] rest
      subset? fuel rest
    | rest =>
      match after? "<!ENTITY" rest with
      | some entity => if declaresEntity entity then some (true, rest) else none
      | none =>
        match after? "<!--" rest, after? "<?" rest, declarationNames.findSome? (after? · rest) with
        | some rest, _, _ => do subset? fuel (← comment? rest)
        | none, some rest, _ => do subset? fuel (← instruction? rest)
        | none, none, some rest => do
          let (_, rest) ← upTo? ['>'] (← space? rest)
          subset? fuel rest
        | none, none, none => none

/-- What a document type says: whether it declares an entity, whether declarations may stand
elsewhere, and what follows. -/
def documentType? (cs : List Char) : Option (Bool × Bool × List Char) := do
  let (_, rest) ← name? (← space? cs)
  let (elsewhere, rest) ← externalId? (skipSpace rest)
  match skipSpace rest with
  | '>' :: rest => return (false, elsewhere, rest)
  | '[' :: rest =>
    let (declares, rest) ← subset? (rest.length + 1) rest
    if declares then return (true, elsewhere, rest)
    else return (false, elsewhere, ← after? ">" (skipSpace rest))
  | _ => none

/-! ## Documents -/

/-- How far a document was read: the elements that are open, whether the first element was seen and
a document type was, whether declarations may stand elsewhere, and the number of the line. -/
structure Progress where
  openNames : List String := []
  hasRoot : Bool := false
  hasType : Bool := false
  mayBeElsewhere : Bool := false
  line : Nat := 1

/-- The line after some characters. -/
def Progress.past (p : Progress) (cs rest : List Char) : Progress :=
  { p with line := p.line + (cs.take (cs.length - rest.length)).count '\n' }

/-- One step: the events at the beginning of the text that is left, and the text after them. At
the end of a document that is complete there is no such text. -/
def step (p : Progress) (cs : List Char) : Option (List Event × Progress × List Char) := do
  if let some rest := after? "<!--" cs then
    let rest ← comment? rest
    return ([], p.past cs rest, rest)
  if let some inside := after? "<![CDATA[" cs then
    if p.openNames.isEmpty then none
    let (text, rest) ← upTo? "]]>".toList inside
    return ([.characters text], p.past cs rest, rest)
  if let some inside := after? "<!DOCTYPE" cs then
    if p.hasRoot || p.hasType then none
    let (declares, elsewhere, rest) ← documentType? inside
    let p := { p.past cs rest with hasType := true, mayBeElsewhere := elsewhere }
    return (if declares then [.entityDeclared] else [], p, rest)
  if let some inside := after? "<?" cs then
    let rest ← instruction? inside
    return ([], p.past cs rest, rest)
  if let some inside := after? "</" cs then
    let (name, rest) ← endTag? inside
    match p.openNames with
    | top :: others =>
      if top = name then
        return ([.close name p.line], { p.past cs rest with openNames := others }, rest)
      else none
    | [] => none
  if let some inside := after? "<" cs then
    if p.hasRoot && p.openNames.isEmpty then none
    let (name, isEmpty, rest) ← startTag? p.mayBeElsewhere inside
    let after := { p.past cs rest with hasRoot := true }
    if isEmpty then return ([.begin name p.line, .close name after.line], after, rest)
    else return ([.begin name p.line], { after with openNames := name :: p.openNames }, rest)
  if p.openNames.isEmpty then
    let rest := skipSpace cs
    if rest.length = cs.length then none
    return ([], p.past cs rest, rest)
  if let some inside := after? "&" cs then
    let (text, rest) ← reference? p.mayBeElsewhere inside
    return ([.characters text], p, rest)
  let text := cs.takeWhile fun c => c != '<' && c != '&'
  let rest := cs.drop text.length
  if (upTo? "]]>".toList text).isSome then none
  return ([.characters text], p.past cs rest, rest)

def eventsFrom : Nat → Progress → List Char → List Event
  | 0, _, _ => [.broken]
  | _, p, [] => if p.hasRoot && p.openNames.isEmpty then [] else [.broken]
  | fuel + 1, p, cs =>
    match step p cs with
    | none => [.broken]
    | some (found, p, rest) => found ++ eventsFrom fuel p rest

/-- The events of a document, whose lines end with line feeds. A character that no document may
hold breaks it. -/
def events (cs : List Char) : List Event :=
  let allowed := cs.takeWhile isAllowed
  match declaration? allowed with
  | none => [.broken]
  | some (_, rest) =>
    let start := Progress.past {} allowed rest
    eventsFrom (rest.length + 1) start rest ++
      (if allowed.length = cs.length then [] else [.broken])

end Markup

end ShortcutRelay.PropertyList
