import ShortcutRelay.Yaml.Token

/-!
# YAML nodes

* `Node` : a scalar, a sequence or a mapping with its tag, or an alias of a collection;
* `Tree` : the root of a document with the collections that have an anchor;
* `Tree.ofTokens` : the only document of a text; none for an empty text.

An alias of a scalar stands for a copy of it. An alias inside the collection that it names stands
for an empty collection of the same kind.
-/

namespace ShortcutRelay.Yaml

/-- The tag of a node: given, or left to the shape of the node. A plain scalar without a tag is
resolved by its text. -/
inductive NodeTag
  | given (name : String)
  | byText
  | default

/-- A node of a document. Only collections are marked as anchored and only they have aliases. -/
inductive Node
  | scalar (tag : NodeTag) (text : String)
  | sequence (tag : NodeTag) (items : List Node)
  | mapping (tag : NodeTag) (entries : List (Node × Node))
  | anchored (anchor : String) (collection : Node)
  | alias (anchor : String)

instance : Inhabited Node := ⟨.scalar .byText ""⟩

/-- The root of a document and the collections that have an anchor. -/
structure Tree where
  root : Node
  named : List (String × Node) := []

/-- What the nodes of a document are read with: the tokens that are left, what the aliases stand
for, the collections with an anchor, and the replacements of tag handles. -/
structure Composer where
  tokens : List Token
  anchors : List (String × Node) := []
  named : List (String × Node) := []
  handles : List (String × String) := []

/-- A reader of nodes. -/
abbrev Composing := StateT Composer (Except YamlError)

namespace Composing

def peek : Composing Token := do
  match (← get).tokens.headD .streamEnd with
  | .damaged e => throw e
  | t => return t

def skip : Composing Unit :=
  modify fun s => { s with tokens := s.tokens.drop 1 }

def skipIf (p : Token → Bool) : Composing Bool := do
  if p (← peek) then
    skip
    return true
  else return false

def fail {α : Type} : Composing α :=
  throw .malformed

def emptyNode : Node :=
  .scalar .byText ""

/-- Says what the alias of an anchor stands for. -/
def bind (anchor : Option String) (n : Node) : Composing Unit :=
  match anchor with
  | some name => modify fun s => { s with anchors := (name, n) :: s.anchors }
  | none => return

/-- A collection, which an anchor names. -/
def named (anchor : Option String) (n : Node) : Composing Node := do
  match anchor with
  | some name =>
    modify fun s => { s with
      anchors := (name, .alias name) :: s.anchors
      named := (name, n) :: s.named }
    return .anchored name n
  | none => return n

/-- The full name of a tag. -/
def resolveTag (t : Tag) : Composing String := do
  match t.handle with
  | none => return t.suffix
  | some handle =>
    match (← get).handles.lookup handle with
    | some replacement => return replacement ++ t.suffix
    | none => fail

def readAnchor? : Composing (Option String) := do
  match ← peek with
  | .anchor name =>
    skip
    return some name
  | _ => return none

def readTag? : Composing (Option Tag) := do
  match ← peek with
  | .tag t =>
    skip
    return some t
  | _ => return none

/-- The anchor and the tag in front of a node, in either order. -/
def properties : Composing (Option String × Option String) := do
  let anchor ← readAnchor?
  let tag ← readTag?
  let anchor ← if anchor.isNone && tag.isSome then readAnchor? else pure anchor
  let name ← match tag with
    | some t => do pure (some (← resolveTag t))
    | none => pure none
  return (anchor, name)

def collectionTag : Option String → NodeTag
  | some name => if name = "!" then .default else .given name
  | none => .default

def scalarTag (plain : Bool) : Option String → NodeTag
  | some name => if name = "!" then .byText else .given name
  | none => if plain then .byText else .default

mutual

/-- A node. In a block it may be a block collection; where `indentless` is set, the entries of a
sequence may stand at the column of the mapping around it. -/
def node (fuel : Nat) (block indentless : Bool) : Composing Node :=
  match fuel with
  | 0 => fail
  | fuel + 1 => do
    if let .alias name := ← peek then
      skip
      match (← get).anchors.lookup name with
      | some n => return n
      | none => fail
    else
      let (anchor, tag) ← properties
      discard peek
      if let some name := anchor then
        if ((← get).anchors.lookup name).isSome then fail
      let sequence (items : Composing (List Node)) : Composing Node := do
        bind anchor (.sequence (collectionTag tag) [])
        named anchor (.sequence (collectionTag tag) (← items))
      let mapping (entries : Composing (List (Node × Node))) : Composing Node := do
        bind anchor (.mapping (collectionTag tag) [])
        named anchor (.mapping (collectionTag tag) (← entries))
      match ← peek with
      | .scalar text plain =>
        skip
        let n := Node.scalar (scalarTag plain tag) text
        bind anchor n
        return n
      | .flowSequenceStart =>
        skip
        sequence (flowItems fuel true)
      | .flowMappingStart =>
        skip
        mapping (flowEntries fuel true)
      | t =>
        match t, block, indentless with
        | .blockEntry, _, true => sequence (indentlessItems fuel)
        | .blockSequenceStart, true, _ =>
          skip
          sequence (blockItems fuel)
        | .blockMappingStart, true, _ =>
          skip
          mapping (blockEntries fuel)
        | _, _, _ =>
          if anchor.isNone && tag.isNone then fail
          else
            let n := Node.scalar (scalarTag true tag) ""
            bind anchor n
            return n

def blockItems (fuel : Nat) : Composing (List Node) :=
  match fuel with
  | 0 => fail
  | fuel + 1 => do
    match ← peek with
    | .blockEntry =>
      skip
      let item ← match ← peek with
        | .blockEntry | .blockEnd => pure emptyNode
        | _ => node fuel true false
      return item :: (← blockItems fuel)
    | .blockEnd =>
      skip
      return []
    | _ => fail

/-- The entries of a sequence that stands at the column of the mapping around it. -/
def indentlessItems (fuel : Nat) : Composing (List Node) :=
  match fuel with
  | 0 => fail
  | fuel + 1 => do
    match ← peek with
    | .blockEntry =>
      skip
      let item ← match ← peek with
        | .blockEntry | .key | .value | .blockEnd => pure emptyNode
        | _ => node fuel true false
      return item :: (← indentlessItems fuel)
    | _ => return []

/-- What follows the mark of a key or value in a block mapping. -/
def blockPart (fuel : Nat) : Composing Node :=
  match fuel with
  | 0 => fail
  | fuel + 1 => do
    match ← peek with
    | .key | .value | .blockEnd => return emptyNode
    | _ => node fuel true true

def blockEntries (fuel : Nat) : Composing (List (Node × Node)) :=
  match fuel with
  | 0 => fail
  | fuel + 1 => do
    match ← peek with
    | .key =>
      skip
      let key ← blockPart fuel
      let value ← if ← skipIf (· matches .value) then blockPart fuel else pure emptyNode
      return (key, value) :: (← blockEntries fuel)
    | .blockEnd =>
      skip
      return []
    | _ => fail

/-- What follows the mark of a key or value in a flow collection; `close` is the mark of its
end. -/
def flowPart (fuel : Nat) (isClose : Token → Bool) (valueEnds : Bool) : Composing Node :=
  match fuel with
  | 0 => fail
  | fuel + 1 => do
    let t ← peek
    if isClose t || t matches .flowEntry || (valueEnds && t matches .value) then
      return emptyNode
    else node fuel false false

def flowItems (fuel : Nat) (first : Bool) : Composing (List Node) :=
  match fuel with
  | 0 => fail
  | fuel + 1 => do
    let isClose (t : Token) : Bool := t matches .flowSequenceEnd
    if ← skipIf isClose then return []
    if !first then
      if !(← skipIf (· matches .flowEntry)) then fail
    if ← skipIf isClose then return []
    let item ←
      if ← skipIf (· matches .key) then do
        let key ← flowPart fuel isClose true
        let value ← if ← skipIf (· matches .value) then flowPart fuel isClose false
          else pure emptyNode
        pure (.mapping .default [(key, value)])
      else node fuel false false
    return item :: (← flowItems fuel false)

def flowEntries (fuel : Nat) (first : Bool) : Composing (List (Node × Node)) :=
  match fuel with
  | 0 => fail
  | fuel + 1 => do
    let isClose (t : Token) : Bool := t matches .flowMappingEnd
    if ← skipIf isClose then return []
    if !first then
      if !(← skipIf (· matches .flowEntry)) then fail
    if ← skipIf isClose then return []
    let entry ←
      if ← skipIf (· matches .key) then do
        let key ← flowPart fuel isClose true
        let value ← if ← skipIf (· matches .value) then flowPart fuel isClose false
          else pure emptyNode
        pure (key, value)
      else do pure (← node fuel false false, emptyNode)
    return entry :: (← flowEntries fuel false)

end

def knownHandles : List (String × String) :=
  [("!", "!"), ("!!", "tag:yaml.org,2002:")]

def directives (versioned : Bool) (handles : List (String × String)) : Nat → Composing Unit
  | 0 => fail
  | fuel + 1 => do
    match ← peek with
    | .directive d =>
      skip
      match d with
      | .version major => if versioned || major != 1 then fail else directives true handles fuel
      | .handle handle replacement =>
        if (handles.lookup handle).isSome then fail
        else directives versioned ((handle, replacement) :: handles) fuel
      | .reserved => directives versioned handles fuel
    | _ => modify fun s => { s with handles := handles ++ knownHandles }

/-- Whether a token ends the part in front of it in a stream. -/
def isStreamMark : Token → Bool
  | .directive _ | .documentStart | .documentEnd | .streamEnd => true
  | _ => false

def content (fuel : Nat) : Composing Node := do
  if isStreamMark (← peek) then return emptyNode else node fuel true false

def skipDocumentEnds : Nat → Composing Unit
  | 0 => return
  | fuel + 1 => do
    if ← skipIf (· matches .documentEnd) then skipDocumentEnds fuel

def document (fuel : Nat) : Composing (Option Node) := do
  let root ← match ← peek with
    | .streamEnd => pure none
    | .directive _ | .documentStart => do
      directives false [] fuel
      if !(← skipIf (· matches .documentStart)) then fail
      pure (some (← content fuel))
    | _ => do
      modify fun s => { s with handles := knownHandles }
      pure (some (← node fuel true false))
  skipDocumentEnds fuel
  if !((← peek) matches .streamEnd) then fail
  return root

end Composing

/-- The only document of a list of tokens. -/
def Tree.ofTokens (ts : List Token) : Except YamlError (Option Tree) := do
  let (root, s) ← (Composing.document (3 * ts.length + 3)).run { tokens := ts }
  return root.map fun root => { root, named := s.named }

end ShortcutRelay.Yaml
