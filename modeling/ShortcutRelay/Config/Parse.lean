import ShortcutRelay.Config.Basic
import ShortcutRelay.Config.Error
import ShortcutRelay.Positions

/-!
# Reading configurations

* `Config.ofDocument` : the configuration that a document describes, or the first rule it breaks.

Every field whose name has several words may be spelled with capitals or with underscores; the
first spelling wins where both are given.
-/

namespace ShortcutRelay
open Text Template

abbrev Fields := List (Document × Document)

abbrev Parsed := Except ConfigFailure

def reject {α : Type} (e : ConfigFault) : Parsed α :=
  .error (.invalid e)

/-! ## Fields -/

/-- A field and its two spellings. -/
structure FieldName where
  name : String
  alternative : String

def FieldName.single (name : String) : FieldName :=
  ⟨name, name⟩

/-- The value of a field: under its first spelling if that is present, else under the other. -/
def pick? (fields : Fields) (f : FieldName) : Option Document :=
  match Document.field? f.name fields with
  | some v => some v
  | none => Document.field? f.alternative fields

def requiredText (fields : Fields) (place : Place) (f : FieldName) : Parsed String :=
  match pick? fields f with
  | some (.text s) => if isBlankText s then reject (.textRequired place f.name) else .ok s
  | _ => reject (.textRequired place f.name)

def optionalText (fields : Fields) (place : Place) (f : FieldName) : Parsed (Option String) :=
  match pick? fields f with
  | none | some .null => .ok none
  | some (.text s) => .ok (some s)
  | some _ => reject (.textExpected place f.name)

def optionalFlag (fields : Fields) (place : Place) (default : Bool) (f : FieldName) :
    Parsed Bool :=
  match pick? fields f with
  | none | some .null => .ok default
  | some (.bool b) => .ok b
  | some _ => reject (.flagExpected place f.name)

/-- What is gone through where a list belongs: the items of a list, set or pair, the keys of a
map, the characters of a text, the values of bytes, nothing for a value that is not present. -/
def elements (value : Option Document) : Parsed (List Document) :=
  match value with
  | none => .ok []
  | some v =>
    if v.truthy then
      match v with
      | .list items => .ok items
      | .set items => .ok items
      | .pair a b => .ok [a, b]
      | .map entries => .ok (entries.map Prod.fst)
      | .text s => .ok (s.toList.map fun c => .text (String.singleton c))
      | .bytes bs => .ok (bs.map fun b => .int b.toNat)
      | d => .error (.notIterable d.fullKind)
    else .ok []

/-! ## Parts -/

/-- The type that a document names, if it is one of the four. -/
def valueType? : Option Document → Option ValueType
  | some (.text s) => ValueType.known.lookup s
  | _ => none

/-- The rejection of a type that is none of the four. The type is shown, which fails where it has too
many digits. -/
def rejectType {α : Type} (place : Place) (name : String) (type : Document) : Parsed α :=
  if type.isShowable then reject (.parameterType place name type.shown) else .error .tooManyDigits

def readParameter (identifier : String) (index : Nat) (d : Document) : Parsed Parameter := do
  let place := Place.parameter identifier index
  let .map fields := d | reject (.notMapping place "parameter")
  let name ← requiredText fields place (.single "name")
  if !isIdentifier name then reject (.parameterName place name)
  let given := Document.field? "type" fields
  let some type := valueType? given
    | rejectType place name (given.getD .null)
  let title ← requiredText fields place (.single "title")
  let isOptional ← optionalFlag fields place true (.single "optional")
  let description ← optionalText fields place (.single "description")
  return { name, title, type, isOptional, description }

def isComparable : Document → Bool
  | .bool _ | .text _ | .int _ | .float _ => true
  | _ => false

def readDialog (identifier : String) (index : Nat) (d : Document) :
    Parsed ConditionalDialog := do
  let place := Place.conditionalDialog identifier index
  let .map fields := d | reject (.notMapping place "state dialog")
  let showWhen := (pick? fields ⟨"showWhen", "show_when"⟩).getD .null
  if !isComparable showWhen then reject (.showWhenKind place)
  let some (.text message) := pick? fields (.single "message") | reject (.messageRequired place)
  let stateKey ← requiredText fields place ⟨"stateKey", "state_key"⟩
  let requiresConfirmation ←
    optionalFlag fields place true ⟨"requiresConfirmation", "requires_confirmation"⟩
  return { stateKey, showWhen, message, requiresConfirmation }

def parsePhrases (place : Place) (value : Option Document) : Parsed (List String) := do
  let some (.list items) := value | reject (.phrasesRequired place)
  if items.isEmpty then reject (.phrasesRequired place)
  items.mapM fun
    | .text s => if isBlankText s then reject (.phraseEmpty place) else .ok s
    | _ => reject (.phraseEmpty place)

def firstRepeated? : List String → List String → Option String
  | _, [] => none
  | seen, s :: rest => if s ∈ seen then some s else firstRepeated? (s :: seen) rest

def readShortcut (index : Nat) (d : Document) : Parsed Shortcut := do
  let .map fields := d | reject (.notMapping (.shortcutAt index) "shortcut")
  let identifier ← requiredText fields (.shortcutAt index) (.single "identifier")
  let place := Place.shortcut identifier
  let symbol := symbolCase identifier
  if !isIdentifier symbol then reject (.identifierSymbol place symbol)
  let phrases ← parsePhrases place (Document.field? "phrases" fields)
  let parameters ←
    mapPositions (readParameter identifier) 0 (← elements (Document.field? "parameters" fields))
  if let some name := firstRepeated? [] (parameters.map (·.name)) then
    reject (.duplicateParameter place name)
  let stateDialogs ←
    mapPositions (readDialog identifier) 0
      (← elements (pick? fields ⟨"stateDialogs", "state_dialogs"⟩))
  let title ← requiredText fields place (.single "title")
  let systemImageName ← optionalText fields place ⟨"systemImageName", "system_image_name"⟩
  let description ← optionalText fields place (.single "description")
  return { identifier, title, phrases, systemImageName, description, stateDialogs, parameters }

/-! ## The whole -/

/-- The first identifier that an earlier shortcut has too, with the positions of the two. -/
def firstClash? : List (String × Nat) → Nat → List String → Option ConfigFault
  | _, _, [] => none
  | seen, i, id :: rest =>
    match seen.lookup id with
    | some first => some (.duplicateShortcut id first i)
    | none => firstClash? ((id, i) :: seen) (i + 1) rest

def Config.ofDocument (d : Document) : Parsed Config := do
  let .map fields := d | reject .noShortcuts
  let some given := Document.field? "shortcuts" fields | reject .noShortcuts
  let .list items := given | reject .shortcutsNotList
  if items.isEmpty then reject .shortcutsEmpty
  let shortcuts ← mapPositions readShortcut 0 items
  if let some e := firstClash? [] 0 (shortcuts.map (·.identifier)) then reject e
  let appGroupId ← optionalText fields .config ⟨"appGroupId", "app_group_id"⟩
  let localization ← optionalFlag fields .config false (.single "localization")
  return { shortcuts, appGroupId, localization }

/-- The group under which an application shares data: the configured one, else the one that
belongs to its bundle identifier. -/
def Config.resolveAppGroup (c : Config) (bundleId : Option String) : Parsed String :=
  match c.appGroupId with
  | some group => if group ≠ "" then .ok group else fromBundle
  | none => fromBundle
where
  fromBundle : Parsed String :=
    match bundleId with
    | some id => if id ≠ "" then .ok ("group." ++ id) else reject .noAppGroup
    | none => reject .noAppGroup

end ShortcutRelay
