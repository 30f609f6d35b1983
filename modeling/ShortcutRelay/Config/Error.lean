import ShortcutRelay.Document.Shown

/-!
# Configuration errors

* `Place` : where in a configuration something is wrong;
* `ConfigFault` : what is wrong, with its wording in `ConfigFault.message`;
* `ConfigFailure` : why a document is not a configuration: it breaks a rule, a value where a list
  belongs cannot be gone through at all, or a value that breaks a rule has too many digits to be shown.
-/

namespace ShortcutRelay
open Text

inductive Place
  | config
  | shortcutAt (index : Nat)
  | shortcut (identifier : String)
  | parameter (identifier : String) (index : Nat)
  | conditionalDialog (identifier : String) (index : Nat)
  deriving DecidableEq, Repr

def Place.label : Place → String
  | config => "config"
  | shortcutAt i => "shortcuts[" ++ toString i ++ "]"
  | shortcut id => "shortcut '" ++ id ++ "'"
  | parameter id i => "shortcut '" ++ id ++ "' parameters[" ++ toString i ++ "]"
  | conditionalDialog id i => "shortcut '" ++ id ++ "' stateDialogs[" ++ toString i ++ "]"

/-- A rule that a configuration breaks. -/
inductive ConfigFault
  | noShortcuts
  | shortcutsNotList
  | shortcutsEmpty
  | notMapping (place : Place) (noun : String)
  | textRequired (place : Place) (field : String)
  | textExpected (place : Place) (field : String)
  | flagExpected (place : Place) (field : String)
  | parameterName (place : Place) (name : String)
  | parameterType (place : Place) (name shown : String)
  | showWhenKind (place : Place)
  | messageRequired (place : Place)
  | identifierSymbol (place : Place) (symbol : String)
  | phrasesRequired (place : Place)
  | phraseEmpty (place : Place)
  | duplicateParameter (place : Place) (name : String)
  | duplicateShortcut (identifier : String) (first second : Nat)
  | noAppGroup
  | unreadable (path : String)
  deriving DecidableEq, Repr

def ConfigFault.message : ConfigFault → String
  | noShortcuts => "Invalid config: must define \x7b shortcuts: [...] \x7d"
  | shortcutsNotList => "Invalid config: 'shortcuts' must be a list"
  | shortcutsEmpty => "Invalid config: 'shortcuts' must not be empty"
  | notMapping place noun => place.label ++ ": " ++ noun ++ " must be a mapping"
  | textRequired place field =>
    place.label ++ ": '" ++ field ++ "' is required and must be a non-empty string"
  | textExpected place field => place.label ++ ": '" ++ field ++ "' must be a string"
  | flagExpected place field => place.label ++ ": '" ++ field ++ "' must be true or false"
  | parameterName place name =>
    place.label ++ ": parameter name '" ++ name ++ "' is not a valid identifier"
  | parameterType place name shown =>
    place.label ++ ": parameter '" ++ name ++ "' has type " ++ shown ++
      ", expected one of ['string', 'number', 'boolean', 'date']"
  | showWhenKind place => place.label ++ ": 'showWhen' must be a boolean, string or number"
  | messageRequired place => place.label ++ ": 'message' is required and must be a string"
  | identifierSymbol place symbol =>
    place.label ++ ": identifier does not map to a valid Swift type name (" ++ quote symbol ++ ")"
  | phrasesRequired place => place.label ++ ": 'phrases' must be a non-empty list"
  | phraseEmpty place => place.label ++ ": every phrase must be a non-empty string"
  | duplicateParameter place name =>
    place.label ++ ": duplicate parameter name '" ++ name ++ "'"
  | duplicateShortcut id i j =>
    "Duplicate shortcut identifier '" ++ id ++ "' (shortcuts[" ++ toString i ++
      "] and shortcuts[" ++ toString j ++ "])"
  | noAppGroup => "Cannot determine App Group: set appGroupId or pass a bundle identifier"
  | unreadable path => "Failed to parse " ++ path ++ ": <yaml error>"

inductive ConfigFailure
  | invalid (error : ConfigFault)
  | notIterable (kind : String)
  | tooManyDigits
  deriving DecidableEq, Repr

def ConfigFailure.message : ConfigFailure → String
  | invalid e => e.message
  | notIterable kind => "'" ++ kind ++ "' object is not iterable"
  | tooManyDigits => Decimal.writeLimitText

end ShortcutRelay
