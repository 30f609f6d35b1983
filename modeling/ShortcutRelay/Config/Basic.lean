import ShortcutRelay.Document.Basic
import ShortcutRelay.Template.Symbol
import ShortcutRelay.Text.Case

/-!
# Shortcut configurations

* `ValueType`, `Parameter` : a value that the user is asked for;
* `ConditionalDialog` : a message that depends on the state of the application;
* `Shortcut` : an action with its phrases, parameters and dialogs;
* `Config` : the shortcuts of an application.
-/

namespace ShortcutRelay

/-- The type of a parameter. A name that is none of the four is kept as it is; no checked
configuration holds one. -/
inductive ValueType
  | text
  | number
  | boolean
  | date
  | other (name : String)
  deriving DecidableEq, Repr

namespace ValueType

def known : List (String × ValueType) :=
  [("string", text), ("number", number), ("boolean", boolean), ("date", date)]

def ofName (name : String) : ValueType :=
  (known.lookup name).getD (other name)

def name : ValueType → String
  | text => "string"
  | number => "number"
  | boolean => "boolean"
  | date => "date"
  | other n => n

end ValueType

/-- A value that the user is asked for before a shortcut runs. -/
structure Parameter where
  name : String
  title : String
  type : ValueType
  isOptional : Bool := true
  description : Option String := none

def Parameter.prompt (p : Parameter) : String :=
  "What " ++ Text.lower p.title ++ "?"

/-- A message shown when a key of the application's state has a given value; the user has to
confirm it, or it ends the run. -/
structure ConditionalDialog where
  stateKey : String
  showWhen : Document
  message : String
  requiresConfirmation : Bool := true

/-- An action that can be asked for by voice. -/
structure Shortcut where
  identifier : String
  title : String
  phrases : List String
  systemImageName : Option String := none
  description : Option String := none
  stateDialogs : List ConditionalDialog := []
  parameters : List Parameter := []

namespace Shortcut

def className (s : Shortcut) : String :=
  Template.symbolCase s.identifier ++ "Intent"

def hasConfirmation (s : Shortcut) : Bool :=
  s.stateDialogs.any (·.requiresConfirmation)

def parameter? (s : Shortcut) (name : String) : Option Parameter :=
  s.parameters.find? (·.name == name)

end Shortcut

structure Config where
  shortcuts : List Shortcut
  appGroupId : Option String := none
  localization : Bool := false

def Config.shortcut? (c : Config) (identifier : String) : Option Shortcut :=
  c.shortcuts.find? (·.identifier == identifier)

end ShortcutRelay
