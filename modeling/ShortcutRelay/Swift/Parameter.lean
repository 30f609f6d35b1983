import ShortcutRelay.Config.Basic
import ShortcutRelay.Localization.Strings
import ShortcutRelay.Positions
import ShortcutRelay.Protocol.Key
import ShortcutRelay.Swift.Literal

/-!
# Parameters in Swift

* `parameterDeclarations` : the properties;
* `initializers` : the two initializers of an intent with parameters;
* `parameterRequests` : the questions for the values that are missing;
* `parameterWrites` : the values handed to the application.

A property needs a type, so the first two fail on a type that is none of the four.
-/

namespace ShortcutRelay

/-- A type name that is none of the four. -/
structure UnknownType where
  name : String
  deriving DecidableEq, Repr

def UnknownType.message (e : UnknownType) : String :=
  Text.quote e.name

namespace Swift
open Text ShortcutRelay.Localization

/-- The type of a property; it is optional so that the user can be asked for the value. -/
def typeName : ValueType → Except UnknownType String
  | .text => .ok "String?"
  | .number => .ok "Double?"
  | .boolean => .ok "Bool?"
  | .date => .ok "Date?"
  | .other name => .error ⟨name⟩

def shownResource (useKeys : Bool) (key text : String) : String :=
  if useKeys then resource key text else "LocalizedStringResource(" ++ literal text ++ ")"

def parameterDeclaration (useKeys : Bool) (identifier : String) (index : Nat) (p : Parameter) :
    Except UnknownType String := do
  let title := shownResource useKeys (parameterTitleKey identifier index) p.title
  let description := match p.description with
    | some text =>
      if text = "" then ""
      else ", description: " ++
        shownResource useKeys (parameterDescriptionKey identifier index) text
    | none => ""
  return joinLines [
    "    @Parameter(title: " ++ title ++ description ++ ")",
    "    var " ++ p.name ++ ": " ++ (← typeName p.type)]

def parameterDeclarations (parameters : List Parameter) (useKeys : Bool) (identifier : String) :
    Except UnknownType String := do
  if parameters.isEmpty then return ""
  let blocks ← mapPositions (parameterDeclaration useKeys identifier) 0 parameters
  return "\n" ++ joinLines blocks ++ "\n"

/-- The initializer without arguments and the one with a value for each property. -/
def initializers (parameters : List Parameter) : Except UnknownType String := do
  if parameters.isEmpty then return ""
  let argument (_ : Nat) (p : Parameter) := do return p.name ++ ": " ++ (← typeName p.type)
  let arguments ← mapPositions argument 0 parameters
  let assignments := parameters.map fun p => "        self." ++ p.name ++ " = " ++ p.name
  return joinLines [
    "",
    "    init() \x7b\x7d",
    "",
    "    init(" ++ joinWith ", " arguments ++ ") \x7b",
    joinLines assignments,
    "    \x7d",
    ""]

/-- The question for a parameter that has no value. -/
def parameterRequest (useKeys : Bool) (identifier : String) (index : Nat) (p : Parameter) :
    String :=
  let prompt :=
    if useKeys then localized (promptKey identifier index) p.prompt else literal p.prompt
  joinLines [
    "        // Request " ++ p.name ++ " if not provided",
    "        if " ++ p.name ++ " == nil \x7b",
    "            " ++ p.name ++ " = try await $" ++ p.name ++
      ".requestValue(IntentDialog(stringLiteral: " ++ prompt ++ "))",
    "        \x7d"]

def parameterRequests (parameters : List Parameter) (useKeys : Bool) (identifier : String) :
    String :=
  if parameters.isEmpty then ""
  else "\n" ++ joinLines (parameters.mapIdx (parameterRequest useKeys identifier)) ++ "\n"

/-- The statements that store a value, and the tag of its type where it has one. -/
def storeStatements (className : String) (p : Parameter) : List String :=
  let entry := inQuotes (Protocol.parameterEntry p.name)
  let tag (value : String) : String :=
    "            defaults.set(" ++ inQuotes value ++ ", forKey: " ++
      inQuotes (Protocol.parameterTagEntry p.name) ++ ")"
  let log (note : String) : String :=
    "            print(\"[" ++ className ++ "] Writing parameter " ++ p.name ++ note ++ ": \\(" ++
      p.name ++ ")\")"
  let set (value : String) : String :=
    "            defaults.set(" ++ value ++ ", forKey: " ++ entry ++ ")"
  match p.type with
  | .date => [log " (Date)", set (p.name ++ ".timeIntervalSince1970"), tag Protocol.dateTag]
  | .boolean => [log "", set p.name, tag Protocol.booleanTag]
  | _ => [log "", set p.name]

def parameterWrite (className : String) (p : Parameter) : String :=
  joinLines <|
    ["        if let " ++ p.name ++ " = " ++ p.name ++ " \x7b"] ++
    storeStatements className p ++
    ["        \x7d else \x7b",
     "            print(\"[" ++ className ++ "] Parameter " ++ p.name ++ " is nil\")",
     "        \x7d"]

def parameterWrites (parameters : List Parameter) (className : String) : String :=
  if parameters.isEmpty then ""
  else
    "\n        // Write parameter values to shared UserDefaults\n" ++
      joinLines (parameters.map (parameterWrite className)) ++ "\n"

end Swift

end ShortcutRelay
