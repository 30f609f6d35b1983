import ShortcutRelay.Config.Basic
import ShortcutRelay.Localization.Strings
import ShortcutRelay.Positions
import ShortcutRelay.Protocol.Key
import ShortcutRelay.Swift.Literal
import ShortcutRelay.Template.Placeholder

/-!
# State dialogs in Swift

* `messageInterpolation` : the statements that build a message from the state;
* `conditionalDialog` : the block of one dialog;
* `stateDialogs` : the blocks of all dialogs of a shortcut.
-/

namespace ShortcutRelay.Swift
open Text Template

def message (useKeys : Bool) (key text : String) : String :=
  if useKeys then localized key text else literal text

/-- The statement that puts the stored value of a name in the place of its placeholder. -/
def substitution (name : String) : String :=
  let entry := Protocol.stateEntry name
  let replace (value : String) :=
    "            message = message.replacingOccurrences(of: " ++ inQuotes (placeholder name) ++
      ", with: " ++ value ++ ")"
  joinLines [
    "        // Interpolate " ++ name,
    "        if let value = defaults.string(forKey: " ++ inQuotes entry ++ ") \x7b",
    replace "value",
    "        \x7d else if let numValue = defaults.object(forKey: " ++ inQuotes entry ++
      ") as? NSNumber \x7b",
    replace "\"\\(numValue)\"",
    "        \x7d",
    ""]

/-- The statements that build a message from the state: one expression for a message without
placeholders, else a variable and one substitution for each placeholder. -/
def messageInterpolation (text key : String) (useKeys : Bool) : String :=
  match placeholders text with
  | [] => message useKeys key text
  | names =>
    "var message = " ++ message useKeys key text ++ "\n" ++
      String.join (names.map substitution)

def flattened (s : String) : String :=
  s.map fun c => if c = '\r' ∨ c = '\n' then ' ' else c

/-- What a dialog does with its message: ask for a confirmation and remember it, or end the
intent with the message. -/
def dialogAction (className : String) (confirm : Bool) (value : String) : String :=
  if confirm then
    joinLines [
      "do \x7b",
      "                try await requestConfirmation(",
      "                    result: .result(dialog: IntentDialog(stringLiteral: " ++ value ++ "))",
      "                )",
      "                // User confirmed - set flag and continue",
      "                userConfirmedOverride = true",
      "            \x7d catch \x7b",
      "                // User cancelled - abort execution (the app will not be invoked)",
      "                print(\"[" ++ className ++ "] User cancelled confirmation\")",
      "                throw error",
      "            \x7d"]
  else "return .result(dialog: IntentDialog(stringLiteral: " ++ value ++ "))"

/-- The block of the dialog at a position, guarded by a condition. -/
def conditionalDialog (index : Int) (className : String) (dialog : ConditionalDialog)
    (condition key : String) (useKeys : Bool) : Except NumberError String := do
  let shown ← formatValue dialog.showWhen
  let (preparation, value) :=
    if (placeholders dialog.message).isEmpty then ("", message useKeys key dialog.message)
    else
      (joinLines [
        "// Interpolate message with current app state",
        "            " ++ messageInterpolation dialog.message key useKeys,
        "            "], "message")
  let (kind, log) :=
    if dialog.requiresConfirmation then ("confirmation", "Confirmation required")
    else ("message and return", "Showing message (no confirmation)")
  return joinLines [
    "",
    "        // State dialog #" ++ toString (index + 1) ++ ": Show " ++ kind ++ " when " ++
      flattened (dialog.stateKey ++ " == " ++ shown),
    "        if " ++ condition ++ " \x7b",
    "            print(" ++
      literal ("[" ++ className ++ "] " ++ log ++ ": " ++ dialog.stateKey ++ " is " ++ shown) ++
      ")",
    "            " ++ preparation ++ dialogAction className dialog.requiresConfirmation value,
    "        \x7d"]

/-- The block of the dialog of a shortcut at a position. -/
def stateDialog (s : Shortcut) (useKeys : Bool) (index : Nat) (d : ConditionalDialog) :
    Except NumberError String := do
  let condition ← condition (Protocol.stateEntry d.stateKey) d.showWhen
  conditionalDialog index s.className d condition (Localization.dialogKey s.identifier index) useKeys

def stateDialogs (s : Shortcut) (useKeys : Bool) : Except NumberError String := do
  if s.stateDialogs.isEmpty then return ""
  else
    let blocks ← mapPositions (stateDialog s useKeys) 0 s.stateDialogs
    let flag :=
      if s.hasConfirmation then
        joinLines [
          "",
          "        // Track whether user confirmed any state-based dialogs",
          "        var userConfirmedOverride = false",
          "        "]
      else ""
    return joinLines [
      "",
      "        // Check app state for state-based dialogs",
      "        " ++ flag ++ joinLines blocks,
      "    "]

end ShortcutRelay.Swift
