import ShortcutRelay.Config.Basic
import ShortcutRelay.Protocol.Key
import ShortcutRelay.Store.Request
import ShortcutRelay.Swift.Literal
import ShortcutRelay.Template.Placeholder
import ShortcutRelay.Text.Pieces

/-!
# The application's state as intents see it

* `stateMatches` : whether a value of the state is the one that a dialog waits for;
* `isDue` : whether a dialog is to be shown;
* `interpolate` : a message with the values of the state in place of its placeholders.
-/

namespace ShortcutRelay.Intent
open Protocol

/-- Whether a value of the state is the expected one: numbers and truth values are compared as
doubles and texts as texts, and anything else asks whether there is a value at all. -/
def stateMatches (stateKey : String) (expected : Document) : StoreM Bool := do
  let key := stateEntry stateKey
  match expected with
  | .text s => return (← Store.text key) == some s
  | .bool _ | .int _ | .float _ =>
    let stored ← Store.double key
    return stored == (← Store.ofNumber expected.toFloat)
  | _ => return (← Store.text key).isSome

/-- Whether a dialog is to be shown. The value that it waited for is written to the log first. -/
def isDue (d : ConditionalDialog) : StoreM Bool := do
  if ← stateMatches d.stateKey d.showWhen then
    let _ ← Store.ofNumber (Swift.formatValue d.showWhen)
    return true
  else return false

/-- A message with the value of one placeholder in place of each of its occurrences; without a
value it stays as it is. -/
def fill (message name : String) : StoreM String := do
  let replaced (value : String) : String :=
    Text.replaceAll (Template.placeholder name) value message
  match ← Store.text (stateEntry name) with
  | some value => return replaced value
  | none =>
    match ← Store.number (stateEntry name) with
    | some x => return replaced (Swift.formatFloat x)
    | none => return message

/-- A message with values filled in for some placeholders, one after the other. -/
def fillAll (message : String) : List String → StoreM String
  | [] => return message
  | name :: names => do fillAll (← fill message name) names

def interpolate (message : String) : StoreM String :=
  fillAll message (Template.placeholders message)

end ShortcutRelay.Intent
