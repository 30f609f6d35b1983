import ShortcutRelay.Config.Basic
import ShortcutRelay.Protocol.Command

/-!
# Invocations

* `Invocation` : what listeners receive for one run of a shortcut;
* `Invocation.ofCommand` : the invocation of a command, its parameters brought to their declared
  types.
-/

namespace ShortcutRelay
open Protocol

structure Invocation where
  identifier : String
  nonce : String
  parameters : List (String × Document) := []
  userConfirmed : Option Bool := none
  raw : List (String × StoredValue) := []

def resolveParameters (shortcut : Option Shortcut) :
    List (String × StoredValue) → Except Calendar.CalendarError (List (String × Document))
  | [] => .ok []
  | (name, raw) :: rest => do
    let declared := (shortcut.bind (·.parameter? name)).map (·.type)
    let value ← raw.resolve declared
    return (name, value) :: (← resolveParameters shortcut rest)

/-- The invocation of a command, its parameters brought to the types that a configuration
declares. -/
def Invocation.ofCommand (config : Option Config) (c : Command) :
    Except Calendar.CalendarError Invocation := do
  let shortcut := config.bind (·.shortcut? c.identifier)
  return {
    identifier := c.identifier
    nonce := c.nonce
    parameters := ← resolveParameters shortcut c.parameters
    userConfirmed := c.userConfirmed
    raw := c.parameters }

end ShortcutRelay
