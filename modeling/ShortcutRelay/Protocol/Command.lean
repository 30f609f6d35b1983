import ShortcutRelay.Protocol.Key
import ShortcutRelay.Protocol.Parameter
import ShortcutRelay.Store.Request
import ShortcutRelay.Text.Pieces

/-!
# Commands and replies

An intent hands a command to the application through several entries of the store. The
application reads them one by one and clears them only while the nonce is still the one it read. The
reply to a command stands under its nonce until the intent takes it.

* `Command` : a command as the application reads it;
* `postCommand` : writes a command whose parameters are written already;
* `readCommand` : the pending command;
* `clearCommand` : removes a command unless a newer one has taken its place;
* `collectCommand` : reads and clears;
* `postReply` : writes a reply;
* `takeReply` : reads and removes a reply;
* `orphans` : the replies that nobody waits for.
-/

namespace ShortcutRelay.Protocol

structure Command where
  identifier : String
  nonce : String
  timestamp : Float
  parameters : List (String × StoredValue) := []
  userConfirmed : Option Bool := none

def postCommand (identifier nonce : String) (confirmed : Option Bool)
    (timestamp : Document) : StoreM Unit := do
  Store.set commandIdentifier (.text identifier)
  Store.set commandNonce (.text nonce)
  Store.set commandTimestamp timestamp
  if let some b := confirmed then Store.set userConfirmed (.bool b)

/-- The confirmation that a stored value stands for. -/
def decodeConfirmation (raw : Document) : Option Bool :=
  if raw.isNumeric then some raw.truthy else none

def readCommand : StoreM (Option Command) := do
  let identifier ← Store.text commandIdentifier
  let nonce ← Store.text commandNonce
  match identifier, nonce with
  | some identifier, some nonce =>
    let confirmed ← Store.get userConfirmed
    let timestamp ← Store.double commandTimestamp
    let parameters ← storedParameters
    return some
      { identifier, nonce, timestamp, parameters, userConfirmed := decodeConfirmation confirmed }
  | _, _ => return none

def isParameterKey (key : String) : Bool :=
  Text.startsWith parameterStart key || Text.startsWith parameterTagStart key

/-- Removes a command and its parameters while its nonce is in the store, and says whether it was.
Without a nonce, what a command left behind is removed while no nonce is in the store. -/
def clearCommand (nonce : Option String) : StoreM Bool := do
  if (← Store.text commandNonce) == nonce then
    let keys ← Store.keys
    Store.removeAll (commandEntries ++ keys.filter isParameterKey)
    return true
  else return false

/-- The pending command and whether it was cleared after it was read. -/
def collectCommand : StoreM (Option (Command × Bool)) := do
  match ← readCommand with
  | none => return none
  | some command => return some (command, ← clearCommand (some command.nonce))

/-! ## Replies -/

def postReply (nonce : String) (message : Option String) : StoreM Unit :=
  Store.set (replyEntry nonce) (.text (message.getD ""))

/-- The reply to the command with a nonce, which is removed once it has been read. -/
def takeReply (nonce : String) : StoreM (Option String) := do
  match ← Store.text (replyEntry nonce) with
  | none => return none
  | some message =>
    Store.remove (replyEntry nonce)
    return some message

/-- Whether an entry is a reply to none of the commands with some nonces. -/
def isOrphan (active : List String) (key : String) : Bool :=
  Text.startsWith replyStart key && !(active.map replyEntry).contains key

def orphans (active : List String) : StoreM (List String) := do
  return ((← Store.keys).filter (isOrphan active)).mergeSort

end ShortcutRelay.Protocol
