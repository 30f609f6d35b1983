import ShortcutRelay.App.Bridge
import ShortcutRelay.Json.Printer

/-!
# The manager

* `Manager.enlist`, `Subscription.remove` : the listeners of an application;
* `Manager.updateState`, `Manager.cleanup` : the application's state in the store;
* `Manager.respond` : the reply to an invocation.
-/

namespace ShortcutRelay
open Protocol App

variable {σ κ : Type}

namespace Manager

def update (f : Manager → Manager) : AppM σ κ Unit :=
  modify fun w => { w with manager := f w.manager }

def withListener (m : Manager) (name : String) : Manager :=
  if name ∈ m.listeners then m else { m with listeners := m.listeners ++ [name] }

def withoutListener (m : Manager) (name : String) : Manager :=
  let listeners := m.listeners.erase name
  { m with listeners, registered := m.registered && !listeners.isEmpty }

def withTracked (m : Manager) (key : String) : Manager :=
  if key ∈ m.tracked then m else { m with tracked := m.tracked ++ [key] }

variable [Backend σ]

/-- Has the bridge hand commands to the manager, unless it does already. -/
def register (host : Host σ κ) : AppM σ κ Unit := do
  let w ← get
  if !w.manager.registered && w.bridge.isSome then
    update fun m => { m with registered := true }
    Bridge.setCallback host .manager

def enlist (host : Host σ κ) (name : String) : AppM σ κ Unit := do
  update (·.withListener name)
  register host

/-! ## State -/

def clearKeys : List String → AppM σ κ Unit
  | [] => return ()
  | key :: keys => do
    Bridge.shareText (stateEntry key) .null
    clearKeys keys

/-- Drops all listeners and removes keys of the state from the store: the given ones, or all that
were ever written, which are then forgotten. -/
def cleanup (keys : Option (List String)) : AppM σ κ Unit := do
  update fun m => { m with listeners := [], registered := false }
  let w ← get
  if w.bridge.isSome then
    noting .stateNotCleared (clearKeys (keys.getD w.manager.tracked))
  if keys.isNone then update fun m => { m with tracked := [] }

/-- Writes one value of the state: numbers and truth values as numbers, texts as texts, null as
nothing, and anything else as the text of its JSON form. -/
def writeState (key : String) (value : Document) : AppM σ κ Unit :=
  match value with
  | .bool _ | .int _ | .float _ => Bridge.shareNumber (stateEntry key) value
  | .text _ | .null => Bridge.shareText (stateEntry key) value
  | value =>
    match value.toJson with
    | .ok j => Bridge.shareText (stateEntry key) (.text (Json.inlineAscii j))
    | .error cause => report (.stateUnserializable key cause)

def writeStates : List (String × Document) → AppM σ κ Unit
  | [] => return ()
  | (key, value) :: rest => do
    update (·.withTracked key)
    writeState key value
    writeStates rest

def updateState (state : OrderedMap Document) : AppM σ κ Unit := do
  if (← get).bridge.isSome then noting .stateNotWritten (writeStates state.toList)
  else report .stateDropped

/-! ## Replies -/

/-- Writes the reply to an invocation; without a text the usual feedback is given. -/
def respond (nonce : String) (message : Option String) : AppM σ κ Unit := do
  if (← get).bridge.isSome then noting .replyNotSent (Bridge.postReply nonce message)
  else report .replyDropped

end Manager

/-- What a caller gets for adding a listener. -/
structure Subscription where
  listener : String
  isActive : Bool := true

/-- Ends a subscription; the second time nothing happens. -/
def Subscription.remove (s : Subscription) : AppM σ κ Subscription := do
  if s.isActive then Manager.update (·.withoutListener s.listener)
  return { s with isActive := false }

end ShortcutRelay
