import ShortcutRelay.Failure

/-!
# Notices

What the parts of the library report while they go on with their work.

* `Notice` : what happened;
* `Notice.origin`, `Notice.severity`, `Notice.message` : who reports it, how bad it is and the
  wording.
-/

namespace ShortcutRelay
open Text

inductive Origin
  | center
  | intent
  | application
  deriving DecidableEq, Repr

inductive Severity
  | warning
  | error
  deriving DecidableEq, Repr

def Severity.word : Severity → String
  | warning => "WARNING"
  | error => "ERROR"

/-- What happened. An intent is known by the name of its generated type. -/
inductive Notice
  | observerFailed (name : String) (failure : Failure)
  | intentWithoutStore (className : String) (failure : StoreFailure)
  | intentTimedOut (className : String)
  | commandUnreachable (failure : StoreFailure)
  | commandReplaced
  | stateDropped
  | replyDropped
  | stateUnserializable (key : String) (cause : Unserializable)
  | stateNotWritten (failure : StoreFailure)
  | stateNotCleared (failure : StoreFailure)
  | replyNotSent (failure : StoreFailure)
  | nobodyListens
  | listenerFailed (failure : Failure)
  | asyncListenerFailed (failure : Failure)
  deriving DecidableEq, Repr

namespace Notice

def origin : Notice → Origin
  | observerFailed .. => .center
  | intentWithoutStore .. | intentTimedOut .. => .intent
  | _ => .application

def severity : Notice → Severity
  | intentTimedOut .. | commandReplaced | stateDropped | stateUnserializable .. | nobodyListens =>
    .warning
  | _ => .error

def message : Notice → String
  | observerFailed name _ => "Observer for " ++ name ++ " raised"
  | intentWithoutStore className failure =>
    "[" ++ className ++ "] ERROR: Failed to access App Group: " ++ failure.message
  | intentTimedOut className => "[" ++ className ++ "] Timeout waiting for response"
  | commandUnreachable failure =>
    "[IosIntents] ERROR: Cannot access shared store: " ++ failure.message
  | commandReplaced => "[IosIntents] Nonce mismatch, skipping clear"
  | stateDropped => "update_app_state: no bridge available"
  | replyDropped => "Cannot respond: no bridge available"
  | stateUnserializable key cause =>
    "Cannot serialize value for key " ++ quote key ++ ": " ++ cause.message
  | stateNotWritten failure => "Error updating app state: " ++ failure.message
  | stateNotCleared failure => "Error clearing app state: " ++ failure.message
  | replyNotSent failure => "Error sending response: " ++ failure.message
  | nobodyListens => "Shortcut invoked but no listeners registered"
  | listenerFailed _ => "Error in listener"
  | asyncListenerFailed _ => "Error in async listener"

def failure? : Notice → Option Failure
  | observerFailed _ failure | listenerFailed failure | asyncListenerFailed failure => some failure
  | _ => none

end Notice

end ShortcutRelay
