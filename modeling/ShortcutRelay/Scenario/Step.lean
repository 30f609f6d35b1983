import ShortcutRelay.Config.Basic
import ShortcutRelay.Protocol.Key

/-!
# Scenarios

A scenario is a list of steps that intents, an application and other processes take on one store.
Code of the application is scripted: a listener, an observer or a callback is a list of actions.

* `Step` : one step;
* `Action` : what scripted code does;
* `Listener` : the script of a listener.
-/

namespace ShortcutRelay.Scenario

/-- What happens to the file of a suite. -/
inductive FileChange
  | overwrite (bytes : List UInt8)
  | delete
  | makeDirectory
  | moveDirectory
  | restoreDirectory

/-- Which uses of the store fail from now on: opening it, reading it, or writing it after some
more writes. -/
inductive Fault
  | opening (on : Bool)
  | reading (on : Bool)
  | writing (left : Option Nat)

/-- How a question for a confirmation is answered: with yes or no, by giving up, or by an error of
the one who asks. -/
inductive Confirmation
  | answer (given : Bool)
  | cancel
  | fail

/-- What scripted code can do, where steps of type `σ` are part of it. -/
inductive Act (σ : Type)
  | respond (message : Option String)
  | raise (message : String)
  | pause (turns : Nat)
  | step (step : σ)

/-- What scripted code does. Under a label it is done only once, whoever comes to it. -/
structure Action (σ : Type) where
  act : Act σ
  once : Option String := none

/-- Steps that are taken while somebody sleeps for the given time since the beginning of a run. -/
structure Event (σ : Type) where
  sleep : Nat
  steps : List σ

/-- One run of an intent. `answers` is set where there is somebody to ask for values, and
`confirmations` where there is somebody to ask for confirmations; `texts` are the localized texts,
where there are any. -/
structure Run (σ : Type) where
  identifier : String
  values : List (String × Document) := []
  answers : Option (List (String × Document)) := none
  confirmations : Option (List Confirmation) := none
  texts : Option (List (String × String)) := none
  useLocalization : Bool := false
  timeout : Float := Protocol.replyTimeout
  interval : Float := Protocol.lookInterval
  events : List (Event σ) := []

inductive Step
  | set (key : String) (value : Document)
  | get (key : String)
  | remove (key : String)
  | removeAll (keys : List String)
  | keys
  | contains (key : String)
  | text (key : String)
  | number (key : String)
  | double (key : String)
  | isolatedSnapshot
  | exclusively (steps : List Step)
  | file (change : Option FileChange)
  | fault (faults : List Fault)
  | race (reads : Nat) (identifier nonce : String)
  | storeParameter (name : String) (type : ValueType) (value : Document)
  | storedParameters
  | postCommand (identifier nonce : String) (confirmed timestamp : Document)
  | readCommand
  | clearCommand (nonce : Option String)
  | postReply (nonce : String) (message : Option String)
  | takeReply (nonce : String)
  | orphans (active : List String)
  | poll (nonce : String) (timeout interval : Float) (events : List (Event Step))
  | invocation
  | addObserver (tag name : String) (actions : List (Action Step))
  | removeObserver (token : Nat)
  | observerCount (name : Option String)
  | post (name : String)
  | centerIsShared
  | start
  | stop
  | setCallback (tag : String) (actions : List (Action Step))
  | attend
  | sharedText (key : String)
  | shareText (key : String) (value : Document)
  | sharedNumber (key : String)
  | shareNumber (key : String) (value : Document)
  | bridgeRespond (nonce : String) (message : Option String)
  | enlist (name : String)
  | unsubscribe (index : Nat)
  | listenerCount
  | tracked
  | cleanup (keys : Option (List String))
  | updateState (state : List (String × Document))
  | respond (nonce : String) (message : Option String)
  | invoke (identifier nonce : String)
  | drain
  | evaluate (stateKey : String) (expected : Document)
  | interpolate (message : String)
  | perform (run : Run Step)

/-- The script of a listener. One that may wait is put off until the event loop comes to it. -/
structure Listener where
  mayWait : Bool := false
  actions : List (Action Step) := []

end ShortcutRelay.Scenario
