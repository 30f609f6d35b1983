import ShortcutRelay.Config.Basic
import ShortcutRelay.Intent.State
import ShortcutRelay.Localization.Strings
import ShortcutRelay.Notice
import ShortcutRelay.Protocol.Command

/-!
# Running an intent

An intent asks for its missing values, goes through its dialogs, writes its parameters and its
command, posts the notification and looks for the reply until its time is over.

* `IntentRequest`, `IntentM` : what an intent asks of its surroundings;
* `Runner` : an intent with its settings;
* `Runner.perform` : one run;
* `awaitReply` : the wait for a reply.
-/

namespace ShortcutRelay
open Protocol

inductive IntentRequest
  | open
  | store (request : StoreRequest)
  | ask (parameter : Parameter) (prompt : String)
  | confirm (message : String)
  | post (name : String)
  | clock
  | wallClock
  | sleep (seconds : Float)
  | newNonce
  | report (notice : Notice)

/-- The type of the answer to a request. Opening and using the store and a confirmation may
fail; the answer to a confirmation is whether it was given. -/
def IntentRequest.Result : IntentRequest → Type
  | .open => Except Failure Unit
  | store request => Except Failure request.Result
  | ask .. => Document
  | confirm _ => Except Failure Bool
  | post _ => Unit
  | clock => Float
  | wallClock => Float
  | sleep _ => Unit
  | newNonce => String
  | report _ => Unit

def intentInterface : Interface where
  Request := IntentRequest
  Answer := IntentRequest.Result

abbrev IntentM := ExceptT Failure (Program intentInterface)

namespace Intent

def request (r : IntentRequest) : IntentM r.Result :=
  ExceptT.lift (.request (I := intentInterface) r)

def openStore : IntentM Unit :=
  ExceptT.mk (.request (I := intentInterface) .open)

def confirm (message : String) : IntentM Bool :=
  ExceptT.mk (.request (I := intentInterface) (.confirm message))

def onStore {α : Type} (p : StoreM α) : IntentM α :=
  ExceptT.mk <| p.run.translate fun r : StoreRequest =>
    .request (I := intentInterface) (.store r)

/-- Looks for the reply to a command, sleeping between two looks, until the time since `start`
reaches `timeout`. At most `looks` looks are made. -/
def awaitReply (nonce : String) (timeout interval start : Float) :
    Nat → IntentM (Option String)
  | 0 => throw .exhausted
  | looks + 1 => do
    let now : Float ← request .clock
    if now - start < timeout then
      match ← onStore (takeReply nonce) with
      | some message => return some message
      | none =>
        request (.sleep interval)
        awaitReply nonce timeout interval start looks
    else return none

end Intent

inductive Outcome
  | responded
  | timedOut
  | dialogReturned
  | storeUnavailable
  deriving DecidableEq, Repr

/-- What is said at the end of a run, and why. -/
structure IntentAnswer where
  dialog : String
  outcome : Outcome
  nonce : Option String := none

/-- An intent with its settings. `asks` says whether there is somebody to ask for values, and
`localize` gives the text of a key where localization is in use, and `looks` bounds how often the
reply is looked for. -/
structure Runner where
  shortcut : Shortcut
  asks : Bool := false
  useLocalization : Bool := false
  localize : String → String → String := fun _ text => text
  timeout : Float := replyTimeout
  interval : Float := lookInterval
  looks : Nat := 1000000

namespace Runner
open Intent

def text (r : Runner) (key default : String) : String :=
  if r.useLocalization then r.localize key default else default

def systemText (r : Runner) (m : Localization.SystemMessage) : String :=
  r.text m.key m.text

def valueOf (values : OrderedMap Document) (p : Parameter) : Document :=
  (values.get? p.name).getD .null

def isMissing : Document → Bool
  | .null => true
  | _ => false

/-- The values with those that the user gives for the missing ones; the first parameter has
position `index`. -/
def fillMissing (r : Runner) (values : OrderedMap Document) (index : Nat) :
    List Parameter → IntentM (OrderedMap Document)
  | [] => return values
  | p :: ps => do
    if !isMissing (valueOf values p) || !r.asks then r.fillMissing values (index + 1) ps
    else
      let prompt := r.text (Localization.promptKey r.shortcut.identifier index) p.prompt
      let answer : Document ← request (.ask p prompt)
      r.fillMissing (values.put p.name answer) (index + 1) ps

/-- How the walk through the dialogs ends: with a message, or with the run going on, knowing
whether the user confirmed anything. -/
inductive Walk
  | ended (message : String)
  | goesOn (confirmed : Bool)

/-- Goes through the dialogs whose condition holds: confirmations are asked for, the first plain
message ends the run. The first dialog has position `index`. -/
def walkDialogs (r : Runner) (confirmed : Bool) (index : Nat) :
    List ConditionalDialog → IntentM Walk
  | [] => return .goesOn confirmed
  | d :: ds => do
    if ← onStore (isDue d) then
      let message ← onStore <| interpolate <|
        r.text (Localization.dialogKey r.shortcut.identifier index) d.message
      if d.requiresConfirmation then
        if ← confirm message then r.walkDialogs true (index + 1) ds
        else throw (.declined r.shortcut.identifier)
      else return .ended message
    else r.walkDialogs confirmed (index + 1) ds

def writeValues (values : OrderedMap Document) : List Parameter → StoreM Unit
  | [] => return ()
  | p :: ps => do
    let value := valueOf values p
    if !isMissing value then storeParameter p.name p.type value
    writeValues values ps

def runOpen (r : Runner) (values : OrderedMap Document) : IntentM IntentAnswer := do
  let s := r.shortcut
  let values ← r.fillMissing values 0 s.parameters
  match ← r.walkDialogs false 0 s.stateDialogs with
  | .ended message => return { dialog := message, outcome := .dialogReturned }
  | .goesOn confirmed =>
    let nonce : String ← request .newNonce
    onStore (writeValues values s.parameters)
    let time : Float ← request .wallClock
    onStore <| postCommand s.identifier nonce
      (if s.hasConfirmation then some confirmed else none) (.float time)
    request (.post commandNotification)
    let start : Float ← request .clock
    match ← awaitReply nonce r.timeout r.interval start r.looks with
    | some message => return { dialog := message, outcome := .responded, nonce := some nonce }
    | none =>
      request (.report (.intentTimedOut s.className))
      return { dialog := r.systemText Localization.timedOut, outcome := .timedOut
               nonce := some nonce }

/-- The names of values that belong to no parameter, sorted. -/
def unknownNames (r : Runner) (values : OrderedMap Document) : List String :=
  (values.keys.filter fun name => (r.shortcut.parameter? name).isNone).mergeSort

/-- One run with some values given. A store that cannot be used, at whatever point, ends the run
with a reply of its own. -/
def perform (r : Runner) (values : OrderedMap Document) : IntentM IntentAnswer := do
  let unknown := r.unknownNames values
  if !unknown.isEmpty then throw (.unknownParameters r.shortcut.identifier unknown)
  try
    openStore
    r.runOpen values
  catch
    | .store failure =>
      request (.report (.intentWithoutStore r.shortcut.className failure))
      return { dialog := r.systemText Localization.appGroupFailed, outcome := .storeUnavailable }
    | failure => throw failure

end Runner

end ShortcutRelay
