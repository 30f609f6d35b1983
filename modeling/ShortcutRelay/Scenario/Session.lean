import ShortcutRelay.PropertyList.Read
import ShortcutRelay.Scenario.Play

/-!
# Sessions

* `playStep` : one step, given how the steps inside it are taken;
* `play` : one step, the steps inside it lying at most so deep;
* `Session` : the beginning of a scenario, and `Session.run` its answers.
-/

namespace ShortcutRelay.Scenario
open Protocol App

/-! ## Steps on the store -/

def changeFile (f : SuiteFile) : FileChange → SuiteFile
  | .overwrite bytes => { f with content := PropertyList.contentOf f bytes }
  | .delete => { f with content := .missing }
  | .makeDirectory => { f with content := .directory }
  | .moveDirectory => { f with moved := true }
  | .restoreDirectory => { f with moved := false }

/-- Changes the file of the suite and lists the names beside it. -/
def playFile (change? : Option FileChange) : PlayM Answer := do
  match (← around).store.kind with
  | .memory _ => return .names none
  | .file f =>
    let f := (change?.map (changeFile f)).getD f
    change fun s => { s with store := { s.store with kind := .file f } }
    return .names f.names

def playExclusively (player : Player) (steps : List Step) : PlayM Answer := do
  openStore
  onBackend Backend.enter
  let outcomes ← playAll player steps
  onBackend (ExceptT.lift Backend.leave)
  return .outcomes outcomes

/-- Whether a key that is added to a snapshot is in the store. -/
def playIsolation : StoreM Bool := do
  let marker := "isolated"
  let snapshot ← Store.snapshot
  return !(snapshot.put marker (.int 1)).contains marker || (← Store.contains marker)

/-! ## Steps of the application and of intents -/

/-- Ends a subscription that there is. -/
def playUnsubscribe (index : Nat) : PlayM Answer := do
  match (← around).subscriptions[index]? with
  | none => return .nothing
  | some s =>
    let s ← s.remove
    change fun a => { a with subscriptions := a.subscriptions.set index s }
    return .flag s.isActive

def playInvocation : PlayM Answer := do
  let config := (← get).config
  match ← withStore readCommand with
  | none => return .invocation none
  | some c =>
    match Invocation.ofCommand config c with
    | .ok i => return .invocation (some i)
    | .error e => throw (.calendar e)

/-- Looks for a reply as an intent does. -/
def playPoll (player : Player) (nonce : String) (run : Run Step) : PlayM Answer := do
  let program : IntentM (Option String) := do
    Intent.openStore
    let start : Float ← Intent.request .clock
    Intent.awaitReply nonce run.timeout run.interval start turnLimit
  let (result, report) ← playIntent player run program
  return .polled (← MonadExcept.ofExcept result) report

def playPerform (player : Player) (run : Run Step) : PlayM Answer := do
  match (← get).config.bind (·.shortcut? run.identifier) with
  | none => throw (.raised run.identifier)
  | some shortcut =>
    let (result, report) ← playIntent player run <|
      (runnerOf shortcut run).perform (.ofList run.values)
    return .performed result report

/-- One step, given how the steps inside it are taken. -/
def playStep (player : Player) (s : Step) : PlayM Answer :=
  let host := hostOf player
  let silent (act : PlayM Unit) : PlayM Answer := do
    act
    return .nothing
  match s with
  | .set key value => silent (withStore (Store.set key value))
  | .get key => do return .value (← withStore (Store.get key))
  | .remove key => silent (withStore (Store.remove key))
  | .removeAll keys => silent (withStore (Store.removeAll keys))
  | .keys => do return .texts (← withStore Store.keys)
  | .contains key => do return .flag (← withStore (Store.contains key))
  | .text key => do return .optionalText (← withStore (Store.text key))
  | .number key => do return .optionalNumber (← withStore (Store.number key))
  | .double key => do return .value (.float (← withStore (Store.double key)))
  | .isolatedSnapshot => do return .flag (← withStore playIsolation)
  | .exclusively steps => playExclusively player steps
  | .file change? => playFile change?
  | .fault faults => silent <|
    change fun s => { s with store := faults.foldl FallibleStore.withFault s.store }
  | .race reads identifier nonce => silent <|
    change fun s => { s with race := some ⟨reads, identifier, nonce⟩ }
  | .storeParameter name type value => silent (withStore (storeParameter name type value))
  | .storedParameters => do return .parameters (← withStore storedParameters)
  | .postCommand identifier nonce confirmed timestamp => silent do
    let time : Document ← match timestamp with
      | .null => do pure (.float (← around).wallClock)
      | given => pure given
    let confirmed? := if Runner.isMissing confirmed then none else some confirmed.truthy
    withStore (postCommand identifier nonce confirmed? time)
  | .readCommand => do return .command (← withStore readCommand)
  | .clearCommand nonce => do return .flag (← withStore (clearCommand nonce))
  | .postReply nonce message => silent (withStore (postReply nonce message))
  | .takeReply nonce => do return .optionalText (← withStore (takeReply nonce))
  | .orphans active => do return .texts (← withStore (orphans active))
  | .poll nonce timeout interval events =>
    playPoll player nonce { identifier := "", timeout, interval, events }
  | .invocation => playInvocation
  | .addObserver tag name actions => do
    modify fun w => { w with center := w.center.add name (.custom (.observer tag actions)) }
    return .count (← get).center.lastToken
  | .removeObserver token => do
    let known := (← get).center.has token
    modify fun w => { w with center := w.center.remove token }
    return .flag known
  | .observerCount name => do return .count ((← get).center.count name)
  | .post name => do return .count (← post host name)
  | .centerIsShared => do return .flag (← around).sharedCenter
  | .start => do
    Bridge.start
    return .flag (Bridge.isStarted (← get))
  | .stop => do
    Bridge.stop
    return .flag (Bridge.isStarted (← get))
  | .setCallback tag actions => silent (Bridge.setCallback host (.custom (.callback tag actions)))
  | .attend => do return .command (← attend host)
  | .sharedText key => do return .optionalText (← Bridge.sharedText key)
  | .shareText key value => silent (Bridge.shareText key value)
  | .sharedNumber key => do return .optionalNumber (← Bridge.sharedNumber key)
  | .shareNumber key value => silent (Bridge.shareNumber key value)
  | .bridgeRespond nonce message => silent (Bridge.postReply nonce message)
  | .enlist name => do
    Manager.enlist host name
    let index := (← around).subscriptions.length
    change fun s => { s with subscriptions := s.subscriptions ++ [⟨name, true⟩] }
    return .count index
  | .unsubscribe index => playUnsubscribe index
  | .listenerCount => do return .count (← get).manager.listeners.length
  | .tracked => do return .texts (← get).manager.tracked
  | .cleanup keys => silent (Manager.cleanup keys)
  | .updateState state => silent (Manager.updateState (.ofList state))
  | .respond nonce message => silent (Manager.respond nonce message)
  | .invoke identifier nonce => silent (invoke host { identifier, nonce })
  | .drain => silent (inLoop host (return ()))
  | .evaluate key expected => do
    return .flag (← withStore (Intent.stateMatches key expected))
  | .interpolate message => do
    return .value (.text (← withStore (Intent.interpolate message)))
  | .perform run => playPerform player run

/-- One step; the steps inside it, those of scripted code included, lie at most `depth` deep. -/
def play : Nat → Player
  | 0, _ => throw .exhausted
  | depth + 1, s => playStep (play depth) s

/-! ## Sessions -/

/-- The beginning of a scenario. `initial` is written into the store before the first step. -/
structure Session where
  around : Surroundings := {}
  initial : List (String × Document) := []
  config : Option Config := none
  hasBridge : Bool := true
  queued : Bool := false

/-- What is seen of one step: its outcome, the calls, the notices, and then the contents of the
store. -/
structure StepReport where
  outcome : Except Failure Answer
  contents : Except Failure Contents
  calls : List Call
  notices : List Notice

namespace Session

/-- How deep steps may lie inside each other. -/
def depthLimit : Nat :=
  400

/-- The store with some entries written into it one after the other; a store in memory takes them
as they are. -/
def fill (store : FallibleStore) (entries : List (String × Document)) : FallibleStore :=
  match store.kind with
  | .memory _ => { store with kind := .memory ⟨.ofList entries⟩ }
  | .file _ =>
    let write (store : FallibleStore) (entry : String × Document) : FallibleStore :=
      ((Backend.run (Store.set entry.1 entry.2)).run store).2
    entries.foldl write store

def world (s : Session) : World Surroundings Script where
  around := { s.around with store := fill s.around.store s.initial }
  bridge := if s.hasBridge then some { queued := s.queued } else none
  config := s.config

def report (s : Step) (w : World Surroundings Script) :
    StepReport × World Surroundings Script :=
  let (outcome, w) := (play depthLimit s).run w
  ({ outcome
     contents := w.around.store.contents
     calls := w.around.calls
     notices := w.notices },
   { w with notices := [], around := { w.around with calls := [] } })

def reports : List Step → World Surroundings Script → List StepReport
  | [], _ => []
  | s :: rest, w =>
    let (r, w) := report s w
    r :: reports rest w

/-- The reports on the steps of a scenario. -/
def run (s : Session) (steps : List Step) : List StepReport :=
  reports steps s.world

end Session

end ShortcutRelay.Scenario
