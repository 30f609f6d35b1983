import ShortcutRelay.App.World

/-!
# From notifications to listeners

* `App.invoke` : calls every listener;
* `App.deliver` : hands a command to a callback;
* `App.attend` : collects the pending command and hands it over;
* `App.post` : delivers a notification to its observers.
-/

namespace ShortcutRelay.App
open Protocol

variable {σ κ : Type}

/-! ## Listeners that wait -/

/-- A listener that goes on; what it raises becomes a notice. -/
def resume (host : Host σ κ) (code : κ) : AppM σ κ (Option κ) :=
  tryCatch (host.resume code) fun failure => do
    report (.asyncListenerFailed failure)
    return none

/-- Adds to the queue of the loop that was made for one listener. -/
def waitInside (task : InnerTask κ) : AppM σ κ Unit :=
  modify fun w => { w with inner := w.inner.map (· ++ [task]) }

/-- Works off one task of a loop that was made for one listener, and says whether the loop ends. It
does so when the end comes up that was queued after the listener's last turn. -/
def runInside (host : Host σ κ) : InnerTask κ → AppM σ κ Bool
  | .own code => do
    waitInside (((← resume host code).map .own).getD .finish)
    return false
  | .other code => do
    if let some code ← resume host code then waitInside (.other code)
    return false
  | .finish => return true

/-- Works off the tasks of one round, all of them, and says whether the loop ends. -/
def runRound (host : Host σ κ) : List (InnerTask κ) → AppM σ κ Bool
  | [] => return false
  | task :: tasks => do
    let ends ← runInside host task
    let others ← runRound host tasks
    return ends || others

/-- Works off rounds until the loop ends. A round holds what was queued before it began. -/
def runRounds (host : Host σ κ) : Nat → AppM σ κ Unit
  | 0 => throw .exhausted
  | rounds + 1 => do
    let tasks := (← get).inner.getD []
    modify fun w => { w with inner := some [] }
    if !(← runRound host tasks) then runRounds host rounds

/-- Runs a listener in a loop that is made for it; what else waits there in the end is dropped. -/
def runAlone (host : Host σ κ) (code : κ) : AppM σ κ Unit := do
  modify fun w => { w with inner := some [.own code] }
  tryFinally (runRounds host host.turns) <|
    modify fun w => { w with inner := none }

def schedule (host : Host σ κ) (code : κ) : AppM σ κ Unit := do
  let w ← get
  if w.inner.isSome then waitInside (.other code)
  else if w.running then set { w with ready := w.ready ++ [Task.resume code] }
  else runAlone host code

/-! ## Invocations -/

/-- Calls listeners in order; what one raises becomes a notice and does not stop the others. -/
def callListeners (host : Host σ κ) (i : Invocation) : List String → AppM σ κ Unit
  | [] => return ()
  | name :: names => do
    let waiting ← tryCatch (host.call name i) fun failure => do
      report (.listenerFailed failure)
      return none
    if let some code := waiting then schedule host code
    callListeners host i names

def invoke (host : Host σ κ) (i : Invocation) : AppM σ κ Unit := do
  match (← get).manager.listeners with
  | [] => report .nobodyListens
  | names => callListeners host i names

def deliver (host : Host σ κ) (callback : Callback κ) (command : Command) : AppM σ κ Unit :=
  match callback with
  | .custom code => host.deliver code command
  | .manager => do
    match Invocation.ofCommand (← get).config command with
    | .ok i => invoke host i
    | .error e => throw (.calendar e)

/-! ## Notifications -/

def dispatch (host : Host σ κ) (bridge : Bridge κ) (callback : Callback κ) (command : Command) :
    AppM σ κ Unit :=
  if bridge.queued then
    modify fun w => { w with ready := w.ready ++ [Task.deliver callback command] }
  else deliver host callback command

/-- A result, or none and a notice where the store fails. -/
def unlessUnreachable {α : Type} (act : AppM σ κ (Option α)) : AppM σ κ (Option α) :=
  tryCatch act fun
    | .store failure => do
      report (.commandUnreachable failure)
      return none
    | failure => throw failure

variable [Backend σ]

/-- Collects the pending command and hands it over. Without a callback the command stays where it
is, and so does one that cannot be cleared; one that a newer command has replaced is handed over
all the same. -/
def attend (host : Host σ κ) : AppM σ κ (Option Command) := do
  let some _ ← unlessUnreachable (some <$> openStore) | return none
  let some bridge := (← get).bridge | return none
  let some callback := bridge.callback | return none
  let some (command, cleared) ← unlessUnreachable (onStore collectCommand) | return none
  if !cleared then report .commandReplaced
  dispatch host bridge callback command
  return some command

def notify (host : Host σ κ) (name : String) : Observer κ → AppM σ κ Unit
  | .bridge => discard (attend host)
  | .custom code => host.observe code name

/-- Delivers a notification to some observers in order and counts those that did not raise; what
one raises becomes a notice. -/
def notifyAll (host : Host σ κ) (name : String) : List (Observer κ) → AppM σ κ Nat
  | [] => return 0
  | o :: os => do
    let served ← tryCatch (do notify host name o; return 1) fun failure => do
      report (.observerFailed name failure)
      return 0
    return served + (← notifyAll host name os)

def post (host : Host σ κ) (name : String) : AppM σ κ Nat := do
  notifyAll host name ((← get).center.observers name)

end ShortcutRelay.App
