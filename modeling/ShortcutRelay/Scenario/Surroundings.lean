import ShortcutRelay.App.Invocation
import ShortcutRelay.App.Manager
import ShortcutRelay.Intent.Perform
import ShortcutRelay.Scenario.Step
import ShortcutRelay.Store.Backend
import ShortcutRelay.Store.SuiteFile

/-!
# The surroundings of a scenario

* `Answer` : the answer to a step;
* `Call` : a call of scripted code;
* `FallibleStore` : the store, which can be made to fail;
* `Surroundings` : the store with the clock, the scripts and what they were seen to do.
-/

namespace ShortcutRelay.Scenario
open Protocol

/-! ## What a scenario shows -/

/-- What is seen of one run of an intent. -/
structure RunReport (α : Type) where
  prompts : List (String × String)
  confirmations : List String
  events : List α
  sleeps : Nat
  now : Float

/-- The answer to a step. -/
inductive Answer
  | nothing
  | flag (value : Bool)
  | count (n : Nat)
  | value (value : Document)
  | texts (values : List String)
  | names (values : Option (List String))
  | parameters (values : List (String × StoredValue))
  | command (value : Option Command)
  | invocation (value : Option Invocation)
  | outcomes (values : List (Except Failure Answer))
  | polled (message : Option String) (report : RunReport (Except Failure Answer))
  | performed (result : Except Failure IntentAnswer) (report : RunReport (Except Failure Answer))

instance : Inhabited Answer := ⟨.nothing⟩

def Answer.optionalText (s : Option String) : Answer :=
  .value ((s.map .text).getD .null)

def Answer.optionalNumber (x : Option Float) : Answer :=
  .value ((x.map .float).getD .null)

/-- A call of scripted code, or the answer to a step that scripted code took. -/
inductive Call
  | listener (name : String) (invocation : Invocation)
  | observer (tag name : String)
  | callback (tag : String) (command : Command)
  | inner (outcome : Except Failure Answer)

/-! ## Stores -/

/-- Where a store keeps its contents. -/
inductive StoreKind
  | memory (store : MemoryStore)
  | file (file : SuiteFile)

/-- The store of a scenario. `opens` says that opening it fails, `fragile` that it is one of those
whose reads and writes can be made to fail. -/
structure FallibleStore where
  kind : StoreKind := .memory {}
  isDirect : Bool := false
  fragile : Bool := false
  openFails : Bool := false
  readFails : Bool := false
  writesLeft : Option Nat := none

namespace FallibleStore

def contents (s : FallibleStore) : Except Failure Contents :=
  match s.kind with
  | .memory m => .ok m.contents
  | .file f => do
    f.checkGroup
    f.read

/-- The store with a fault switched on or off. -/
def withFault (s : FallibleStore) : Fault → FallibleStore
  | .opening on => { s with openFails := on }
  | .reading on => { s with readFails := on }
  | .writing left => { s with writesLeft := left }

def countWrite (s : FallibleStore) : Except Failure FallibleStore :=
  match s.fragile, s.writesLeft with
  | true, some 0 => .error (.store (.injected .writing))
  | true, some (n + 1) => .ok { s with writesLeft := some n }
  | _, _ => .ok s

def write (s : FallibleStore) (c : Contents) : Except Failure FallibleStore := do
  match s.kind with
  | .memory _ => return { s with kind := .memory ⟨c⟩ }
  | .file f => return { s with kind := .file (← f.write c) }

end FallibleStore

instance : Backend FallibleStore where
  obtain := do
    let s ← get
    if s.openFails && !s.isDirect then throw (.store (.injected .opening))
    if let .file f := s.kind then MonadExcept.ofExcept f.checkGroup
  load := do
    let s ← get
    if s.fragile && s.readFails then throw (.store (.injected .reading))
    match s.kind with
    | .memory m => return m.contents
    | .file f => MonadExcept.ofExcept f.read
  save c := do
    set (← MonadExcept.ofExcept ((← get).countWrite >>= (·.write c)))
  enter := do
    let s ← get
    if let .file f := s.kind then
      set { s with kind := .file (← MonadExcept.ofExcept f.lock) }
  leave := modify fun s =>
    match s.kind with
    | .file f => { s with kind := .file { f with depth := f.depth - 1 } }
    | _ => s

/-! ## Surroundings -/

/-- A command that another process writes just before a later read of the nonce. -/
structure Race where
  reads : Nat
  identifier : String
  nonce : String

/-- Scripted code. A listener that may wait goes on with the actions that are left; `isNew` says
that it has not begun. -/
inductive Script
  | observer (tag : String) (actions : List (Action Step))
  | callback (tag : String) (actions : List (Action Step))
  | listener (name : String) (invocation : Invocation) (isNew : Bool)
      (actions : List (Action Step))

/-- What surrounds the application of a scenario. `spent` holds the labels of actions that are
done only once. -/
structure Surroundings where
  store : FallibleStore := {}
  race : Option Race := none
  sharedCenter : Bool := false
  now : Float := 0.0
  nonces : Nat := 0
  listeners : List (String × Listener) := []
  subscriptions : List Subscription := []
  spent : List String := []
  calls : List Call := []

/-- The time of day at the beginning, in seconds since 1970. -/
def wallClockStart : Float :=
  1700000000.0

namespace Surroundings

def wallClock (s : Surroundings) : Float :=
  wallClockStart + s.now

def onStore {α : Type} (act : BackendM FallibleStore α) : BackendM Surroundings α :=
  ExceptT.mk fun s =>
    let (result, store) := act.run s.store
    (result, { s with store })

/-- Another process writes its command if this is the read that it waits for. -/
def letRace (key : String) : BackendM Surroundings Unit := do
  let s ← get
  if let some race := s.race then
    if key = commandNonce then
      if race.reads ≤ 1 then
        set { s with race := none }
        onStore <| Backend.run <|
          postCommand race.identifier race.nonce none (.float s.wallClock)
      else set { s with race := some { race with reads := race.reads - 1 } }

end Surroundings

instance : Backend Surroundings where
  obtain := Surroundings.onStore Backend.obtain
  load := Surroundings.onStore Backend.load
  save c := Surroundings.onStore (Backend.save c)
  enter := Surroundings.onStore Backend.enter
  leave := modify fun s => { s with store := (Backend.leave.run s.store).2 }
  textRead := Surroundings.letRace

end ShortcutRelay.Scenario
