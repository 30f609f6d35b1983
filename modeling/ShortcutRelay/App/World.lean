import ShortcutRelay.App.Invocation
import ShortcutRelay.Notice
import ShortcutRelay.Store.Backend

/-!
# The application

* `Center` : the observers of notifications, in the order in which they were added;
* `Bridge` : receives commands and hands them to one callback;
* `Manager` : the listeners of an application and the keys of its state;
* `World` : both with the notification center, the store and the work that waits;
* `AppM` : computations in the world that may fail;
* `Host` : how code that is not part of the library is run.
-/

namespace ShortcutRelay
open Protocol

/-! ## Notification centers -/

/-- An observer of the notifications with a name. -/
structure Registration (ω : Type) where
  token : Nat
  name : String
  observer : ω

/-- The observers of notifications. Every one gets a token of its own; tokens are not used
again. -/
structure Center (ω : Type) where
  registrations : List (Registration ω) := []
  lastToken : Nat := 0

namespace Center

variable {ω : Type}

def add (c : Center ω) (name : String) (observer : ω) : Center ω where
  registrations := c.registrations ++ [⟨c.lastToken + 1, name, observer⟩]
  lastToken := c.lastToken + 1

def has (c : Center ω) (token : Nat) : Bool :=
  c.registrations.any (·.token == token)

def remove (c : Center ω) (token : Nat) : Center ω :=
  { c with registrations := c.registrations.filter (·.token != token) }

def observers (c : Center ω) (name : String) : List ω :=
  (c.registrations.filter (·.name == name)).map (·.observer)

def count (c : Center ω) : Option String → Nat
  | none => c.registrations.length
  | some name => (c.observers name).length

end Center

/-! ## The world -/

variable {σ κ : Type}

/-- Whom a notification is delivered to: the bridge, or other code. -/
inductive Observer (κ : Type)
  | bridge
  | custom (code : κ)

/-- Whom the bridge hands commands to: the manager, or other code. -/
inductive Callback (κ : Type)
  | manager
  | custom (code : κ)

/-- The bridge. `token` is set while it observes the notification, and `queued` says that
commands are put into the ready queue and not handed over at once. -/
structure Bridge (κ : Type) where
  callback : Option (Callback κ) := none
  token : Option Nat := none
  queued : Bool := false

/-- The listeners of an application, by name and in the order in which they were added, and the
keys of its state that were ever written. `registered` says that the bridge hands commands to the
manager. -/
structure Manager where
  listeners : List String := []
  registered : Bool := false
  tracked : List String := []

/-- Work that waits for the event loop: a command to be handed over, a listener to go on, or the
turn of the intent that the loop is run for. -/
inductive Task (κ : Type)
  | deliver (callback : Callback κ) (command : Command)
  | resume (code : κ)
  | main

/-- Work that waits in the loop that was made for one listener: that listener's turn, the turn of
another one that it led to, or the end of the loop. -/
inductive InnerTask (κ : Type)
  | own (code : κ)
  | other (code : κ)
  | finish

/-- An application and what it shares with others. `around` is what surrounds it, the store among
other things. While the event loop runs, listeners that wait go into `ready`. A listener that is
called without a loop gets one of its own, whose queue is `inner`. -/
structure World (σ κ : Type) where
  around : σ
  center : Center (Observer κ) := {}
  bridge : Option (Bridge κ) := none
  manager : Manager := {}
  config : Option Config := none
  running : Bool := false
  ready : List (Task κ) := []
  inner : Option (List (InnerTask κ)) := none
  notices : List Notice := []

/-- Computations in the world that may fail; what they have done by then stays done. -/
abbrev AppM (σ κ : Type) := ExceptT Failure (StateM (World σ κ))

/-- How code that is not part of the library is run. A listener that has to wait gives back the
code that goes on later. `turns` bounds how many rounds one run of an event loop takes. -/
structure Host (σ κ : Type) where
  observe : κ → String → AppM σ κ Unit
  deliver : κ → Command → AppM σ κ Unit
  call : String → Invocation → AppM σ κ (Option κ)
  resume : κ → AppM σ κ (Option κ)
  turns : Nat

namespace App

def report (n : Notice) : AppM σ κ Unit :=
  modify fun w => { w with notices := w.notices ++ [n] }

def onBackend {α : Type} (act : BackendM σ α) : AppM σ κ α :=
  ExceptT.mk fun w =>
    let (result, around) := act.run w.around
    (result, { w with around })

def openStore [Backend σ] : AppM σ κ Unit :=
  onBackend Backend.obtain

def onStore [Backend σ] {α : Type} (p : StoreM α) : AppM σ κ α :=
  onBackend (Backend.run p)

def withStore [Backend σ] {α : Type} (p : StoreM α) : AppM σ κ α := do
  openStore
  onStore p

/-- A computation whose store failures become a notice. -/
def noting (notice : StoreFailure → Notice) (act : AppM σ κ Unit) : AppM σ κ Unit :=
  tryCatch act fun
    | .store failure => report (notice failure)
    | failure => throw failure

end App

end ShortcutRelay
