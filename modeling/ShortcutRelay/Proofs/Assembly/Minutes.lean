import ShortcutRelay.App.Manager
import ShortcutRelay.Proofs.App.Attend
import ShortcutRelay.Proofs.Protocol.Pending
import ShortcutRelay.Proofs.Store.Steady

/-!
# Listeners that change the registry while they are called

* `Minutes` : the store of an application, with a record of the calls, the commands that were written
  and the attempts to add a listener;
* `Motion`, `move` : what is done with an application, by its own code or from outside;
* `Conduct`, `hostOf` : how its listeners behave, given how a motion is made;
* `player` : a motion, those that listeners make inside lying at most so deep;
* `Act`, `opening`, `after` : what happens to an application, from its beginning on.
-/

namespace ShortcutRelay.Assembly
open Protocol App

/-! ## What is on record -/

/-- A call of a listener, with what the store held then. -/
structure Call where
  listener : String
  invocation : Invocation
  found : Contents

/-- An attempt to add a listener: the listeners that there were and what the store held, how it ended
and what the store held then, and the calls that were made and the nonces that were written in
between. -/
structure Admission where
  listener : String
  present : List String
  found : Contents
  result : Except Failure Unit
  left : Contents
  calls : List Call
  written : List String

/-- The store of an application, with a record of what happened to it: the calls of listeners, the
nonces that intents wrote, the subscriptions, the attempts to add a listener, and the registry as
it was when each motion began. -/
structure Minutes where
  contents : Contents
  called : List Call := []
  written : List String := []
  subscriptions : List Subscription := []
  admissions : List Admission := []
  seen : List Manager := []

instance : Backend Minutes where
  obtain := pure ()
  load := do return (← get).contents
  save c := modify fun m => { m with contents := c }

def Minutes.holding (m : Minutes) (c : Contents) : Minutes :=
  { m with contents := c }

theorem steady : Backend.Steady (fun (m : Minutes) c => m.contents = c) Minutes.holding where
  load h := by
    subst h
    rfl
  save _ _ := rfl
  enter _ := rfl
  leave _ := rfl
  textRead _ _ := rfl
  held _ _ := rfl
  unchanged h := by
    subst h
    rfl
  again _ _ _ := rfl

/-! ## What is done -/

/-- What is done with an application: a listener is added, a subscription ended, all is cleaned up,
an invocation answered; an intent writes a command, or it announces one. -/
inductive Motion
  | enlist (name : String)
  | unsubscribe (place : Nat)
  | cleanup (keys : Option (List String))
  | respond (nonce : String) (message : Option String)
  | publish (d : Draft)
  | notify

/-- What a listener does without waiting: it makes motions, whatever becomes of them, and in the end
it may fail. -/
structure Turn where
  motions : List Motion := []
  failure : Option Failure := none

/-- How a listener takes an invocation: at once, or in turns of the event loop. -/
inductive Manner
  | atOnce (turn : Turn)
  | inTurns (turns : List Turn)

/-- How the listeners of an application behave, which may depend on all that has happened. `patience` is
how many rounds the loop of one listener may take, and no listener takes more turns than fit in. -/
structure Conduct where
  listen : Minutes → String → Invocation → Manner
  patience : Nat := 2
  patient : ∀ m name i turns, listen m name i = .inTurns turns → turns.length + 2 ≤ patience

/-- The world of such an application. A listener that waits is the list of its turns. -/
abbrev Room := World Minutes (List Turn)

abbrev RoomM := AppM Minutes (List Turn)

/-- How motions are made. -/
abbrev Player := Motion → RoomM Unit

def change (f : Minutes → Minutes) : RoomM Unit :=
  modify fun w => { w with around := f w.around }

def makeAll (player : Player) : List Motion → RoomM Unit
  | [] => return ()
  | m :: ms => do
    tryCatch (player m) fun _ => return ()
    makeAll player ms

def take (player : Player) (t : Turn) : RoomM Unit := do
  makeAll player t.motions
  if let some failure := t.failure then throw failure

/-- Takes an invocation; the turns of a listener that has to wait are the result. -/
def heed (player : Player) : Manner → RoomM (Option (List Turn))
  | .atOnce turn => do
    take player turn
    return none
  | .inTurns turns => return some turns

/-- Runs the listeners of an application, given how motions are made. -/
def hostOf (conduct : Conduct) (player : Player) : Host Minutes (List Turn) where
  observe _ _ := return ()
  deliver _ _ := return ()
  call name i := do
    let manner := conduct.listen (← get).around name i
    change fun m => { m with called := m.called ++ [⟨name, i, m.contents⟩] }
    heed player manner
  resume
    | [] => return none
    | turn :: turns => do
      take player turn
      return some turns
  turns := conduct.patience

/-- The record of an attempt to add a listener between two states of the world. -/
def admission (name : String) (result : Except Failure Unit) (w v : Room) : Admission where
  listener := name
  present := w.manager.listeners
  found := w.around.contents
  result := result
  left := v.around.contents
  calls := v.around.called.drop w.around.called.length
  written := v.around.written.drop w.around.written.length

/-- Adds a listener and puts it on record. Who succeeds gets a subscription. -/
def join (host : Host Minutes (List Turn)) (name : String) : RoomM Unit :=
  ExceptT.mk fun w =>
    let (result, v) := (Manager.enlist host name).run w
    let gained := if result.isOk then [{ listener := name : Subscription }] else []
    (result, { v with around := { v.around with
      subscriptions := v.around.subscriptions ++ gained
      admissions := v.around.admissions ++ [admission name result w v] } })

def unsubscribe (place : Nat) : RoomM Unit := do
  match (← get).around.subscriptions[place]? with
  | none => return ()
  | some s =>
    let s ← s.remove
    change fun m => { m with subscriptions := m.subscriptions.set place s }

def publish (d : Draft) : RoomM Unit := do
  change fun m => { m with written := m.written ++ [d.nonce] }
  withStore d.write

def move (host : Host Minutes (List Turn)) : Player
  | .enlist name => join host name
  | .unsubscribe place => unsubscribe place
  | .cleanup keys => Manager.cleanup keys
  | .respond nonce message => Manager.respond nonce message
  | .publish d => publish d
  | .notify => discard (post host commandNotification)

/-- Puts the registry on record. -/
def look : RoomM Unit :=
  modify fun w => { w with around := { w.around with seen := w.around.seen ++ [w.manager] } }

/-- Makes a motion; the motions of listeners that are called meanwhile lie at most `depth` deep. -/
def player (conduct : Conduct) : Nat → Player
  | 0, _ => throw .exhausted
  | depth + 1, m => do
    look
    move (hostOf conduct (player conduct depth)) m

/-! ## What happens -/

/-- What happens to an application: a motion is made, or a listener that waits has its next turn. -/
inductive Act
  | motion (m : Motion)
  | turn

/-- The event loop works off the listener that has waited longest. -/
def workOff (host : Host Minutes (List Turn)) : RoomM Unit := do
  match (← get).ready with
  | .resume turns :: ready =>
    modify fun w => { w with ready }
    if let some turns ← resume host turns then
      modify fun w => { w with ready := w.ready ++ [Task.resume turns] }
  | _ => return ()

def act (conduct : Conduct) (depth : Nat) : Act → RoomM Unit
  | .motion m => player conduct depth m
  | .turn => workOff (hostOf conduct (player conduct depth))

def after (conduct : Conduct) (depth : Nat) (acts : List Act) (w : Room) : Room :=
  acts.foldl (fun w a => ((act conduct depth a).run w).2) w

/-- An application at its beginning, with a bridge that is started and hands commands over at once.
`running` says that an event loop runs, so that listeners who wait join its queue. -/
def opening (contents : Contents) (config : Option Config) (tracked : List String) (running : Bool) :
    Room :=
  ((Bridge.start : RoomM Unit).run
    { around := { contents }, bridge := some {}, manager := { tracked }, config, running }).2

/-! ## The store -/

def holding (w : Room) (c : Contents) : Room :=
  { w with around := w.around.holding c }

theorem run_onStore {α : Type} (p : StoreM α) (w : Room) : (onStore p : RoomM α).run w =
    ((runOn p w.around.contents).1, holding w (runOn p w.around.contents).2) :=
  run_onBackend (steady.run_program rfl p)

theorem run_openStore (w : Room) : (openStore : RoomM Unit).run w = (.ok (), w) :=
  rfl

theorem run_withStore {α : Type} (p : StoreM α) (w : Room) : (withStore p : RoomM α).run w =
    ((runOn p w.around.contents).1, holding w (runOn p w.around.contents).2) := by
  unfold withStore
  rw [Fallible.run_bind_ok (run_openStore w), run_onStore]

end ShortcutRelay.Assembly
