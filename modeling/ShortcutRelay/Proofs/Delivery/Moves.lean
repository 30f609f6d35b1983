import ShortcutRelay.App.Bridge
import ShortcutRelay.Proofs.Delivery.Attend
import ShortcutRelay.Proofs.Protocol.Succession

/-!
# Runs of an application among intents

* `Move` : one step of an application or of the intents around it, a callback being a list of
  moves that is made when a command arrives;
* `step`, `react`, `after` : what moves do, `opening` : where a run begins;
* `timesHanded` : how often a nonce was handed over, at once or through the queue;
* `Account` : what a run can be held to.
-/

namespace ShortcutRelay.Delivery
open Protocol App

/-- One step of an application or of the intents around it. -/
inductive Move
  | publish (d : Draft)
  | notify
  | register (reaction : List Move)
  | start
  | stop
  | fault (plan : Nat → Option StoreFailure)
  | advance (i : Nat)
  | turn
  | raise

/-- Computations of an application whose callbacks are lists of moves. -/
abbrev MoveM := AppM Workplace (List Move)

/-- Publishes a command without an interruption, unless its nonce is taken. -/
def publish (w : Workplace) (d : Draft) : Workplace :=
  if d.nonce ∈ w.used then w
  else
    match runOn d.write w.traffic.contents with
    | (.ok _, c) => { w with
        traffic := { w.traffic with contents := c }
        used := d.nonce :: w.used
        published := w.published ++ [d] }
    | (.error _, c) => { w with
        traffic := { w.traffic with contents := c }
        used := d.nonce :: w.used }

def change (f : Workplace → Workplace) : MoveM Unit :=
  modify fun w => { w with around := f w.around }

/-- A callback notes that a command has reached it and makes its moves. -/
def hostOf (player : List Move → MoveM Unit) : Host Workplace (List Move) where
  observe _ _ := return ()
  deliver reaction command := do
    change fun w => { w with received := w.received ++ [command] }
    player reaction
  call _ _ := return none
  resume _ := return none
  turns := 0

def nextTurn (player : List Move → MoveM Unit) : MoveM Unit := do
  match (← get).ready with
  | .deliver callback command :: rest =>
    modify fun w => { w with ready := rest }
    deliver (hostOf player) callback command
  | _ => return ()

/-- What a move does, given what the moves of a callback do. -/
def step (player : List Move → MoveM Unit) : Move → MoveM Unit
  | .publish d => change (publish · d)
  | .notify => discard (App.post (hostOf player) commandNotification)
  | .register reaction => Bridge.setCallback (hostOf player) (.custom reaction)
  | .start => Bridge.start
  | .stop => Bridge.stop
  | .fault plan => change fun w => { w with faults := plan }
  | .advance i => change fun w => { w with traffic := w.traffic.advance i }
  | .turn => nextTurn player
  | .raise => throw (.raised "callback failed")

def steps (player : List Move → MoveM Unit) : List Move → MoveM Unit
  | [] => return ()
  | m :: ms => do
    step player m
    steps player ms

/-- The moves of callbacks; callbacks lie at most `depth` deep inside each other. -/
def react : Nat → List Move → MoveM Unit
  | 0, _ => throw .exhausted
  | depth + 1, ms => steps (react depth) ms

/-- The world after moves in order; a move that fails does not stop the ones behind it. -/
def after (depth : Nat) (ms : List Move) (w : World Workplace (List Move)) :
    World Workplace (List Move) :=
  ms.foldl (fun w m => ((step (react depth) m).run w).2) w

/-- The world before any move: a store with some contents, a bridge without a callback, and intents
with the number of times each looks for its reply. -/
def opening (queued : Bool) (c : Contents) (intents : List (Draft × Nat))
    (turns : Nat → List Nat) : World Workplace (List Move) where
  around := {
    traffic := ⟨c, intents.map fun i => (i.1.perform i.2).run⟩
    turns
    used := (textAt c commandNonce).toOption.join.toList ++ intents.map (·.1.nonce) }
  bridge := some { queued }

/-! ## Counting -/

variable {κ : Type}

def taskNonce? : Task κ → Option String
  | .deliver _ command => some command.nonce
  | _ => none

/-- How often a nonce was handed over: to a callback, or to the queue where it still waits. -/
def timesHanded (w : World Workplace κ) (nonce : String) : Nat :=
  (w.around.received.map Command.nonce).count nonce + (w.ready.filterMap taskNonce?).count nonce

/-- What the store holds, which nonces are taken, what was published and how often each nonce was
handed over. -/
structure Account where
  traffic : Traffic
  used : List String
  published : List Draft
  times : String → Nat

def account (w : World Workplace κ) : Account :=
  ⟨w.around.traffic, w.around.used, w.around.published, timesHanded w⟩

/-- The account with a nonce handed over once more. -/
def Account.plus (a : Account) (nonce : String) : Account :=
  { a with times := fun n => a.times n + if n = nonce then 1 else 0 }

theorem times_plus (a : Account) (nonce n : String) :
    (a.plus nonce).times n = a.times n + if n = nonce then 1 else 0 := rfl

/-- A world that differs from another one in a nonce that was handed over once more. -/
theorem account_eq_plus {v w : World Workplace κ} {nonce : String}
    (traffic : v.around.traffic = w.around.traffic) (used : v.around.used = w.around.used)
    (published : v.around.published = w.around.published)
    (counted : ∀ n, timesHanded v n = timesHanded w n + [nonce].count n) :
    account v = (account w).plus nonce := by
  unfold account Account.plus
  rw [traffic, used, published]
  refine congrArg (Account.mk _ _ _) (funext fun n => ?_)
  rw [counted, List.count_singleton]
  by_cases same : n = nonce
  · rw [same]
    simp
  · have other : ¬ nonce = n := fun e => same e.symm
    simp [same, other]

end ShortcutRelay.Delivery
