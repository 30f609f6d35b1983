import ShortcutRelay.Scenario.Surroundings

/-!
# Playing scenarios

* `hostOf` : how scripted code is run, given how a step is taken;
* `playProgram` : one run of an intent in the event loop;
* `playStep`, `play` : a step, its steps inside being taken with a bound on how deep they lie.
-/

namespace ShortcutRelay.Scenario
open Protocol App

abbrev PlayM := AppM Surroundings Script

abbrev Player := Step → PlayM Answer

def around : PlayM Surroundings :=
  return (← get).around

def change (f : Surroundings → Surroundings) : PlayM Unit :=
  modify fun w => { w with around := f w.around }

def record (c : Call) : PlayM Unit :=
  change fun s => { s with calls := s.calls ++ [c] }

/-- A computation whose failure is part of its result. -/
def attempt {α : Type} (act : PlayM α) : PlayM (Except Failure α) :=
  ExceptT.lift act.run

/-! ## Scripted code -/

/-- Whether an action is still to be done; from then on it counts as done. -/
def claim (once : Option String) : PlayM Bool := do
  match once with
  | none => return true
  | some label =>
    if (← around).spent.contains label then return false
    else
      change fun s => { s with spent := label :: s.spent }
      return true

/-- Does actions in order. If one of them waits, the actions that are left are the result. -/
def runActions (player : Player) (respond : Option String → PlayM Unit) :
    List (Action Step) → PlayM (Option (List (Action Step)))
  | [] => return none
  | a :: rest => do
    if ← claim a.once then
      match a.act with
      | .respond message =>
        respond message
        runActions player respond rest
      | .raise message => throw (.raised message)
      | .pause 0 => runActions player respond rest
      | .pause (turns + 1) => return some (⟨.pause turns, none⟩ :: rest)
      | .step s =>
        record (.inner (← attempt (player s)))
        runActions player respond rest
    else runActions player respond rest

/-- Does the actions of code that nobody expects a reply from. -/
def runSilent (player : Player) (actions : List (Action Step)) : PlayM Unit :=
  discard (runActions player (fun _ => return ()) actions)

def runListener (player : Player) (name : String) (i : Invocation) (isNew : Bool)
    (actions : List (Action Step)) : PlayM (Option Script) := do
  if isNew then record (.listener name i)
  let rest ← runActions player (Manager.respond i.nonce) actions
  return rest.map (.listener name i false)

/-- The number of tasks that one run of the event loop works off. -/
def turnLimit : Nat :=
  1000000

/-- How scripted code is run. -/
def hostOf (player : Player) : Host Surroundings Script where
  observe code name := do
    if let .observer tag actions := code then
      record (.observer tag name)
      runSilent player actions
  deliver code command := do
    if let .callback tag actions := code then
      record (.callback tag command)
      runSilent player actions
  call name i := do
    match (← around).listeners.lookup name with
    | none => return none
    | some l =>
      if l.mayWait then return some (.listener name i true l.actions)
      else
        discard (runListener player name i true l.actions)
        return none
  resume code := do
    match code with
    | .listener name i isNew actions => runListener player name i isNew actions
    | _ => return none
  turns := turnLimit

/-! ## The event loop -/

/-- Works off one task. What a command that was queued leads to is nobody's failure. -/
def runTask (host : Host Surroundings Script) : Task Script → PlayM Unit
  | .deliver callback command => discard (attempt (deliver host callback command))
  | .resume code => do
    if let some code ← resume host code then
      modify fun w => { w with ready := w.ready ++ [Task.resume code] }
  | .main => return ()

/-- Works off the ready queue up to the turn of the intent, or until it is empty. -/
def awaitTurn (host : Host Surroundings Script) : Nat → PlayM Unit
  | 0 => throw .exhausted
  | turns + 1 => do
    match (← get).ready with
    | [] => return ()
    | task :: rest =>
      modify fun w => { w with ready := rest }
      match task with
      | .main => return ()
      | task =>
        runTask host task
        awaitTurn host turns

def giveWay (host : Host Surroundings Script) : PlayM Unit := do
  modify fun w => { w with ready := w.ready ++ [Task.main] }
  awaitTurn host turnLimit

/-- A computation while the event loop runs; in the end the loop works off its queue. -/
def inLoop {α : Type} (host : Host Surroundings Script) (act : PlayM α) : PlayM α := do
  modify fun w => { w with running := true }
  let result ← attempt act
  discard (attempt (awaitTurn host turnLimit))
  modify fun w => { w with running := false }
  MonadExcept.ofExcept result

/-! ## Intents -/

def playAll (player : Player) : List Step → PlayM (List (Except Failure Answer))
  | [] => return []
  | s :: rest => do
    let outcome ← attempt (player s)
    return outcome :: (← playAll player rest)

structure Progress where
  report : RunReport (Except Failure Answer)
  confirmations : Option (List Confirmation) := none

def Progress.start (confirmations : Option (List Confirmation)) : Progress where
  report := ⟨[], [], [], 0, 0.0⟩
  confirmations := confirmations

/-- The answer to a question for a confirmation, and how the run goes on. Where nobody is asked,
or the answers are used up, the answer is yes. -/
def answerConfirmation (message : String) (p : Progress) : Except Failure Bool × Progress :=
  let seen := { p with report.confirmations := p.report.confirmations ++ [message] }
  match p.confirmations with
  | none => (.ok true, p)
  | some [] => (.ok true, seen)
  | some (c :: rest) =>
    let p := { seen with confirmations := some rest }
    match c with
    | .answer given => (.ok given, p)
    | .cancel => (.error (.declined "cancelled by user"), p)
    | .fail => (.error (.raised "confirmer failed"), p)

/-- Sleeps: the clock goes on, the events of this sleep happen, and everybody else has a turn. -/
def sleep (player : Player) (events : List (Event Step)) (seconds : Float) (p : Progress) :
    PlayM Progress := do
  change fun s => { s with now := s.now + seconds }
  let sleeps := p.report.sleeps + 1
  let steps := (events.filter (·.sleep == sleeps)).flatMap (·.steps)
  let outcomes ← playAll player steps
  giveWay (hostOf player)
  return { p with report.sleeps := sleeps, report.events := p.report.events ++ outcomes }

def nonceText (n : Nat) : String :=
  "NONCE-" ++ toString n

def playProgram {α : Type} (player : Player) (run : Run Step) :
    Program intentInterface α → Progress → PlayM (α × Progress)
  | .done result, p => return (result, p)
  | .ask .open next, p => do
    playProgram player run (next (← attempt openStore)) p
  | .ask (.store r) next, p => do
    playProgram player run (next (← attempt (onBackend (Backend.answer r)))) p
  | .ask (.ask parameter prompt) next, p => do
    let answer := ((run.answers.getD []).lookup parameter.name).getD .null
    playProgram player run (next answer)
      { p with report.prompts := p.report.prompts ++ [(parameter.name, prompt)] }
  | .ask (.confirm message) next, p => do
    let (answer, p) := answerConfirmation message p
    playProgram player run (next answer) p
  | .ask (.post name) next, p => do
    discard (post (hostOf player) name)
    playProgram player run (next ()) p
  | .ask .clock next, p => do
    playProgram player run (next (← around).now) p
  | .ask .wallClock next, p => do
    playProgram player run (next (← around).wallClock) p
  | .ask (.sleep seconds) next, p => do
    let p ← sleep player run.events seconds p
    playProgram player run (next ()) p
  | .ask .newNonce next, p => do
    change fun s => { s with nonces := s.nonces + 1 }
    playProgram player run (next (nonceText (← around).nonces)) p
  | .ask (.report notice) next, p => do
    report notice
    playProgram player run (next ()) p

/-- Runs the program of an intent as a task of the event loop, with what was seen of it. -/
def playIntent {α : Type} (player : Player) (run : Run Step) (program : IntentM α) :
    PlayM (Except Failure α × RunReport (Except Failure Answer)) :=
  let host := hostOf player
  inLoop host do
    giveWay host
    let (result, p) ← playProgram player run program.run (.start run.confirmations)
    return (result, { p.report with now := (← around).now })

/-- The localized text of a key, or one that shows the key where there is none. -/
def localized (texts : List (String × String)) (key default : String) : String :=
  (texts.lookup key).getD ("<" ++ key ++ ">" ++ default)

def runnerOf (shortcut : Shortcut) (run : Run Step) : Runner where
  shortcut := shortcut
  asks := run.answers.isSome
  useLocalization := run.useLocalization
  localize := (run.texts.map localized).getD fun _ default => default
  timeout := run.timeout
  interval := run.interval

end ShortcutRelay.Scenario
