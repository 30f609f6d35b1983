import ShortcutRelay.Proofs.App.Registry
import ShortcutRelay.Proofs.Company.Listening
import ShortcutRelay.Proofs.Protocol.Pending

/-!
# Commands while listeners come and go

The manager counts as registered while it has listeners, and the callback that it has installed in
the bridge stays there. So once there was a listener, every notification takes the command out of
the store, whether anybody listens or not; a listener that comes first takes it as well.

* `Act`, `step`, `after` : listeners, commands and notifications in any order;
* `Regular` : how the listeners, the registration and the callback belong together, `regular_after` :
  they do at all times;
* `pending_command_fate` : what becomes of a command that is pending;
* `unheard_command_is_lost` : it can be lost without a call.
-/

namespace ShortcutRelay.Company
open Protocol App

/-- What happens to an application whose bridge is started. -/
inductive Act
  | enlist (name : String)
  | unsubscribe (place : Nat)
  | cleanup (keys : Option (List String))
  | publish (d : Draft)
  | notify

/-- Whether a listener comes. -/
def Act.enlists : Act → Bool
  | .enlist _ => true
  | _ => false

/-- An application, and the subscriptions that its listeners got. -/
structure Lobby where
  hall : Hall
  subscriptions : List Subscription := []

def step (conduct : Conduct) : Act → Lobby → Lobby
  | .enlist name, l =>
    let (result, hall) := (Manager.enlist (hostOf conduct) name).run l.hall
    match result with
    | .ok _ => { hall, subscriptions := l.subscriptions ++ [{ listener := name }] }
    | .error _ => { l with hall }
  | .unsubscribe place, l =>
    match l.subscriptions[place]? with
    | none => l
    | some s =>
      let (result, hall) := (s.remove : HallM Subscription).run l.hall
      match result with
      | .ok ended => { hall, subscriptions := l.subscriptions.set place ended }
      | .error _ => { l with hall }
  | .cleanup keys, l => { l with hall := ((Manager.cleanup keys : HallM Unit).run l.hall).2 }
  | .publish d, l => { l with hall := ((withStore d.write : HallM Unit).run l.hall).2 }
  | .notify, l => { l with hall := ((post (hostOf conduct) commandNotification).run l.hall).2 }

def after (conduct : Conduct) (acts : List Act) (l : Lobby) : Lobby :=
  acts.foldl (fun l act => step conduct act l) l

def opening (around : Exchange) (config : Option Config) (tracked : List String) : Lobby where
  hall := ((Bridge.start : HallM Unit).run
    { around, config, bridge := some {}, manager := { tracked } }).2

variable {conduct : Conduct} {w v : Hall} {enlisted : Bool}

/-! ## Listeners, registration and callback -/

/-- The manager is registered just while it has listeners, and its callback is installed once there
was one. -/
structure Regular (enlisted : Bool) (w : Hall) : Prop where
  bridge : ∃ token,
    w.bridge = some { callback := if enlisted then some .manager else none, token }
  observers : w.center.observers commandNotification = [.bridge]
  registered : w.manager.registered = !w.manager.listeners.isEmpty
  listened : w.manager.listeners ≠ [] → enlisted = true
  idle : Idle w

theorem Regular.aside (h : Regular enlisted w) (aside : Aside w v) : Regular enlisted v := by
  obtain ⟨bridge, observers, registered, listened, idle⟩ := h
  rw [aside.rest]
  exact ⟨bridge, observers, registered, listened, idle.outside, idle.stopped⟩

theorem regular_holding (h : Regular enlisted w) (c : Contents) : Regular enlisted (holding w c) :=
  ⟨h.bridge, h.observers, h.registered, h.listened, h.idle.outside, h.idle.stopped⟩

theorem regular_attended (h : Regular enlisted w) : Regular enlisted (attended w) := by
  unfold attended
  split
  · exact ⟨h.bridge, h.observers, h.registered, h.listened, h.idle.outside, h.idle.stopped⟩
  · exact regular_holding h _

theorem Regular.managed (h : Regular true w) : Managed w := by
  obtain ⟨token, there⟩ := h.bridge
  exact ⟨⟨_, there, rfl, rfl⟩, h.idle⟩

theorem regular_opening (around : Exchange) (config : Option Config) (tracked : List String) :
    Regular false (opening around config tracked).hall :=
  ⟨⟨some 1, rfl⟩, rfl, rfl, fun h => absurd rfl h, rfl, rfl⟩

/-! ## What each act does -/

/-- The world with a first listener, whom the bridge hands commands to. -/
def welcoming (name : String) (w : Hall) : Hall :=
  { w with
    manager := { w.manager with listeners := [name], registered := true }
    bridge := w.bridge.map fun b => { b with callback := some .manager } }

theorem regular_welcoming (h : Regular enlisted w) (name : String) : Regular true (welcoming name w) := by
  obtain ⟨token, there⟩ := h.bridge
  refine ⟨⟨token, ?_⟩, h.observers, rfl, fun _ => rfl, h.idle.outside, h.idle.stopped⟩
  rw [welcoming, there]
  rfl

/-- The first listener makes the bridge look for a command. -/
theorem run_enlist_first (patient : Patient conduct) (regular : Regular enlisted w)
    (nobody : w.manager.listeners = []) (name : String) :
    ∃ result v, (Manager.enlist (hostOf conduct) name).run w = (result, v) ∧
      Aside (attended (welcoming name w)) v := by
  obtain ⟨token, there⟩ := regular.bridge
  obtain ⟨result, v, looked, aside⟩ := run_attend patient (regular_welcoming regular name).managed
  have unregistered : w.manager.registered = false := by
    rw [regular.registered, nobody]
    rfl
  have bridged : w.bridge.isSome = true := by
    rw [there]
    rfl
  refine ⟨result.map fun _ => (), v, ?_, aside⟩
  rw [App.run_enlist_first (hostOf conduct) nobody unregistered bridged name]
  change (attend (hostOf conduct) >>= fun _ => pure ()).run (welcoming name w) = _
  rw [Fallible.run_bind, looked]
  cases result <;> rfl

/-- Listeners that come later only join. -/
theorem run_enlist_later (regular : Regular enlisted w) (somebody : w.manager.listeners ≠ [])
    (name : String) : (Manager.enlist (hostOf conduct) name).run w =
      (.ok (), { w with manager := w.manager.withListener name }) := by
  refine App.run_enlist_later (hostOf conduct) ?_ name
  rw [regular.registered, Bool.not_eq_true', List.isEmpty_eq_false_iff]
  exact somebody

theorem regular_joined (h : Regular enlisted w) (somebody : w.manager.listeners ≠ []) (name : String) :
    Regular enlisted { w with manager := w.manager.withListener name } := by
  have still : (w.manager.withListener name).listeners ≠ [] := by
    rw [Manager.withListener]
    split
    · exact somebody
    · exact List.append_ne_nil_of_left_ne_nil somebody _
  refine ⟨h.bridge, h.observers, ?_, fun _ => h.listened somebody, h.idle.outside, h.idle.stopped⟩
  rw [Manager.registered_withListener, h.registered, List.isEmpty_eq_false_iff.mpr somebody,
    List.isEmpty_eq_false_iff.mpr still]

theorem regular_left (h : Regular enlisted w) (name : String) :
    Regular enlisted { w with manager := w.manager.withoutListener name } := by
  have registered := Manager.registered_withoutListener h.registered name
  refine ⟨h.bridge, h.observers, registered, fun somebody => h.listened ?_, h.idle.outside, h.idle.stopped⟩
  rintro nobody
  change w.manager.listeners.erase name ≠ [] at somebody
  rw [nobody] at somebody
  exact somebody rfl

theorem run_clearKeys (keys : List String) (w : Hall) : (Manager.clearKeys keys : HallM Unit).run w =
    (.ok (), holding w ((keys.map stateEntry).foldl OrderedMap.erase w.around.contents)) := by
  induction keys generalizing w with
  | nil => rfl
  | cons key keys ih =>
    have first := run_withStore (Store.set (stateEntry key) .null) w
    rw [show Store.set (stateEntry key) .null = Store.remove (stateEntry key) from rfl, runOn_remove]
      at first
    unfold Manager.clearKeys
    rw [Fallible.run_bind_ok (show (Bridge.shareText (stateEntry key) .null : HallM Unit).run w = _ from
      first), ih]
    rfl

/-- The world without listeners, and with other contents and keys of the state. -/
def emptied (w : Hall) (c : Contents) (tracked : List String) : Hall :=
  { holding w c with manager := { tracked } }

/-- A cleanup drops the listeners and removes keys of the state. -/
theorem run_cleanup (keys : Option (List String)) (regular : Regular enlisted w) :
    ∃ removed tracked, (Manager.cleanup keys : HallM Unit).run w = (.ok (), emptied w
      ((List.map stateEntry removed).foldl OrderedMap.erase w.around.contents) tracked) := by
  have present : w.bridge.isSome = true := by
    obtain ⟨token, there⟩ := regular.bridge
    rw [there]
    rfl
  let dropped : Hall := { w with manager := { w.manager with listeners := [], registered := false } }
  have noted : (noting .stateNotCleared (Manager.clearKeys (keys.getD w.manager.tracked)) : HallM Unit).run
      dropped = (.ok (), holding dropped
        (((keys.getD w.manager.tracked).map stateEntry).foldl OrderedMap.erase w.around.contents)) := by
    unfold noting
    rw [Fallible.run_tryCatch, run_clearKeys]
  refine ⟨keys.getD w.manager.tracked, if keys.isNone then [] else w.manager.tracked, ?_⟩
  unfold Manager.cleanup
  rw [Fallible.run_bind_ok (run_update ..), Fallible.run_bind_ok (Fallible.run_get _)]
  simp only [present, if_true]
  rw [Fallible.run_bind_ok noted]
  cases keys <;> rfl

theorem regular_emptied (h : Regular enlisted w) (c : Contents) (tracked : List String) :
    Regular enlisted (emptied w c tracked) :=
  ⟨h.bridge, h.observers, rfl, fun somebody => absurd rfl somebody, h.idle.outside, h.idle.stopped⟩

/-! ## Looks for a command -/

/-- Whether an act makes the bridge look for a command and take it: a notification does once there
was a listener, and a listener does where there is none. -/
def looks (enlisted : Bool) (l : Lobby) : Act → Bool
  | .enlist _ => l.hall.manager.listeners.isEmpty
  | .notify => enlisted
  | _ => false

variable {l : Lobby} {act : Act}

theorem step_look (patient : Patient conduct) (regular : Regular enlisted l.hall)
    (look : looks enlisted l act = true) :
    ∃ w, Regular true w ∧ w.around = l.hall.around ∧ Aside (attended w) (step conduct act l).hall := by
  cases act with
  | enlist name =>
    have nobody : l.hall.manager.listeners = [] := List.isEmpty_iff.mp look
    obtain ⟨result, v, ran, aside⟩ := run_enlist_first patient regular nobody name
    refine ⟨welcoming name l.hall, regular_welcoming regular name, rfl, ?_⟩
    rw [step, ran]
    cases result <;> exact aside
  | notify =>
    obtain rfl : enlisted = true := look
    obtain ⟨result, v, looked, aside⟩ := run_attend patient regular.managed
    obtain ⟨n, notices, ran⟩ := post_bridge _ regular.observers looked
    refine ⟨l.hall, regular, rfl, ?_⟩
    rw [step, ran]
    exact aside_trans aside (aside_notices v _)
  | unsubscribe => cases look
  | cleanup => cases look
  | publish => cases look

/-- What becomes of the contents where other keys may be removed. -/
theorem pending_eraseStates {c : Contents} {command : Command} (h : Pending c command)
    (names : List String) : Pending ((names.map stateEntry).foldl OrderedMap.erase c) command := by
  induction names generalizing c with
  | nil => exact h
  | cons name names ih =>
    exact ih (pending_erase h (stateEntry_notMem name) (isParameterKey_stateEntry name))

/-- What happens without a look changes neither the pending command nor the calls. -/
theorem step_quiet (conduct : Conduct) (regular : Regular enlisted l.hall)
    (unwritten : ∀ d, act ≠ .publish d) (look : looks enlisted l act = false) :
    Regular (enlisted || act.enlists) (step conduct act l).hall ∧
      (step conduct act l).hall.around.called = l.hall.around.called ∧
      ∀ command, Pending l.hall.around.contents command →
        Pending (step conduct act l).hall.around.contents command := by
  cases act with
  | enlist name =>
    have somebody : l.hall.manager.listeners ≠ [] := List.isEmpty_eq_false_iff.mp look
    rw [step, run_enlist_later regular somebody, regular.listened somebody]
    rw [regular.listened somebody] at regular
    exact ⟨regular_joined regular somebody name, rfl, fun _ h => h⟩
  | unsubscribe place =>
    rw [show (Act.unsubscribe place).enlists = false from rfl, Bool.or_false, step]
    cases l.subscriptions[place]? with
    | none => exact ⟨regular, rfl, fun _ h => h⟩
    | some s =>
      simp only [run_remove]
      cases s.isActive with
      | true => exact ⟨regular_left regular s.listener, rfl, fun _ h => h⟩
      | false => exact ⟨regular, rfl, fun _ h => h⟩
  | cleanup keys =>
    obtain ⟨removed, tracked, ran⟩ := run_cleanup keys regular
    rw [show (Act.cleanup keys).enlists = false from rfl, Bool.or_false, step, ran]
    exact ⟨regular_emptied regular _ _, rfl, fun _ h => pending_eraseStates h removed⟩
  | publish d => exact absurd rfl (unwritten d)
  | notify =>
    obtain rfl : enlisted = false := look
    obtain ⟨token, there⟩ := regular.bridge
    obtain ⟨n, notices, ran⟩ := post_bridge (hostOf conduct) regular.observers
      (attend_without_callback _ (run_openStore l.hall) there rfl)
    rw [step, ran]
    exact ⟨regular.aside (aside_notices l.hall _), rfl, fun _ h => h⟩

theorem regular_step (patient : Patient conduct) (regular : Regular enlisted l.hall) (act : Act) :
    Regular (enlisted || act.enlists) (step conduct act l).hall := by
  by_cases written : ∃ d, act = .publish d
  · obtain ⟨d, rfl⟩ := written
    rw [show (Act.publish d).enlists = false from rfl, Bool.or_false, step, run_withStore]
    exact regular_holding regular _
  · cases look : looks enlisted l act with
    | false => exact (step_quiet conduct regular (fun d h => written ⟨d, h⟩) look).1
    | true =>
      obtain ⟨w, installed, -, aside⟩ := step_look patient regular look
      have installs : (enlisted || act.enlists) = true := by
        cases act with
        | enlist => exact Bool.or_true _
        | notify => exact (Bool.or_false _).trans look
        | unsubscribe => cases look
        | cleanup => cases look
        | publish => cases look
      rw [installs]
      exact (regular_attended installed).aside aside

theorem regular_after (patient : Patient conduct) (regular : Regular enlisted l.hall)
    (acts : List Act) : Regular (enlisted || acts.any Act.enlists) (after conduct acts l).hall := by
  induction acts generalizing l enlisted with
  | nil =>
    rw [List.any_nil, Bool.or_false]
    exact regular
  | cons act acts ih =>
    rw [List.any_cons, ← Bool.or_assoc]
    exact ih (regular_step patient regular act)

/-- A look takes a command that is pending and has every listener called who is there. -/
theorem taken_of_look (patient : Patient conduct) (regular : Regular enlisted l.hall)
    (look : looks enlisted l act = true) {command : Command}
    (pending : Pending l.hall.around.contents command) :
    NoCommand (step conduct act l).hall.around.contents ∧
      NoParameters (step conduct act l).hall.around.contents ∧
      (step conduct act l).hall.around.called =
        l.hall.around.called ++ callsOf (step conduct act l).hall command := by
  obtain ⟨w, -, around, aside⟩ := step_look patient regular look
  rw [← around] at pending ⊢
  have seen : attended w = calling (holding w (cleared w.around.contents)) (callsOf w command) := by
    rw [attended, runOn_collectCommand_pending pending]
  rw [seen] at aside
  refine ⟨aside.noCommand (noCommand_cleared _), aside.noParameters (noParameters_cleared _), ?_⟩
  rw [aside.rest]
  rfl

/-- What becomes of a command that is pending, whatever happened before: the bridge takes it at the
first listener, and at a notification once there was a listener, and it calls those who listen then.
Until then the command waits, and nobody is called. -/
theorem pending_command_fate (patient : Patient conduct) (around : Exchange) (config : Option Config)
    (tracked : List String) (acts : List Act) (act : Act) {command : Command}
    (pending : Pending (after conduct acts (opening around config tracked)).hall.around.contents command)
    (unwritten : ∀ d, act ≠ .publish d) :
    let lobby := after conduct acts (opening around config tracked)
    let next := (step conduct act lobby).hall
    if looks (acts.any Act.enlists) lobby act then
      NoCommand next.around.contents ∧ NoParameters next.around.contents ∧
        next.around.called = lobby.hall.around.called ++ callsOf next command
    else
      Pending next.around.contents command ∧ next.around.called = lobby.hall.around.called := by
  have regular := regular_after patient (regular_opening around config tracked) acts
  rw [Bool.false_or] at regular
  intro lobby next
  split
  · next look => exact taken_of_look patient regular look pending
  · next quiet =>
    obtain ⟨-, called, waits⟩ := step_quiet conduct regular unwritten
      (Bool.eq_false_iff.mpr quiet)
    exact ⟨waits command pending, called⟩

def arriving : Draft where
  identifier := "startTimer"
  nonce := "N1"

theorem patient_default : Patient {} := fun _ _ _ _ h => by cases h

/-- A command that is published waits, where nothing of another one is in the store. -/
theorem pending_published (conduct : Conduct) {d : Draft} {vs : List (String × StoredValue)}
    (unused : NoCommand l.hall.around.contents) (empty : NoParameters l.hall.around.contents)
    (distinct : (d.parameters.map Prod.fst).Nodup) (encodable : encodeAll d.parameters = .ok vs) :
    Pending (step conduct (.publish d) l).hall.around.contents (d.command vs) := by
  have written : (step conduct (.publish d) l).hall.around.contents =
      d.written vs l.hall.around.contents := by
    rw [step, run_withStore, runOn_write encodable]
    rfl
  rw [written]
  exact runOn_readCommand_alone unused empty distinct encodable

theorem pending_command_fate_first_listener :
    Patient {} ∧
      Pending (after {} [.publish arriving] (opening { contents := {} } none [])).hall.around.contents
        (arriving.command []) ∧
      (∀ d, Act.enlist "first" ≠ .publish d) ∧
      let lobby := after {} [.publish arriving] (opening { contents := {} } none [])
      let next := (step {} (.enlist "first") lobby).hall
      if looks ([.publish arriving].any Act.enlists) lobby (.enlist "first") then
        NoCommand next.around.contents ∧ NoParameters next.around.contents ∧
          next.around.called = lobby.hall.around.called ++ callsOf next (arriving.command [])
      else
        Pending next.around.contents (arriving.command []) ∧
          next.around.called = lobby.hall.around.called := by
  have pending : Pending
      (after {} [.publish arriving] (opening { contents := {} } none [])).hall.around.contents
        (arriving.command []) :=
    pending_published {} (fun _ _ => rfl) (fun _ _ => rfl) (by decide) rfl
  exact ⟨patient_default, pending, nofun,
    pending_command_fate patient_default { contents := {} } none [] [.publish arriving]
      (.enlist "first") pending nofun⟩

/-- An application whose only listener has left, and a command that came then. -/
def deserted : Lobby :=
  after {} [.enlist "first", .unsubscribe 0, .publish arriving]
    (opening { contents := .empty } none [])

theorem called_deserted : (step {} .notify deserted).hall.around.called = [] := by
  rfl

theorem contents_deserted : (step {} .notify deserted).hall.around.contents = {} := by
  rfl

/-- A notification can take a command from the store without anybody being called: the callback is
still there after the last listener has left. -/
theorem unheard_command_is_lost :
    ¬ ∀ (conduct : Conduct) (around : Exchange) (config : Option Config) (tracked : List String)
      (acts : List Act) (command : Command), Patient conduct →
      Pending (after conduct acts (opening around config tracked)).hall.around.contents command →
      let next := (step conduct .notify (after conduct acts (opening around config tracked))).hall
      ¬ Pending next.around.contents command →
        ∃ name i, (name, i) ∈ next.around.called ∧ i.nonce = command.nonce := by
  intro claim
  have pending : Pending deserted.hall.around.contents (arriving.command []) :=
    pending_published {} (fun _ _ => rfl) (fun _ _ => rfl) (by decide) rfl
  -- The callback outlives the listener, so the notification finds somebody to give the command to.
  have lost : ¬ Pending (step {} .notify deserted).hall.around.contents (arriving.command []) := by
    intro still
    have read := still.texts.1
    rw [contents_deserted] at read
    cases read
  obtain ⟨name, i, called, -⟩ := claim {} { contents := {} } none []
    [.enlist "first", .unsubscribe 0, .publish arriving] (arriving.command []) patient_default
    pending lost
  have nobody : (name, i) ∈ ([] : List (String × Invocation)) := called_deserted ▸ called
  cases nobody

end ShortcutRelay.Company
