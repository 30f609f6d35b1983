import ShortcutRelay.App.Dispatch
import ShortcutRelay.Proofs.Fallible

/-!
# A look for a command, whatever keeps the store

* `run_onBackend` : a computation on what surrounds the application;
* `run_round_own`, `run_round_finish`, `run_runAlone_ok`, `run_schedule_alone` : a listener that waits,
  in a loop of its own;
* `run_deliver_decoded`, `run_deliver_undecoded` : a command that the manager gets;
* `run_invoke`, `run_invoke_nobody` : the listeners are called, if there are any;
* `run_unlessUnreachable_ok`, `run_unlessUnreachable_error` : a computation whose store may fail;
* `attend_without_callback` : a look of a bridge without a callback;
* `attend_nothing`, `attend_failed`, `attend_unreadable`, `attend_found` : a look of a bridge with one,
  by what it collects;
* `post_bridge` : a notification that only the bridge observes.
-/

namespace ShortcutRelay.App
open Protocol

variable {σ κ : Type} {w v u : World σ κ}

theorem run_unlessUnreachable_ok {α : Type} {act : AppM σ κ (Option α)} {a : Option α}
    (h : act.run w = (.ok a, v)) : (unlessUnreachable act).run w = (.ok a, v) := by
  unfold unlessUnreachable
  rw [Fallible.run_tryCatch, h]

theorem run_unlessUnreachable_error {α : Type} {act : AppM σ κ (Option α)} {e : Failure}
    (h : act.run w = (.error e, v)) : ∃ result notices,
    (unlessUnreachable act).run w = (result, { v with notices := v.notices ++ notices }) ∧
      ∀ a, result ≠ .ok (some a) := by
  unfold unlessUnreachable
  rw [Fallible.run_tryCatch, h]
  simp only
  split
  · next failure => exact ⟨.ok none, [.commandUnreachable failure], rfl, nofun⟩
  · refine ⟨.error e, [], ?_, nofun⟩
    rw [List.append_nil]
    rfl

theorem run_onBackend {α : Type} {act : BackendM σ α} {result : Except Failure α} {around : σ}
    (h : act.run w.around = (result, around)) :
    (onBackend act : AppM σ κ α).run w = (result, { w with around }) := by
  change ((act.run w.around).1, { w with around := (act.run w.around).2 }) = _
  rw [h]

/-! ## Listeners that wait -/

section Loops

variable (host : Host σ κ) {code : κ} {left : Option κ}

/-- A round with nothing but the listener's turn: it queues its next turn, or the end of the loop. -/
theorem run_round_own (own : w.inner = some [.own code])
    (resumed : (resume host code).run { w with inner := some [] } = (.ok left, v))
    (empty : v.inner = some []) (n : Nat) : (runRounds host (n + 1)).run w =
      (runRounds host n).run { v with inner := some [(left.map .own).getD .finish] } := by
  have took : (runInside host (.own code)).run { w with inner := some [] } =
      (.ok false, { v with inner := some [(left.map .own).getD .finish] }) := by
    unfold runInside
    rw [Fallible.run_bind_ok resumed]
    change (Except.ok false, { v with inner := v.inner.map (· ++ [_]) }) = _
    rw [empty]
    rfl
  have rounded : (runRound host [.own code]).run { w with inner := some [] } =
      (.ok false, { v with inner := some [(left.map .own).getD .finish] }) := by
    unfold runRound
    rw [Fallible.run_bind_ok took]
    rfl
  rw [runRounds, Fallible.run_bind_ok (Fallible.run_get w), own]
  simp only [Option.getD_some]
  rw [Fallible.run_bind_ok (Fallible.run_modify ..), Fallible.run_bind_ok rounded]
  rfl

/-- A round with nothing but the end of the loop. -/
theorem run_round_finish (finished : w.inner = some [.finish]) (n : Nat) :
    (runRounds host (n + 1)).run w = (.ok (), { w with inner := some [] }) := by
  rw [runRounds, Fallible.run_bind_ok (Fallible.run_get w), finished]
  rfl

theorem run_runAlone_ok
    (ran : (runRounds host host.turns).run { w with inner := some [.own code] } = (.ok (), v)) :
    (runAlone host code).run w = (.ok (), { v with inner := none }) := by
  unfold runAlone
  rw [Fallible.run_bind_ok (Fallible.run_modify ..)]
  exact Fallible.run_tryFinally_ok ran (Fallible.run_modify ..)

theorem run_schedule_alone (idle : w.inner = none) (stopped : w.running = false) (code : κ) :
    (schedule host code).run w = (runAlone host code).run w := by
  unfold schedule
  rw [Fallible.run_bind_ok (Fallible.run_get w), idle, stopped]
  rfl

end Loops

/-! ## Commands that the manager gets -/

section Deliveries

variable (host : Host σ κ) {command : Command} {i : Invocation}

theorem run_deliver_decoded (decoded : Invocation.ofCommand w.config command = .ok i) :
    (deliver host .manager command).run w = (invoke host i).run w := by
  refine (Fallible.run_bind_ok (Fallible.run_get w) _).trans ?_
  rw [decoded]

theorem run_deliver_undecoded {e : Calendar.CalendarError}
    (failed : Invocation.ofCommand w.config command = .error e) :
    (deliver host .manager command).run w = (.error (.calendar e), w) := by
  refine (Fallible.run_bind_ok (Fallible.run_get w) _).trans ?_
  rw [failed]
  rfl

theorem run_invoke {name : String} {names : List String}
    (listeners : w.manager.listeners = name :: names) (i : Invocation) :
    (invoke host i).run w = (callListeners host i (name :: names)).run w := by
  refine (Fallible.run_bind_ok (Fallible.run_get w) _).trans ?_
  rw [listeners]

theorem run_invoke_nobody (nobody : w.manager.listeners = []) (i : Invocation) :
    (invoke host i).run w = (.ok (), { w with notices := w.notices ++ [.nobodyListens] }) := by
  refine (Fallible.run_bind_ok (Fallible.run_get w) _).trans ?_
  rw [nobody]
  rfl

end Deliveries

/-! ## Looks for a command -/

variable [Backend σ]

theorem run_opened (opened : (openStore : AppM σ κ Unit).run w = (.ok (), v)) :
    (unlessUnreachable (some <$> openStore) : AppM σ κ (Option Unit)).run w = (.ok (some ()), v) := by
  apply run_unlessUnreachable_ok
  rw [map_eq_pure_bind, Fallible.run_bind_ok opened]
  rfl

variable (host : Host σ κ) {bridge : Bridge κ} {callback : Callback κ}

/-- A look with the store at hand ends for want of a callback or goes on to the command. -/
theorem attend_opened (opened : (openStore : AppM σ κ Unit).run w = (.ok (), v))
    (there : v.bridge = some bridge) :
    (attend host).run w = (do
      let some callback := bridge.callback | return none
      let some (command, cleared) ← unlessUnreachable (onStore collectCommand) | return none
      if !cleared then report .commandReplaced
      dispatch host bridge callback command
      return some command : AppM σ κ (Option Command)).run v := by
  unfold attend
  rw [Fallible.run_bind_ok (run_opened opened)]
  refine (Fallible.run_bind_ok (Fallible.run_get v) _).trans ?_
  rewrite [there]
  rfl

/-- Without a callback the command stays where it is. -/
theorem attend_without_callback (opened : (openStore : AppM σ κ Unit).run w = (.ok (), v))
    (there : v.bridge = some bridge) (uninstalled : bridge.callback = none) :
    (attend host).run w = (.ok none, v) := by
  rw [attend_opened host opened there, uninstalled]
  rfl

/-- With a callback the command that is pending is collected and handed over. -/
theorem attend_installed (opened : (openStore : AppM σ κ Unit).run w = (.ok (), v))
    (there : v.bridge = some bridge) (installed : bridge.callback = some callback) :
    (attend host).run w = (do
      let some (command, cleared) ← unlessUnreachable (onStore collectCommand) | return none
      if !cleared then report .commandReplaced
      dispatch host bridge callback command
      return some command : AppM σ κ (Option Command)).run v := by
  rw [attend_opened host opened there, installed]

theorem attend_nothing (opened : (openStore : AppM σ κ Unit).run w = (.ok (), v))
    (there : v.bridge = some bridge) (installed : bridge.callback = some callback)
    (collected : (onStore collectCommand : AppM σ κ (Option (Command × Bool))).run v = (.ok none, u)) :
    (attend host).run w = (.ok none, u) := by
  rw [attend_installed host opened there installed,
    Fallible.run_bind_ok (run_unlessUnreachable_ok collected)]
  rfl

/-- A look that fails changes nothing else; a failure of the store becomes a notice. -/
theorem attend_failed (opened : (openStore : AppM σ κ Unit).run w = (.ok (), v))
    (there : v.bridge = some bridge) (installed : bridge.callback = some callback) {e : Failure}
    (collected : (onStore collectCommand : AppM σ κ (Option (Command × Bool))).run v = (.error e, u)) :
    ∃ result notices, (attend host).run w = (result, { u with notices := u.notices ++ notices }) := by
  obtain ⟨result, notices, ran, nothing⟩ := run_unlessUnreachable_error collected
  rw [attend_installed host opened there installed, Fallible.run_bind, ran]
  rcases result with e | _ | found
  · exact ⟨_, notices, rfl⟩
  · exact ⟨_, notices, rfl⟩
  · exact absurd rfl (nothing found)

/-- A look that comes upon a number that fits no double raises it. -/
theorem attend_unreadable (opened : (openStore : AppM σ κ Unit).run w = (.ok (), v))
    (there : v.bridge = some bridge) (installed : bridge.callback = some callback) {e : NumberError}
    (collected : (onStore collectCommand : AppM σ κ (Option (Command × Bool))).run v =
      (.error (.number e), u)) :
    (attend host).run w = (.error (.number e), u) := by
  have raised : (unlessUnreachable (onStore collectCommand) : AppM σ κ (Option (Command × Bool))).run v =
      (.error (.number e), u) := by
    unfold unlessUnreachable
    rw [Fallible.run_tryCatch, collected]
    rfl
  rw [attend_installed host opened there installed]
  exact Fallible.run_bind_error raised _

/-- A command that was collected is handed over, with a notice where a newer one has replaced it. -/
theorem attend_found (opened : (openStore : AppM σ κ Unit).run w = (.ok (), v))
    (there : v.bridge = some bridge) (installed : bridge.callback = some callback)
    {command : Command} {cleared : Bool}
    (collected : (onStore collectCommand : AppM σ κ (Option (Command × Bool))).run v =
      (.ok (some (command, cleared)), u)) :
    (attend host).run w = (do dispatch host bridge callback command; return some command : AppM σ κ _).run
      { u with notices := u.notices ++ if cleared then [] else [.commandReplaced] } := by
  rw [attend_installed host opened there installed,
    Fallible.run_bind_ok (run_unlessUnreachable_ok collected)]
  cases cleared with
  | false => rfl
  | true =>
    rw [if_pos rfl, List.append_nil]
    rfl

/-- A notification makes the bridge look for a command; where the look fails, there is a notice. -/
theorem post_bridge (observed : w.center.observers commandNotification = [.bridge])
    {result : Except Failure (Option Command)} (looked : (attend host).run w = (result, v)) :
    ∃ n notices, (post host commandNotification).run w =
      (.ok n, { v with notices := v.notices ++ notices }) := by
  have notified : (notify host commandNotification .bridge).run w = (result.map fun _ => (), v) := by
    change (attend host >>= fun _ => pure ()).run w = _
    rw [Fallible.run_bind, looked]
    cases result <;> rfl
  have served : ∃ n notices, (tryCatch (do
        notify host commandNotification .bridge
        return 1) fun failure => do
      report (.observerFailed commandNotification failure)
      return 0 : AppM σ κ Nat).run w = (.ok n, { v with notices := v.notices ++ notices }) := by
    rw [Fallible.run_tryCatch, Fallible.run_bind, notified]
    cases result with
    | ok _ =>
      refine ⟨1, [], ?_⟩
      rw [List.append_nil]
      rfl
    | error e => exact ⟨0, [.observerFailed commandNotification e], rfl⟩
  obtain ⟨n, notices, ran⟩ := served
  refine ⟨n, notices, ?_⟩
  unfold post
  rw [Fallible.run_bind_ok (Fallible.run_get w), observed]
  unfold notifyAll
  rw [Fallible.run_bind_ok ran]
  rfl

end ShortcutRelay.App
