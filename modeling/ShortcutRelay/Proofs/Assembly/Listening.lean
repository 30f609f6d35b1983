import ShortcutRelay.Proofs.App.Invocation
import ShortcutRelay.Proofs.Assembly.Course

/-!
# Calls of listeners that change the registry

* `Behaves host` : what a host runs leads from a world in order to a later one;
* `run_runAlone` : a listener that has to wait runs to its end in a loop of its own, whoever joins
  that loop meanwhile;
* `run_callListeners_cons` : listeners are called in order whatever they do;
* `proceeds_attend`, `proceeds_post` : looks for a command and notifications lead to a later world;
* `run_attend_pending` : a look hands a command that is pending to the only listener.
-/

namespace ShortcutRelay.Assembly
open Protocol App

/-- What a host runs leads from a world in order to a later one, and a listener that waits has fewer
turns than the host is ready to give it. -/
structure Behaves (host : Host Minutes (List Turn)) : Prop where
  observe : ∀ code name, Proceeds (host.observe code name)
  deliver : ∀ code command, Proceeds (host.deliver code command)
  call : ∀ name i w, Orderly w → Later (calling name i w) ((host.call name i).run w).2
  patient : ∀ name i w turns, ((host.call name i).run w).1 = .ok (some turns) →
    turns.length + 2 ≤ host.turns
  resume : ∀ turns, Proceeds (host.resume turns)
  fewer : ∀ turns w rest, ((host.resume turns).run w).1 = .ok (some rest) →
    rest.length < turns.length

variable {host : Host Minutes (List Turn)} {w : Room}

/-! ## Loops of a listener -/

/-- A turn of a listener is used up, whatever happens in it. -/
theorem run_resume (behaves : Behaves host) (turns : List Turn) (orderly : Orderly w) : ∃ left v,
    (App.resume host turns).run w = (.ok left, v) ∧ Later w v ∧
      ∀ rest, left = some rest → rest.length < turns.length := by
  have later := (behaves.resume turns).later orderly
  have fewer := behaves.fewer turns w
  unfold App.resume
  rw [Fallible.run_tryCatch]
  generalize (host.resume turns).run w = outcome at later fewer ⊢
  rcases outcome with ⟨e | left, v⟩
  · exact ⟨none, _, rfl, later_trans later (later_notices later.orderly _), nofun⟩
  · refine ⟨left, v, rfl, later, fun rest there => fewer rest ?_⟩
    rw [there]

/-- The task ends its loop within some rounds. -/
def Ends (n : Nat) : InnerTask (List Turn) → Prop
  | .own turns => turns.length + 2 ≤ n
  | .other _ => False
  | .finish => 1 ≤ n

theorem later_wait (orderly : Orderly w) (task : InnerTask (List Turn)) :
    Later w { w with inner := w.inner.map (· ++ [task]) } :=
  later_aside orderly rfl rfl rfl rfl ⟨[task], rfl⟩

/-- What waits in a loop still waits later. -/
theorem Later.still_waiting {v : Room} (h : Later w v) {queue : List (InnerTask (List Turn))}
    (inner : w.inner = some queue) : ∃ more, v.inner = some (queue ++ more) := by
  obtain ⟨more, waiting⟩ := h.waiting
  refine ⟨more, ?_⟩
  rw [waiting, inner]
  rfl

/-- The task that ends a loop ends it, or queues one that does so sooner. -/
theorem run_runInside (behaves : Behaves host) (task : InnerTask (List Turn)) (orderly : Orderly w)
    {queue : List (InnerTask (List Turn))} (inner : w.inner = some queue) : ∃ ends v,
    (runInside host task).run w = (.ok ends, v) ∧ Later w v ∧
      ∀ n, Ends (n + 1) task → ends = true ∨ ∃ next ∈ v.inner.getD [], Ends n next := by
  cases task with
  | own turns =>
    obtain ⟨left, v, ran, later, fewer⟩ := run_resume behaves turns orderly
    obtain ⟨more, waiting⟩ := later.still_waiting inner
    let next := (left.map InnerTask.own).getD .finish
    refine ⟨false, _, Fallible.run_bind_ok ran _, later_trans later (later_wait later.orderly next),
      fun n ends => .inr ⟨next, ?_, ?_⟩⟩
    · change next ∈ (v.inner.map (· ++ [next])).getD []
      rw [waiting]
      exact List.mem_append_right _ List.mem_cons_self
    · unfold Ends at ends
      cases left with
      | none =>
        change 1 ≤ n
        omega
      | some rest =>
        have used := fewer rest rfl
        change rest.length + 2 ≤ n
        omega
  | other turns =>
    obtain ⟨left, v, ran, later, -⟩ := run_resume behaves turns orderly
    unfold runInside
    rw [Fallible.run_bind_ok ran]
    cases left with
    | none => exact ⟨false, v, rfl, later, fun _ never => never.elim⟩
    | some rest =>
      exact ⟨false, _, rfl, later_trans later (later_wait later.orderly _), fun _ never => never.elim⟩
  | finish => exact ⟨true, w, rfl, later_refl orderly, fun _ _ => .inl rfl⟩

/-- A round works off its tasks. One that ends the loop ends it or leaves one that does so sooner. -/
theorem run_runRound (behaves : Behaves host) (tasks : List (InnerTask (List Turn)))
    (orderly : Orderly w) {queue : List (InnerTask (List Turn))} (inner : w.inner = some queue) :
    ∃ ends v, (runRound host tasks).run w = (.ok ends, v) ∧ Later w v ∧
      ∀ n, (∃ task ∈ tasks, Ends (n + 1) task) →
        ends = true ∨ ∃ next ∈ v.inner.getD [], Ends n next := by
  induction tasks generalizing w queue with
  | nil =>
    refine ⟨false, w, rfl, later_refl orderly, ?_⟩
    rintro n ⟨task, none, -⟩
    cases none
  | cons task tasks ih =>
    obtain ⟨ends, v, first, later, progress⟩ := run_runInside behaves task orderly inner
    obtain ⟨more, waiting⟩ := later.still_waiting inner
    obtain ⟨ends', u, rest, later', progress'⟩ := ih later.orderly waiting
    obtain ⟨more', waiting'⟩ := later'.still_waiting waiting
    refine ⟨ends || ends', u, ?_, later_trans later later', ?_⟩
    · unfold runRound
      rw [Fallible.run_bind_ok first, Fallible.run_bind_ok rest]
      rfl
    · rintro n ⟨ending, there, soon⟩
      rcases List.mem_cons.mp there with rfl | there
      · rcases progress n soon with ended | ⟨next, queued, sooner⟩
        · exact .inl (by rw [ended, Bool.true_or])
        · refine .inr ⟨next, ?_, sooner⟩
          rw [waiting] at queued
          rw [waiting']
          exact List.mem_append_left _ queued
      · rcases progress' n ⟨ending, there, soon⟩ with ended | queued
        · exact .inl (by rw [ended, Bool.or_true])
        · exact .inr queued

def outside (w : Room) : Room :=
  { w with inner := none }

theorem Orderly.outside (h : Orderly w) : Orderly (outside w) :=
  ⟨h.consistent, h.bridge, h.admissions, h.seen⟩

/-- What happens in a listener's own loop happens to the world outside. -/
theorem later_outside {v : Room} (h : Later w v) : Later (outside w) (outside v) :=
  ⟨h.orderly.outside, h.config, ⟨[], rfl⟩, h.record⟩

theorem run_runRounds (behaves : Behaves host) (n : Nat) {tasks : List (InnerTask (List Turn))}
    (orderly : Orderly w) (inner : w.inner = some tasks) (enough : ∃ task ∈ tasks, Ends n task) :
    ∃ v, (runRounds host n).run w = (.ok (), v) ∧ Later (outside w) (outside v) := by
  induction n generalizing w tasks with
  | zero =>
    obtain ⟨task, -, never⟩ := enough
    cases task with
    | own => cases never
    | other => exact never.elim
    | finish => cases never
  | succ n ih =>
    let round : Room := { w with inner := some [] }
    have begun : Orderly round := ⟨orderly.consistent, orderly.bridge, orderly.admissions, orderly.seen⟩
    obtain ⟨ends, v, ran, later, progress⟩ := run_runRound behaves tasks begun
      (show round.inner = some [] from rfl)
    obtain ⟨queue, waiting⟩ := later.still_waiting (show round.inner = some [] from rfl)
    rw [List.nil_append] at waiting
    have began : (runRounds host (n + 1)).run w =
        (if !ends then runRounds host n else pure () : RoomM Unit).run v := by
      rw [runRounds, Fallible.run_bind_ok (Fallible.run_get w), inner]
      simp only [Option.getD_some]
      rw [Fallible.run_bind_ok (Fallible.run_modify ..), Fallible.run_bind_ok ran]
    rw [began]
    have first : Later (outside w) (outside v) := later_outside (w := round) later
    cases ends with
    | true => exact ⟨v, rfl, first⟩
    | false =>
      have sooner : ∃ task ∈ queue, Ends n task := by
        have queued := (progress n enough).resolve_left Bool.false_ne_true
        rwa [waiting] at queued
      obtain ⟨u, rest, later'⟩ := ih later.orderly waiting sooner
      exact ⟨u, rest, later_trans first later'⟩

/-- A listener that has to wait runs to its end in a loop of its own. -/
theorem run_runAlone (behaves : Behaves host) {turns : List Turn}
    (enough : turns.length + 2 ≤ host.turns) (orderly : Orderly w) (idle : w.inner = none) :
    ∃ v, (runAlone host turns).run w = (.ok (), v) ∧ Later w v := by
  let own : Room := { w with inner := some [.own turns] }
  have begun : Orderly own := ⟨orderly.consistent, orderly.bridge, orderly.admissions, orderly.seen⟩
  obtain ⟨v, ran, later⟩ := run_runRounds behaves host.turns begun rfl
    ⟨.own turns, List.mem_cons_self, enough⟩
  have before : outside own = w := by
    change { w with inner := none } = w
    rw [← idle]
  rw [before] at later
  exact ⟨outside v, run_runAlone_ok _ ran, later⟩

/-! ## Calls -/

theorem run_schedule (behaves : Behaves host) {turns : List Turn}
    (enough : turns.length + 2 ≤ host.turns) (orderly : Orderly w) :
    ∃ v, (schedule host turns).run w = (.ok (), v) ∧ Later w v := by
  unfold schedule
  rw [Fallible.run_bind_ok (Fallible.run_get w)]
  cases inner : w.inner with
  | some tasks => exact ⟨_, rfl, later_wait orderly (.other turns)⟩
  | none =>
    cases running : w.running with
    | true => exact ⟨_, rfl, later_aside orderly rfl rfl rfl rfl ⟨[], by rw [inner]; rfl⟩⟩
    | false => exact run_runAlone behaves enough orderly inner

/-- A listener is called, and then the others are, whatever it does. -/
theorem run_callListeners_cons (behaves : Behaves host) (i : Invocation) (name : String)
    (names : List String) (orderly : Orderly w) : ∃ v,
    (callListeners host i (name :: names)).run w = (callListeners host i names).run v ∧
      Later (calling name i w) v := by
  have later := behaves.call name i w orderly
  have patient := behaves.patient name i w
  rw [callListeners, Fallible.run_bind, Fallible.run_tryCatch]
  generalize (host.call name i).run w = outcome at later patient ⊢
  rcases outcome with ⟨e | waiting, v⟩
  · exact ⟨_, rfl, later_trans later (later_notices later.orderly _)⟩
  · cases waiting with
    | none => exact ⟨v, rfl, later⟩
    | some turns =>
      obtain ⟨u, scheduled, later'⟩ := run_schedule behaves (patient turns rfl) later.orderly
      exact ⟨u, Fallible.run_bind_ok scheduled _, later_trans later later'⟩

/-- Listeners may be called with a nonce that was in the store. -/
theorem keeps_callListeners (behaves : Behaves host) {u : Room} {i : Invocation}
    (found : textAt u.around.contents commandNonce = .ok (some i.nonce)) (names : List String) :
    Keeps (Later u) (callListeners host i names) := by
  induction names with
  | nil => exact keeps_pure ()
  | cons name names ih =>
    intro w later
    obtain ⟨v, called, after⟩ := run_callListeners_cons behaves i name names later.orderly
    rw [called]
    exact ih v (later_calling later.orderly found later name after)

/-- A command that was in the store may be handed over. -/
theorem keeps_deliver (behaves : Behaves host) {u : Room} (callback : Callback (List Turn))
    {command : Command} (found : textAt u.around.contents commandNonce = .ok (some command.nonce)) :
    Keeps (Later u) (deliver host callback command) := by
  cases callback with
  | custom code => exact behaves.deliver code command u
  | manager =>
    intro w later
    cases decoded : Invocation.ofCommand w.config command with
    | error e =>
      rw [run_deliver_undecoded host decoded]
      exact later
    | ok i =>
      rw [run_deliver_decoded host decoded]
      cases listeners : w.manager.listeners with
      | nil =>
        rw [run_invoke_nobody host listeners]
        exact later_trans later (later_notices later.orderly _)
      | cons name names =>
        rw [run_invoke host listeners]
        rw [← Invocation.nonce_ofCommand decoded] at found
        exact keeps_callListeners behaves found (name :: names) w later

/-! ## Looks for a command -/

/-- A look for a command collects the one that is pending, if there is one, and hands it over. -/
theorem later_attend (behaves : Behaves host) (orderly : Orderly w) :
    Later w ((attend host).run w).2 := by
  obtain ⟨b, there, atOnce⟩ := orderly.bridge
  cases installed : b.callback with
  | none =>
    rw [attend_without_callback host (run_openStore w) there installed]
    exact later_refl orderly
  | some callback =>
    have collected := run_onStore collectCommand w
    rcases runOn_collectCommand_cases w.around.contents with
      none | ⟨e, failed⟩ | ⟨command, pending, found⟩
    · rw [none] at collected
      rw [attend_nothing host (run_openStore w) there installed collected]
      exact later_refl orderly
    · rw [failed] at collected
      obtain ⟨result, notices, ran⟩ := attend_failed host (run_openStore w) there installed collected
      rw [ran]
      exact later_notices orderly _
    · rw [found] at collected
      have taken : Later w (holding w (cleared w.around.contents)) :=
        later_holding orderly (fades_cleared _)
      have handed : Keeps (Later w) (dispatch host b callback command) := by
        rw [dispatch, atOnce, if_neg Bool.false_ne_true]
        exact keeps_deliver behaves callback pending.texts.2
      rw [attend_found host (run_openStore w) there installed collected]
      exact keeps_bind handed (fun _ => keeps_pure _) _
        (later_trans taken (later_notices taken.orderly _))

theorem proceeds_attend (behaves : Behaves host) : Proceeds (attend host) :=
  proceeds_of_later fun _ orderly => later_attend behaves orderly

theorem proceeds_notifyAll (behaves : Behaves host) (name : String)
    (observers : List (Observer (List Turn))) : Proceeds (notifyAll host name observers) := by
  have notify (o : Observer (List Turn)) : Proceeds (App.notify host name o) := by
    cases o with
    | bridge => exact proceeds_discard (proceeds_attend behaves)
    | custom code => exact behaves.observe code name
  induction observers with
  | nil => exact proceeds_pure 0
  | cons o observers ih =>
    refine proceeds_bind ?_ fun served => proceeds_bind ih fun others => proceeds_pure _
    refine proceeds_tryCatch (proceeds_bind (notify o) fun _ => proceeds_pure 1) fun e => ?_
    exact proceeds_bind (proceeds_report _) fun _ => proceeds_pure 0

/-- A notification leads to a later world, whoever observes it. -/
theorem proceeds_post (behaves : Behaves host) (name : String) : Proceeds (post host name) :=
  proceeds_get fun w => proceeds_notifyAll behaves name (w.center.observers name)

/-- A command that is pending is removed, and then it is handed to the manager. -/
theorem run_attend_manager (host : Host Minutes (List Turn)) (orderly : Orderly w)
    {b : Bridge (List Turn)} (there : w.bridge = some b) (installed : b.callback = some .manager)
    {command : Command} (pending : Pending w.around.contents command) :
    (attend host).run w = (do deliver host .manager command; return some command : RoomM _).run
      (holding w (cleared w.around.contents)) := by
  obtain ⟨b, there', atOnce⟩ := orderly.bridge
  obtain rfl := Option.some.inj (there.symm.trans there')
  have collected := run_onStore collectCommand w
  rw [runOn_collectCommand_pending pending] at collected
  rw [attend_found host (run_openStore w) there installed collected, if_pos rfl, List.append_nil, dispatch,
    atOnce, if_neg Bool.false_ne_true]

/-- The only listener is called once with the command that is pending, which is gone from the store by
then. -/
theorem run_attend_pending (behaves : Behaves host) (orderly : Orderly w) {b : Bridge (List Turn)}
    (there : w.bridge = some b) (installed : b.callback = some .manager) {name : String}
    (listeners : w.manager.listeners = [name]) {command : Command} {i : Invocation}
    (pending : Pending w.around.contents command)
    (decoded : Invocation.ofCommand w.config command = .ok i) : ∃ v,
    (attend host).run w = (.ok (some command), v) ∧
      Later (calling name i (holding w (cleared w.around.contents))) v := by
  let taken := holding w (cleared w.around.contents)
  have orderly' : Orderly taken := (later_holding orderly (fades_cleared w.around.contents)).orderly
  obtain ⟨v, called, later⟩ := run_callListeners_cons behaves i name [] orderly'
  have delivered : (deliver host .manager command).run taken = (.ok (), v) := by
    rw [run_deliver_decoded host (w := taken) decoded, run_invoke host (w := taken) listeners]
    exact called
  refine ⟨v, ?_, later⟩
  rw [run_attend_manager host orderly there installed pending]
  exact Fallible.run_bind_ok delivered _

end ShortcutRelay.Assembly
