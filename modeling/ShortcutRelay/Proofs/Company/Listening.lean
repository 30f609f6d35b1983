import ShortcutRelay.Proofs.Company.Exchange

/-!
# Listeners are called whatever they do

* `Patient conduct` : the bound on the turns of listeners is never reached;
* `run_runAlone` : a listener that has to wait runs to its end in a loop of its own;
* `run_callListeners`, `run_deliver` : every listener is called once and in order, whatever the
  others do;
* `run_attend` : what a look for a command leads to where the bridge hands commands to the manager.
-/

namespace ShortcutRelay.Company
open Protocol App

/-- A listener that waits has fewer turns than the host is ready to give it. -/
def Patient (conduct : Conduct) : Prop :=
  ∀ x name i turns, conduct.listen x name i = .inTurns turns → turns.length + 2 ≤ conduct.patience

variable {conduct : Conduct} {w v : Hall}

/-! ## Loops of a listener -/

/-- A turn of a listener is used up, whatever happens in it. -/
theorem run_resume (conduct : Conduct) (turns : List Reaction) (w : Hall) : ∃ left v,
    (App.resume (hostOf conduct) turns).run w = (.ok left, v) ∧ Aside w v ∧
      ∀ rest, left = some rest → rest.length < turns.length := by
  unfold App.resume
  rw [Fallible.run_tryCatch]
  cases turns with
  | nil => exact ⟨none, w, rfl, aside_refl w, nofun⟩
  | cons turn turns =>
    obtain ⟨result, v, ran, aside⟩ := run_react turn w
    have resumed : ((hostOf conduct).resume (turn :: turns)).run w =
        (react turn >>= fun _ => pure (some turns) : HallM _).run w := rfl
    rw [resumed]
    cases result with
    | ok _ =>
      rw [Fallible.run_bind_ok ran]
      refine ⟨some turns, v, rfl, aside, fun rest h => ?_⟩
      cases h
      exact Nat.lt_succ_self _
    | error e =>
      rw [Fallible.run_bind_error ran]
      exact ⟨none, _, rfl, aside_trans aside (aside_report _ v), nofun⟩

def outside (w : Hall) : Hall :=
  { w with inner := none }

/-- What happens in a listener's own loop happens to the world outside. -/
theorem aside_outside (h : Aside w v) : Aside (outside w) (outside v) where
  rest := by
    rw [h.rest]
    rfl
  entries := h.entries
  given := h.given
  answered := h.answered

theorem run_runRounds (conduct : Conduct) (n : Nat) (turns : List Reaction)
    (enough : turns.length + 2 ≤ n) {w : Hall} (own : w.inner = some [.own turns]) :
    ∃ v, (runRounds (hostOf conduct) n).run w = (.ok (), v) ∧ Aside (outside w) (outside v) := by
  induction n generalizing turns w with
  | zero => omega
  | succ n ih =>
    let round : Hall := { w with inner := some [] }
    obtain ⟨left, v, ran, aside, fewer⟩ := run_resume conduct turns round
    have empty : v.inner = some [] := by rw [aside.rest]
    rw [run_round_own _ own ran empty]
    have first : Aside (outside round) (outside v) := aside_outside aside
    cases left with
    | some rest =>
      obtain ⟨u, later, aside'⟩ := ih rest (by have := fewer rest rfl; omega)
        (w := { v with inner := some [.own rest] }) rfl
      exact ⟨u, later, aside_trans first aside'⟩
    | none =>
      obtain ⟨m, rfl⟩ : ∃ m, n = m + 1 := ⟨n - 1, by omega⟩
      exact ⟨{ v with inner := some [] }, run_round_finish _ rfl m, first⟩

/-- A listener that has to wait runs to its end in a loop of its own. -/
theorem run_runAlone {turns : List Reaction} (enough : turns.length + 2 ≤ conduct.patience)
    (idle : w.inner = none) :
    ∃ v, (runAlone (hostOf conduct) turns).run w = (.ok (), v) ∧ Aside w v := by
  obtain ⟨v, ran, aside⟩ := run_runRounds conduct conduct.patience turns enough
    (w := { w with inner := some [.own turns] }) rfl
  have before : outside { w with inner := some [.own turns] } = w := by
    change { w with inner := none } = w
    rw [← idle]
  rw [before] at aside
  exact ⟨outside v, run_runAlone_ok _ ran, aside⟩

/-! ## Invocations -/

def calling (w : Hall) (calls : List (String × Invocation)) : Hall :=
  { w with around := { w.around with called := w.around.called ++ calls } }

theorem calling_nil (w : Hall) : calling w [] = w := by
  rw [calling, List.append_nil]

theorem calling_calling (w : Hall) (calls calls' : List (String × Invocation)) :
    calling (calling w calls) calls' = calling w (calls ++ calls') := by
  unfold calling
  simp only [List.append_assoc]

/-- Calls that come after something aside might as well have come before it. -/
theorem aside_calling (h : Aside w v) (calls : List (String × Invocation)) :
    Aside (calling w calls) (calling v calls) where
  rest := by
    rw [h.rest]
    rfl
  entries := h.entries
  given := h.given
  answered := h.answered

/-- No event loop runs. -/
structure Idle (w : Hall) : Prop where
  outside : w.inner = none
  stopped : w.running = false

theorem Idle.aside (h : Idle w) (aside : Aside w v) : Idle v := by
  rw [aside.rest]
  exact ⟨h.outside, h.stopped⟩

theorem run_schedule {turns : List Reaction} (enough : turns.length + 2 ≤ conduct.patience)
    (idle : Idle w) :
    ∃ v, (schedule (hostOf conduct) turns).run w = (.ok (), v) ∧ Aside w v := by
  obtain ⟨v, ran, aside⟩ := run_runAlone enough idle.outside
  exact ⟨v, (run_schedule_alone _ idle.outside idle.stopped turns).trans ran, aside⟩

/-- A listener is called, and what it does in the end stays aside. -/
theorem run_call (patient : Patient conduct) (name : String) (i : Invocation) (w : Hall) :
    ∃ waiting v, (tryCatch ((hostOf conduct).call name i) fun failure => do
        report (.listenerFailed failure)
        return none : HallM (Option (List Reaction))).run w = (.ok waiting, v) ∧
      Aside (calling w [(name, i)]) v ∧
      ∀ turns, waiting = some turns → turns.length + 2 ≤ conduct.patience := by
  rw [Fallible.run_tryCatch]
  cases manner : conduct.listen w.around name i with
  | inTurns turns =>
    have called : ((hostOf conduct).call name i).run w =
        (.ok (some turns), calling w [(name, i)]) := by
      refine (Fallible.run_bind_ok (Fallible.run_get w) _).trans ?_
      simp only [manner]
      rfl
    rw [called]
    refine ⟨some turns, _, rfl, aside_refl _, fun _ h => ?_⟩
    cases h
    exact patient _ _ _ _ manner
  | atOnce reaction =>
    have called : ((hostOf conduct).call name i).run w =
        (react reaction >>= fun _ => pure none : HallM (Option (List Reaction))).run
          (calling w [(name, i)]) := by
      refine (Fallible.run_bind_ok (Fallible.run_get w) _).trans ?_
      simp only [manner]
      rfl
    obtain ⟨result, v, ran, aside⟩ := run_react reaction (calling w [(name, i)])
    rw [called]
    cases result with
    | ok _ =>
      rw [Fallible.run_bind_ok ran]
      exact ⟨none, v, rfl, aside, nofun⟩
    | error e =>
      rw [Fallible.run_bind_error ran]
      exact ⟨none, _, rfl, aside_trans aside (aside_report _ v), nofun⟩

/-- Every listener is called once and in order, whatever the others do. -/
theorem run_callListeners (patient : Patient conduct) (i : Invocation) (names : List String)
    (idle : Idle w) : ∃ v, (callListeners (hostOf conduct) i names).run w = (.ok (), v) ∧
      Aside (calling w (names.map (·, i))) v := by
  induction names generalizing w with
  | nil =>
    refine ⟨w, rfl, ?_⟩
    rw [List.map_nil, calling_nil]
    exact aside_refl w
  | cons name names ih =>
    obtain ⟨waiting, v, called, aside, enough⟩ := run_call patient name i w
    have idle' : Idle v := Idle.aside (w := calling w [(name, i)]) ⟨idle.outside, idle.stopped⟩ aside
    have seen : ∃ u, (match waiting with
        | some turns => schedule (hostOf conduct) turns
        | none => pure () : HallM Unit).run v = (.ok (), u) ∧ Aside v u := by
      cases waiting with
      | none => exact ⟨v, rfl, aside_refl v⟩
      | some turns => exact run_schedule (enough turns rfl) idle'
    obtain ⟨u, scheduled, aside'⟩ := seen
    obtain ⟨t, rest, aside''⟩ := ih (Idle.aside idle' aside')
    refine ⟨t, ?_, ?_⟩
    · unfold callListeners
      rw [Fallible.run_bind_ok called]
      refine Eq.trans ?_ rest
      cases waiting with
      | none =>
        obtain rfl : v = u := congrArg Prod.snd scheduled
        rfl
      | some turns => exact Fallible.run_bind_ok scheduled _
    · have first := aside_calling (aside_trans aside aside') (names.map (·, i))
      rw [calling_calling] at first
      exact aside_trans first aside''

def callsOf (w : Hall) (command : Command) : List (String × Invocation) :=
  match Invocation.ofCommand w.config command with
  | .ok i => w.manager.listeners.map (·, i)
  | .error _ => []

/-- A command that the manager gets is handed to every listener. -/
theorem run_deliver (patient : Patient conduct) (command : Command) (idle : Idle w) :
    ∃ result v, (deliver (hostOf conduct) .manager command).run w = (result, v) ∧
      Aside (calling w (callsOf w command)) v := by
  unfold callsOf
  cases decoded : Invocation.ofCommand w.config command with
  | error e =>
    refine ⟨_, w, run_deliver_undecoded _ decoded, ?_⟩
    rw [calling_nil]
    exact aside_refl w
  | ok i =>
    rw [run_deliver_decoded _ decoded]
    dsimp only
    cases listeners : w.manager.listeners with
    | nil =>
      refine ⟨.ok (), _, run_invoke_nobody _ listeners i, ?_⟩
      rw [List.map_nil, calling_nil]
      exact aside_report _ w
    | cons name names =>
      obtain ⟨v, called, aside⟩ := run_callListeners patient i (name :: names) idle
      exact ⟨.ok (), v, (run_invoke _ listeners i).trans called, aside⟩

/-! ## Looks for a command -/

/-- The bridge hands commands to the manager at once, and no event loop runs. -/
structure Managed (w : Hall) : Prop where
  bridge : ∃ b, w.bridge = some b ∧ b.callback = some .manager ∧ b.queued = false
  idle : Idle w

/-- The world once what is in the store has been collected and handed to the manager. -/
def attended (w : Hall) : Hall :=
  match runOn collectCommand w.around.contents with
  | (.ok (some (command, _)), c) => calling (holding w c) (callsOf w command)
  | (_, c) => holding w c

/-- A look for a command collects it and has every listener called. -/
theorem run_attend (patient : Patient conduct) (managed : Managed w) :
    ∃ result v, (attend (hostOf conduct)).run w = (result, v) ∧ Aside (attended w) v := by
  obtain ⟨b, there, callback, atOnce⟩ := managed.bridge
  have collected := run_onStore collectCommand w
  unfold attended
  rcases found : runOn collectCommand w.around.contents with ⟨e | _ | ⟨command, cleared⟩, c⟩
  all_goals rw [found] at collected
  · obtain ⟨result, notices, ran⟩ := attend_failed (hostOf conduct) (run_openStore w) there callback
      collected
    exact ⟨result, _, ran, aside_notices _ _⟩
  · exact ⟨.ok none, _, attend_nothing _ (run_openStore w) there callback collected, aside_refl _⟩
  · rw [attend_found _ (run_openStore w) there callback collected]
    obtain ⟨result, v, ran, aside⟩ := run_deliver patient command
      (w := { holding w c with notices := w.notices ++ if cleared then [] else [.commandReplaced] })
      ⟨managed.idle.outside, managed.idle.stopped⟩
    have handed : (dispatch (hostOf conduct) b .manager command).run
        { holding w c with notices := w.notices ++ if cleared then [] else [.commandReplaced] } =
          (result, v) := by
      unfold dispatch
      rw [atOnce, if_neg Bool.false_ne_true]
      exact ran
    have after : Aside (calling (holding w c) (callsOf w command)) v :=
      aside_trans (aside_notices _ _) aside
    cases result with
    | ok _ => exact ⟨_, v, Fallible.run_bind_ok handed _, after⟩
    | error e => exact ⟨_, v, Fallible.run_bind_error handed _, after⟩

end ShortcutRelay.Company
