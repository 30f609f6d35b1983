import ShortcutRelay.App.Dispatch
import ShortcutRelay.Proofs.Delivery.Workplace
import ShortcutRelay.Proofs.Fallible

/-!
# What looking for a command can do

* `attend_cases` : a look for a command hands nothing over, or it collects a command and hands it
  over in the end.
-/

namespace ShortcutRelay
open Protocol App

variable {κ : Type}

/-- The world with another traffic and count of uses, and with other notices. -/
def World.moved (w : World Workplace κ) (t : Traffic) (n : Nat) (notices : List Notice) :
    World Workplace κ :=
  { w with around := w.around.moved t n, notices }

variable {w : World Workplace κ}

theorem open_cases (w : World Workplace κ) : ∃ n notices,
    (unlessUnreachable (some <$> openStore)).run w =
        (.ok (some ()), w.moved w.around.traffic n notices) ∨
      (unlessUnreachable (some <$> openStore)).run w =
        (.ok none, w.moved w.around.traffic n notices) := by
  have opened : openStore.run w = ((Workplace.use.run w.around).1,
      { w with around := (Workplace.use.run w.around).2 }) := rfl
  rw [unlessUnreachable, Fallible.run_tryCatch, map_eq_pure_bind, Fallible.run_bind, opened]
  rcases Workplace.use_cases w.around with used | ⟨f, used⟩
  · rw [used]
    exact ⟨_, w.notices, .inl rfl⟩
  · rw [used]
    exact ⟨_, w.notices ++ [.commandUnreachable f], .inr rfl⟩

theorem collect_cases (free : w.around.locked = false) : ∃ t n notices,
    (∃ result, Collected w.around.traffic (.ok result) t ∧
      (unlessUnreachable (onStore collectCommand)).run w = (.ok result, w.moved t n notices)) ∨
    ∃ e, Collected w.around.traffic (.error e) t ∧
      ((unlessUnreachable (onStore collectCommand)).run w = (.ok none, w.moved t n notices) ∨
        (unlessUnreachable (onStore collectCommand)).run w = (.error e, w.moved t n notices)) := by
  obtain ⟨result, t, n, run, served⟩ := Workplace.run_served collectCommand free
  have ran : (onStore collectCommand).run w = (result, w.moved t n w.notices) := by
    change (((Backend.run collectCommand).run w.around).1,
      { w with around := ((Backend.run collectCommand).run w.around).2 }) = _
    rw [run]
    rfl
  have collected := collected_of_served served
  rw [unlessUnreachable, Fallible.run_tryCatch, ran]
  cases result with
  | ok found => exact ⟨t, n, w.notices, .inl ⟨found, collected, rfl⟩⟩
  | error e =>
    cases e with
    | store f =>
      exact ⟨t, n, w.notices ++ [.commandUnreachable f], .inr ⟨_, collected, .inl rfl⟩⟩
    | _ => exact ⟨t, n, w.notices, .inr ⟨_, collected, .inr rfl⟩⟩

/-- What remains to be done when a command was collected. -/
def handOver (host : Host Workplace κ) (bridge : Bridge κ) (callback : Callback κ)
    (command : Command) : AppM Workplace κ (Option Command) := do
  dispatch host bridge callback command
  return some command

/-- A look for a command that the bridge makes once the store is open. -/
def attendOpened (host : Host Workplace κ) : AppM Workplace κ (Option Command) := do
  let some bridge := (← get).bridge | return none
  let some callback := bridge.callback | return none
  let some (command, cleared) ← unlessUnreachable (onStore collectCommand) | return none
  if !cleared then report .commandReplaced
  handOver host bridge callback command

theorem attend_eq (host : Host Workplace κ) : attend host = do
    match ← unlessUnreachable (some <$> openStore) with
    | some _ => attendOpened host
    | none => return none := by
  unfold attend attendOpened handOver
  refine bind_congr fun opened => ?_
  cases opened with
  | none => rfl
  | some _ =>
    refine bind_congr fun w => ?_
    cases w.bridge with
    | none => rfl
    | some bridge =>
      obtain ⟨callback, token, queued⟩ := bridge
      cases callback with
      | none => rfl
      | some callback =>
        refine bind_congr fun found => ?_
        cases found with
        | none => rfl
        | some found => rfl

theorem attend_cases (host : Host Workplace κ) (free : w.around.locked = false) :
    ∃ t n notices,
      ((∃ result, (attend host).run w = (result, w.moved t n notices)) ∧
        (t = w.around.traffic ∨ ∃ result, Collected w.around.traffic result t ∧
          ∀ c cleared, result ≠ .ok (some (c, cleared)))) ∨
      ∃ bridge callback command cleared,
        w.bridge = some bridge ∧ bridge.callback = some callback ∧
        Collected w.around.traffic (.ok (some (command, cleared))) t ∧
        (attend host).run w =
          (handOver host bridge callback command).run (w.moved t n notices) := by
  obtain ⟨n, notices, opened | closed⟩ := open_cases w
  · have start : (attend host).run w = (attendOpened host).run (w.moved w.around.traffic n notices) := by
      rw [attend_eq, Fallible.run_bind_ok opened]
    rw [start, attendOpened, Fallible.run_bind_ok (Fallible.run_get _)]
    cases hb : w.bridge with
    | none =>
      simp only [World.moved, hb]
      exact ⟨_, n, notices, .inl ⟨⟨.ok none, rfl⟩, .inl rfl⟩⟩
    | some bridge =>
      cases hc : bridge.callback with
      | none =>
        simp only [World.moved, hb, hc]
        exact ⟨_, n, notices, .inl ⟨⟨.ok none, rfl⟩, .inl rfl⟩⟩
      | some callback =>
        have found := collect_cases (w := w.moved w.around.traffic n notices) free
        have here : (w.moved w.around.traffic n notices).bridge = some bridge := hb
        simp only [here, hc]
        obtain ⟨t, m, ns, ⟨result, collected, ran⟩ | ⟨e, collected, ran | ran⟩⟩ := found
        · rw [Fallible.run_bind_ok ran]
          cases result with
          | none => exact ⟨t, m, ns, .inl ⟨⟨.ok none, rfl⟩, .inr ⟨_, collected, nofun⟩⟩⟩
          | some result =>
            obtain ⟨command, cleared | cleared⟩ := result
            · exact ⟨t, m, ns ++ [.commandReplaced],
                .inr ⟨bridge, callback, command, false, rfl, hc, collected, rfl⟩⟩
            · exact ⟨t, m, ns, .inr ⟨bridge, callback, command, true, rfl, hc, collected, rfl⟩⟩
        · rw [Fallible.run_bind_ok ran]
          exact ⟨t, m, ns, .inl ⟨⟨.ok none, rfl⟩, .inr ⟨_, collected, nofun⟩⟩⟩
        · rw [Fallible.run_bind_error ran]
          exact ⟨t, m, ns, .inl ⟨⟨.error e, rfl⟩, .inr ⟨_, collected, nofun⟩⟩⟩
  · refine ⟨_, n, notices, .inl ⟨⟨.ok none, ?_⟩, .inl rfl⟩⟩
    rw [attend_eq, Fallible.run_bind_ok closed]
    rfl

end ShortcutRelay
