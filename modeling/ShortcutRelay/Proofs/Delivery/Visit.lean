import ShortcutRelay.Proofs.App.Attend
import ShortcutRelay.Proofs.Delivery.Attend
import ShortcutRelay.Proofs.Delivery.Moves
import ShortcutRelay.Proofs.Delivery.Timeline
import ShortcutRelay.Proofs.Protocol.Pending

/-!
# A command that is written over another one while that is read

The application reads a command in five pieces, and nothing holds the store between them. Where an
intent writes a newer command in between, the pieces that were read before are those of the older
command and the pieces that are read afterwards those of the newer one.

* `visit` : the intent makes all its requests after a number of reads;
* `mixed` : the command whose pieces were read partly before and partly after;
* `later_visited` : what each read finds;
* `attend_visited` : what is handed over, whenever the intent writes;
* `torn_command` : it is not always one of the two commands.
-/

namespace ShortcutRelay.Delivery
open Protocol App Workplace

/-! ## A visit -/

/-- The intent has all its turns at once, right after the application has made a number of reads of
the store that it has opened. -/
def visit (reads turns : Nat) : Nat → Nat :=
  fun use => if use = reads + 1 then turns else 0

/-- The command whose pieces are those of a newer one from the given read on. The identifier is read
first, then the nonce, the confirmation, the time in two reads, and the parameters. -/
def mixed (reads : Nat) (older newer : Command) : Command where
  identifier := if reads < 1 then newer.identifier else older.identifier
  nonce := if reads < 2 then newer.nonce else older.nonce
  userConfirmed := if reads < 3 then newer.userConfirmed else older.userConfirmed
  timestamp := if reads < 5 then newer.timestamp else older.timestamp
  parameters := if reads < 6 then newer.parameters else older.parameters

theorem granted_visit (reads turns k : Nat) :
    granted (visit reads turns) 1 k = if reads < k then turns else 0 := by
  induction k with
  | zero => rfl
  | succ k ih =>
    rw [granted, ih, visit]
    by_cases now : 1 + k = reads + 1
    · rw [if_pos now, if_neg (by omega), if_pos (by omega), Nat.zero_add]
    · rw [if_neg now, Nat.add_zero]
      by_cases before : reads < k
      · rw [if_pos before, if_pos (by omega)]
      · rw [if_neg before, if_neg (by omega)]

/-- A store that an intent visits to write a command. -/
def visited (b : Draft) (c : Contents) (reads turns : Nat) : Workplace :=
  shared c (b.perform 0).run (visit reads turns)

variable {κ : Type} {d : Draft} {vs : List (String × StoredValue)} {c : Contents}
variable {reads turns : Nat}

/-- Each read finds all of what the intent writes, or nothing of it. -/
theorem later_visited (reads : Nat) (encodable : encodeAll d.parameters = .ok vs)
    (enough : (d.writes vs).length ≤ turns) (k : Nat) :
    (((visited d c reads turns).moved (visited d c reads turns).traffic 1).later k).contents =
      if reads < k then d.written vs c else c := by
  have plan : ∀ n, (visited d c reads turns).turns n = List.replicate (visit reads turns n) 0 :=
    fun _ => rfl
  obtain ⟨q, -, found⟩ := later_writes
    (w := (visited d c reads turns).moved (visited d c reads turns).traffic 1) plan
    (writes_perform encodable) rfl k
  have opened : ((visited d c reads turns).moved (visited d c reads turns).traffic 1).uses = 1 := rfl
  rw [found, opened, granted_visit]
  by_cases before : reads < k
  · rw [if_pos before, if_pos before, List.take_of_length_le enough, putAll_writes]
  · rw [if_neg before, if_neg before]
    rfl

theorem run_readCommand_visited (reads : Nat) {older newer : Command}
    (encodable : encodeAll d.parameters = .ok vs)
    (enough : (d.writes vs).length ≤ turns) (before : Complete c older)
    (after : Complete (d.written vs c) newer) :
    (Backend.run readCommand).run
        ((visited d c reads turns).moved (visited d c reads turns).traffic 1) =
      (.ok (some (mixed reads older newer)),
        ((visited d c reads turns).moved (visited d c reads turns).traffic 1).past 6) := by
  have healthy : ((visited d c reads turns).moved (visited d c reads turns).traffic 1).Healthy :=
    (healthy_shared _ _ _).moved _ _
  have found := later_visited reads (c := c) encodable enough
  -- Whatever is read in the `k`-th read comes from the contents before the visit or after it.
  have piece {α : Type} (f : Contents → α) (k : Nat) {x y : α} (hx : f c = x)
      (hy : f (d.written vs c) = y) : f (((visited d c reads turns).moved
        (visited d c reads turns).traffic 1).later k).contents = if reads < k then y else x := by
    rw [found]
    split
    · exact hy
    · exact hx
  have identifier := piece (textAt · commandIdentifier) 1 before.identifier after.identifier
  have nonce := piece (textAt · commandNonce) 2 before.nonce after.nonce
  have confirmation := piece confirmationAt 3 before.confirmation after.confirmation
  have glance := piece (·.get? commandTimestamp) 4 before.timestamp after.timestamp
  have timestamp := piece (·.get? commandTimestamp) 5 before.timestamp after.timestamp
  have parameters := piece parametersOf 6 before.parameters after.parameters
  rw [← apply_ite, ← apply_ite] at identifier nonce glance timestamp
  have readable : Decodes (((visited d c reads turns).moved
      (visited d c reads turns).traffic 1).later 6).contents := by
    rw [found]
    split
    · exact after.readable
    · exact before.readable
  rw [run_readCommand healthy identifier nonce glance timestamp readable, parameters, confirmation]
  rfl

/-- Whenever an intent writes a newer command, the pieces that were read before are handed over with
those that are read afterwards. -/
theorem attend_visited (host : Host Workplace κ) {w : World Workplace κ} {bridge : Bridge κ}
    {callback : Callback κ} (there : w.bridge = some bridge)
    (installed : bridge.callback = some callback) {older : Command} (pending : Complete c older)
    (encodable : encodeAll d.parameters = .ok vs) (enough : (d.writes vs).length ≤ turns)
    (around : w.around = visited d c reads turns) :
    ∃ newer t n notices, Complete (d.written vs c) newer ∧
      newer.identifier = d.identifier ∧ newer.nonce = d.nonce ∧ newer.timestamp = d.time ∧
      (attend host).run w =
        (handOver host bridge callback (mixed reads older newer)).run (w.moved t n notices) := by
  obtain ⟨newer, written, identifier, nonce, timestamp⟩ :=
    complete_written (c := c) pending.readable encodable
  have read := run_readCommand_visited reads encodable enough pending written
  have healthy : ((visited d c reads turns).moved (visited d c reads turns).traffic 1).Healthy :=
    (healthy_shared _ _ _).moved _ _
  have nonceThere : ∃ found, textAt ((((visited d c reads turns).moved
      (visited d c reads turns).traffic 1).past 6).later 1).contents commandNonce = .ok found := by
    rw [later_past, later_visited reads encodable enough]
    split
    · exact ⟨_, written.nonce⟩
    · exact ⟨_, pending.nonce⟩
  obtain ⟨found, there'⟩ := nonceThere
  obtain ⟨cleared, t, n, collected⟩ := run_collectCommand healthy read there'
  have opened : (openStore : AppM Workplace κ Unit).run w =
      (.ok (), { w with around := (visited d c reads turns).moved (visited d c reads turns).traffic 1 }) := by
    apply run_onBackend
    rw [around]
    exact run_use (w := visited d c reads turns) fun _ => rfl
  have ran := attend_found host opened there installed (run_onBackend collected)
  refine ⟨newer, t, n, w.notices ++ if cleared then [] else [.commandReplaced], written, identifier,
    nonce, timestamp, ran.trans ?_⟩
  rw [World.moved, around]
  rfl

def timer : Draft where
  identifier := "startTimer"
  nonce := "N1"

def task : Draft where
  identifier := "addTask"
  nonce := "N2"

/-- A bridge with a callback, and a store with a command that an intent visits to write another one. -/
def visitedWorld (older newer : Draft) (vs : List (String × StoredValue)) (reads turns : Nat) :
    World Workplace (List Move) where
  around := visited newer (older.written vs .empty) reads turns
  bridge := some { callback := some (.custom []) }

theorem complete_timer : Complete (timer.written [] {}) (timer.command []) := by
  have empty : Decodes {} := fun _ _ h => by cases h
  have readable := runOn_keeps decodes_effect (asks_fits_write timer) empty
  rw [runOn_write rfl] at readable
  exact ⟨rfl, rfl, rfl, rfl, rfl, readable⟩

theorem attend_visited_after_one_read :
    (visitedWorld timer task [] 1 3).bridge = some { callback := some (.custom []) } ∧
      Complete (timer.written [] {}) (timer.command []) ∧ encodeAll task.parameters = .ok [] ∧
      (task.writes []).length ≤ 3 ∧
      (visitedWorld timer task [] 1 3).around = visited task (timer.written [] {}) 1 3 ∧
      ∃ newer t n notices, Complete (task.written [] (timer.written [] {})) newer ∧
        newer.identifier = "addTask" ∧ newer.nonce = "N2" ∧ newer.timestamp = 0.0 ∧
        (attend (hostOf fun _ => pure ())).run (visitedWorld timer task [] 1 3) =
          (handOver (hostOf fun _ => pure ()) { callback := some (.custom []) } (.custom [])
            (mixed 1 (timer.command []) newer)).run
              ((visitedWorld timer task [] 1 3).moved t n notices) :=
  ⟨rfl, complete_timer, rfl, by decide, rfl,
    attend_visited (hostOf fun _ => pure ()) rfl rfl complete_timer rfl (by decide) rfl⟩

/-- The command that is handed over is not always one of those that were written: it can have the
identifier of one and the nonce of the other. -/
theorem torn_command :
    ¬ ∀ (older newer : Draft) (vs us : List (String × StoredValue)) (reads turns : Nat)
      (command : Command), (older.parameters.map Prod.fst).Nodup →
      (newer.parameters.map Prod.fst).Nodup → encodeAll older.parameters = .ok vs →
      encodeAll newer.parameters = .ok us → older.nonce ≠ newer.nonce →
      older.identifier ≠ newer.identifier → (newer.writes us).length ≤ turns →
      ((attend (hostOf fun _ => pure ())).run (visitedWorld older newer vs reads turns)).1 =
        .ok (some command) →
      command = older.command vs ∨ command = newer.command us := by
  intro claim
  have pieces : ((attend (hostOf fun _ => pure ())).run (visitedWorld timer task [] 1 3)).1.toOption.join.map
      (fun c => (c.identifier, c.nonce)) = some ("startTimer", "N2") := by
    decide +kernel
  rcases handed : ((attend (hostOf fun _ => pure ())).run (visitedWorld timer task [] 1 3)).1 with
    e | _ | command
  · rw [handed] at pieces
    cases pieces
  · rw [handed] at pieces
    cases pieces
  · rw [handed] at pieces
    obtain ⟨identifier, nonce⟩ := Prod.mk.inj (Option.some.inj pieces)
    rcases claim timer task [] [] 1 3 command (by decide) (by decide) rfl rfl (by decide) (by decide)
      (by decide) handed with same | same
    · rw [same] at nonce
      exact absurd nonce (by decide)
    · rw [same] at identifier
      exact absurd identifier (by decide)

end ShortcutRelay.Delivery
