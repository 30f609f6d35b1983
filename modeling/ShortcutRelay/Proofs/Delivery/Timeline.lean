import ShortcutRelay.Proofs.Delivery.Workplace
import ShortcutRelay.Proofs.Protocol.Writes

/-!
# What the application finds at each of its uses

Where no use fails, the plan of turns alone decides what each read of the application finds.

* `Workplace.later` : the traffic that a use finds, `Workplace.past` : the workplace after some reads;
* `run_readCommand` : the command that is read, each part of it from the contents of its own moment;
* `run_clearCommand`, `run_clearCommand_replaced` : what a clear does, `run_collectCommand` : both;
* `later_writes` : what is found where a single intent writes between the uses.
-/

namespace ShortcutRelay
open Protocol

namespace Workplace

/-- The traffic that the `k`-th of the next uses finds, if the earlier ones only read. -/
def later (w : Workplace) : Nat → Traffic
  | 0 => w.traffic
  | k + 1 => (w.turns (w.uses + k)).foldl Traffic.advance (w.later k)

/-- The workplace after some uses that only read. -/
def past (w : Workplace) (k : Nat) : Workplace :=
  w.moved (w.later k) (w.uses + k)

/-- No use fails and nobody holds the store. -/
structure Healthy (w : Workplace) : Prop where
  faultless : ∀ n, w.faults n = none
  free : w.locked = false

variable {w : Workplace}

theorem Healthy.moved (h : Healthy w) (t : Traffic) (n : Nat) : Healthy (w.moved t n) :=
  ⟨h.faultless, h.free⟩

theorem Healthy.past (h : Healthy w) (k : Nat) : Healthy (w.past k) :=
  h.moved _ _

theorem later_past (w : Workplace) (j k : Nat) : (w.past j).later k = w.later (j + k) := by
  induction k with
  | zero => rfl
  | succ k ih =>
    have uses : (w.past j).uses + k = w.uses + (j + k) := Nat.add_assoc _ _ _
    rw [later, ih, uses]
    rfl

theorem past_past (w : Workplace) (j k : Nat) : (w.past j).past k = w.past (j + k) := by
  have uses : (w.past j).uses + k = w.uses + (j + k) := Nat.add_assoc _ _ _
  rw [past, later_past, uses]
  rfl

/-! ## Requests -/

theorem run_use (faultless : ∀ n, w.faults n = none) :
    use.run w = (.ok (), w.moved w.traffic (w.uses + 1)) := by
  rw [use, Fallible.run_bind_ok (Fallible.run_get w), Fallible.run_bind_ok (Fallible.run_set ..),
    faultless]
  rfl

theorem run_giveWay_use (h : Healthy w) : (giveWay >>= fun _ => use).run w = (.ok (), w.past 1) := by
  have moved : giveWay.run w = (.ok (), w.moved (w.later 1) w.uses) := by
    rw [giveWay, Fallible.run_modify, if_neg (Bool.eq_false_iff.mp h.free)]
    rfl
  rw [Fallible.run_bind_ok moved, run_use (w := w.moved (w.later 1) w.uses) h.faultless]
  rfl

theorem run_load (h : Healthy w) :
    (Backend.load : BackendM Workplace Contents).run w = (.ok (w.later 1).contents, w.past 1) := by
  have loaded : (Backend.load : BackendM Workplace Contents) =
      (giveWay >>= fun _ => use) >>= fun _ => get >>= fun w => pure w.traffic.contents := by
    rw [bind_assoc]
    rfl
  rw [loaded, Fallible.run_bind_ok (run_giveWay_use h)]
  rfl

theorem run_enter (h : Healthy w) :
    (Backend.enter : BackendM Workplace Unit).run w = (.ok (), { w.past 1 with locked := true }) := by
  have entered : (Backend.enter : BackendM Workplace Unit) =
      (giveWay >>= fun _ => use) >>= fun _ => modify fun w => { w with locked := true } := by
    rw [bind_assoc]
    rfl
  rw [entered, Fallible.run_bind_ok (run_giveWay_use h)]
  rfl

theorem run_then {α β : Type} {p : StoreM α} {a : α} {v : Workplace}
    (h : (Backend.run p).run w = (.ok a, v)) (f : α → StoreM β) :
    (Backend.run (p >>= f)).run w = (Backend.run (f a)).run v := by
  rw [Backend.run_bind, Fallible.run_bind_ok h]

theorem run_reading {α : Type} (h : Healthy w) (f : Contents → α) :
    (do return f (← Backend.load) : BackendM Workplace α).run w =
      (.ok (f (w.later 1).contents), w.past 1) :=
  Fallible.run_bind_ok (run_load h) _

theorem run_text (h : Healthy w) {key : String} {found : Option String}
    (there : textAt (w.later 1).contents key = .ok found) :
    (Backend.run (Store.text key)).run w = (.ok found, w.past 1) := by
  have answered : (Backend.run (Store.perform (.text key))).run w =
      (.ok (textAt (w.later 1).contents key), w.past 1) := run_reading h fun c => textAt c key
  rw [there] at answered
  exact (run_then answered _).trans rfl

theorem run_value (h : Healthy w) (key : String) : (Backend.run (Store.get key)).run w =
    (.ok (((w.later 1).contents.get? key).getD .null), w.past 1) :=
  run_reading h fun c => (c.get? key).getD .null

theorem run_keys (h : Healthy w) :
    (Backend.run Store.keys).run w = (.ok (w.later 1).contents.keys, w.past 1) :=
  run_reading h OrderedMap.keys

theorem run_snapshot (h : Healthy w) :
    (Backend.run Store.snapshot).run w = (.ok (w.later 1).contents, w.past 1) :=
  run_load h

/-- A double is read twice, and what is found the second time counts. -/
theorem run_double (h : Healthy w) (key : String) {x y : Float}
    (first : (w.later 1).contents.get? key = some (.float x))
    (second : (w.later 2).contents.get? key = some (.float y)) :
    (Backend.run (Store.double key)).run w = (.ok y, w.past 2) := by
  have again := run_value (h.past 1) key
  rw [later_past, past_past, second] at again
  have number : (Backend.run (Store.number key)).run (w.past 1) = (.ok (some y), w.past 2) := by
    unfold Store.number
    rw [run_then again]
    rfl
  unfold Store.double
  rw [run_then (run_value h key), first]
  change (Backend.run (Store.number key >>= _)).run (w.past 1) = _
  rw [run_then number]
  rfl

theorem run_storedParameters (h : Healthy w) (readable : Decodes (w.later 1).contents) :
    (Backend.run storedParameters).run w = (.ok (parametersOf (w.later 1).contents), w.past 1) := by
  have decoded := runOn_storedParameters readable
  unfold storedParameters at decoded ⊢
  rw [runOn_bind_ok (runOn_snapshot _), runOn_ofNumber] at decoded
  rw [run_then (run_snapshot h)]
  generalize decodeParameters _ _ = found at decoded ⊢
  cases found with
  | error e => cases decoded
  | ok vs =>
    cases decoded
    rfl

/-- Inside a section nobody else writes. -/
theorem run_removal (faultless : ∀ n, w.faults n = none) (held : w.locked = true)
    (keys : List String) : ∃ n, (Backend.removal keys).run w = (.ok (), w.moved { w.traffic with
      contents := keys.foldl OrderedMap.erase w.traffic.contents } n) := by
  have still : giveWay.run w = (.ok (), w) := by rw [giveWay, Fallible.run_modify, if_pos held]
  have read : (Backend.load : BackendM Workplace Contents).run w =
      (.ok w.traffic.contents, w.moved w.traffic (w.uses + 1)) := by
    change (giveWay >>= _).run w = _
    rw [Fallible.run_bind_ok still, Fallible.run_bind_ok (run_use faultless)]
    rfl
  unfold Backend.removal
  rw [Fallible.run_bind_ok read]
  cases changed : (Backend.erased keys w.traffic.contents).2 with
  | false =>
    have unchanged : keys.foldl OrderedMap.erase w.traffic.contents = w.traffic.contents :=
      erased_unchanged changed
    refine ⟨w.uses + 1, ?_⟩
    rw [unchanged]
    simp only [changed]
    rfl
  | true =>
    refine ⟨w.uses + 1 + 1, ?_⟩
    simp only [changed, if_true]
    change (use >>= _).run _ = _
    rw [Fallible.run_bind_ok (run_use (w := w.moved w.traffic (w.uses + 1)) faultless)]
    rfl

/-- What is removed is removed from the contents of that moment. -/
theorem run_removeAll (h : Healthy w) (keys : List String) : ∃ n,
    (Backend.run (Store.removeAll keys)).run w = (.ok (), w.moved { w.later 1 with
      contents := keys.foldl OrderedMap.erase (w.later 1).contents } n) := by
  obtain ⟨n, removed⟩ := run_removal (w := { w.past 1 with locked := true }) h.faultless rfl keys
  refine ⟨n, ?_⟩
  change (Backend.exclusively (Backend.removal keys)).run w = _
  rw [Backend.run_exclusively, run_enter h]
  simp only [removed]
  exact congrArg (Prod.mk _) (locked_again h.free _ n)

/-! ## Commands -/

/-- Each part of a command is read from the contents of its own moment. -/
theorem run_readCommand (h : Healthy w) {identifier nonce : String} {x y : Float}
    (hi : textAt (w.later 1).contents commandIdentifier = .ok (some identifier))
    (hn : textAt (w.later 2).contents commandNonce = .ok (some nonce))
    (first : (w.later 4).contents.get? commandTimestamp = some (.float x))
    (second : (w.later 5).contents.get? commandTimestamp = some (.float y))
    (readable : Decodes (w.later 6).contents) :
    (Backend.run readCommand).run w = (.ok (some {
      identifier, nonce, timestamp := y
      parameters := parametersOf (w.later 6).contents
      userConfirmed := confirmationAt (w.later 3).contents }), w.past 6) := by
  have reads : ∀ k, Healthy (w.past k) := fun k => h.past k
  have nonceRead := run_text (reads 1) (by rw [later_past]; exact hn)
  have confirmationRead := run_value (reads 2) userConfirmed
  have timestampRead := run_double (w := w.past 3) (reads 3) commandTimestamp (x := x)
    (y := y) (by rw [later_past]; exact first) (by rw [later_past]; exact second)
  have parametersRead := run_storedParameters (w := w.past 5) (reads 5)
    (by rw [later_past]; exact readable)
  rw [later_past, past_past] at confirmationRead parametersRead
  rw [past_past] at nonceRead timestampRead
  unfold readCommand
  rw [run_then (run_text h hi), run_then nonceRead]
  simp only
  rw [run_then confirmationRead, run_then timestampRead, run_then parametersRead]
  rfl

/-- A clear whose check finds another nonce does nothing. -/
theorem run_clearCommand_replaced (h : Healthy w) {nonce found : Option String}
    (there : textAt (w.later 1).contents commandNonce = .ok found) (different : found ≠ nonce) :
    (Backend.run (clearCommand nonce)).run w = (.ok false, w.past 1) := by
  unfold clearCommand
  rw [run_then (run_text h there), if_neg (by simpa using different)]
  rfl

/-- A clear whose check finds the nonce takes the keys from the contents of the next use and removes
them from those of the one after it. -/
theorem run_clearCommand (h : Healthy w) {nonce : Option String}
    (same : textAt (w.later 1).contents commandNonce = .ok nonce) : ∃ n,
    (Backend.run (clearCommand nonce)).run w = (.ok true, w.moved { w.later 3 with
      contents := (staleKeys (w.later 2).contents).foldl OrderedMap.erase (w.later 3).contents } n) := by
  have keysRead := run_keys (h.past 1)
  rw [later_past, past_past] at keysRead
  obtain ⟨n, removed⟩ := run_removeAll (h.past 2) (staleKeys (w.later 2).contents)
  rw [later_past] at removed
  refine ⟨n, ?_⟩
  unfold clearCommand
  rw [run_then (run_text h same), if_pos (beq_self_eq_true _), run_then keysRead]
  exact (run_then removed _).trans rfl

/-- A command that is read is collected, whichever nonce its clear finds. -/
theorem run_collectCommand (h : Healthy w) {command : Command} {k : Nat} {found : Option String}
    (read : (Backend.run readCommand).run w = (.ok (some command), w.past k))
    (there : textAt ((w.past k).later 1).contents commandNonce = .ok found) : ∃ cleared t n,
    (Backend.run collectCommand).run w = (.ok (some (command, cleared)), w.moved t n) := by
  unfold collectCommand
  rw [run_then read]
  by_cases same : found = some command.nonce
  · subst same
    obtain ⟨n, cleared⟩ := run_clearCommand (h.past k) there
    exact ⟨true, _, n, (run_then cleared _).trans rfl⟩
  · have kept := run_clearCommand_replaced (h.past k) there same
    exact ⟨false, _, _, (run_then kept _).trans rfl⟩

/-! ## One intent among the uses -/

/-- How often the intent has been granted a request before the `k`-th of the next uses. -/
def granted (plan : Nat → Nat) (uses : Nat) : Nat → Nat
  | 0 => 0
  | k + 1 => granted plan uses k + plan (uses + k)

end Workplace

/-- An intent that only writes has written the first entries after as many turns. -/
theorem advance_writes {ws : List (String × Document)} {p : Process} {a : Except Failure (Option String)}
    (h : p.Writes ws a) (c : Contents) (turns : Nat) : ∃ q : Process, q.Writes (ws.drop turns) a ∧
      (List.replicate turns 0).foldl Traffic.advance ⟨c, [p]⟩ = ⟨c.putAll (ws.take turns), [q]⟩ := by
  induction turns generalizing ws p c with
  | zero => exact ⟨p, h, rfl⟩
  | succ turns ih =>
    cases ws with
    | nil =>
      have ended : p = .done a := h
      subst ended
      have idle := ih h c
      rw [List.drop_nil, List.take_nil] at idle ⊢
      exact idle
    | cons w ws =>
      obtain ⟨next, rfl, rest⟩ := h
      exact ih rest (c.put w.1 w.2)

/-- The traffic once the first intent has had some more turns. -/
def Traffic.finish (t : Traffic) (turns : Nat) : Traffic :=
  (List.replicate turns 0).foldl Traffic.advance t

/-- An intent that only writes has written everything after enough turns. -/
theorem finish_writes {ws : List (String × Document)} {p : Process} {a : Except Failure (Option String)}
    (h : p.Writes ws a) (c : Contents) {turns : Nat} (enough : ws.length ≤ turns) :
    (Traffic.finish ⟨c, [p]⟩ turns).contents = c.putAll ws := by
  obtain ⟨q, -, ended⟩ := advance_writes h c turns
  rw [Traffic.finish, ended, List.take_of_length_le enough]

namespace Workplace

/-- A workplace that the application shares with one intent: before each use the intent has as many
turns as a plan says. -/
def shared (c : Contents) (intent : Process) (plan : Nat → Nat) : Workplace where
  traffic := ⟨c, [intent]⟩
  turns n := List.replicate (plan n) 0

theorem healthy_shared (c : Contents) (intent : Process) (plan : Nat → Nat) :
    (shared c intent plan).Healthy :=
  ⟨fun _ => rfl, rfl⟩

/-- What the uses find where a single intent writes between them. -/
theorem later_writes {w : Workplace} {plan : Nat → Nat}
    (turns : ∀ n, w.turns n = List.replicate (plan n) 0)
    {ws : List (String × Document)} {p : Process} {a : Except Failure (Option String)}
    (h : p.Writes ws a) {c : Contents} (start : w.traffic = ⟨c, [p]⟩) (k : Nat) : ∃ q : Process,
    q.Writes (ws.drop (granted plan w.uses k)) a ∧
      w.later k = ⟨c.putAll (ws.take (granted plan w.uses k)), [q]⟩ := by
  induction k with
  | zero => exact ⟨p, h, start⟩
  | succ k ih =>
    obtain ⟨q, rest, found⟩ := ih
    obtain ⟨q', rest', moved⟩ := advance_writes rest
      (c.putAll (ws.take (granted plan w.uses k))) (plan (w.uses + k))
    refine ⟨q', ?_, ?_⟩
    · rw [List.drop_drop] at rest'
      exact rest'
    · rw [later, found, turns, moved, granted, List.take_add, OrderedMap.putAll_append]

end Workplace

end ShortcutRelay
