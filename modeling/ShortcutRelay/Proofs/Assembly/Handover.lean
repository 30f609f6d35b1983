import ShortcutRelay.Proofs.Assembly.Admission
import ShortcutRelay.Proofs.Protocol.Resolved

/-!
# What becomes of a command that a look finds

A look for a command reads it, clears it, and brings its parameters to their types before it calls the
listeners.

* `Reaches i names found calls` : calls hand an invocation to all of some listeners,
  `run_callListeners`;
* `LookEnds w` : how a look ends, with nothing, with a command that stays, with one that is lost or
  with one that every listener gets;
* `look_ends` : each look ends so;
* `late_command_lost` : a command that no listener gets.
-/

namespace ShortcutRelay.Assembly
open Protocol App

variable {host : Host Minutes (List Turn)} {w : Room}

/-! ## Calls -/

/-- The calls hand the invocation to all of the listeners, in their order, and the first one is made
with these contents in the store. Listeners may have caused other calls in between. -/
structure Reaches (i : Invocation) (names : List String) (found : Contents) (calls : List Call) : Prop where
  everyone : (names.map (·, i)).Sublist (calls.map fun call => (call.listener, call.invocation))
  first : calls.head?.map (·.found) = names.head?.map fun _ => found

/-- Every listener is called, whatever the listeners do. -/
theorem run_callListeners (behaves : Behaves host) (i : Invocation) (names : List String)
    (orderly : Orderly w) : ∃ v calls, (callListeners host i names).run w = (.ok (), v) ∧
      v.around.called = w.around.called ++ calls ∧ Reaches i names w.around.contents calls := by
  induction names generalizing w with
  | nil => exact ⟨w, [], rfl, (List.append_nil _).symm, .slnil, rfl⟩
  | cons name names ih =>
    obtain ⟨v, one, later⟩ := run_callListeners_cons behaves i name names orderly
    obtain ⟨meanwhile, nonces, record⟩ := later.record
    obtain ⟨u, calls, others, called, reaches⟩ := ih later.orderly
    -- what the listener causes comes on record between its own call and the next one
    refine ⟨u, ⟨name, i, w.around.contents⟩ :: (meanwhile ++ calls), one.trans others, ?_, ?_, rfl⟩
    · rw [called, record.called, List.append_assoc]
      exact List.append_assoc ..
    · rw [List.map_cons, List.map_cons, List.map_append]
      exact (reaches.everyone.trans (List.sublist_append_right ..)).cons_cons _

/-! ## Looks for a command -/

/-- How a look for a command ends.

* `nothing` : there is no command, and nothing happens;
* `illegible` : the identifier or the nonce is a whole number with too many digits; the look raises it, and
  the command stays where it is;
* `unreadable` : the command has a number that fits no double; the look raises it, and the command stays
  where it is;
* `lost` : the command has a parameter that stands for a moment outside the calendar; the command is
  removed, the look raises it, and no listener is called;
* `handedOver` : the command is removed, and every listener is called with an invocation that carries
  it. -/
inductive LookEnds (w : Room) : Except Failure (Option Command) × Room → Prop
  | nothing {identifier nonce : Option String}
    (named : textAt w.around.contents commandIdentifier = .ok identifier)
    (numbered : textAt w.around.contents commandNonce = .ok nonce)
    (incomplete : identifier = none ∨ nonce = none) : LookEnds w (.ok none, w)
  | illegible {key : String} {n : Int} (entry : key = commandIdentifier ∨ key = commandNonce)
    (stored : w.around.contents.get? key = some (.int n)) (long : Decimal.isWritable n = false) :
    LookEnds w (.error (.number .tooManyDigits), w)
  | unreadable {identifier nonce : String}
    (named : textAt w.around.contents commandIdentifier = .ok (some identifier))
    (numbered : textAt w.around.contents commandNonce = .ok (some nonce))
    (oversized : Oversized w.around.contents) : LookEnds w (.error (.number .tooLarge), w)
  | lost {command : Command} (e : Calendar.CalendarError) (pending : Pending w.around.contents command)
    (timeless : command.Timeless w.config) :
    LookEnds w (.error (.calendar e), holding w (cleared w.around.contents))
  | handedOver {command : Command} {i : Invocation} {calls : List Call} {v : Room}
    (pending : Pending w.around.contents command) (timely : ¬ command.Timeless w.config)
    (carries : i.Carries w.config command) (called : v.around.called = w.around.called ++ calls)
    (reaches : Reaches i w.manager.listeners (cleared w.around.contents) calls) :
    LookEnds w (.ok (some command), v)

variable {b : Bridge (List Turn)}

/-- A command with a moment outside the calendar is raised once it has been removed. -/
theorem run_attend_timeless (host : Host Minutes (List Turn)) (orderly : Orderly w)
    (there : w.bridge = some b) (installed : b.callback = some .manager) {command : Command}
    (pending : Pending w.around.contents command) (timeless : command.Timeless w.config) : ∃ e,
    (attend host).run w = (.error (.calendar e), holding w (cleared w.around.contents)) := by
  obtain ⟨e, failed⟩ := ofCommand_timeless timeless
  refine ⟨e, ?_⟩
  have raised := run_deliver_undecoded host (w := holding w (cleared w.around.contents)) failed
  rw [run_attend_manager host orderly there installed pending]
  exact Fallible.run_bind_error raised _

/-- Any other command reaches every listener. -/
theorem run_deliver_timely (behaves : Behaves host) (orderly : Orderly w)
    (somebody : w.manager.listeners ≠ []) {command : Command} (timely : ¬ command.Timeless w.config) :
    ∃ i v calls, (deliver host .manager command).run w = (.ok (), v) ∧ i.Carries w.config command ∧
      v.around.called = w.around.called ++ calls ∧
      Reaches i w.manager.listeners w.around.contents calls := by
  obtain ⟨i, decoded, carries⟩ := carries_of_not_timeless timely
  obtain ⟨v, calls, ran, called, reaches⟩ := run_callListeners behaves i w.manager.listeners orderly
  refine ⟨i, v, calls, ?_, carries, called, reaches⟩
  rw [run_deliver_decoded host decoded]
  cases listeners : w.manager.listeners with
  | nil => exact absurd listeners somebody
  | cons name names =>
    rw [listeners] at ran
    rw [run_invoke host listeners]
    exact ran

/-- Whatever the store holds and whatever the listeners do: a look for a command finds none, or one that
it cannot read, for its texts or for its numbers, and leaves where it is, or one whose moments lie outside
the calendar, which is lost, or it removes a command that every listener gets. -/
theorem look_ends (conduct : Conduct) (depth : Nat) (orderly : Orderly w) (there : w.bridge = some b)
    (installed : b.callback = some .manager) (somebody : w.manager.listeners ≠ []) :
    LookEnds w ((attend (hostOf conduct (player conduct depth))).run w) := by
  have behaves := behaves_hostOf conduct (proceeds_player conduct depth)
  generalize hostOf conduct (player conduct depth) = host at behaves ⊢
  have collected := run_onStore collectCommand w
  have nothing {identifier nonce : Option String}
      (named : textAt w.around.contents commandIdentifier = .ok identifier)
      (numbered : textAt w.around.contents commandNonce = .ok nonce)
      (incomplete : identifier = none ∨ nonce = none) : LookEnds w ((attend host).run w) := by
    rw [collectCommand, runOn_bind_ok (runOn_readCommand_none named numbered incomplete)] at collected
    rw [attend_nothing host (run_openStore w) there installed collected]
    exact .nothing named numbered incomplete
  have illegible {key : String} {e : NumberError} (entry : key = commandIdentifier ∨ key = commandNonce)
      (long : textAt w.around.contents key = .error e)
      (failed : runOn readCommand w.around.contents = (.error (.number e), w.around.contents)) :
      LookEnds w ((attend host).run w) := by
    obtain rfl := textAt_error long
    obtain ⟨n, stored, digits⟩ := textAt_eq_error_iff.mp long
    rw [collectCommand, runOn_bind, failed] at collected
    rw [attend_unreadable host (run_openStore w) there installed collected]
    exact .illegible entry stored digits
  rcases named : textAt w.around.contents commandIdentifier with e | name
  · exact illegible (.inl rfl) named (runOn_readCommand_error (.inl named))
  rcases numbered : textAt w.around.contents commandNonce with e | number
  · exact illegible (.inr rfl) numbered (runOn_readCommand_error (.inr ⟨numbered, name, named⟩))
  rcases name with _ | identifier
  · exact nothing named numbered (.inl rfl)
  rcases number with _ | nonce
  · exact nothing named numbered (.inr rfl)
  · -- numbers are read before the command is cleared, and moments are made after it
    by_cases oversized : Oversized w.around.contents
    · rw [collectCommand, runOn_bind, runOn_readCommand_oversized named numbered oversized] at collected
      rw [attend_unreadable host (run_openStore w) there installed collected]
      exact .unreadable named numbered oversized
    · obtain ⟨command, pending⟩ := pending_of_not_oversized named numbered oversized
      by_cases timeless : command.Timeless w.config
      · obtain ⟨e, failed⟩ := run_attend_timeless host orderly there installed pending timeless
        rw [failed]
        exact .lost e pending timeless
      · have taken := (later_holding orderly (fades_cleared w.around.contents)).orderly
        obtain ⟨i, v, calls, ran, carries, called, reaches⟩ :=
          run_deliver_timely behaves taken somebody timeless
        rw [run_attend_manager host orderly there installed pending, Fallible.run_bind_ok ran]
        exact .handedOver pending timeless carries called reaches

/-! ## An application that waits for a reminder -/

/-- A listener that does nothing else. -/
def attentive : Conduct where
  listen _ _ _ := .atOnce {}
  patient _ _ _ _ waits := by cases waits

def reminder (due : Float) : Draft where
  identifier := "startTimer"
  nonce := "N1"
  parameters := [("due", .date, .float due)]

def reminded (due : Float) : Command :=
  (reminder due).command [("due", .timestamp due)]

/-- An application with one listener, and a reminder that waits. -/
def awaiting (due : Float) : Room where
  around := { contents := (reminder due).written [("due", .timestamp due)] .empty }
  bridge := some { callback := some .manager, token := some 1 }
  manager := { listeners := ["app"], registered := true }

theorem orderly_awaiting (due : Float) : Orderly (awaiting due) :=
  ⟨⟨List.nodup_singleton _, rfl⟩, ⟨_, rfl, rfl⟩, nofun, nofun⟩

theorem pending_awaiting (due : Float) : Pending (awaiting due).around.contents (reminded due) :=
  runOn_readCommand_alone (fun _ _ => rfl) (fun _ _ => rfl) (List.nodup_singleton _) rfl

/-- The reminder is lost just where its time lies outside the calendar. -/
theorem timeless_reminded (due : Float) :
    (reminded due).Timeless none ↔ ¬ Calendar.Moment.InCalendar due := by
  constructor
  · rintro ⟨v, there, x, seconds, outside⟩
    obtain rfl := List.mem_singleton.mp there
    obtain rfl : due = x := Option.some.inj seconds
    exact outside
  · intro outside
    exact ⟨_, List.mem_cons_self, due, rfl, outside⟩

theorem look_ends_reminder :
    let w := awaiting 0.0
    w.manager.listeners ≠ [] ∧ ∃ v, (attend (hostOf attentive (player attentive 1))).run w =
      (.ok (some (reminded 0.0)), v) ∧ ∃ call ∈ v.around.called, call.listener = "app" ∧
        call.invocation.Carries none (reminded 0.0) := by
  intro w
  have somebody : w.manager.listeners ≠ [] := List.cons_ne_nil _ _
  have ends := look_ends attentive 1 (orderly_awaiting 0.0) rfl rfl somebody
  have pending := pending_awaiting 0.0
  have timely : ¬ (reminded 0.0).Timeless none := by
    rw [timeless_reminded, not_not, ← Calendar.Moment.ofEpoch_ok_iff]
    have made : (Calendar.Moment.ofEpoch 0.0).isOk = true := by decide +kernel
    generalize Calendar.Moment.ofEpoch 0.0 = moment at made ⊢
    cases moment with
    | ok m => exact ⟨m, rfl⟩
    | error e => cases made
  refine ⟨somebody, ?_⟩
  generalize (attend (hostOf attentive (player attentive 1))).run (awaiting 0.0) = outcome at ends ⊢
  cases ends with
  | nothing unnamed unnumbered incomplete =>
    obtain ⟨named, numbered⟩ := pending.texts
    rcases incomplete with rfl | rfl
    · cases named.symm.trans unnamed
    · cases numbered.symm.trans unnumbered
  | illegible entry stored long =>
    obtain ⟨named, numbered⟩ := pending.texts
    have failed := textAt_eq_error_iff.mpr ⟨_, stored, long⟩
    rcases entry with rfl | rfl
    · cases named.symm.trans failed
    · cases numbered.symm.trans failed
  | unreadable named numbered oversized => exact absurd oversized pending.not_oversized
  | lost e pending' timeless =>
    rw [← pending.unique pending'] at timeless
    exact absurd timeless timely
  | handedOver pending' timely carries called reaches =>
    obtain rfl := pending.unique pending'
    refine ⟨_, rfl, ?_⟩
    rw [called]
    have here := reaches.everyone.subset (List.mem_singleton.mpr rfl)
    obtain ⟨call, made, same⟩ := List.mem_map.mp here
    obtain ⟨listener, invocation⟩ := Prod.mk.inj same
    exact ⟨call, made, listener, invocation ▸ carries⟩

/-- The listener is not called, and the reminder is gone. -/
theorem late_command_lost :
    let w := awaiting 1700000000000.0
    Pending w.around.contents (reminded 1700000000000.0) ∧ w.manager.listeners = ["app"] ∧
      ∃ e v, (attend (hostOf attentive (player attentive 1))).run w = (.error (.calendar e), v) ∧
        v.around.called = [] ∧ NoCommand v.around.contents ∧ NoParameters v.around.contents := by
  intro w
  have pending := pending_awaiting 1700000000000.0
  have late : Calendar.Moment.ofEpoch 1700000000000.0 = .error (.year 55840) := by decide +kernel
  have timeless : (reminded 1700000000000.0).Timeless none := by
    rw [timeless_reminded, ← Calendar.Moment.ofEpoch_ok_iff, late]
    rintro ⟨m, ⟨⟩⟩
  obtain ⟨e, failed⟩ := run_attend_timeless (hostOf attentive (player attentive 1))
    (orderly_awaiting _) rfl rfl pending timeless
  exact ⟨pending, rfl, e, _, failed, rfl, noCommand_cleared _, noParameters_cleared _⟩

end ShortcutRelay.Assembly
