import ShortcutRelay.Proofs.Intent.State
import ShortcutRelay.Proofs.App.Invocation
import ShortcutRelay.Proofs.Protocol.Passage
import ShortcutRelay.Proofs.Protocol.Writes

/-!
# The course of a run of an intent

Whatever the user answers, a run goes through the same phases: it asks and reads the application's
state, writes its parameters and its command, notifies, and then looks for its own reply.

* `Guest` : a run of an intent whose values can be written, `Guest.draft` : the command that it writes;
* `Phase`, `Guest.Passes` : the requests that belong to a phase, and what each leads to;
* `Guest.Follows` : a program keeps to the phases, `follows_bind` and companions take it apart;
* `follows_perform` : a run keeps to them.
-/

namespace ShortcutRelay.Company
open Protocol Intent

/-- The value of a parameter when the missing ones have been asked for. -/
def filledIn (asks : Bool) (answers : Parameter → Document) (values : OrderedMap Document)
    (p : Parameter) : Document :=
  if Runner.isMissing (Runner.valueOf values p) && asks then answers p else Runner.valueOf values p

/-- A run of an intent: the values that it was given, its nonce, and the answers of the one who is asked
for the missing values. Its parameters have names of their own, and the values that it ends up with
can be encoded. -/
structure Guest where
  runner : Runner
  values : OrderedMap Document
  nonce : String
  answers : Parameter → Document
  encoded : List (String × StoredValue)
  distinct : (runner.shortcut.parameters.map (·.name)).Nodup
  encodable : encodeAll (presentParameters (filledIn runner.asks answers values)
    runner.shortcut.parameters) = .ok encoded

namespace Guest

/-- The command that a run writes at a time, where the application's state is that of some contents. -/
def draft (g : Guest) (c : Contents) (time : Float) : Draft where
  identifier := g.runner.shortcut.identifier
  nonce := g.nonce
  parameters := presentParameters (filledIn g.runner.asks g.answers g.values)
    g.runner.shortcut.parameters
  confirmed := if g.runner.shortcut.hasConfirmation then
    some (g.runner.shortcut.stateDialogs.any (isMatching c)) else none
  time := time

end Guest

/-! ## Phases -/

/-- How far a run has come: it has not begun to write; it has some entries left to write, the command
itself once it has the time; it looks for its reply; it has found one; it has taken it. -/
inductive Phase
  | before
  | writing (time : Option Float) (left : List (String × Document))
  | looking (time : Float)
  | found (time : Float) (message : String)
  | taken (time : Float) (message : String)

def ReadsState : StoreRequest → Prop
  | .text key | .value key => ∃ name, key = stateEntry name
  | _ => False

/-- Which requests a run may make in a phase, and what their answers lead to. -/
def Guest.Passes (g : Guest) (c : Contents) : Phase → (r : IntentRequest) → r.Result → Phase → Prop
  | .before, .open, a, φ => a = (.ok () : Except Failure Unit) ∧ φ = .before
  | .before, .store r, a, φ => ReadsState r ∧ a = (.ok (r.effect c).1 : Except Failure _) ∧ φ = .before
  | .before, .ask p _, a, φ => a = g.answers p ∧ φ = .before
  | .before, .confirm _, _, φ => φ = .before
  | .before, .report _, _, φ => φ = .before
  | .before, .newNonce, a, φ => a = g.nonce ∧ φ = .writing none (allParameterWrites g.encoded)
  | .writing time (w :: ws), .store (.put key v), a, φ =>
    w = (key, v) ∧ a = (.ok () : Except Failure Unit) ∧ φ = .writing time ws
  | .writing none [], .wallClock, time, φ => φ = .writing (some time) (commandWrites (g.draft c time))
  | .writing (some time) [], .post name, _, φ => name = commandNotification ∧ φ = .looking time
  | .looking time, .clock, _, φ => φ = .looking time
  | .looking time, .sleep _, _, φ => φ = .looking time
  | .looking time, .report _, _, φ => φ = .looking time
  | .looking time, .store (.text key), a, φ =>
    key = replyEntry g.nonce ∧
      (a = (.ok (.ok none) : Except Failure (Except NumberError (Option String))) ∧ φ = .looking time ∨
        ∃ m, a = (.ok (.ok (some m)) : Except Failure (Except NumberError (Option String))) ∧
          φ = .found time m)
  | .found time m, .store (.remove key), a, φ =>
    key = replyEntry g.nonce ∧ a = (.ok () : Except Failure Unit) ∧ φ = .taken time m
  | _, _, _, _ => False

/-- The program makes only requests of the phase that it is in, and where it ends it ends well. -/
def Guest.Follows (g : Guest) (c : Contents) {α : Type} (ends : Phase → α → Prop) :
    Phase → Program intentInterface α → Prop
  | φ, .done a => ends φ a
  | φ, .ask r next =>
    (∃ a ψ, g.Passes c φ r a ψ) ∧ ∀ a ψ, g.Passes c φ r a ψ → g.Follows c ends ψ (next a)

variable {g : Guest} {c : Contents} {α β : Type} {φ : Phase}

abbrev Ending (α : Type) := Phase → Except Failure α → Prop

theorem follows_imp {γ : Type} {P Q : Phase → γ → Prop} {p : Program intentInterface γ}
    (hp : g.Follows c P φ p) (h : ∀ ψ a, P ψ a → Q ψ a) : g.Follows c Q φ p := by
  induction p generalizing φ with
  | done a => exact h φ a hp
  | ask r next ih => exact ⟨hp.1, fun a ψ passes => ih a (hp.2 a ψ passes)⟩

theorem follows_then {γ δ : Type} {P : Phase → γ → Prop} {Q : Phase → δ → Prop}
    {p : Program intentInterface γ} {f : γ → Program intentInterface δ} (hp : g.Follows c P φ p)
    (hf : ∀ ψ a, P ψ a → g.Follows c Q ψ (f a)) : g.Follows c Q φ (p >>= f) := by
  induction p generalizing φ with
  | done a => exact hf φ a hp
  | ask r next ih => exact ⟨hp.1, fun a ψ passes => ih a (hp.2 a ψ passes)⟩

/-- A program followed by another one, where the failures of the first one are allowed in the end. -/
theorem follows_bind {P : Ending α} {Q : Ending β} {p : IntentM α} {f : α → IntentM β}
    (hp : g.Follows c P φ p.run) (hf : ∀ ψ a, P ψ (.ok a) → g.Follows c Q ψ (f a).run)
    (he : ∀ ψ e, P ψ (.error e) → Q ψ (.error e)) : g.Follows c Q φ (p >>= f).run := by
  refine follows_then (p := p.run) hp fun ψ r ended => ?_
  cases r with
  | ok a => exact hf ψ a ended
  | error e => exact he ψ e ended

theorem follows_tryCatch {P Q : Ending α} {p : IntentM α} {handle : Failure → IntentM α}
    (hp : g.Follows c P φ p.run) (hok : ∀ ψ a, P ψ (.ok a) → Q ψ (.ok a))
    (hf : ∀ ψ e, P ψ (.error e) → g.Follows c Q ψ (handle e).run) :
    g.Follows c Q φ (tryCatch p handle).run := by
  refine follows_then (p := p.run) hp fun ψ r ended => ?_
  cases r with
  | ok a => exact hok ψ a ended
  | error e => exact hf ψ e ended

/-- One request that cannot fail. -/
theorem follows_request {r : IntentRequest} {P : Ending r.Result} (may : ∃ a ψ, g.Passes c φ r a ψ)
    (ends : ∀ a ψ, g.Passes c φ r a ψ → P ψ (.ok a)) : g.Follows c P φ (request r).run :=
  ⟨may, ends⟩

/-! ## Uses of the store -/

/-- Reads of the application's state find what the contents have. -/
theorem follows_reads {p : StoreM α} (reads : Asks ReadsState p) :
    g.Follows c (fun ψ r => ψ = .before ∧ r = (runOn p c).1) .before (onStore p).run := by
  suffices h : ∀ q : Program storeInterface (Except Failure α), Program.Asks ReadsState q →
      g.Follows c (fun ψ r => ψ = .before ∧ r = (runOn (ExceptT.mk q) c).1) .before
        (onStore (ExceptT.mk q)).run from h p.run reads
  intro q asks
  induction q with
  | done r => exact ⟨rfl, rfl⟩
  | ask r next ih =>
    have same : (r.effect c).2 = c := by
      have read := asks.1
      cases r <;> first | rfl | exact read.elim
    refine ⟨⟨_, _, asks.1, rfl, rfl⟩, ?_⟩
    rintro a ψ ⟨-, rfl, rfl⟩
    refine follows_imp (ih (.ok (r.effect c).1) (asks.2 _)) ?_
    rintro ψ a ⟨rfl, rfl⟩
    have ran := runOn_ask r next c
    rw [same] at ran
    exact ⟨rfl, congrArg Prod.fst ran.symm⟩

/-- A program that writes entries writes those that come next. -/
theorem follows_writes {p : StoreM α} {ws : List (String × Document)} {a : α} (writes : Writes ws p a)
    (time : Option Float) (left : List (String × Document)) :
    g.Follows c (fun ψ r => ψ = .writing time left ∧ r = .ok a) (.writing time (ws ++ left))
      (onStore p).run := by
  suffices h : ∀ q : Program storeInterface (Except Failure α), q.Writes ws (.ok a) →
      g.Follows c (fun ψ r => ψ = .writing time left ∧ r = .ok a) (.writing time (ws ++ left))
        (onStore (ExceptT.mk q)).run from h p.run writes
  clear writes
  intro q writes
  induction ws generalizing q with
  | nil =>
    obtain rfl : q = .done (.ok a) := writes
    exact ⟨rfl, rfl⟩
  | cons w ws ih =>
    obtain ⟨next, rfl, rest⟩ := writes
    refine ⟨⟨.ok (), _, rfl, rfl, rfl⟩, ?_⟩
    rintro b ψ ⟨-, rfl, rfl⟩
    exact ih (next (.ok ())) rest

/-! ## Values and dialogs -/

/-- A missing value is asked for once, and the answer stays: no later parameter has its name. -/
theorem follows_fillMissing (r : Runner) {ps : List Parameter} (distinct : (ps.map (·.name)).Nodup)
    (values : OrderedMap Document) (index : Nat) :
    g.Follows c (fun ψ result => ψ = .before ∧ ∃ filled, result = .ok filled ∧
        Filled r.asks g.answers ps values filled) .before
      (r.fillMissing values index ps).run := by
  induction ps generalizing values index with
  | nil => exact ⟨rfl, values, rfl, filled_nil⟩
  | cons p ps ih =>
    rw [List.map_cons, List.nodup_cons] at distinct
    cases missing : Runner.isMissing (Runner.valueOf values p) && r.asks with
    | false =>
      rw [fillMissing_kept missing]
      refine follows_imp (ih distinct.2 values (index + 1)) ?_
      rintro ψ result ⟨rfl, filled, rfl, rest⟩
      exact ⟨rfl, filled, rfl, rest.of_kept distinct.1 missing⟩
    | true =>
      rw [fillMissing_asked missing]
      refine follows_bind (follows_request (r := .ask p _)
        (P := fun ψ (a : Except Failure Document) => ψ = .before ∧ a = .ok (g.answers p))
        ⟨_, _, rfl, rfl⟩ ?_) ?_ ?_
      · rintro a ψ ⟨rfl, rfl⟩
        exact ⟨rfl, rfl⟩
      · rintro ψ a ⟨rfl, answered⟩
        cases answered
        refine follows_imp (ih distinct.2 (values.put p.name (g.answers p)) (index + 1)) ?_
        rintro ψ result ⟨rfl, filled, rfl, rest⟩
        exact ⟨rfl, filled, rfl, rest.of_asked distinct.1 missing⟩
      · rintro ψ e ⟨-, failed⟩
        cases failed

theorem readsState_text (name : String) : ReadsState (.text (stateEntry name)) :=
  ⟨name, rfl⟩

theorem readsState_number (name : String) : Asks ReadsState (Store.number (stateEntry name)) :=
  asks_bind (asks_perform (r := .value (stateEntry name)) ⟨name, rfl⟩) fun _ => asks_ofNumber _

theorem readsState_stateMatches (name : String) (expected : Document) :
    Asks ReadsState (stateMatches name expected) := by
  have double : Asks ReadsState (Store.double (stateEntry name)) := by
    refine asks_bind (asks_perform (r := .value (stateEntry name)) ⟨name, rfl⟩) fun v => ?_
    cases v with
    | null => exact asks_pure _
    | text s => exact asks_pure _
    | _ => exact asks_bind (readsState_number name) fun _ => asks_pure _
  have number : Asks ReadsState (do
      let stored ← Store.double (stateEntry name)
      return stored == (← Store.ofNumber expected.toFloat)) :=
    asks_bind double fun _ => asks_bind (asks_ofNumber _) fun _ => asks_pure _
  unfold stateMatches
  generalize expected.toFloat = x at number
  cases expected with
  | bool b => exact number
  | int n => exact number
  | float x => exact number
  | _ => exact asks_bind (asks_text (readsState_text name)) fun _ => asks_pure _

theorem readsState_isDue (d : ConditionalDialog) : Asks ReadsState (isDue d) := by
  refine asks_bind (readsState_stateMatches d.stateKey d.showWhen) fun matching => ?_
  cases matching with
  | false => exact asks_pure _
  | true => exact asks_bind (asks_ofNumber _) fun _ => asks_pure _

theorem readsState_interpolate (message : String) : Asks ReadsState (interpolate message) := by
  unfold interpolate
  generalize Template.placeholders message = names
  induction names generalizing message with
  | nil => exact asks_pure _
  | cons name names ih =>
    refine asks_bind (asks_bind (asks_text (readsState_text name)) fun found => ?_) fun _ => ih _
    cases found with
    | some value => exact asks_pure _
    | none =>
      refine asks_bind (readsState_number name) fun found => ?_
      cases found with
      | some x => exact asks_pure _
      | none => exact asks_pure _

/-- The walk through the dialogs only asks, and where the run goes on it knows which dialogs matched. -/
theorem follows_walkDialogs (r : Runner) (ds : List ConditionalDialog) (confirmed : Bool) (index : Nat) :
    g.Follows c (fun ψ result => ψ = .before ∧ ∀ b, result = .ok (.goesOn b) →
        b = (confirmed || ds.any (isMatching c))) .before (r.walkDialogs confirmed index ds).run := by
  induction ds generalizing confirmed index with
  | nil =>
    refine ⟨rfl, fun b went => ?_⟩
    cases went
    rw [List.any_nil, Bool.or_false]
  | cons d ds ih =>
    unfold Runner.walkDialogs
    have failed {ψ : Phase} {e : Failure} (h : ψ = .before) : ψ = .before ∧
        ∀ b, (.error e : Except Failure Runner.Walk) = .ok (.goesOn b) →
          b = (confirmed || (d :: ds).any (isMatching c)) := ⟨h, nofun⟩
    refine follows_bind (follows_reads (readsState_isDue d)) ?_
      fun ψ e h => failed h.1
    rintro ψ b ⟨rfl, due⟩
    rw [runOn_isDue] at due
    have shown : isMatching c d = b := isMatching_of_dueAt (of_mapError_eq_ok due.symm)
    rw [List.any_cons, shown]
    cases b with
    | false => exact ih confirmed (index + 1)
    | true =>
      refine follows_bind (follows_reads (readsState_interpolate _)) ?_ fun ψ e h => ⟨h.1, nofun⟩
      rintro ψ message ⟨rfl, -⟩
      cases d.requiresConfirmation with
      | false => exact ⟨rfl, fun b went => by cases went⟩
      | true =>
        refine follows_bind (P := fun ψ _ => ψ = .before) (p := Intent.confirm message)
          ⟨⟨.ok true, _, rfl⟩, fun a ψ passes => passes⟩ ?_ fun ψ e h => ⟨h, nofun⟩
        rintro ψ given rfl
        cases given with
        | false => exact ⟨rfl, nofun⟩
        | true =>
          rw [Bool.true_or, Bool.or_true]
          have rest := ih true (index + 1)
          rw [Bool.true_or] at rest
          exact rest

/-! ## The reply -/

/-- A look for the reply finds nothing, or finds it and takes it. -/
theorem follows_takeReply (time : Float) :
    g.Follows c (fun ψ result => result = .ok none ∧ ψ = .looking time ∨
        ∃ m, result = .ok (some m) ∧ ψ = .taken time m) (.looking time)
      (onStore (takeReply g.nonce)).run := by
  refine ⟨⟨.ok (.ok none), _, rfl, .inl ⟨rfl, rfl⟩⟩, ?_⟩
  rintro a ψ ⟨-, ⟨rfl, rfl⟩ | ⟨m, rfl, rfl⟩⟩
  · exact .inl ⟨rfl, rfl⟩
  · refine ⟨⟨.ok (), _, rfl, rfl, rfl⟩, ?_⟩
    rintro a ψ ⟨-, rfl, rfl⟩
    exact .inr ⟨m, rfl, rfl⟩

/-- The wait for the reply takes nothing but a reply to the run itself. -/
theorem follows_awaitReply (time timeout interval start : Float) (looks : Nat) :
    g.Follows c (fun ψ result => (∀ m, result ≠ .ok (some m)) ∧ ψ = .looking time ∨
        ∃ m, result = .ok (some m) ∧ ψ = .taken time m) (.looking time)
      (awaitReply g.nonce timeout interval start looks).run := by
  induction looks with
  | zero => exact .inl ⟨nofun, rfl⟩
  | succ looks ih =>
    unfold awaitReply
    refine follows_bind (follows_request (r := .clock) (P := fun ψ _ => ψ = .looking time)
      ⟨(0.0 : Float), _, rfl⟩ fun _ _ passes => passes) ?_ fun ψ e h => .inl ⟨nofun, h⟩
    rintro ψ now rfl
    split
    · refine follows_bind (follows_takeReply time) ?_ ?_
      · rintro ψ found (⟨none, rfl⟩ | ⟨m, some, rfl⟩)
        · cases none
          refine follows_bind (follows_request (r := .sleep interval)
            (P := fun ψ _ => ψ = .looking time) ⟨(), _, rfl⟩ fun _ _ passes => passes) ?_
            fun ψ e h => .inl ⟨nofun, h⟩
          rintro ψ _ rfl
          exact ih
        · cases some
          exact .inr ⟨m, rfl, rfl⟩
      · rintro ψ e (⟨none, -⟩ | ⟨m, some, -⟩)
        · cases none
        · cases some
    · exact .inl ⟨nofun, rfl⟩

/-! ## The whole run -/

/-- How a run may end: with its own reply once it has taken it, and else without one. -/
def Guest.Ends (g : Guest) : Ending IntentAnswer
  | .before, r => ∀ answer, r = .ok answer → answer.outcome ≠ .responded
  | .looking _, r => ∀ answer, r = .ok answer → answer.outcome ≠ .responded
  | .taken _ m, r => r = .ok { dialog := m, outcome := .responded, nonce := some g.nonce }
  | _, _ => False

theorem follows_newNonce (g : Guest) (c : Contents) :
    g.Follows c (fun ψ (a : Except Failure String) =>
        ψ = .writing none (allParameterWrites g.encoded) ∧ a = .ok g.nonce) .before
      (request .newNonce).run :=
  follows_request ⟨_, _, rfl, rfl⟩ fun _ _ ⟨same, ψ⟩ => ⟨ψ, congrArg _ same⟩

/-- Once the parameters are written, the command follows, the notification, and the wait. -/
theorem follows_rest (g : Guest) (c : Contents) {confirmed : Bool}
    (matched : confirmed = g.runner.shortcut.stateDialogs.any (isMatching c)) :
    g.Follows c g.Ends (.writing none []) (do
      let time : Float ← request .wallClock
      onStore <| postCommand g.runner.shortcut.identifier g.nonce
        (if g.runner.shortcut.hasConfirmation then some confirmed else none) (.float time)
      request (.post commandNotification)
      let start : Float ← request .clock
      match ← awaitReply g.nonce g.runner.timeout g.runner.interval start g.runner.looks with
      | some message => return { dialog := message, outcome := .responded, nonce := some g.nonce }
      | none =>
        request (.report (.intentTimedOut g.runner.shortcut.className))
        return { dialog := g.runner.systemText Localization.timedOut, outcome := .timedOut
                 nonce := some g.nonce } : IntentM IntentAnswer).run := by
  subst matched
  refine follows_bind (follows_request (r := .wallClock) (P := fun ψ (a : Except Failure Float) =>
      ∃ time, a = .ok time ∧ ψ = .writing (some time) (commandWrites (g.draft c time)))
    ⟨(0.0 : Float), _, rfl⟩ fun a _ passes => ⟨a, rfl, passes⟩) ?_ fun ψ e ⟨_, failed, _⟩ => by cases failed
  rintro ψ time ⟨_, same, rfl⟩
  cases same
  have command := follows_writes (g := g) (c := c) (writes_postCommand (g.draft c time)) (some time) []
  rw [List.append_nil] at command
  refine follows_bind command ?_ nofun
  rintro ψ _ ⟨rfl, -⟩
  refine follows_bind (follows_request (r := .post commandNotification)
    (P := fun ψ a => ψ = .looking time ∧ a = .ok ()) ⟨(), _, rfl, rfl⟩
    fun _ _ passes => ⟨passes.2, rfl⟩) ?_ nofun
  rintro ψ _ ⟨rfl, -⟩
  refine follows_bind (follows_request (r := .clock) (P := fun ψ (a : Except Failure Float) =>
      ψ = .looking time ∧ ∃ start, a = .ok start) ⟨(0.0 : Float), _, rfl⟩
    fun a _ passes => ⟨passes, a, rfl⟩) ?_ fun ψ e ⟨_, _, failed⟩ => by cases failed
  rintro ψ start ⟨rfl, -⟩
  refine follows_bind (follows_awaitReply time _ _ start _) ?_ ?_
  · rintro ψ found (⟨none, rfl⟩ | ⟨m, some, rfl⟩)
    · cases found with
      | some m => exact absurd rfl (none m)
      | none =>
        refine follows_bind (follows_request (r := .report _)
          (P := fun ψ a => ψ = .looking time ∧ a = .ok ()) ⟨(), _, rfl⟩
          fun _ _ passes => ⟨passes, rfl⟩) ?_ nofun
        rintro ψ _ ⟨rfl, -⟩ answer ended
        cases ended
        exact nofun
    · cases some
      rfl
  · rintro ψ e (⟨-, rfl⟩ | ⟨m, some, -⟩)
    · exact nofun
    · cases some

theorem follows_runOpen (g : Guest) (c : Contents) :
    g.Follows c g.Ends .before (g.runner.runOpen g.values).run := by
  unfold Runner.runOpen
  refine follows_bind (follows_fillMissing g.runner g.distinct g.values 0) ?_ ?_
  · rintro ψ filled ⟨rfl, filled', same, rest⟩
    cases same
    refine follows_bind (follows_walkDialogs g.runner _ false 0) ?_ ?_
    · rintro ψ walk ⟨rfl, went⟩
      cases walk with
      | ended message =>
        rintro answer ended
        cases ended
        exact nofun
      | goesOn confirmed =>
        have confirmed_eq : confirmed = _ := went confirmed rfl
        rw [Bool.false_or] at confirmed_eq
        refine follows_bind (follows_newNonce g c) ?_ nofun
        rintro ψ nonce ⟨rfl, same⟩
        cases same
        have written : Writes (allParameterWrites g.encoded)
            (Runner.writeValues filled g.runner.shortcut.parameters) () := by
          rw [writeValues_eq, presentParameters_congr rest.own]
          exact writes_storeParameters g.encodable
        have parameters := follows_writes (g := g) (c := c) written none []
        rw [List.append_nil] at parameters
        refine follows_bind parameters ?_ ?_
        · rintro ψ _ ⟨rfl, -⟩
          exact follows_rest g c confirmed_eq
        · rintro ψ e ⟨-, failed⟩
          cases failed
    · rintro ψ e ⟨rfl, -⟩
      exact nofun
  · rintro ψ e ⟨rfl, -⟩
    exact nofun

/-- Where a run may fail, it may also end without a reply. -/
theorem ends_without_reply {e : Failure} (failed : g.Ends φ (.error e)) {answer : IntentAnswer}
    (other : answer.outcome ≠ .responded) : g.Ends φ (.ok answer) := by
  cases φ with
  | before | looking =>
    rintro _ same
    cases same
    exact other
  | taken => cases failed
  | writing | found => exact failed

/-- Where a run may fail, it may also report that. -/
theorem follows_report {e : Failure} (failed : g.Ends φ (.error e)) (n : Notice) {P : Ending β}
    {p : IntentM β} (rest : g.Follows c P φ p.run) :
    g.Follows c P φ (request (.report n) >>= fun _ => p).run := by
  cases φ with
  | before | looking =>
    refine ⟨⟨(), _, rfl⟩, ?_⟩
    rintro _ _ rfl
    exact rest
  | taken => cases failed
  | writing | found => exact failed.elim

/-- The answer of a run, whether it came early or not. -/
def early : Except IntentAnswer IntentAnswer → IntentAnswer
  | .ok answer => answer
  | .error answer => answer

/-- A run keeps to the phases, whatever it is given. -/
theorem follows_perform (g : Guest) (c : Contents) :
    g.Follows c g.Ends .before (g.runner.perform g.values).run := by
  let P : Ending (Except IntentAnswer IntentAnswer) := fun ψ r => g.Ends ψ (r.map early)
  unfold Runner.perform
  simp only
  split
  · exact nofun
  · refine follows_bind (P := P) (follows_tryCatch (P := P) ?_ (fun _ _ ended => ended) ?_) ?_
      fun _ _ ended => ended
    · refine follows_bind (P := fun ψ _ => ψ = .before) (p := openStore)
        ⟨⟨.ok (), _, rfl, rfl⟩, fun _ _ passes => passes.2⟩ ?_ ?_
      · rintro ψ _ rfl
        exact follows_bind (follows_runOpen g c) (fun _ _ ended => ended) fun _ _ ended => ended
      · rintro ψ e rfl
        exact nofun
    · intro ψ e failed
      cases e with
      | store failure => exact follows_report failed _ (ends_without_reply failed nofun)
      | _ => exact failed
    · rintro ψ (answer | answer) ended
      · exact ended
      · exact ended

end ShortcutRelay.Company
