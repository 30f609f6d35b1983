import ShortcutRelay.Proofs.App.Attend
import ShortcutRelay.Proofs.App.Registry
import ShortcutRelay.Proofs.Protocol.Command
import ShortcutRelay.Proofs.Protocol.Mailbox
import ShortcutRelay.Proofs.Store.Handles

/-!
# Who hears of an invocation

While an invocation is delivered, listeners reply, add and remove listeners, wait and raise. Those that
were there when it came are called all the same, one after the other, and the last reply stays.

* `Manner` : what a listener does, at once or in turns; `Event`, `course` : the record of it;
* `Stage` : a store with such a record, `Stage.keeper` : it can be relied on as far as the store itself;
* `hostOf` : the host that runs the listeners;
* `run_respond`, `run_attend_unpending`, `run_enlist_unpending` : what listeners do, in a store without
  faults in which no command is pending;
* `Since` : what has happened since an invocation came, and that the store holds the last reply;
  `run_perform`, `run_call_atOnce`, `run_call_inTurns`, `run_runRounds`, `run_callListeners` : how each
  step adds to that;
* `Notified` : observers are notified in order, whatever each of them does;
* `fans_out` : who is called by an invocation, and who by a notification.
-/

namespace ShortcutRelay

/-! ## A store without faults in which no command is pending -/

namespace App
open Protocol

variable {σ κ : Type} [Backend σ] {K : Keeper σ} {w : World σ κ}

/-- No command is pending: one of the entries that tell of it is missing, and the other can be read. -/
def Unpending (c : Contents) : Prop :=
  ∃ identifier nonce, textAt c commandIdentifier = .ok identifier ∧ textAt c commandNonce = .ok nonce ∧
    (identifier = none ∨ nonce = none)

theorem run_openStore (healthy : K.Healthy) (valid : K.valid w.around) : ∃ t,
    (openStore : AppM σ κ Unit).run w = (.ok (), { w with around := t }) ∧ K.valid t ∧
      K.contents t = K.contents w.around := by
  obtain ⟨t, ran, opened⟩ := healthy.run_obtain valid
  exact ⟨t, run_onBackend ran, opened⟩

/-- A reply is written. -/
theorem run_respond (healthy : K.Healthy) (texts : K.TakesTexts) (valid : K.valid w.around)
    (bridged : w.bridge.isSome = true) (nonce : String) (message : Option String) : ∃ t,
    (Manager.respond nonce message : AppM σ κ Unit).run w = (.ok (), { w with around := t }) ∧
      K.valid t ∧ Agree K.like (K.contents t)
        ((K.contents w.around).put (replyEntry nonce) (.text (message.getD ""))) := by
  obtain ⟨s, opened, valid', same⟩ := run_openStore (w := w) healthy valid
  obtain ⟨suits, room⟩ := texts (message.getD "")
  obtain ⟨t, answered, valid'', agree⟩ := run_request healthy valid'
    (r := .put (replyEntry nonce) (.text (message.getD ""))) suits room
  have posted : (Bridge.postReply nonce message : AppM σ κ Unit).run w =
      (.ok (), { w with around := t }) := by
    refine (Fallible.run_bind_ok opened _).trans ?_
    unfold Protocol.postReply
    rw [set_of_isScalar rfl]
    exact run_onBackend answered
  refine ⟨t, ?_, valid'', same ▸ agree⟩
  unfold Manager.respond noting
  rw [Fallible.run_bind_ok (Fallible.run_get w), if_pos bridged, Fallible.run_tryCatch, posted]

theorem run_collectCommand_unpending (healthy : K.Healthy) (valid : K.valid w.around)
    (nothing : Unpending (K.contents w.around)) : ∃ t,
    (onStore collectCommand : AppM σ κ (Option (Command × Bool))).run w =
        (.ok none, { w with around := t }) ∧
      K.valid t ∧ K.contents t = K.contents w.around := by
  have reads : K.Reads readCommand := by
    refine (Keeper.reads_text _).bind fun identifier => (Keeper.reads_text _).bind fun nonce => ?_
    cases identifier with
    | none => exact Keeper.reads_pure _
    | some identifier =>
      cases nonce with
      | none => exact Keeper.reads_pure _
      | some nonce =>
        refine (Keeper.reads_get _).bind fun _ => (K.reads_double _).bind fun _ => ?_
        refine Keeper.Reads.bind ?_ fun _ => Keeper.reads_pure _
        exact (Keeper.reads_perform (r := .snapshot) trivial).bind fun _ => Keeper.reads_ofNumber _
  obtain ⟨-, t, later, same, ran | ⟨f, threat, -⟩⟩ := reads _ valid
  · obtain ⟨identifier, nonce, hi, hn, missing⟩ := nothing
    rw [runOn_readCommand_none hi hn missing] at ran
    refine ⟨t, run_onBackend ?_, later.1, same⟩
    unfold collectCommand
    rw [Backend.run_bind, Fallible.run_bind_ok ran]
    rfl
  · exact (healthy _ valid f threat).elim

/-- A look for a command finds nothing, whether or not there is a callback. -/
theorem run_attend_unpending (host : Host σ κ) (healthy : K.Healthy) (valid : K.valid w.around)
    (bridged : w.bridge.isSome = true) (nothing : Unpending (K.contents w.around)) : ∃ t,
    (attend host).run w = (.ok none, { w with around := t }) ∧ K.valid t ∧
      K.contents t = K.contents w.around := by
  obtain ⟨s, opened, valid', same⟩ := run_openStore (w := w) healthy valid
  obtain ⟨bridge, there⟩ := Option.isSome_iff_exists.mp bridged
  cases callback : bridge.callback with
  | none => exact ⟨s, attend_without_callback host opened there callback, valid', same⟩
  | some code =>
    obtain ⟨t, collected, valid'', same'⟩ :=
      run_collectCommand_unpending (w := { w with around := s }) healthy valid' (same ▸ nothing)
    exact ⟨t, attend_nothing host opened there callback collected, valid'', same'.trans same⟩

/-- A listener is added, and nothing comes of the look for a command. -/
theorem run_enlist_unpending (host : Host σ κ) (healthy : K.Healthy) (valid : K.valid w.around)
    (bridged : w.bridge.isSome = true) (nothing : Unpending (K.contents w.around)) (name : String) :
    ∃ around manager bridge, (Manager.enlist host name).run w =
        (.ok (), { w with around, manager, bridge }) ∧
      bridge.isSome = true ∧ K.valid around ∧ K.contents around = K.contents w.around := by
  cases registered : w.manager.registered with
  | true =>
    exact ⟨w.around, _, w.bridge, run_enlist_later host registered name, bridged, valid, rfl⟩
  | false =>
    let joined : World σ κ := { w with
      manager := { w.manager.withListener name with registered := true }
      bridge := w.bridge.map fun b => { b with callback := some .manager } }
    have bridged' : joined.bridge.isSome = true := by rw [Option.isSome_map, bridged]
    obtain ⟨t, looked, valid', same⟩ :=
      run_attend_unpending (w := joined) host healthy valid bridged' nothing
    refine ⟨t, joined.manager, joined.bridge, ?_, bridged', valid', same⟩
    rw [run_enlist_unregistered host registered bridged]
    exact Fallible.run_bind_ok looked _

end App

namespace Audience
open Protocol App

/-! ## What listeners do -/

/-- What a listener does: it replies to a command, adds a listener or ends a subscription. -/
inductive Deed
  | respond (nonce : String) (message : Option String)
  | enlist (name : String)
  | unlist (s : Subscription)

/-- How a listener takes an invocation: at once, or in turns of an event loop. In the end it may
raise. -/
inductive Manner
  | atOnce (deeds : List Deed) (failure : Option Failure)
  | inTurns (turns : List (List Deed)) (failure : Option Failure)

namespace Manner

def deeds : Manner → List Deed
  | atOnce deeds _ => deeds
  | inTurns turns _ => turns.flatten

def notice : Manner → Option Notice
  | atOnce _ failure => failure.map .listenerFailed
  | inTurns _ failure => failure.map .asyncListenerFailed

end Manner

/-- What happens while an invocation is delivered. -/
inductive Event
  | began (name : String)
  | did (name : String) (deed : Deed)
  | ended (name : String)

/-- The text of a reply under a nonce. -/
def Event.reply? (nonce : String) : Event → Option String
  | did _ (.respond other message) => if other = nonce then some (message.getD "") else none
  | _ => none

def lastReply (nonce : String) (events : List Event) : Option String :=
  (events.filterMap (Event.reply? nonce)).getLast?

theorem lastReply_concat (nonce : String) (events : List Event) (e : Event) :
    lastReply nonce (events ++ [e]) = (e.reply? nonce).or (lastReply nonce events) := by
  unfold lastReply
  rw [List.filterMap_append, List.filterMap_cons]
  cases e.reply? nonce with
  | none => rw [List.filterMap_nil, List.append_nil, Option.none_or]
  | some text => rw [List.filterMap_nil, List.getLast?_concat, Option.some_or]

/-- The whole course of a listener that is called. -/
def course (listen : String → Invocation → Manner) (i : Invocation) (name : String) : List Event :=
  .began name :: (listen name i).deeds.map (.did name) ++ [.ended name]

theorem append_course {listen : String → Invocation → Manner} {i : Invocation} {name : String}
    {deeds : List Deed} (done : (listen name i).deeds = deeds) (events : List Event) :
    events ++ [.began name] ++ deeds.map (.did name) ++ [.ended name] =
      events ++ course listen i name := by
  rw [course, done]
  simp

/-! ## A store with a record -/

/-- A store with a record of what has happened. -/
structure Stage (σ : Type) where
  store : σ
  events : List Event := []

namespace Stage

variable {σ : Type} {α : Type}

def use (act : BackendM σ α) : BackendM (Stage σ) α :=
  ExceptT.mk fun x =>
    let (result, store) := act.run x.store
    (result, { x with store })

instance [Backend σ] : Backend (Stage σ) where
  obtain := use Backend.obtain
  load := use Backend.load
  save c := use (Backend.save c)
  enter := use Backend.enter
  leave := modify fun x => { x with store := (Backend.leave.run x.store).2 }
  textRead key := use (Backend.textRead key)

/-- The store is seen as it is without the record, which stays the same. -/
def view (V : StoreView σ) (events : List Event) : StoreView (Stage σ) where
  contents x := V.contents x.store
  valid x := V.valid x.store ∧ x.events = events
  threat x f := V.threat x.store f
  like := V.like
  suits := V.suits
  rejection := V.rejection

variable {V : StoreView σ} {events : List Event} {x : Stage σ}

theorem ended_use {act : BackendM σ α} {rejects : Failure → Prop} {a : α} {after : Contents → Prop}
    (valid : (view V events).valid x) (h : V.Ended x.store rejects a after (act.run x.store)) :
    (view V events).Ended x rejects a after ((use act).run x) := by
  change (view V events).Ended x rejects a after
    ((act.run x.store).1, { x with store := (act.run x.store).2 })
  generalize act.run x.store = r at h
  cases h with
  | done later effect => exact .done ⟨⟨later.1, valid.2⟩, later.2⟩ effect
  | rejected later same rejection => exact .rejected ⟨⟨later.1, valid.2⟩, later.2⟩ same rejection
  | failed later same threat => exact .failed ⟨⟨later.1, valid.2⟩, later.2⟩ same threat

/-- A store with a record can be relied on as far as the store itself. -/
def keeper [Backend σ] (K : Keeper σ) (events : List Event) : Keeper (Stage σ) where
  toStoreView := view K.toStoreView events
  tolerance := K.tolerance
  rejection_eq := K.rejection_eq
  fitting valid := K.fitting valid.1
  obtain valid := ended_use valid (K.obtain valid.1)
  load valid := ended_use valid (K.load valid.1)
  enter valid := ended_use valid (K.enter valid.1)
  textRead valid key := ended_use valid (K.textRead valid.1 key)
  leave := by
    rintro x _ valid ⟨⟩
    have left := K.leave (t := ((Backend.leave : StateM σ Unit).run x.store).2) valid.1 rfl
    exact ⟨⟨⟨left.1.1, valid.2⟩, left.1.2⟩, left.2⟩
  save valid suits := ended_use valid (K.save valid.1 suits)

variable [Backend σ] {K : Keeper σ}

theorem keeper_healthy (healthy : K.Healthy) (events : List Event) : (keeper K events).Healthy :=
  fun x valid => healthy x.store valid.1

end Stage

/-! ## The host of the listeners -/

/-- A listener that waits: the turns that are left, and what it raises after them. -/
structure Waiting where
  name : String
  turns : List (List Deed)
  failure : Option Failure

variable {σ : Type}

def noted (w : World (Stage σ) Waiting) (e : Event) : World (Stage σ) Waiting :=
  { w with around := { w.around with events := w.around.events ++ [e] } }

def note (e : Event) : AppM (Stage σ) Waiting Unit :=
  modify (noted · e)

theorem run_note (e : Event) (w : World (Stage σ) Waiting) : (note e).run w = (.ok (), noted w e) :=
  rfl

/-- Records the end of a listener, which may raise. -/
def finish (name : String) (failure : Option Failure) : AppM (Stage σ) Waiting Unit := do
  note (.ended name)
  if let some e := failure then throw e

section Definitions

variable [Backend σ]

/-- Does it. `nested` is the host that gets a command which is found on the way. -/
def Deed.perform (nested : Host (Stage σ) Waiting) : Deed → AppM (Stage σ) Waiting Unit
  | respond nonce message => Manager.respond nonce message
  | enlist name => Manager.enlist nested name
  | unlist s => discard s.remove

def performAll (nested : Host (Stage σ) Waiting) (name : String) :
    List Deed → AppM (Stage σ) Waiting Unit
  | [] => return ()
  | deed :: deeds => do
    note (.did name deed)
    deed.perform nested
    performAll nested name deeds

/-- The host that runs listeners, each in its manner. -/
def hostOf (nested : Host (Stage σ) Waiting) (listen : String → Invocation → Manner)
    (patience : Nat) : Host (Stage σ) Waiting :=
  { nested with
    call := fun name i => do
      note (.began name)
      match listen name i with
      | .atOnce deeds failure =>
        performAll nested name deeds
        finish name failure
        return none
      | .inTurns turns failure => return some { name, turns, failure }
    resume := fun code =>
      match code.turns with
      | [] => do
        finish code.name code.failure
        return none
      | turn :: turns => do
        performAll nested code.name turn
        return some { code with turns }
    turns := patience }

end Definitions

/-- A listener is called; what it raises becomes a notice. -/
def calls (host : Host (Stage σ) Waiting) (i : Invocation) (name : String) :
    AppM (Stage σ) Waiting (Option Waiting) :=
  tryCatch (host.call name i) fun failure => do
    report (.listenerFailed failure)
    return none

/-! ## What has happened since an invocation came -/

variable [Backend σ] {K : Keeper σ} {nonce : String} {w v : World (Stage σ) Waiting}
  {events : List Event} {notices : List Notice}

/-- What has happened since the first world: some events and notices. No command came, and the last
reply is in the store. -/
structure Since (K : Keeper σ) (nonce : String) (w : World (Stage σ) Waiting) (events : List Event)
    (notices : List Notice) (v : World (Stage σ) Waiting) : Prop where
  valid : K.valid v.around.store
  recorded : v.around.events = w.around.events ++ events
  reported : v.notices = w.notices ++ notices
  unpending : Unpending (K.contents v.around.store)
  reply : (K.contents v.around.store).get? (replyEntry nonce) = (lastReply nonce events).map .text
  bridged : v.bridge.isSome = true
  stopped : v.running = false

/-- The listeners and the loop of one of them may change. -/
theorem Since.congr (h : Since K nonce w events notices v) {u : World (Stage σ) Waiting}
    (around : u.around = v.around) (noticed : u.notices = v.notices)
    (bridged : u.bridge.isSome = v.bridge.isSome) (running : u.running = v.running) :
    Since K nonce w events notices u where
  valid := around ▸ h.valid
  recorded := around ▸ h.recorded
  reported := noticed ▸ h.reported
  unpending := around ▸ h.unpending
  reply := around ▸ h.reply
  bridged := bridged ▸ h.bridged
  stopped := running ▸ h.stopped

/-- The store is used without a change of what it holds. -/
theorem Since.used (h : Since K nonce w events notices v) {t : Stage σ} {u : World (Stage σ) Waiting}
    (valid : (Stage.keeper K v.around.events).valid t)
    (same : K.contents t.store = K.contents v.around.store) (around : u.around = t)
    (noticed : u.notices = v.notices) (bridged : u.bridge.isSome = true)
    (running : u.running = v.running) : Since K nonce w events notices u where
  valid := around ▸ valid.1
  recorded := by rw [around, valid.2, h.recorded]
  reported := noticed ▸ h.reported
  unpending := by
    rw [around, same]
    exact h.unpending
  reply := by rw [around, same, h.reply]
  bridged := bridged
  stopped := running ▸ h.stopped

/-- An event is recorded that is no reply. -/
theorem Since.note (h : Since K nonce w events notices v) {e : Event} (silent : e.reply? nonce = none) :
    Since K nonce w (events ++ [e]) notices (noted v e) where
  valid := h.valid
  recorded := (congrArg (· ++ [e]) h.recorded).trans (List.append_assoc ..)
  reported := h.reported
  unpending := h.unpending
  reply := by
    rw [lastReply_concat, silent, Option.none_or]
    exact h.reply
  bridged := h.bridged
  stopped := h.stopped

theorem Since.report (h : Since K nonce w events notices v) (n : Notice) :
    Since K nonce w events (notices ++ [n]) { v with notices := v.notices ++ [n] } where
  valid := h.valid
  recorded := h.recorded
  reported := (congrArg (· ++ [n]) h.reported).trans (List.append_assoc ..)
  unpending := h.unpending
  reply := h.reply
  bridged := h.bridged
  stopped := h.stopped

/-- A reply leaves the entries of commands alone. -/
theorem unpending_put {c d : Contents} {Like : Document → Document → Prop} (tolerance : Tolerance Like)
    (h : Unpending c) {text : Document} (agree : Agree Like d (c.put (replyEntry nonce) text)) :
    Unpending d := by
  have kept {key : String} (mem : key ∈ commandEntries) : textAt d key = textAt c key := by
    rw [tolerance.textAt_eq (agree key), textAt_put, if_neg]
    rintro rfl
    exact replyEntry_notMem nonce mem
  have identifier : textAt d commandIdentifier = textAt c commandIdentifier := kept (by decide)
  have commandNonce : textAt d commandNonce = textAt c commandNonce := kept (by decide)
  unfold Unpending
  rwa [identifier, commandNonce]

section Steps

variable (nested : Host (Stage σ) Waiting) (listen : String → Invocation → Manner) (patience : Nat)
  (i : Invocation)

/-- A listener that waits has done nothing yet. -/
theorem run_call_inTurns (h : Since K nonce w events notices v) {name : String}
    {turns : List (List Deed)} {failure : Option Failure}
    (manner : listen name i = .inTurns turns failure) : ∃ u,
    (calls (hostOf nested listen patience) i name).run v = (.ok (some ⟨name, turns, failure⟩), u) ∧
      u.inner = v.inner ∧ Since K nonce w (events ++ [.began name]) notices u := by
  refine ⟨noted v (.began name), ?_, rfl, h.note rfl⟩
  have called : ((hostOf nested listen patience).call name i).run v =
      (.ok (some ⟨name, turns, failure⟩), noted v (.began name)) := by
    refine (Fallible.run_bind_ok (run_note (.began name) v) _).trans ?_
    rw [manner]
    rfl
  unfold calls
  rw [Fallible.run_tryCatch, called]

/-- A listener without turns that are left ends, and may raise. -/
theorem run_resume_nil (h : Since K nonce w events notices v) (name : String)
    (failure : Option Failure) : ∃ u,
    (App.resume (hostOf nested listen patience) ⟨name, [], failure⟩).run v = (.ok none, u) ∧
      u.inner = v.inner ∧ Since K nonce w (events ++ [.ended name])
        (notices ++ (failure.map Notice.asyncListenerFailed).toList) u := by
  have finished := h.note (e := .ended name) rfl
  unfold App.resume
  rw [Fallible.run_tryCatch]
  cases failure with
  | none =>
    refine ⟨_, rfl, rfl, ?_⟩
    exact (List.append_nil notices).symm ▸ finished
  | some e => exact ⟨_, rfl, rfl, finished.report _⟩

variable (healthy : K.Healthy) (texts : K.TakesTexts)

include healthy texts

/-- One deed. -/
theorem run_perform (h : Since K nonce w events notices v) (name : String) (deed : Deed) : ∃ u,
    (do note (.did name deed); deed.perform nested : AppM (Stage σ) Waiting Unit).run v = (.ok (), u) ∧
      u.inner = v.inner ∧ Since K nonce w (events ++ [.did name deed]) notices u := by
  -- The store is used while the record stays as it is after this event.
  let began : World (Stage σ) Waiting := noted v (.did name deed)
  have recorded : (note (.did name deed)).run v = (.ok (), began) := rfl
  have healthy' := Stage.keeper_healthy healthy began.around.events
  rw [Fallible.run_bind_ok recorded]
  cases deed with
  | respond other message =>
    obtain ⟨t, ran, valid, agree⟩ :=
      run_respond (w := began) healthy' texts ⟨h.valid, rfl⟩ h.bridged other message
    refine ⟨_, ran, rfl, valid.1, ?_, h.reported, ?_, ?_, h.bridged, h.stopped⟩
    · rw [valid.2]
      exact (congrArg (· ++ [_]) h.recorded).trans (List.append_assoc ..)
    · exact unpending_put K.tolerance h.unpending agree
    · refine get?_of_agree K.tolerance agree ?_
      rw [lastReply_concat, Event.reply?, OrderedMap.get?_put]
      by_cases same : other = nonce
      · rw [if_pos same, if_pos (congrArg _ same.symm)]
        rfl
      · rw [if_neg same, if_neg fun equal => same (replyEntry_injective equal).symm, Option.none_or]
        exact h.reply
  | enlist other =>
    have silent := h.note (e := .did name (.enlist other)) rfl
    obtain ⟨t, manager, bridge, ran, bridged, valid, same⟩ :=
      run_enlist_unpending (w := began) nested healthy' ⟨h.valid, rfl⟩ h.bridged h.unpending other
    exact ⟨_, ran, rfl, silent.used valid same rfl rfl bridged rfl⟩
  | unlist s =>
    have silent := h.note (e := .did name (.unlist s)) rfl
    have ran := Fallible.run_bind_ok (run_remove s began) fun _ => pure ()
    refine ⟨_, ran, ?_, ?_⟩
    · split <;> rfl
    · split <;> exact silent.congr rfl rfl rfl rfl

/-- One deed after the other. -/
theorem run_performAll (h : Since K nonce w events notices v) (name : String) (deeds : List Deed) :
    ∃ u, (performAll nested name deeds).run v = (.ok (), u) ∧ u.inner = v.inner ∧
      Since K nonce w (events ++ deeds.map (.did name)) notices u := by
  induction deeds generalizing events v with
  | nil =>
    refine ⟨v, rfl, rfl, ?_⟩
    rwa [List.map_nil, List.append_nil]
  | cons deed deeds ih =>
    obtain ⟨u, ran, inner, since⟩ := run_perform nested healthy texts h name deed
    obtain ⟨t, rest, inner', since'⟩ := ih since
    rw [List.append_assoc, List.singleton_append] at since'
    refine ⟨t, ?_, inner'.trans inner, since'⟩
    have apart : performAll nested name (deed :: deeds) =
        (do note (.did name deed); deed.perform nested) >>= fun _ => performAll nested name deeds := by
      rw [performAll, bind_assoc]
    rw [apart, Fallible.run_bind_ok ran]
    exact rest

/-- The end of a listener that acts at once is where it may raise. -/
theorem run_call_atOnce (h : Since K nonce w events notices v) {name : String} {deeds : List Deed}
    {failure : Option Failure} (manner : listen name i = .atOnce deeds failure) : ∃ u,
    (calls (hostOf nested listen patience) i name).run v = (.ok none, u) ∧
      u.inner = v.inner ∧ Since K nonce w (events ++ course listen i name)
        (notices ++ (listen name i).notice.toList) u := by
  obtain ⟨t, ran, inner, since⟩ :=
    run_performAll nested healthy texts (h.note (e := .began name) rfl) name deeds
  have whole := since.note (e := .ended name) rfl
  have done : (listen name i).deeds = deeds := congrArg Manner.deeds manner
  rw [append_course done] at whole
  have called : ((hostOf nested listen patience).call name i).run v =
      (finish name failure >>= fun _ => pure none : AppM (Stage σ) Waiting (Option Waiting)).run t := by
    refine (Fallible.run_bind_ok (run_note (.began name) v) _).trans ?_
    rw [manner]
    exact Fallible.run_bind_ok ran _
  unfold calls
  rw [Fallible.run_tryCatch, called, manner]
  cases failure with
  | none =>
    refine ⟨_, rfl, inner, ?_⟩
    exact (List.append_nil notices).symm ▸ whole
  | some e => exact ⟨_, rfl, inner, whole.report _⟩

/-- A listener goes on with its next turn. -/
theorem run_resume_cons (h : Since K nonce w events notices v) (name : String) (turn : List Deed)
    (turns : List (List Deed)) (failure : Option Failure) : ∃ u,
    (App.resume (hostOf nested listen patience) ⟨name, turn :: turns, failure⟩).run v =
        (.ok (some ⟨name, turns, failure⟩), u) ∧
      u.inner = v.inner ∧ Since K nonce w (events ++ turn.map (.did name)) notices u := by
  obtain ⟨u, ran, inner, since⟩ := run_performAll nested healthy texts h name turn
  refine ⟨u, ?_, inner, since⟩
  have resumed : ((hostOf nested listen patience).resume ⟨name, turn :: turns, failure⟩).run v =
      (.ok (some ⟨name, turns, failure⟩), u) :=
    Fallible.run_bind_ok ran _
  unfold App.resume
  rw [Fallible.run_tryCatch, resumed]

/-- The loop of a listener runs until the listener has ended. -/
theorem run_runRounds (name : String) (turns : List (List Deed)) (failure : Option Failure) (n : Nat)
    (enough : turns.length + 2 ≤ n) (own : v.inner = some [.own ⟨name, turns, failure⟩])
    (h : Since K nonce w events notices v) :
    ∃ u, (runRounds (hostOf nested listen patience) n).run v = (.ok (), u) ∧
      Since K nonce w (events ++ turns.flatten.map (.did name) ++ [.ended name])
        (notices ++ (failure.map Notice.asyncListenerFailed).toList) u := by
  induction turns generalizing n events v with
  | nil =>
    -- One round for the listener's end, and one for the end of the loop that is queued then.
    obtain ⟨m, rfl⟩ : ∃ m, n = m + 2 := ⟨n - 2, by simp at enough; omega⟩
    obtain ⟨u, resumed, inner, since⟩ := run_resume_nil nested listen patience
      (v := { v with inner := some [] }) (h.congr rfl rfl rfl rfl) name failure
    refine ⟨{ u with inner := some [] }, ?_, ?_⟩
    · rw [run_round_own _ own resumed inner, Option.map_none, Option.getD_none]
      exact run_round_finish _ rfl m
    · rw [List.flatten_nil, List.map_nil, List.append_nil]
      exact since.congr rfl rfl rfl rfl
  | cons turn turns ih =>
    obtain ⟨m, rfl⟩ : ∃ m, n = m + 1 := ⟨n - 1, by omega⟩
    obtain ⟨t, resumed, inner, since⟩ := run_resume_cons nested listen patience healthy texts
      (v := { v with inner := some [] }) (h.congr rfl rfl rfl rfl) name turn turns failure
    obtain ⟨u, ran, since'⟩ := ih (v := { t with inner := some [.own ⟨name, turns, failure⟩] }) m
      (by rw [List.length_cons] at enough; omega) rfl (since.congr rfl rfl rfl rfl)
    refine ⟨u, ?_, ?_⟩
    · rw [run_round_own _ own resumed inner]
      exact ran
    · rw [List.flatten_cons, List.map_append, ← List.append_assoc]
      exact since'

/-- A listener is called and, if it waits, runs to its end. -/
theorem run_listener (h : Since K nonce w events notices v) (idle : v.inner = none) (name : String)
    (patient : ∀ turns failure, listen name i = .inTurns turns failure → turns.length + 2 ≤ patience) :
    ∃ waiting t u, (calls (hostOf nested listen patience) i name).run v = (.ok waiting, t) ∧
      (if let some code := waiting then schedule (hostOf nested listen patience) code else pure () :
        AppM (Stage σ) Waiting Unit).run t = (.ok (), u) ∧ u.inner = none ∧
      Since K nonce w (events ++ course listen i name) (notices ++ (listen name i).notice.toList) u := by
  cases manner : listen name i with
  | atOnce deeds failure =>
    obtain ⟨u, called, inner, since⟩ :=
      run_call_atOnce nested listen patience i healthy texts h manner
    exact ⟨none, u, u, called, rfl, inner.trans idle, manner ▸ since⟩
  | inTurns turns failure =>
    obtain ⟨t, called, inner, since⟩ :=
      run_call_inTurns nested listen patience i h manner
    obtain ⟨u, ran, since'⟩ := run_runRounds nested listen patience healthy texts name turns failure
      patience (patient turns failure manner) (v := { t with inner := some [.own ⟨name, turns, failure⟩] })
      rfl (since.congr rfl rfl rfl rfl)
    refine ⟨_, t, { u with inner := none }, called, ?_, rfl, ?_⟩
    · refine (run_schedule_alone _ (inner.trans idle) since.stopped _).trans ?_
      exact run_runAlone_ok _ ran
    · have done : (listen name i).deeds = turns.flatten := congrArg Manner.deeds manner
      rw [append_course done] at since'
      exact since'.congr rfl rfl rfl rfl

/-- Listeners are called one after the other. -/
theorem run_callListeners (names : List String) (h : Since K nonce w events notices v)
    (idle : v.inner = none) (patient : ∀ name ∈ names, ∀ turns failure,
      listen name i = .inTurns turns failure → turns.length + 2 ≤ patience) :
    ∃ u, (callListeners (hostOf nested listen patience) i names).run v = (.ok (), u) ∧
      Since K nonce w (events ++ names.flatMap (course listen i))
        (notices ++ names.filterMap fun name => (listen name i).notice) u := by
  induction names generalizing events notices v with
  | nil =>
    refine ⟨v, rfl, ?_⟩
    rwa [List.flatMap_nil, List.filterMap_nil, List.append_nil, List.append_nil]
  | cons name names ih =>
    obtain ⟨waiting, t, u, called, scheduled, idle', since⟩ := run_listener nested listen patience i
      healthy texts h idle name (patient name List.mem_cons_self)
    obtain ⟨x, ran, since'⟩ := ih since idle' fun other mem => patient other (List.mem_cons_of_mem _ mem)
    refine ⟨x, ?_, ?_⟩
    · unfold callListeners
      refine (Fallible.run_bind_ok called _).trans (Eq.trans ?_ ran)
      cases waiting with
      | none =>
        obtain rfl : t = u := congrArg Prod.snd scheduled
        rfl
      | some code => exact Fallible.run_bind_ok scheduled _
    · have noticed : (name :: names).filterMap (fun name => (listen name i).notice) =
          (listen name i).notice.toList ++ names.filterMap fun name => (listen name i).notice := by
        rw [List.filterMap_cons]
        cases (listen name i).notice <;> rfl
      rw [List.flatMap_cons, noticed, ← List.append_assoc, ← List.append_assoc]
      exact since'

end Steps

/-- An application with a bridge and without an event loop that runs. No command is pending in its
store, and the invocation has no reply. -/
structure Ready (K : Keeper σ) (i : Invocation) (w : World (Stage σ) Waiting) : Prop where
  valid : K.valid w.around.store
  unpending : Unpending (K.contents w.around.store)
  unanswered : (K.contents w.around.store).get? (replyEntry i.nonce) = none
  bridged : w.bridge.isSome = true
  stopped : w.running = false
  idle : w.inner = none

/-- The invocation has reached the listeners that were there at the beginning: each of them once, in
order and to its end, with a notice for each one that raised, and the last reply is in the store. -/
structure Heard (K : Keeper σ) (listen : String → Invocation → Manner) (i : Invocation)
    (w v : World (Stage σ) Waiting) : Prop where
  recorded : v.around.events = w.around.events ++ w.manager.listeners.flatMap (course listen i)
  reported : v.notices = w.notices ++ if w.manager.listeners = [] then [.nobodyListens] else
    w.manager.listeners.filterMap fun name => (listen name i).notice
  replied : (K.contents v.around.store).get? (replyEntry i.nonce) =
    (lastReply i.nonce (w.manager.listeners.flatMap (course listen i))).map .text

theorem run_invoke_heard (healthy : K.Healthy) (texts : K.TakesTexts)
    (nested : Host (Stage σ) Waiting) (listen : String → Invocation → Manner) (patience : Nat)
    (i : Invocation) (ready : Ready K i w) (patient : ∀ name ∈ w.manager.listeners,
      ∀ turns failure, listen name i = .inTurns turns failure → turns.length + 2 ≤ patience) :
    ∃ v, (invoke (hostOf nested listen patience) i).run w = (.ok (), v) ∧ Heard K listen i w v := by
  cases listeners : w.manager.listeners with
  | nil =>
    refine ⟨_, run_invoke_nobody _ listeners i, ?_, ?_, ?_⟩
    · rw [listeners, List.flatMap_nil, List.append_nil]
    · rw [if_pos listeners]
    · rw [listeners]
      exact ready.unanswered
  | cons name names =>
    have start : Since K i.nonce w [] [] w :=
      ⟨ready.valid, (List.append_nil _).symm, (List.append_nil _).symm, ready.unpending,
        ready.unanswered, ready.bridged, ready.stopped⟩
    rw [listeners] at patient
    obtain ⟨v, ran, since⟩ := run_callListeners nested listen patience i healthy texts
      (name :: names) start ready.idle patient
    rw [List.nil_append, List.nil_append, ← listeners] at since
    refine ⟨v, (run_invoke _ listeners i).trans ran, since.recorded, ?_, since.reply⟩
    rw [if_neg (listeners ▸ List.cons_ne_nil name names)]
    exact since.reported

end Audience

/-! ## Notifications -/

namespace App

variable {σ κ : Type} [Backend σ]

/-- Observers are notified in order, each in the world that the one before has left, whatever it did
there. The number counts those that did not raise; there is a notice for each one that did. -/
inductive Notified (host : Host σ κ) (name : String) :
    World σ κ → List (Observer κ) → Nat → World σ κ → Prop
  | nobody (w) : Notified host name w [] 0 w
  | served {w v u o os n} (ran : (notify host name o).run w = (.ok (), v))
      (rest : Notified host name v os n u) : Notified host name w (o :: os) (n + 1) u
  | raised {w v u o os n} {e : Failure} (ran : (notify host name o).run w = (.error e, v))
      (rest : Notified host name { v with notices := v.notices ++ [.observerFailed name e] } os n u) :
      Notified host name w (o :: os) n u

theorem run_notifyAll (host : Host σ κ) (name : String) (os : List (Observer κ)) (w : World σ κ) :
    ∃ n v, (notifyAll host name os).run w = (.ok n, v) ∧ Notified host name w os n v := by
  induction os generalizing w with
  | nil => exact ⟨0, w, rfl, .nobody w⟩
  | cons o os ih =>
    rcases ran : (notify host name o).run w with ⟨e | _, v⟩
    · obtain ⟨n, u, rest, notified⟩ := ih { v with notices := v.notices ++ [.observerFailed name e] }
      refine ⟨n, u, ?_, .raised ran notified⟩
      unfold notifyAll
      rw [Fallible.run_bind, Fallible.run_tryCatch, Fallible.run_bind_error ran]
      refine (Fallible.run_bind_ok rest _).trans ?_
      rw [Nat.zero_add]
      rfl
    · obtain ⟨n, u, rest, notified⟩ := ih v
      refine ⟨n + 1, u, ?_, .served ran notified⟩
      unfold notifyAll
      rw [Fallible.run_bind, Fallible.run_tryCatch, Fallible.run_bind_ok ran]
      refine (Fallible.run_bind_ok rest _).trans ?_
      rw [Nat.add_comm]
      rfl

end App

namespace Audience
open Protocol App

/-- An invocation calls exactly the listeners that were there when it came, each once and in order; one
that waits runs to its end before the next one is called, where the host is patient enough for all its
turns. Whatever they raise, and whomever they add or remove, the call ends well, and the last reply
stays. A notification reaches exactly the observers that were there when it was posted, in order, and
the result counts those that did not raise. -/
theorem fans_out :
    (∀ {σ : Type} [Backend σ] {K : Keeper σ}, K.Healthy → K.TakesTexts →
      ∀ (nested : Host (Stage σ) Waiting) (listen : String → Invocation → Manner) (patience : Nat)
        (i : Invocation) {w : World (Stage σ) Waiting}, Ready K i w →
        (∀ name ∈ w.manager.listeners, ∀ turns failure,
          listen name i = .inTurns turns failure → turns.length + 2 ≤ patience) →
        ∃ v, (invoke (hostOf nested listen patience) i).run w = (.ok (), v) ∧ Heard K listen i w v) ∧
    ∀ {σ κ : Type} [Backend σ] (host : Host σ κ) (name : String) (w : World σ κ),
      ∃ n v, (post host name).run w = (.ok n, v) ∧
        Notified host name w (w.center.observers name) n v := by
  refine ⟨?_, fun host name w => ?_⟩
  · intro σ _ K healthy texts nested listen patience i w ready patient
    exact run_invoke_heard healthy texts nested listen patience i ready patient
  · obtain ⟨n, v, ran, notified⟩ := run_notifyAll host name (w.center.observers name) w
    exact ⟨n, v, ran, notified⟩

/-- Nobody handles what is found on the way. -/
def bystander : Host (Stage MemoryStore) Waiting where
  observe _ _ := return ()
  deliver _ _ := return ()
  call _ _ := return none
  resume _ := return none
  turns := 0

def ringing : Invocation where
  identifier := "ring"
  nonce := "n"

/-- One listener waits twice, ends the subscription of the other one and raises; the other one replies
to two commands and adds a listener. -/
def behave (name : String) (i : Invocation) : Manner :=
  if name = "slow" then
    .inTurns [[.respond i.nonce (some "first"), .unlist { listener := "quick" }], [.enlist "late"]]
      (some (.raised "end"))
  else .atOnce [.respond i.nonce none, .respond "other" (some "aside"), .enlist "later"] none

def lobby : World (Stage MemoryStore) Waiting where
  around := { store := { contents := default } }
  bridge := some {}
  manager := { listeners := ["slow", "quick"], registered := true }

theorem fans_out_lobby : Ready MemoryStore.keeper ringing lobby ∧
    ∃ v, (invoke (hostOf bystander behave 4) ringing).run lobby = (.ok (), v) ∧
      v.around.events = [.began "slow", .did "slow" (.respond "n" (some "first")),
        .did "slow" (.unlist { listener := "quick" }), .did "slow" (.enlist "late"), .ended "slow",
        .began "quick", .did "quick" (.respond "n" none), .did "quick" (.respond "other" (some "aside")),
        .did "quick" (.enlist "later"), .ended "quick"] ∧
      v.notices = [.asyncListenerFailed (.raised "end")] ∧
      v.around.store.contents.get? (replyEntry "n") = some (.text "") := by
  have ready : Ready MemoryStore.keeper ringing lobby :=
    ⟨trivial, ⟨none, none, rfl, rfl, .inl rfl⟩, rfl, rfl, rfl, rfl⟩
  have patient : ∀ name ∈ lobby.manager.listeners, ∀ turns failure,
      behave name ringing = .inTurns turns failure → turns.length + 2 ≤ 4 := by
    intro name _ turns failure manner
    unfold behave at manner
    split at manner <;> cases manner
    decide
  obtain ⟨v, ran, heard⟩ := fans_out.1 MemoryStore.keeper_healthy MemoryStore.keeper_takesTexts
    bystander behave 4 ringing ready patient
  exact ⟨ready, v, ran, heard.recorded, heard.reported, heard.replied⟩

end Audience

end ShortcutRelay
