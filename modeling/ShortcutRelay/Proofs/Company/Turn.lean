import ShortcutRelay.Proofs.Company.Exchange
import ShortcutRelay.Proofs.Company.Guest

/-!
# A turn of a run among others

A run that goes on keeps to its phases, hands over its own command and nothing else, and leaves what
concerns the other runs as it is.

* `serve`, `proceed` : how the requests of a run are answered, up to the next one that has to wait;
* `Calm c w` : what holds between the turns of runs;
* `Guest.At` : the world in each phase of a run;
* `Beside g w v` : what a turn of a run leaves to the others;
* `run_serve`, `run_proceed` : one request, phase by phase, and one turn.
-/

namespace ShortcutRelay.Company
open Protocol App

/-! ## Turns -/

/-- A computation whose failure is part of its result. -/
def attempt {α : Type} (act : HallM α) : HallM (Except Failure α) :=
  ExceptT.lift act.run

def readClock : HallM Float := do
  let x := (← get).around
  change fun x => { x with readings := x.readings + 1 }
  return x.clock x.readings

/-- The answer to a request of a run, where `given` is the answer to a confirmation. -/
def serve (conduct : Conduct) (g : Guest) (given : Except Failure Bool) :
    (r : IntentRequest) → HallM r.Result
  | .open => attempt openStore
  | .store r => do
    change fun x => { x with asked := x.asked ++ [(g.nonce, r)] }
    attempt (onBackend (Backend.answer r))
  | .ask p _ => return g.answers p
  | .confirm _ => return given
  | .post name => discard (post (hostOf conduct) name)
  | .clock => readClock
  | .wallClock => readClock
  | .sleep _ => return ()
  | .newNonce => return g.nonce
  | .report n => report n

/-- Whether a run has to wait for the answer to a request. -/
def waits : IntentRequest → Bool
  | .ask .. | .confirm _ | .sleep _ => true
  | _ => false

/-- A run goes on up to the next request that it has to wait for. -/
def proceed (conduct : Conduct) (g : Guest) (given : Except Failure Bool) {α : Type} :
    Program intentInterface α → HallM (Program intentInterface α)
  | .done a => return .done a
  | .ask r next =>
    if waits r then return .ask r next
    else do proceed conduct g given (next (← serve conduct g given r))

/-- A run gets the answer that it waits for and goes on. -/
def goOn (conduct : Conduct) (g : Guest) (given : Except Failure Bool) {α : Type} :
    Program intentInterface α → HallM (Program intentInterface α)
  | .done a => return .done a
  | .ask r next => do proceed conduct g given (next (← serve conduct g given r))

/-! ## What was handed over -/

def commandOf : Task (List Reaction) → Option Command
  | .deliver _ command => some command
  | _ => none

/-- The commands that were handed over, with those that are in the ready queue. -/
def handed (w : Hall) : List Command :=
  w.around.received ++ w.ready.filterMap commandOf

/-- The commands with a nonce that were handed over. -/
def handedTo (nonce : String) (w : Hall) : List Command :=
  (handed w).filter (·.nonce == nonce)

/-- The run has written the nonce of its command. -/
def Published (nonce : String) (w : Hall) : Prop :=
  (nonce, .put commandNonce (.text nonce)) ∈ w.around.asked

/-- A run has used the entry of the reply with a nonce. -/
def UsesReply (asked : List (String × StoreRequest)) (run nonce : String) : Prop :=
  (run, .text (replyEntry nonce)) ∈ asked ∨ (run, .remove (replyEntry nonce)) ∈ asked

/-- What holds between the turns of runs: no command is in the store, the application's state is that of
some contents, the bridge hands commands to a callback, and runs have used replies to themselves only. -/
structure Calm (c : Contents) (w : Hall) : Prop where
  unused : NoCommand w.around.contents
  empty : NoParameters w.around.contents
  state : ∀ name, w.around.contents.get? (stateEntry name) = c.get? (stateEntry name)
  answered : Answered w.around
  bridge : ∃ b code, w.bridge = some b ∧ b.callback = some (.custom code)
  observers : w.center.observers commandNotification = [.bridge]
  ready : ∀ task ∈ w.ready, ∃ code command, task = .deliver (.custom code) command
  own : ∀ run nonce, UsesReply w.around.asked run nonce → run = nonce

/-! ## The world in each phase -/

namespace Guest

/-- Nothing of the run has reached the application. -/
structure Unseen (g : Guest) (w : Hall) : Prop where
  handed : handedTo g.nonce w = []
  unpublished : ¬ Published g.nonce w

/-- The command of the run was handed over, once. -/
structure Delivered (g : Guest) (c : Contents) (time : Float) (w : Hall) : Prop where
  handed : handedTo g.nonce w = [(g.draft c time).command g.encoded]
  published : Published g.nonce w

/-- The entries that a run writes; those of the command itself once it has the time. -/
def writes (g : Guest) (c : Contents) : Option Float → List (String × Document)
  | none => allParameterWrites g.encoded
  | some time => (g.draft c time).writes g.encoded

/-- The run has written all but some of its entries. -/
structure Writing (g : Guest) (c : Contents) (time : Option Float) (left : List (String × Document))
    (w : Hall) : Prop where
  written : ∃ before done, Calm c (holding w before) ∧ w.around.contents = before.putAll done ∧
    done ++ left = g.writes c time ∧ ∀ e ∈ done, (g.nonce, .put e.1 e.2) ∈ w.around.asked
  handed : handedTo g.nonce w = []
  unpublished : time = none → ¬ Published g.nonce w

/-- The world in a phase of the run. -/
def At (g : Guest) (c : Contents) : Phase → Hall → Prop
  | .before, w => Calm c w ∧ g.Unseen w
  | .writing time left, w => g.Writing c time left w
  | .looking time, w => Calm c w ∧ g.Delivered c time w
  | .found time m, w => Calm c w ∧ g.Delivered c time w ∧ (g.nonce, m) ∈ w.around.replies
  | .taken time m, w => Calm c w ∧ g.Delivered c time w ∧ (g.nonce, m) ∈ w.around.replies

end Guest

/-- What a turn of a run leaves to the others: it hands over no command of theirs, it makes no request
in their names, and replies stay given. -/
structure Beside (g : Guest) (w v : Hall) : Prop where
  others : ∀ nonce, nonce ≠ g.nonce → handedTo nonce v = handedTo nonce w
  own : ∀ command ∈ handed v, command ∈ handed w ∨ command.nonce = g.nonce
  replies : ∀ r ∈ w.around.replies, r ∈ v.around.replies
  asked : ∀ nonce, nonce ≠ g.nonce → ∀ r, (nonce, r) ∈ v.around.asked ↔ (nonce, r) ∈ w.around.asked

variable (conduct : Conduct) {g : Guest} {c : Contents} {w v u : Hall}

theorem beside_refl (g : Guest) (w : Hall) : Beside g w w :=
  ⟨fun _ _ => rfl, fun _ h => .inl h, fun _ h => h, fun _ _ _ => .rfl⟩

theorem beside_holding (w : Hall) (d : Contents) : Beside g w (holding w d) :=
  ⟨fun _ _ => rfl, fun _ h => .inl h, fun _ h => h, fun _ _ _ => .rfl⟩

theorem beside_trans (h : Beside g w v) (h' : Beside g v u) : Beside g w u where
  others nonce other := (h'.others nonce other).trans (h.others nonce other)
  own command later := (h'.own command later).elim (h.own command) .inr
  replies r hr := h'.replies r (h.replies r hr)
  asked nonce other r := (h'.asked nonce other r).trans (h.asked nonce other r)

/-! ## What the code of the application leaves -/

theorem handed_aside (h : Aside w v) : handed v = handed w := by
  rw [h.rest]
  rfl

theorem Calm.aside (h : Calm c w) (aside : Aside w v) : Calm c v where
  unused := aside.noCommand h.unused
  empty := aside.noParameters h.empty
  state name := (aside.entries _ fun nonce => stateEntry_ne_replyEntry name nonce).trans (h.state name)
  answered := aside.answered h.answered
  bridge := by
    rw [aside.rest]
    exact h.bridge
  observers := by
    rw [aside.rest]
    exact h.observers
  ready := by
    rw [aside.rest]
    exact h.ready
  own := by
    rw [aside.rest]
    exact h.own

theorem beside_aside (g : Guest) (aside : Aside w v) : Beside g w v where
  others nonce _ := by rw [handedTo, handed_aside aside, handedTo]
  own command later := .inl (handed_aside aside ▸ later)
  replies := aside.given
  asked nonce _ r := by rw [aside.rest]

/-! ## Requests to the store -/

def asking (w : Hall) (run : String) (r : StoreRequest) : Hall :=
  { w with around := { w.around with asked := w.around.asked ++ [(run, r)] } }

theorem run_attempt {α : Type} (act : HallM α) (w : Hall) :
    (attempt act).run w = (.ok (act.run w).1, (act.run w).2) :=
  rfl

variable (given : Except Failure Bool)

theorem run_serve_store (r : StoreRequest) (w : Hall) : (serve conduct g given (.store r)).run w =
    (.ok (.ok (r.effect w.around.contents).1),
      holding (asking w g.nonce r) (r.effect w.around.contents).2) := by
  have asked : (change fun x => { x with asked := x.asked ++ [(g.nonce, r)] } : HallM Unit).run w =
      (.ok (), asking w g.nonce r) := rfl
  refine (Fallible.run_bind_ok asked fun _ => attempt (onBackend (Backend.answer r))).trans ?_
  rw [run_attempt, run_answer]
  rfl

theorem beside_asking (w : Hall) (r : StoreRequest) (d : Contents) :
    Beside g w (holding (asking w g.nonce r) d) where
  others _ _ := rfl
  own _ later := .inl later
  replies _ h := h
  asked nonce other r' := by
    have different : (nonce, r') ≠ (g.nonce, r) := fun same => other (Prod.mk.inj same).1
    refine ⟨fun later => ?_, fun earlier => List.mem_append_left _ earlier⟩
    exact (List.mem_append.mp later).resolve_right fun new => different (List.mem_singleton.mp new)

theorem Calm.asking (h : Calm c w) {run : String} {r : StoreRequest}
    (own : ∀ nonce, r = .text (replyEntry nonce) ∨ r = .remove (replyEntry nonce) → run = nonce) :
    Calm c (asking w run r) where
  unused := h.unused
  empty := h.empty
  state := h.state
  answered := h.answered
  bridge := h.bridge
  observers := h.observers
  ready := h.ready
  own run' nonce uses := by
    have split {r' : StoreRequest} (asked : (run', r') ∈ w.around.asked ++ [(run, r)])
        (is : r' = .text (replyEntry nonce) ∨ r' = .remove (replyEntry nonce)) :
        (run', r') ∈ w.around.asked ∨ run' = nonce := by
      refine (List.mem_append.mp asked).imp_right fun new => ?_
      obtain ⟨rfl, rfl⟩ := Prod.mk.inj (List.mem_singleton.mp new)
      exact own nonce is
    rcases uses with text | remove
    · exact (split text (.inl rfl)).elim (fun asked => h.own _ _ (.inl asked)) id
    · exact (split remove (.inr rfl)).elim (fun asked => h.own _ _ (.inr asked)) id

theorem published_asking {run : String} {r : StoreRequest} :
    Published run (asking w run r) ↔ Published run w ∨ r = .put commandNonce (.text run) := by
  unfold Published
  rw [show (asking w run r).around.asked = w.around.asked ++ [(run, r)] from rfl, List.mem_append,
    List.mem_singleton]
  refine or_congr_right ⟨fun same => (Prod.mk.inj same).2.symm, fun same => ?_⟩
  rw [same]

/-- A read of the application's state finds what it is, and changes nothing. -/
theorem ReadsState.effect {r : StoreRequest} (reads : ReadsState r) {d : Contents}
    (same : ∀ name, d.get? (stateEntry name) = c.get? (stateEntry name)) :
    r.effect d = ((r.effect c).1, d) := by
  cases r with
  | text key =>
    obtain ⟨name, rfl⟩ := reads
    simp only [StoreRequest.effect, textAt, same]
  | value key =>
    obtain ⟨name, rfl⟩ := reads
    simp only [StoreRequest.effect, same]
  | _ => exact reads.elim

theorem ReadsState.ne_reply {r : StoreRequest} (reads : ReadsState r) (nonce : String) :
    ¬ (r = .text (replyEntry nonce) ∨ r = .remove (replyEntry nonce)) := by
  rintro (rfl | rfl)
  · obtain ⟨name, same⟩ := reads
    exact stateEntry_ne_replyEntry name nonce same.symm
  · exact reads

theorem ReadsState.ne_put {r : StoreRequest} (reads : ReadsState r) (key : String) (v : Document) :
    r ≠ .put key v := by
  rintro rfl
  exact reads

theorem run_serve_read {r : StoreRequest} (reads : ReadsState r) (now : g.At c .before w) :
    ∃ v, (serve conduct g given (.store r)).run w = (.ok (.ok (r.effect c).1), v) ∧
      g.At c .before v ∧ Beside g w v := by
  have ran := run_serve_store conduct (g := g) given r w
  rw [reads.effect now.1.state] at ran
  refine ⟨_, ran, ⟨?_, now.2.handed, ?_⟩, beside_asking w r _⟩
  · exact now.1.asking fun nonce uses => absurd uses (reads.ne_reply nonce)
  · exact fun published => (published_asking.mp published).elim now.2.unpublished (reads.ne_put _ _)

theorem notMem_allParameterWrites (vs : List (String × StoredValue)) :
    commandNonce ∉ entryKeys (allParameterWrites vs) := fun written => by
  have parameter := isParameterKey_of_mem_allParameterWrites written
  rw [isParameterKey_commandEntries commandNonce (by decide)] at parameter
  cases parameter

theorem run_serve_put {time : Option Float} {key : String} {value : Document}
    {left : List (String × Document)} (now : g.At c (.writing time ((key, value) :: left)) w) :
    ∃ v, (serve conduct g given (.store (.put key value))).run w = (.ok (.ok ()), v) ∧
      g.At c (.writing time left) v ∧ Beside g w v := by
  obtain ⟨⟨before, done, calm, contents, all, asked⟩, handed, unpublished⟩ := now
  refine ⟨_, run_serve_store conduct given (.put key value) w,
    ⟨⟨before, done ++ [(key, value)], ?_, ?_, ?_, ?_⟩, handed, ?_⟩, beside_asking w _ _⟩
  · refine Calm.asking (w := holding w before) calm (r := .put key value) ?_
    rintro nonce (same | same) <;> cases same
  · change w.around.contents.put key value = _
    rw [contents, OrderedMap.putAll_append]
    rfl
  · rw [List.append_assoc]
    exact all
  · intro e he
    rcases List.mem_append.mp he with earlier | new
    · exact List.mem_append_left _ (asked e earlier)
    · obtain rfl := List.mem_singleton.mp new
      exact List.mem_append_right _ List.mem_cons_self
  · rintro rfl published
    -- The nonce of the command is none of the parameters' entries.
    refine (published_asking.mp published).elim (unpublished rfl) fun same => ?_
    have written : (key, value) ∈ allParameterWrites g.encoded := by
      have all' : done ++ (key, value) :: left = allParameterWrites g.encoded := all
      rw [← all']
      exact List.mem_append_right _ List.mem_cons_self
    cases same
    exact notMem_allParameterWrites g.encoded (List.mem_map_of_mem written)

/-! ## The notification -/

def receiving (w : Hall) (command : Command) : Hall :=
  { w with around := { w.around with received := w.around.received ++ [command] } }

def queueing (w : Hall) (code : List Reaction) (command : Command) : Hall :=
  { w with ready := w.ready ++ [.deliver (.custom code) command] }

/-- A callback receives its command, and what it does in the end stays aside. -/
theorem run_deliver_custom (code : List Reaction) (command : Command) (w : Hall) :
    ∃ result v, (deliver (hostOf conduct) (.custom code) command).run w = (result, v) ∧
      Aside (receiving w command) v :=
  run_react (conduct.receive w.around command) (receiving w command)

theorem Calm.receiving (h : Calm c w) (command : Command) : Calm c (receiving w command) :=
  ⟨h.unused, h.empty, h.state, h.answered, h.bridge, h.observers, h.ready, h.own⟩

theorem Calm.queueing (h : Calm c w) (code : List Reaction) (command : Command) :
    Calm c (queueing w code command) where
  unused := h.unused
  empty := h.empty
  state := h.state
  answered := h.answered
  bridge := h.bridge
  observers := h.observers
  own := h.own
  ready task there := by
    rcases List.mem_append.mp there with old | new
    · exact h.ready task old
    · exact ⟨code, command, List.mem_singleton.mp new⟩

/-- One more command was handed over, and runs made no request. -/
structure HandsOver (command : Command) (w v : Hall) : Prop where
  between : ∃ early late, handed w = early ++ late ∧ handed v = early ++ command :: late
  replies : ∀ r ∈ w.around.replies, r ∈ v.around.replies
  asked : v.around.asked = w.around.asked

theorem handsOver_queueing (w : Hall) (code : List Reaction) (command : Command) :
    HandsOver command w (queueing w code command) where
  between := by
    refine ⟨handed w, [], (List.append_nil _).symm, ?_⟩
    unfold handed queueing
    rw [List.filterMap_append, ← List.append_assoc]
    rfl
  replies _ h := h
  asked := rfl

theorem handsOver_receiving (w : Hall) (command : Command) :
    HandsOver command w (receiving w command) where
  between := ⟨w.around.received, w.ready.filterMap commandOf, rfl, List.append_assoc ..⟩
  replies _ h := h
  asked := rfl

variable {command : Command}

theorem HandsOver.aside (h : HandsOver command w v) (aside : Aside v u) : HandsOver command w u where
  between := by
    rw [handed_aside aside]
    exact h.between
  replies r hr := aside.given r (h.replies r hr)
  asked := by
    rw [aside.rest]
    exact h.asked

theorem HandsOver.others (h : HandsOver command w v) {nonce : String} (other : nonce ≠ command.nonce) :
    handedTo nonce v = handedTo nonce w := by
  obtain ⟨early, late, before, after⟩ := h.between
  have skipped : (command.nonce == nonce) = false := beq_false_of_ne other.symm
  unfold handedTo
  rw [before, after, List.filter_append, List.filter_append, List.filter_cons, skipped]
  rfl

theorem HandsOver.own (h : HandsOver command w v) (new : handedTo command.nonce w = []) :
    handedTo command.nonce v = [command] := by
  obtain ⟨early, late, before, after⟩ := h.between
  unfold handedTo at new ⊢
  rw [before, List.filter_append, List.append_eq_nil_iff] at new
  rw [after, List.filter_append, List.filter_cons, beq_self_eq_true, if_pos rfl, new.1, new.2]
  rfl

/-- A turn that hands over the command of its run leaves the other runs alone. -/
theorem HandsOver.beside (h : HandsOver command w v) (own : command.nonce = g.nonce) :
    Beside g w v where
  others nonce other := h.others (own ▸ other)
  own other later := by
    obtain ⟨early, late, before, after⟩ := h.between
    rw [after, List.mem_append, List.mem_cons] at later
    rw [before, List.mem_append]
    rcases later with early | rfl | late
    · exact .inl (.inl early)
    · exact .inr own
    · exact .inl (.inr late)
  replies := h.replies
  asked nonce _ r := by rw [h.asked]

theorem run_dispatch_custom (calm : Calm c w) (b : Bridge (List Reaction)) (code : List Reaction)
    (command : Command) :
    ∃ result v, (dispatch (hostOf conduct) b (.custom code) command).run w = (result, v) ∧
      Calm c v ∧ HandsOver command w v := by
  unfold dispatch
  cases b.queued with
  | true => exact ⟨_, _, rfl, calm.queueing code command, handsOver_queueing w code command⟩
  | false =>
    obtain ⟨result, v, delivered, aside⟩ := run_deliver_custom conduct code command w
    exact ⟨result, v, delivered, (calm.receiving command).aside aside,
      (handsOver_receiving w command).aside aside⟩

/-- The bridge collects the command that was written, and hands it over. -/
theorem run_post_written {time : Float} {before : Contents} (calm : Calm c (holding w before))
    (contents : w.around.contents = (g.draft c time).written g.encoded before) :
    ∃ n v, (post (hostOf conduct) commandNotification).run w = (.ok n, v) ∧ Calm c v ∧
      HandsOver ((g.draft c time).command g.encoded) (holding w before) v := by
  have collected : (onStore collectCommand : HallM (Option (Command × Bool))).run w =
      (.ok (some ((g.draft c time).command g.encoded, true)), holding w before) := by
    have ran := runOn_collectCommand_written (d := g.draft c time) calm.unused calm.empty
      (names_presentParameters g.distinct) g.encodable
    rw [run_onStore, contents]
    exact congrArg (fun r => (r.1, holding w r.2)) ran
  obtain ⟨b, code, there, installed⟩ := calm.bridge
  obtain ⟨result, v, dispatched, calm', handsOver⟩ := run_dispatch_custom conduct
    calm b code ((g.draft c time).command g.encoded)
  have found := attend_found (hostOf conduct) (run_openStore w) there installed collected
  rw [if_pos rfl, List.append_nil] at found
  -- A callback may fail; what it was given counts all the same.
  have looked : ∃ result, (attend (hostOf conduct)).run w = (result, v) := by
    rw [found]
    cases result with
    | ok _ => exact ⟨_, Fallible.run_bind_ok dispatched _⟩
    | error e => exact ⟨_, Fallible.run_bind_error dispatched _⟩
  obtain ⟨_, looked⟩ := looked
  obtain ⟨n, notices, posted⟩ := post_bridge _ (w := w) calm.observers looked
  have aside := aside_notices v (v.notices ++ notices)
  exact ⟨n, _, posted, calm'.aside aside, handsOver.aside aside⟩

theorem run_serve_post {time : Float} (now : g.At c (.writing (some time) []) w) :
    ∃ v, (serve conduct g given (.post commandNotification)).run w = (.ok (), v) ∧
      g.At c (.looking time) v ∧ Beside g w v := by
  obtain ⟨⟨before, done, calm, contents, all, asked⟩, unhanded, -⟩ := now
  obtain rfl : done = (g.draft c time).writes g.encoded := (List.append_nil done).symm.trans all
  rw [putAll_writes] at contents
  obtain ⟨n, v, posted, calm', handsOver⟩ := run_post_written conduct calm contents
  refine ⟨v, Fallible.run_bind_ok posted _, ⟨calm', handsOver.own unhanded, ?_⟩, ?_⟩
  · have nonce : (commandNonce, .text g.nonce) ∈ (g.draft c time).writes g.encoded :=
      List.mem_append_right _ (List.mem_cons_of_mem _ List.mem_cons_self)
    unfold Published
    rw [handsOver.asked]
    exact asked _ nonce
  · exact beside_trans (beside_holding w before) (handsOver.beside rfl)

/-! ## The reply -/

theorem Guest.Delivered.asking {time : Float} (h : g.Delivered c time w) (r : StoreRequest)
    (d : Contents) : g.Delivered c time (holding (asking w g.nonce r) d) :=
  ⟨h.handed, published_asking.mpr (.inl h.published)⟩

/-- A look for the reply finds nothing or a reply that was given to the run. -/
theorem run_serve_look {time : Float} (now : g.At c (.looking time) w) :
    ∃ a ψ v, (serve conduct g given (.store (.text (replyEntry g.nonce)))).run w = (.ok a, v) ∧
      g.Passes c (.looking time) (.store (.text (replyEntry g.nonce))) a ψ ∧ g.At c ψ v ∧
      Beside g w v := by
  obtain ⟨calm, delivered⟩ := now
  have ran := run_serve_store conduct (g := g) given
    (.text (replyEntry g.nonce)) w
  have calm' : Calm c (asking w g.nonce (.text (replyEntry g.nonce))) := by
    refine calm.asking fun nonce uses => ?_
    rcases uses with same | same
    · exact replyEntry_injective (StoreRequest.text.inj same)
    · cases same
  have delivered' := delivered.asking (.text (replyEntry g.nonce)) w.around.contents
  have beside := beside_asking (g := g) w (.text (replyEntry g.nonce)) w.around.contents
  cases there : w.around.contents.get? (replyEntry g.nonce) with
  | none =>
    refine ⟨.ok (.ok none), .looking time, _, ran.trans ?_, ⟨rfl, .inl ⟨rfl, rfl⟩⟩, ⟨calm', delivered'⟩,
      beside⟩
    exact congrArg (fun a => (Except.ok (Except.ok a), _)) (textAt_of_none there)
  | some v =>
    obtain ⟨m, rfl, reply⟩ := calm.answered _ _ there
    refine ⟨.ok (.ok (some m)), .found time m, _, ran.trans ?_, ⟨rfl, .inr ⟨m, rfl, rfl⟩⟩,
      ⟨calm', delivered', reply⟩, beside⟩
    exact congrArg (fun a => (Except.ok (Except.ok a), _)) (textAt_of_get? there)

theorem Calm.erasing (h : Calm c w) (nonce : String) :
    Calm c (holding w (w.around.contents.erase (replyEntry nonce))) where
  unused k hk := by
    change (w.around.contents.erase _).get? k = none
    rw [OrderedMap.get?_erase, h.unused k hk, ite_self]
  empty k hk := by
    change (w.around.contents.erase _).get? k = none
    rw [OrderedMap.get?_erase, h.empty k hk, ite_self]
  state name := by
    change (w.around.contents.erase _).get? _ = _
    rw [OrderedMap.get?_erase, if_neg (stateEntry_ne_replyEntry name nonce), h.state]
  answered n v there := by
    change (w.around.contents.erase _).get? _ = _ at there
    rw [OrderedMap.get?_erase] at there
    split at there
    · cases there
    · exact h.answered n v there
  bridge := h.bridge
  observers := h.observers
  ready := h.ready
  own := h.own

theorem run_serve_take {time : Float} {m : String} (now : g.At c (.found time m) w) :
    ∃ v, (serve conduct g given (.store (.remove (replyEntry g.nonce)))).run w = (.ok (.ok ()), v) ∧
      g.At c (.taken time m) v ∧ Beside g w v := by
  obtain ⟨calm, delivered, reply⟩ := now
  refine ⟨_, run_serve_store conduct given _ w, ⟨?_, delivered.asking _ _, reply⟩, beside_asking w _ _⟩
  refine (calm.erasing g.nonce).asking (r := .remove (replyEntry g.nonce)) fun nonce uses => ?_
  rcases uses with same | same
  · cases same
  · exact replyEntry_injective (StoreRequest.remove.inj same)

/-! ## Any request -/

def ticked (w : Hall) : Hall :=
  { w with around := { w.around with readings := w.around.readings + 1 } }

theorem run_readClock (w : Hall) :
    readClock.run w = (.ok (w.around.clock w.around.readings), ticked w) :=
  rfl

theorem Calm.ticked (h : Calm c w) : Calm c (ticked w) :=
  ⟨h.unused, h.empty, h.state, h.answered, h.bridge, h.observers, h.ready, h.own⟩

theorem beside_ticked (w : Hall) : Beside g w (ticked w) :=
  ⟨fun _ _ => rfl, fun _ h => .inl h, fun _ h => h, fun _ _ _ => .rfl⟩

/-- A request of a phase is answered as the phases say, and the world is then in the next one. -/
def Serves (g : Guest) (c : Contents) (φ : Phase) (r : IntentRequest) (w : Hall) : Prop :=
  ∃ a ψ v, (serve conduct g given r).run w = (.ok a, v) ∧ g.Passes c φ r a ψ ∧ g.At c ψ v ∧
    Beside g w v

variable {φ : Phase} {r : IntentRequest}

theorem serves_before (may : ∃ a ψ, g.Passes c .before r a ψ) (now : g.At c .before w) :
    Serves conduct given g c .before r w := by
  obtain ⟨a, ψ, passes⟩ := may
  have stays (n : List Notice) : g.At c .before { w with notices := n } :=
    ⟨now.1.aside (aside_notices w n), now.2.handed, now.2.unpublished⟩
  cases r with
  | «open» => exact ⟨.ok (), .before, w, rfl, ⟨rfl, rfl⟩, now, beside_refl g w⟩
  | store r =>
    obtain ⟨v, ran, next, beside⟩ := run_serve_read conduct given passes.1 now
    exact ⟨_, _, v, ran, ⟨passes.1, rfl, rfl⟩, next, beside⟩
  | ask p prompt => exact ⟨g.answers p, .before, w, rfl, ⟨rfl, rfl⟩, now, beside_refl g w⟩
  | confirm message => exact ⟨given, .before, w, rfl, rfl, now, beside_refl g w⟩
  | report n => exact ⟨(), .before, _, rfl, rfl, stays _, beside_aside g (aside_report n w)⟩
  | newNonce =>
    exact ⟨g.nonce, _, w, rfl, ⟨rfl, rfl⟩, ⟨⟨w.around.contents, [], now.1, rfl, rfl, nofun⟩,
      now.2.handed, fun _ => now.2.unpublished⟩, beside_refl g w⟩
  | post | clock | wallClock | sleep => exact passes.elim

theorem serves_writing {time : Option Float} {left : List (String × Document)}
    (may : ∃ a ψ, g.Passes c (.writing time left) r a ψ) (now : g.At c (.writing time left) w) :
    Serves conduct given g c (.writing time left) r w := by
  obtain ⟨a, ψ, passes⟩ := may
  rcases left with _ | ⟨e, left⟩
  · cases time with
    | none =>
      cases r with
      | wallClock =>
        obtain ⟨⟨b, done, calm, contents, all, asked⟩, unhanded, -⟩ := now
        obtain rfl : done = allParameterWrites g.encoded := (List.append_nil done).symm.trans all
        exact ⟨_, _, _, run_readClock w, rfl,
          ⟨⟨b, _, calm.ticked, contents, rfl, asked⟩, unhanded, nofun⟩, beside_ticked w⟩
      | store r => cases r <;> exact passes.elim
      | _ => exact passes.elim
    | some time =>
      cases r with
      | post name =>
        obtain ⟨rfl, rfl⟩ := passes
        obtain ⟨v, ran, next, beside⟩ := run_serve_post conduct given now
        exact ⟨(), _, v, ran, ⟨rfl, rfl⟩, next, beside⟩
      | store r => cases r <;> exact passes.elim
      | _ => exact passes.elim
  · cases r with
    | store r =>
      cases r with
      | put key value =>
        obtain ⟨rfl, rfl, rfl⟩ := passes
        obtain ⟨v, ran, next, beside⟩ := run_serve_put conduct given now
        exact ⟨_, _, v, ran, ⟨rfl, rfl, rfl⟩, next, beside⟩
      | _ => exact passes.elim
    | _ => exact passes.elim

theorem serves_looking {time : Float} (may : ∃ a ψ, g.Passes c (.looking time) r a ψ)
    (now : g.At c (.looking time) w) : Serves conduct given g c (.looking time) r w := by
  obtain ⟨a, ψ, passes⟩ := may
  have stays (n : List Notice) : g.At c (.looking time) { w with notices := n } :=
    ⟨now.1.aside (aside_notices w n), now.2.handed, now.2.published⟩
  cases r with
  | clock =>
    exact ⟨_, .looking time, _, run_readClock w, rfl, ⟨now.1.ticked, now.2.handed, now.2.published⟩,
      beside_ticked w⟩
  | sleep seconds => exact ⟨(), .looking time, w, rfl, rfl, now, beside_refl g w⟩
  | report n => exact ⟨(), .looking time, _, rfl, rfl, stays _, beside_aside g (aside_report n w)⟩
  | store r =>
    cases r with
    | text key =>
      obtain ⟨rfl, -⟩ := passes
      exact run_serve_look conduct given now
    | _ => exact passes.elim
  | _ => exact passes.elim

theorem run_serve (may : ∃ a ψ, g.Passes c φ r a ψ) (now : g.At c φ w) :
    Serves conduct given g c φ r w := by
  cases φ with
  | before => exact serves_before conduct given may now
  | writing time left => exact serves_writing conduct given may now
  | looking time => exact serves_looking conduct given may now
  | found time m =>
    obtain ⟨a, ψ, passes⟩ := may
    cases r with
    | store r =>
      cases r with
      | remove key =>
        obtain ⟨rfl, -, rfl⟩ := passes
        obtain ⟨v, ran, next, beside⟩ := run_serve_take conduct given now
        exact ⟨_, _, v, ran, ⟨rfl, rfl, rfl⟩, next, beside⟩
      | _ => exact passes.elim
    | _ => exact passes.elim
  | taken time m =>
    -- A run that has taken its reply has no request left.
    obtain ⟨a, ψ, passes⟩ := may
    cases r with
    | store r => cases r <;> exact passes.elim
    | _ => exact passes.elim

/-! ## Whole turns -/

/-- The run has ended, or it waits for an answer. -/
def Paused {α : Type} : Program intentInterface α → Prop
  | .done _ => True
  | .ask r _ => waits r = true

/-- A phase in which a run may wait or end. -/
def Phase.Rests : Phase → Prop
  | .before | .looking _ | .taken .. => True
  | _ => False

/-- Between its turns a run is in the middle of nothing. -/
theorem rests_of_paused {p : Program intentInterface (Except Failure IntentAnswer)}
    (follows : g.Follows c g.Ends φ p) (paused : Paused p) : φ.Rests := by
  cases p with
  | done r =>
    cases φ with
    | writing | found => exact follows
    | _ => trivial
  | ask r next =>
    obtain ⟨⟨a, ψ, passes⟩, -⟩ := follows
    cases φ with
    | before | looking | taken => trivial
    | found time m =>
      cases r with
      | ask | confirm | sleep => exact passes
      | _ => cases paused
    | writing time left =>
      cases r with
      | ask | confirm | sleep => cases time <;> cases left <;> exact passes
      | _ => cases paused

theorem Phase.Rests.calm (rests : φ.Rests) (now : g.At c φ w) : Calm c w := by
  cases φ with
  | before | looking | taken => exact now.1
  | writing | found => exact rests.elim

variable {α : Type} {ends : Phase → α → Prop}

/-- A run that goes on keeps to its phases up to the next request that it has to wait for. -/
theorem run_proceed {p : Program intentInterface α} (follows : g.Follows c ends φ p)
    (now : g.At c φ w) :
    ∃ q ψ v, (proceed conduct g given p).run w = (.ok q, v) ∧ Paused q ∧ g.Follows c ends ψ q ∧
      g.At c ψ v ∧ Beside g w v := by
  induction p generalizing φ w with
  | done a => exact ⟨.done a, φ, w, rfl, trivial, follows, now, beside_refl g w⟩
  | ask r next ih =>
    unfold proceed
    split
    · next waiting => exact ⟨_, φ, w, rfl, waiting, follows, now, beside_refl g w⟩
    · obtain ⟨a, ψ, v, ran, passes, next', beside⟩ := run_serve conduct given follows.1 now
      obtain ⟨q, χ, u, went, paused, follows', later, beside'⟩ := ih a (follows.2 a ψ passes) next'
      exact ⟨q, χ, u, (Fallible.run_bind_ok ran _).trans went, paused, follows', later,
        beside_trans beside beside'⟩

/-- A turn of a run: it gets the answer that it waits for and goes on. -/
theorem run_goOn {p : Program intentInterface α} (follows : g.Follows c ends φ p)
    (now : g.At c φ w) :
    ∃ q ψ v, (goOn conduct g given p).run w = (.ok q, v) ∧ Paused q ∧ g.Follows c ends ψ q ∧
      g.At c ψ v ∧ Beside g w v := by
  cases p with
  | done a => exact ⟨.done a, φ, w, rfl, trivial, follows, now, beside_refl g w⟩
  | ask r next =>
    obtain ⟨a, ψ, v, ran, passes, next', beside⟩ := run_serve conduct given follows.1 now
    obtain ⟨q, χ, u, went, paused, follows', later, beside'⟩ :=
      run_proceed conduct given (follows.2 a ψ passes) next'
    exact ⟨q, χ, u, (Fallible.run_bind_ok ran _).trans went, paused, follows', later,
      beside_trans beside beside'⟩

end ShortcutRelay.Company
