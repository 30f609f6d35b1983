import ShortcutRelay.Proofs.App.Attend
import ShortcutRelay.Proofs.Protocol.Passage
import ShortcutRelay.Proofs.Scenario.Faultless

/-!
# Listeners that reply at once

* `replies` : the messages with which a script responds before it raises anything;
* `Prompt l` : a listener that does nothing but respond and raise, without waiting;
* `told` : the contents after some replies, `told_eq` : the last one stays;
* `heard` : the world after listeners were called;
* `run_callListeners` : every listener is called once and in order;
* `Listening w` : the bridge is started and hands commands over at once, and the manager has
  listeners, all of which reply at once;
* `run_post_written` : a notification after which the command that was written is read, cleared and
  handed to every listener.
-/

namespace ShortcutRelay.Scenario
open Protocol App

/-- The messages with which a script responds before it raises anything. -/
def replies : List (Action Step) → List (Option String)
  | ⟨.respond message, _⟩ :: rest => message :: replies rest
  | _ => []

/-- A listener that does nothing but respond and raise, without waiting. -/
structure Prompt (l : Listener) : Prop where
  atOnce : l.mayWait = false
  acts : ∀ a ∈ l.actions, a.once = none ∧
    ((∃ message, a.act = .respond message) ∨ ∃ message, a.act = .raise message)

/-! ## Replies -/

/-- The contents after some replies to the command with a nonce. -/
def told (nonce : String) (messages : List (Option String)) (c : Contents) : Contents :=
  messages.foldl (fun c m => c.put (replyEntry nonce) (.text (m.getD ""))) c

theorem told_append (nonce : String) (ms ns : List (Option String)) (c : Contents) :
    told nonce (ms ++ ns) c = told nonce ns (told nonce ms c) :=
  List.foldl_append

variable {w : World Surroundings Script} {c : Contents}

theorem run_respond (healthy : w.around.Faultless c) (bridge : w.bridge.isSome = true)
    (nonce : String) (message : Option String) :
    (Manager.respond nonce message : PlayM Unit).run w =
      (.ok (), holding w (c.put (replyEntry nonce) (.text (message.getD "")))) := by
  have posted : (Bridge.postReply nonce message : PlayM Unit).run w =
      (.ok (), holding w (c.put (replyEntry nonce) (.text (message.getD "")))) := by
    unfold Bridge.postReply
    rw [run_withStore healthy, runOn_postReply]
  unfold Manager.respond
  rw [Fallible.run_bind_ok (Fallible.run_get w), if_pos bridge]
  unfold noting
  rw [Fallible.run_tryCatch, posted]

/-! ## Scripts -/

/-- A script ends well or raises something; by then it has given its replies. -/
theorem run_runActions (player : Player) (healthy : w.around.Faultless c)
    (bridge : w.bridge.isSome = true) (nonce : String) {actions : List (Action Step)}
    (acts : ∀ a ∈ actions, a.once = none ∧
      ((∃ message, a.act = .respond message) ∨ ∃ message, a.act = .raise message)) :
    ∃ result, (runActions player (Manager.respond nonce) actions).run w =
        (result, holding w (told nonce (replies actions) c)) ∧
      (result = .ok none ∨ ∃ e, result = .error e) := by
  induction actions generalizing w c with
  | nil =>
    exact ⟨.ok none, congrArg (Prod.mk _) (holding_eq healthy).symm, .inl rfl⟩
  | cons a rest ih =>
    obtain ⟨act, once⟩ := a
    obtain ⟨always, ⟨message, rfl⟩ | ⟨message, rfl⟩⟩ := acts _ List.mem_cons_self
    · cases always
      have acts' : ∀ a ∈ rest, a.once = none ∧
          ((∃ message, a.act = .respond message) ∨ ∃ message, a.act = .raise message) :=
        fun a ha => acts a (List.mem_cons_of_mem _ ha)
      obtain ⟨result, ran, ends⟩ := ih (w := holding w _)
        (healthy.holding (c.put (replyEntry nonce) (.text (message.getD "")))) bridge acts'
      refine ⟨result, ?_, ends⟩
      exact (Fallible.run_bind_ok (run_respond healthy bridge nonce message) _).trans ran
    · cases always
      exact ⟨.error (.raised message), congrArg (Prod.mk _) (holding_eq healthy).symm, .inr ⟨_, rfl⟩⟩

/-! ## Calls -/

/-- The world after some calls, with other contents and more notices. -/
def heard (w : World Surroundings Script) (calls : List Call) (notices : List Notice) (c : Contents) :
    World Surroundings Script :=
  { w with
    around := { w.around.holding c with calls := w.around.calls ++ calls }
    notices := w.notices ++ notices }

theorem heard_heard (w : World Surroundings Script) (calls calls' : List Call)
    (notices notices' : List Notice) (c d : Contents) :
    heard (heard w calls notices c) calls' notices' d =
      heard w (calls ++ calls') (notices ++ notices') d := by
  unfold heard
  simp only [List.append_assoc, Surroundings.holding]

theorem heard_nil (healthy : w.around.Faultless c) : heard w [] [] c = w := by
  unfold heard
  rw [healthy.holding_eq, List.append_nil, List.append_nil]

theorem faultless_heard (healthy : w.around.Faultless c) (calls : List Call) (notices : List Notice)
    (d : Contents) : (heard w calls notices d).around.Faultless d where
  memory := rfl
  opens := healthy.opens
  reads := healthy.reads
  writes := healthy.writes
  race := healthy.race

def repliesOf (w : World Surroundings Script) (name : String) : List (Option String) :=
  ((w.around.listeners.lookup name).map fun l => replies l.actions).getD []

/-- Every listener of the manager has a script and replies at once. -/
def AllPrompt (w : World Surroundings Script) (names : List String) : Prop :=
  ∀ name ∈ names, ∃ l, w.around.listeners.lookup name = some l ∧ Prompt l

theorem run_call (player : Player) (healthy : w.around.Faultless c)
    (bridge : w.bridge.isSome = true) {name : String} {l : Listener}
    (script : w.around.listeners.lookup name = some l) (prompt : Prompt l) (i : Invocation) :
    ∃ result,
    ((hostOf player).call name i).run w =
      (result, heard w [.listener name i] [] (told i.nonce (replies l.actions) c)) ∧
      (result = .ok none ∨ ∃ e, result = .error e) := by
  have recorded : (record (.listener name i) : PlayM Unit).run w =
      (.ok (), heard w [.listener name i] [] c) := by
    unfold heard
    rw [healthy.holding_eq, List.append_nil]
    rfl
  obtain ⟨result, ran, ends⟩ := run_runActions player
    (faultless_heard healthy [.listener name i] [] c) (w := heard w [.listener name i] [] c) bridge
    i.nonce prompt.acts
  have final : holding (heard w [.listener name i] [] c) (told i.nonce (replies l.actions) c) =
      heard w [.listener name i] [] (told i.nonce (replies l.actions) c) := rfl
  rw [final] at ran
  have listened : (runListener player name i true l.actions).run w =
      (result.map fun rest => rest.map (.listener name i false),
        heard w [.listener name i] [] (told i.nonce (replies l.actions) c)) := by
    unfold runListener
    rw [if_pos rfl, Fallible.run_bind_ok recorded, Fallible.run_bind, ran]
    cases result <;> rfl
  have looked : (around : PlayM Surroundings).run w = (.ok w.around, w) := rfl
  have called : ((hostOf player).call name i).run w =
      (discard (runListener player name i true l.actions) >>= fun _ => pure none :
        PlayM (Option Script)).run w := by
    change (around >>= _ : PlayM (Option Script)).run w = _
    rw [Fallible.run_bind_ok looked, script]
    simp only [prompt.atOnce]
    rfl
  rw [called]
  unfold discard
  rcases ends with rfl | ⟨e, rfl⟩
  · exact ⟨.ok none, Fallible.run_bind_ok (Fallible.run_bind_ok listened _) _, .inl rfl⟩
  · exact ⟨.error e, Fallible.run_bind_error (Fallible.run_bind_error listened _) _, .inr ⟨e, rfl⟩⟩

/-- Every listener is called once and in order, whatever the others raise. -/
theorem run_callListeners (player : Player) (healthy : w.around.Faultless c)
    (bridge : w.bridge.isSome = true) {names : List String} (prompt : AllPrompt w names)
    (i : Invocation) : ∃ notices,
    (callListeners (hostOf player) i names).run w =
      (.ok (), heard w (names.map fun name => .listener name i) notices
        (told i.nonce (names.flatMap (repliesOf w)) c)) := by
  induction names generalizing w c with
  | nil =>
    refine ⟨[], ?_⟩
    exact congrArg (Prod.mk _) (heard_nil healthy).symm
  | cons name names ih =>
    obtain ⟨l, script, acts⟩ := prompt name List.mem_cons_self
    obtain ⟨result, called, ends⟩ := run_call player healthy bridge script acts i
    have own : repliesOf w name = replies l.actions := by
      unfold repliesOf
      rw [script]
      rfl
    have first : ∃ notices, (tryCatch ((hostOf player).call name i) fun failure => do
          report (.listenerFailed failure)
          return none).run w =
        (.ok none, heard w [.listener name i] notices (told i.nonce (repliesOf w name) c)) := by
      rw [Fallible.run_tryCatch, called, own]
      rcases ends with rfl | ⟨e, rfl⟩
      · exact ⟨[], rfl⟩
      · refine ⟨[.listenerFailed e], ?_⟩
        change (Except.ok none, { heard w _ [] _ with
          notices := (w.notices ++ []) ++ [Notice.listenerFailed e] }) = _
        rw [List.append_nil]
        rfl
    obtain ⟨notices, tried⟩ := first
    obtain ⟨notices', rest⟩ := ih
      (faultless_heard healthy [.listener name i] notices (told i.nonce (repliesOf w name) c))
      (w := heard w [.listener name i] notices (told i.nonce (repliesOf w name) c)) bridge
      fun other h => prompt other (List.mem_cons_of_mem _ h)
    refine ⟨notices ++ notices', ?_⟩
    unfold callListeners
    refine (Fallible.run_bind_ok tried _).trans (rest.trans ?_)
    rw [heard_heard, List.flatMap_cons, told_append]
    rfl

/-! ## Notifications -/

/-- The bridge is started and hands commands to the manager at once, nobody else observes the
notification, and the manager has listeners, all of which reply at once. -/
structure Listening (w : World Surroundings Script) : Prop where
  bridge : ∃ b, w.bridge = some b ∧ b.callback = some .manager ∧ b.queued = false
  observed : w.center.observers commandNotification = [.bridge]
  listeners : w.manager.listeners ≠ []
  prompt : AllPrompt w w.manager.listeners

theorem Listening.holding (h : Listening w) (d : Contents) : Listening (holding w d) where
  bridge := h.bridge
  observed := h.observed
  listeners := h.listeners
  prompt := h.prompt

/-- The manager calls every listener with the invocation of a command. -/
theorem run_deliver (player : Player) (healthy : w.around.Faultless c) (h : Listening w)
    {command : Command} {i : Invocation}
    (invocation : Invocation.ofCommand w.config command = .ok i) : ∃ notices,
    (deliver (hostOf player) .manager command).run w =
      (.ok (), heard w (w.manager.listeners.map fun name => .listener name i) notices
        (told i.nonce (w.manager.listeners.flatMap (repliesOf w)) c)) := by
  have bridge : w.bridge.isSome = true := by
    obtain ⟨b, hb, -⟩ := h.bridge
    rw [hb]
    rfl
  obtain ⟨notices, called⟩ := run_callListeners player healthy bridge h.prompt i
  refine ⟨notices, ?_⟩
  rw [run_deliver_decoded _ invocation]
  cases listeners : w.manager.listeners with
  | nil => exact absurd listeners h.listeners
  | cons name names =>
    rw [listeners] at called
    rw [run_invoke _ listeners]
    exact called

/-- A notification after which the command that was written is read, cleared and handed to every
listener. -/
theorem run_post_written (player : Player) {d : Draft} {vs : List (String × StoredValue)} {i : Invocation}
    (healthy : w.around.Faultless (d.written vs c)) (h : Listening w) (unused : NoCommand c)
    (empty : NoParameters c) (distinct : (d.parameters.map Prod.fst).Nodup)
    (encodable : encodeAll d.parameters = .ok vs)
    (invocation : Invocation.ofCommand w.config (d.command vs) = .ok i) : ∃ n notices,
    (post (hostOf player) commandNotification).run w =
      (.ok n, heard w (w.manager.listeners.map fun name => .listener name i) notices
        (told i.nonce (w.manager.listeners.flatMap (repliesOf w)) c)) := by
  obtain ⟨b, bridge, callback, atOnce⟩ := h.bridge
  have collected := run_onStore healthy collectCommand
  rw [runOn_collectCommand_written unused empty distinct encodable] at collected
  obtain ⟨notices, delivered⟩ := run_deliver player (healthy.holding c)
    (w := holding w c) (h.holding c) invocation
  have attended : (attend (hostOf player)).run w = (.ok (some (d.command vs)),
      heard w (w.manager.listeners.map fun name => .listener name i) notices
        (told i.nonce (w.manager.listeners.flatMap (repliesOf w)) c)) := by
    rw [attend_found _ (run_openStore healthy) bridge callback collected, if_pos rfl, List.append_nil]
    unfold dispatch
    rw [atOnce, if_neg Bool.false_ne_true]
    exact Fallible.run_bind_ok delivered _
  obtain ⟨n, more, posted⟩ := post_bridge _ h.observed attended
  refine ⟨n, notices ++ more, posted.trans ?_⟩
  rw [heard, heard, List.append_assoc]

end ShortcutRelay.Scenario
