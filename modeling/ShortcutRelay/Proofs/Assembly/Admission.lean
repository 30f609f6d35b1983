import ShortcutRelay.Proofs.Assembly.Listening

/-!
# The registry at every depth

* `later_join` : adding a listener leads to a later world, and a first listener gets the command that
  is waiting;
* `proceeds_move` : so does every motion;
* `behaves_hostOf`, `proceeds_player` : and so do the listeners, at every depth;
* `registry_consistent_first_listener_welcomed` : what holds after every run.
-/

namespace ShortcutRelay.Assembly
open Protocol App

variable {host : Host Minutes (List Turn)} {u v w : Room}

/-! ## Adding a listener -/

theorem orderly_enrolled (orderly : Orderly w) (name : String) : Orderly (enrolled name w) where
  consistent := ⟨List.nodup_singleton name, rfl⟩
  bridge := by
    obtain ⟨b, there, atOnce⟩ := orderly.bridge
    refine ⟨{ b with callback := some .manager }, ?_, atOnce⟩
    rw [enrolled, there]
    rfl
  admissions := orderly.admissions
  seen := orderly.seen

theorem later_enrolled (orderly : Orderly w) (name : String) : Later w (enrolled name w) where
  orderly := orderly_enrolled orderly name
  config := rfl
  waiting := waiting_same w
  record := ⟨[], [], passes_of_fades rfl rfl (fades_refl _)⟩

theorem later_enlist (behaves : Behaves host) (orderly : Orderly w) (name : String) :
    Later w ((Manager.enlist host name).run w).2 := by
  by_cases nobody : w.manager.listeners = []
  · obtain ⟨b, there, -⟩ := orderly.bridge
    have bridged : w.bridge.isSome = true := by
      rw [there]
      rfl
    rw [run_enlist_first host nobody (orderly.consistent.unregistered nobody) bridged name]
    exact proceeds_discard (proceeds_attend behaves) w _ (later_enrolled orderly name)
  · rw [run_enlist_later host (orderly.consistent.is_registered nobody) name]
    exact later_manager orderly (orderly.consistent.withListener nobody name)

/-- A first listener is called with the command that is waiting, which is gone from the store by
then. -/
theorem run_enlist_pending (behaves : Behaves host) (orderly : Orderly w)
    (nobody : w.manager.listeners = []) (name : String) {command : Command} {i : Invocation}
    (pending : Pending w.around.contents command)
    (decoded : Invocation.ofCommand w.config command = .ok i) : ∃ v,
    (Manager.enlist host name).run w = (.ok (), v) ∧
      Later (calling name i (holding (enrolled name w) (cleared w.around.contents))) v := by
  obtain ⟨b, there, -⟩ := orderly.bridge
  have bridged : w.bridge.isSome = true := by
    rw [there]
    rfl
  have installed : (enrolled name w).bridge = some { b with callback := some .manager } := by
    rw [enrolled, there]
    rfl
  obtain ⟨v, ran, later⟩ := run_attend_pending behaves (orderly_enrolled orderly name) installed rfl rfl
    pending decoded
  refine ⟨v, ?_, later⟩
  rw [run_enlist_first host nobody (orderly.consistent.unregistered nobody) bridged name]
  exact Fallible.run_bind_ok ran _

theorem calls_admission (name : String) (result : Except Failure Unit) {calls : List Call}
    (called : v.around.called = w.around.called ++ calls) :
    (admission name result w v).calls = calls := by
  change v.around.called.drop w.around.called.length = calls
  rw [called, List.drop_left]

theorem written_admission (name : String) (result : Except Failure Unit) {nonces : List String}
    (written : v.around.written = w.around.written ++ nonces) :
    (admission name result w v).written = nonces := by
  change v.around.written.drop w.around.written.length = nonces
  rw [written, List.drop_left]

/-- The record of a first listener shows that it got the command that was waiting. -/
theorem regular_admission (behaves : Behaves host) (orderly : Orderly w) (name : String) :
    (admission name ((Manager.enlist host name).run w).1 w ((Manager.enlist host name).run w).2).Regular
      w.config := by
  intro nobody command i pending decoded
  obtain ⟨v, ran, later⟩ := run_enlist_pending behaves orderly nobody name pending decoded
  rw [ran]
  obtain ⟨calls, nonces, record⟩ := later.record
  have called : v.around.called = w.around.called ++ (⟨name, i, cleared w.around.contents⟩ :: calls) :=
    record.called.trans (List.append_assoc ..)
  have others := calls_admission name (.ok ()) called
  have written := written_admission name (.ok ()) (w := w) record.written
  have gone := gone_cleared w.around.contents command.nonce
  refine ⟨rfl, ?_, fun fresh => ?_, fun fresh => ?_, fun quiet => ?_⟩
  · rw [others]
    rfl
  · rw [others]
    rw [written] at fresh
    exact (record.spares _ fresh gone).2
  · rw [written] at fresh
    exact (record.spares _ fresh gone).1
  · rw [written] at quiet
    subst quiet
    rw [others]
    have fades := record.fades rfl
    exact ⟨record.nobody (noCommand_cleared _), fades.noCommand (noCommand_cleared _),
      fades.noParameters (noParameters_cleared _)⟩

theorem later_join (behaves : Behaves host) (orderly : Orderly w) (name : String) :
    Later w ((join host name).run w).2 := by
  have later := later_enlist behaves orderly name
  have regular := regular_admission behaves orderly name
  unfold join
  rw [ExceptT.run_mk]
  simp only
  generalize (Manager.enlist host name).run w = outcome at later regular ⊢
  obtain ⟨result, v⟩ := outcome
  obtain ⟨calls, nonces, record⟩ := later.record
  refine ⟨⟨later.orderly.consistent, later.orderly.bridge, fun a there => ?_, later.orderly.seen⟩,
    later.config, later.waiting, calls, nonces,
    record.called, record.written, record.fades, record.spares⟩
  rcases List.mem_append.mp there with before | here
  · exact later.orderly.admissions a before
  · rw [List.mem_singleton.mp here, later.config]
    exact regular

/-! ## Motions -/

/-- The subscriptions concern nobody else. -/
theorem proceeds_change_subscriptions (f : List Subscription → List Subscription) :
    Proceeds (change fun m => { m with subscriptions := f m.subscriptions }) :=
  proceeds_of_later fun _ orderly =>
    later_around orderly rfl rfl (passes_of_fades rfl rfl (fades_refl _))

theorem proceeds_unsubscribe (place : Nat) : Proceeds (unsubscribe place) := by
  refine proceeds_get fun w => ?_
  cases w.around.subscriptions[place]? with
  | none => exact proceeds_pure ()
  | some s =>
    have removed : Proceeds (s.remove : RoomM Subscription) := by
      refine proceeds_of_later fun w orderly => ?_
      rw [run_remove]
      cases s.isActive with
      | true => exact later_manager orderly (orderly.consistent.withoutListener s.listener)
      | false => exact later_refl orderly
    exact proceeds_bind removed fun s => proceeds_change_subscriptions (·.set place s)

theorem proceeds_cleanup (keys : Option (List String)) :
    Proceeds (Manager.cleanup keys : RoomM Unit) := by
  have cleared (names : List String) : Proceeds (Manager.clearKeys names : RoomM Unit) := by
    induction names with
    | nil => exact proceeds_pure ()
    | cons name names ih =>
      refine proceeds_bind (proceeds_withStore fun c => ?_) fun _ => ih
      change Fades c (runOn (Store.remove (stateEntry name)) c).2
      rw [runOn_remove]
      exact fades_erase c (stateEntry name)
  have dropped : Proceeds (Manager.update fun m => { m with listeners := [], registered := false } :
      RoomM Unit) :=
    proceeds_of_later fun w orderly => later_manager orderly (Manager.consistent_empty _)
  have forgotten : Proceeds (Manager.update fun m => { m with tracked := [] } : RoomM Unit) :=
    proceeds_of_later fun w orderly =>
      later_manager orderly ⟨orderly.consistent.distinct, orderly.consistent.registered⟩
  have last : Proceeds (if keys.isNone then Manager.update fun m => { m with tracked := [] }
      else pure () : RoomM Unit) := by
    split
    · exact forgotten
    · exact proceeds_pure ()
  refine proceeds_bind dropped fun _ => proceeds_get fun w => ?_
  dsimp only
  split
  · exact proceeds_bind (proceeds_noting (cleared _)) fun _ => last
  · exact last

theorem proceeds_respond (nonce : String) (message : Option String) :
    Proceeds (Manager.respond nonce message : RoomM Unit) := by
  refine proceeds_get fun w => ?_
  split
  · refine proceeds_noting (proceeds_withStore fun c => ?_)
    rw [runOn_postReply]
    exact fades_put (replyEntry_notMem nonce) (isParameterKey_replyEntry nonce) c _
  · exact proceeds_report _

/-- An intent brings its own nonce into the store and no other one. -/
theorem proceeds_publish (d : Draft) : Proceeds (publish d) := by
  refine proceeds_of_later fun w orderly => ?_
  unfold publish
  rw [change, Fallible.run_bind_ok (Fallible.run_modify ..), run_withStore]
  have passes : Passes [] [d.nonce] w.around
      { w.around with
        contents := (runOn d.write w.around.contents).2
        written := w.around.written ++ [d.nonce] } := by
    refine ⟨(List.append_nil _).symm, rfl, nofun, fun nonce fresh gone => ⟨?_, nofun⟩⟩
    exact textAt_of_silent (silent_write fun same => fresh (same ▸ List.mem_cons_self)) gone
  exact later_around orderly rfl rfl passes

/-- Every motion leads to a later world. -/
theorem proceeds_move (behaves : Behaves host) (m : Motion) : Proceeds (move host m) := by
  cases m with
  | enlist name => exact proceeds_of_later fun w orderly => later_join behaves orderly name
  | unsubscribe place => exact proceeds_unsubscribe place
  | cleanup keys => exact proceeds_cleanup keys
  | respond nonce message => exact proceeds_respond nonce message
  | publish d => exact proceeds_publish d
  | notify => exact proceeds_discard (proceeds_post behaves commandNotification)

/-! ## Listeners -/

variable {player : Player}

theorem proceeds_take (moves : ∀ m, Proceeds (player m)) (t : Turn) : Proceeds (take player t) := by
  have made (ms : List Motion) : Proceeds (makeAll player ms) := by
    induction ms with
    | nil => exact proceeds_pure ()
    | cons m ms ih =>
      exact proceeds_bind (proceeds_tryCatch (moves m) fun _ => proceeds_pure ()) fun _ => ih
  refine proceeds_bind (made t.motions) fun _ => ?_
  split
  · exact proceeds_throw _
  · exact proceeds_pure ()

theorem run_call (conduct : Conduct) (player : Player) (name : String) (i : Invocation) (w : Room) :
    ((hostOf conduct player).call name i).run w =
      (heed player (conduct.listen w.around name i)).run (calling name i w) :=
  rfl

/-- Listeners whose motions lead to a later world do so themselves. -/
theorem behaves_hostOf (conduct : Conduct) (moves : ∀ m, Proceeds (player m)) :
    Behaves (hostOf conduct player) where
  observe _ _ := proceeds_pure ()
  deliver _ _ := proceeds_pure ()
  call name i w orderly := by
    have heeded (manner : Manner) : Proceeds (heed player manner) := by
      cases manner with
      | inTurns turns => exact proceeds_pure (some turns)
      | atOnce turn => exact proceeds_bind (proceeds_take moves turn) fun _ => proceeds_pure none
    rw [run_call]
    exact (heeded _).later (orderly.calling name i)
  patient name i w turns waits := by
    refine conduct.patient w.around name i turns ?_
    rw [run_call] at waits
    generalize conduct.listen w.around name i = manner at waits ⊢
    cases manner with
    | inTurns turns =>
      cases waits
      rfl
    | atOnce turn =>
      unfold heed at waits
      rw [Fallible.run_bind] at waits
      split at waits <;> cases waits
  resume turns := by
    cases turns with
    | nil => exact proceeds_pure none
    | cons turn turns => exact proceeds_bind (proceeds_take moves turn) fun _ => proceeds_pure _
  fewer turns w rest waits := by
    cases turns with
    | nil => cases waits
    | cons turn turns =>
      change ((take player turn >>= fun _ => pure (some turns) : RoomM _).run w).1 = _ at waits
      rw [Fallible.run_bind] at waits
      split at waits
      · cases waits
        exact Nat.lt_succ_self _
      · cases waits

theorem proceeds_look : Proceeds look := by
  refine proceeds_of_later fun w orderly => ?_
  refine ⟨⟨orderly.consistent, orderly.bridge, orderly.admissions, fun m there => ?_⟩, rfl,
    waiting_same w, [], [], passes_of_fades rfl rfl (fades_refl _)⟩
  rcases List.mem_append.mp there with before | now
  · exact orderly.seen m before
  · rw [List.mem_singleton.mp now]
    exact orderly.consistent

/-- However deep the motions of listeners lie inside each other, each leads to a later world. -/
theorem proceeds_player (conduct : Conduct) (depth : Nat) (m : Motion) :
    Proceeds (Assembly.player conduct depth m) := by
  induction depth generalizing m with
  | zero => exact proceeds_throw _
  | succ depth ih =>
    exact proceeds_bind proceeds_look fun _ => proceeds_move (behaves_hostOf conduct ih) m

/-! ## Runs -/

theorem proceeds_act (conduct : Conduct) (depth : Nat) (a : Act) :
    Proceeds (act conduct depth a) := by
  cases a with
  | motion m => exact proceeds_player conduct depth m
  | turn =>
    have behaves := behaves_hostOf conduct (proceeds_player conduct depth)
    have queued (f : Room → List (Task (List Turn))) :
        Proceeds (modify fun w => { w with ready := f w } : RoomM Unit) :=
      proceeds_of_later fun w orderly => later_aside orderly rfl rfl rfl rfl (waiting_same w)
    refine proceeds_get fun w => ?_
    split
    · next turns ready _ =>
      refine proceeds_bind (queued fun _ => ready) fun _ => ?_
      have resumed : Proceeds (App.resume (hostOf conduct (Assembly.player conduct depth)) turns) :=
        proceeds_tryCatch (behaves.resume turns) fun _ =>
          proceeds_bind (proceeds_report _) fun _ => proceeds_pure none
      refine proceeds_bind resumed fun left => ?_
      split
      · exact queued _
      · exact proceeds_pure ()
    · exact proceeds_pure ()

theorem later_after (conduct : Conduct) (depth : Nat) (acts : List Act) (orderly : Orderly w) :
    Later w (after conduct depth acts w) := by
  induction acts generalizing w with
  | nil => exact later_refl orderly
  | cons a acts ih =>
    have first := (proceeds_act conduct depth a).later orderly
    exact later_trans first (ih first.orderly)

theorem orderly_opening (contents : Contents) (config : Option Config) (tracked : List String)
    (running : Bool) : Orderly (opening contents config tracked running) :=
  ⟨Manager.consistent_empty tracked, ⟨{ token := some 1 }, rfl, rfl⟩, nofun, nofun⟩

/-- Whatever listeners do while they are called, however deep their calls lie inside each other:
whenever a motion begins and whenever all are over, the listeners are distinct and the manager
counts as registered just while it has some. And whoever was added when nobody was there got the
command that was waiting. -/
theorem registry_consistent_first_listener_welcomed (conduct : Conduct) (depth : Nat)
    (contents : Contents) (config : Option Config) (tracked : List String) (running : Bool)
    (acts : List Act) :
    let w := after conduct depth acts (opening contents config tracked running)
    (∀ m ∈ w.around.seen ++ [w.manager],
      m.listeners.Nodup ∧ (m.registered = true ↔ m.listeners ≠ [])) ∧
    ∀ a ∈ w.around.admissions, a.present = [] → ∀ command i, Pending a.found command →
      Invocation.ofCommand config command = .ok i → a.Welcomes command i := by
  intro w
  have later : Later (opening contents config tracked running) w :=
    later_after conduct depth acts (orderly_opening contents config tracked running)
  refine ⟨fun m there => ?_, fun a there nobody command i pending decoded => ?_⟩
  · have consistent : m.Consistent := by
      rcases List.mem_append.mp there with before | now
      · exact later.orderly.seen m before
      · rw [List.mem_singleton.mp now]
        exact later.orderly.consistent
    exact ⟨consistent.distinct, consistent.registered_iff⟩
  · have known : w.config = config := later.config
    exact later.orderly.admissions a there nobody command i pending (by rw [known]; exact decoded)

theorem after_append (conduct : Conduct) (depth : Nat) (acts acts' : List Act) (w : Room) :
    after conduct depth (acts ++ acts') w = after conduct depth acts' (after conduct depth acts w) :=
  List.foldl_append

/-- Every attempt to add a listener is on record. -/
theorem enlist_on_record (conduct : Conduct) (depth : Nat) (name : String) (w : Room) :
    ∃ a ∈ (after conduct (depth + 1) [.motion (.enlist name)] w).around.admissions,
      a.listener = name ∧ a.present = w.manager.listeners ∧ a.found = w.around.contents :=
  ⟨_, List.mem_append_right _ List.mem_cons_self, rfl, rfl, rfl⟩

theorem contents_publish (conduct : Conduct) (depth : Nat) {d : Draft}
    {vs : List (String × StoredValue)} (encodable : encodeAll d.parameters = .ok vs) (w : Room) :
    (after conduct (depth + 1) [.motion (.publish d)] w).around.contents =
      d.written vs w.around.contents := by
  change ((withStore d.write : RoomM Unit).run _).2.around.contents = _
  rw [run_withStore, runOn_write encodable]
  rfl

/-- The first listener cleans up while it is called, and another one takes its place. -/
def handingOver : Conduct where
  listen _ name _ :=
    if name = "first" then .atOnce { motions := [.cleanup none, .enlist "second"] } else .atOnce {}
  patient _ name _ _ waits := by
    split at waits <;> cases waits

/-- An application without listeners, and a command that waits. -/
def announced : Room :=
  after handingOver 2 [.motion (.publish successor)] (opening .empty none [] false)

theorem pending_announced : Pending announced.around.contents (successor.command []) := by
  have written : announced.around.contents = successor.written [] {} :=
    contents_publish handingOver 1 rfl (opening {} none [] false)
  rw [written]
  exact runOn_readCommand_alone (fun _ _ => rfl) (fun _ _ => rfl) List.nodup_nil rfl

theorem first_listener_welcomed_while_handing_over :
    let w := after handingOver 2 [.motion (.publish successor), .motion (.enlist "first")]
      (opening {} none [] false)
    w.manager.listeners = ["second"] ∧ w.manager.registered = true ∧
      ∃ a ∈ w.around.admissions, a.listener = "first" ∧ a.present = [] ∧
        Pending a.found (successor.command []) ∧
        a.Welcomes (successor.command []) { identifier := "startTimer", nonce := "N2" } := by
  obtain ⟨consistent, welcomed⟩ := registry_consistent_first_listener_welcomed handingOver 2 {}
    none [] false [.motion (.publish successor), .motion (.enlist "first")]
  have last : after handingOver 2 [.motion (.publish successor), .motion (.enlist "first")]
      (opening {} none [] false) = after handingOver 2 [.motion (.enlist "first")] announced :=
    after_append handingOver 2 [.motion (.publish successor)] [.motion (.enlist "first")] _
  rw [last] at consistent welcomed ⊢
  have second : (after handingOver 2 [.motion (.enlist "first")] announced).manager.listeners =
      ["second"] := by
    decide +kernel
  have registered := (consistent _ (List.mem_append_right _ List.mem_cons_self)).2.mpr
  have nobody : announced.manager.listeners = [] := by decide
  have pending := pending_announced
  have recorded := enlist_on_record handingOver 1 "first" announced
  -- What is shown from here on does not depend on how the command came there.
  generalize announced = w at *
  obtain ⟨a, there, listener, present, found⟩ := recorded
  rw [nobody] at present
  rw [← found] at pending
  refine ⟨second, registered ?_, a, there, listener, present, pending,
    welcomed a there present _ _ pending rfl⟩
  rw [second]
  nofun

end ShortcutRelay.Assembly
