import ShortcutRelay.Proofs.App.Registry
import ShortcutRelay.Proofs.Assembly.Minutes
import ShortcutRelay.Proofs.Delivery.Posts

/-!
# What may happen while the registry is in order

Listeners change the registry while they are called, at any depth. Whatever they do, it is in order
again when they are done, and only what an intent writes in between brings a command into the store.

* `Fades c d` : nothing of a command is in the contents `d` that is not in `c`;
* `Admission.Welcomes` : a listener that came first got the command that was waiting;
* `Orderly` : the registry is in order, and it was so for every listener that was added;
* `Later w v` : what may have happened between two states of the world, a preorder;
* `Proceeds act` : a computation leads from a world in order to a later one; `proceeds_bind` and its
  companions take it apart.
-/

namespace ShortcutRelay.Assembly
open Protocol App

/-! ## Contents -/

/-- Of a command and its parameters the contents `d` hold at most what `c` hold. -/
def Fades (c d : Contents) : Prop :=
  ∀ k, k ∈ commandEntries ∨ isParameterKey k = true → d.get? k = c.get? k ∨ d.get? k = none

variable {b c d : Contents}

theorem fades_refl (c : Contents) : Fades c c :=
  fun _ _ => .inl rfl

theorem fades_trans (h : Fades b c) (h' : Fades c d) : Fades b d := by
  intro k hk
  rcases h' k hk with same | none
  · rw [same]
    exact h k hk
  · exact .inr none

theorem fades_cleared (c : Contents) : Fades c (cleared c) := by
  intro k hk
  right
  rw [get?_cleared, if_pos hk]

theorem fades_erase (c : Contents) (key : String) : Fades c (c.erase key) := by
  intro k _
  rw [OrderedMap.get?_erase]
  split
  · exact .inr rfl
  · exact .inl rfl

/-- Entries that belong to no command may be written. -/
theorem fades_put {key : String} (entry : key ∉ commandEntries) (parameter : isParameterKey key = false)
    (c : Contents) (v : Document) : Fades c (c.put key v) := by
  intro k hk
  left
  refine OrderedMap.get?_put_of_ne _ ?_ _
  rintro rfl
  rcases hk with command | parameter'
  · exact entry command
  · rw [parameter] at parameter'
    cases parameter'

theorem Fades.noCommand (h : Fades c d) (unused : NoCommand c) : NoCommand d := by
  intro k hk
  rcases h k (.inl hk) with same | none
  · rw [same]
    exact unused k hk
  · exact none

theorem Fades.noParameters (h : Fades c d) (empty : NoParameters c) : NoParameters d := by
  intro k hk
  rcases h k (.inr hk) with same | none
  · rw [same]
    exact empty k hk
  · exact none

/-- The nonce is not the one in the contents. -/
def Gone (nonce : String) (c : Contents) : Prop :=
  textAt c commandNonce ≠ .ok (some nonce)

theorem Fades.gone (h : Fades c d) {nonce : String} (gone : Gone nonce c) : Gone nonce d := by
  unfold Gone textAt at gone ⊢
  rcases h commandNonce (.inl (by decide)) with same | none
  · rw [same]
    exact gone
  · rw [none]
    nofun

theorem gone_of_noCommand (unused : NoCommand c) (nonce : String) : Gone nonce c := by
  unfold Gone textAt
  rw [unused commandNonce (by decide)]
  nofun

theorem gone_cleared (c : Contents) (nonce : String) : Gone nonce (cleared c) :=
  gone_of_noCommand (noCommand_cleared c) nonce

/-! ## What comes on record -/

/-- What comes on record in a while: calls and nonces that are written. A nonce that is not in the store
gets there by being written, and until then no listener is called with it. -/
structure Passes (calls : List Call) (nonces : List String) (m n : Minutes) : Prop where
  called : n.called = m.called ++ calls
  written : n.written = m.written ++ nonces
  fades : nonces = [] → Fades m.contents n.contents
  spares : ∀ nonce, nonce ∉ nonces → Gone nonce m.contents →
    Gone nonce n.contents ∧ ∀ call ∈ calls, call.invocation.nonce ≠ nonce

variable {l m n : Minutes} {calls calls' : List Call} {nonces nonces' : List String}

theorem passes_of_fades (called : n.called = m.called) (written : n.written = m.written)
    (fades : Fades m.contents n.contents) : Passes [] [] m n where
  called := called.trans (List.append_nil _).symm
  written := written.trans (List.append_nil _).symm
  fades _ := fades
  spares _ _ gone := ⟨fades.gone gone, nofun⟩

theorem passes_trans (h : Passes calls nonces l m) (h' : Passes calls' nonces' m n) :
    Passes (calls ++ calls') (nonces ++ nonces') l n where
  called := by rw [h'.called, h.called, List.append_assoc]
  written := by rw [h'.written, h.written, List.append_assoc]
  fades none := by
    obtain ⟨first, second⟩ := List.append_eq_nil_iff.mp none
    exact fades_trans (h.fades first) (h'.fades second)
  spares nonce fresh gone := by
    rw [List.mem_append, not_or] at fresh
    obtain ⟨still, others⟩ := h.spares nonce fresh.1 gone
    obtain ⟨ever, others'⟩ := h'.spares nonce fresh.2 still
    exact ⟨ever, fun call hc => (List.mem_append.mp hc).elim (others call) (others' call)⟩

/-- Where there is no command, nobody is called until one is written. -/
theorem Passes.nobody (h : Passes calls [] m n) (unused : NoCommand m.contents) : calls = [] := by
  refine List.eq_nil_iff_forall_not_mem.mpr fun call hc => ?_
  exact (h.spares _ List.not_mem_nil (gone_of_noCommand unused _)).2 call hc rfl

/-! ## Order -/

/-- The command that was waiting when a first listener came was removed from the store and handed to
this listener. No other call is for it and it is not in the store afterwards, unless an intent
writes its nonce anew; where no intent writes anything there is no other call at all. -/
structure Admission.Welcomes (a : Admission) (command : Command) (i : Invocation) : Prop where
  result : a.result = .ok ()
  handed : a.calls.head? = some ⟨a.listener, i, cleared a.found⟩
  only : command.nonce ∉ a.written → ∀ call ∈ a.calls.tail, call.invocation.nonce ≠ command.nonce
  removed : command.nonce ∉ a.written → Gone command.nonce a.left
  alone : a.written = [] → a.calls.tail = [] ∧ NoCommand a.left ∧ NoParameters a.left

/-- The listener got the command that was waiting, if it came first and there was one. -/
def Admission.Regular (config : Option Config) (a : Admission) : Prop :=
  a.present = [] → ∀ command i, Pending a.found command →
    Invocation.ofCommand config command = .ok i → a.Welcomes command i

/-- The registry is in order, and so it was at every motion and every admission. -/
structure Orderly (w : Room) : Prop where
  consistent : w.manager.Consistent
  bridge : ∃ b, w.bridge = some b ∧ b.queued = false
  admissions : ∀ a ∈ w.around.admissions, a.Regular w.config
  seen : ∀ m ∈ w.around.seen, m.Consistent

/-- What may have happened between two states of the world. The tasks of a listener's own loop, if there
is one, still wait. -/
structure Later (w v : Room) : Prop where
  orderly : Orderly v
  config : v.config = w.config
  waiting : ∃ more, v.inner = w.inner.map (· ++ more)
  record : ∃ calls nonces, Passes calls nonces w.around v.around

variable {u v w : Room}

theorem later_trans (h : Later u w) (h' : Later w v) : Later u v where
  orderly := h'.orderly
  config := h'.config.trans h.config
  waiting := by
    obtain ⟨more, first⟩ := h.waiting
    obtain ⟨more', second⟩ := h'.waiting
    refine ⟨more ++ more', ?_⟩
    rw [second, first]
    cases u.inner with
    | none => rfl
    | some tasks => exact congrArg some (List.append_assoc ..)
  record := by
    obtain ⟨calls, nonces, first⟩ := h.record
    obtain ⟨calls', nonces', second⟩ := h'.record
    exact ⟨_, _, passes_trans first second⟩

/-- What concerns neither the registry nor the store may happen at any time. -/
theorem later_aside (orderly : Orderly w) (around : v.around = w.around)
    (manager : v.manager = w.manager) (bridge : v.bridge = w.bridge) (config : v.config = w.config)
    (waiting : ∃ more, v.inner = w.inner.map (· ++ more)) : Later w v where
  orderly := by
    refine ⟨?_, ?_, ?_, ?_⟩
    · rw [manager]
      exact orderly.consistent
    · rw [bridge]
      exact orderly.bridge
    · rw [around, config]
      exact orderly.admissions
    · rw [around]
      exact orderly.seen
  config := config
  waiting := waiting
  record := by
    rw [around]
    exact ⟨[], [], passes_of_fades rfl rfl (fades_refl _)⟩

theorem waiting_same (w : Room) : ∃ more, w.inner = w.inner.map (· ++ more) := by
  refine ⟨[], ?_⟩
  cases w.inner with
  | none => rfl
  | some tasks => exact congrArg some (List.append_nil tasks).symm

theorem later_refl (orderly : Orderly w) : Later w w :=
  later_aside orderly rfl rfl rfl rfl (waiting_same w)

theorem later_notices (orderly : Orderly w) (notices : List Notice) : Later w { w with notices } :=
  later_aside orderly rfl rfl rfl rfl (waiting_same w)

/-- The registry may be changed while it stays in order. -/
theorem later_manager (orderly : Orderly w) {m : Manager} (consistent : m.Consistent) :
    Later w { w with manager := m } where
  orderly := ⟨consistent, orderly.bridge, orderly.admissions, orderly.seen⟩
  config := rfl
  waiting := waiting_same w
  record := ⟨[], [], passes_of_fades rfl rfl (fades_refl _)⟩

/-- What comes on record about calls, nonces and contents leaves the registry in order. -/
theorem later_around (orderly : Orderly w) (admissions : n.admissions = w.around.admissions)
    (seen : n.seen = w.around.seen) (passes : Passes calls nonces w.around n) :
    Later w { w with around := n } where
  orderly := ⟨orderly.consistent, orderly.bridge, by rw [admissions]; exact orderly.admissions,
    by rw [seen]; exact orderly.seen⟩
  config := rfl
  waiting := waiting_same w
  record := ⟨calls, nonces, passes⟩

/-- Other contents may be there that hold no other command. -/
theorem later_holding (orderly : Orderly w) (fades : Fades w.around.contents c) :
    Later w (holding w c) :=
  later_around orderly rfl rfl (passes_of_fades rfl rfl fades)

def calling (name : String) (i : Invocation) (w : Room) : Room :=
  { w with around := { w.around with called := w.around.called ++ [⟨name, i, w.around.contents⟩] } }

theorem Orderly.calling (h : Orderly w) (name : String) (i : Invocation) : Orderly (calling name i w) :=
  ⟨h.consistent, h.bridge, h.admissions, h.seen⟩

/-- Listeners may be called with a nonce that was in the store. -/
theorem later_calling (orderly : Orderly w) {i : Invocation} {v : Room}
    (found : textAt u.around.contents commandNonce = .ok (some i.nonce)) (later : Later u w) (name : String)
    (called : Later (calling name i w) v) : Later u v := by
  refine later_trans ?_ called
  obtain ⟨calls, nonces, record⟩ := later.record
  refine ⟨orderly.calling name i, later.config, later.waiting,
    calls ++ [⟨name, i, w.around.contents⟩], nonces, ?_, record.written, record.fades, ?_⟩
  · exact (congrArg (· ++ _) record.called).trans (List.append_assoc ..)
  · intro nonce fresh gone
    obtain ⟨still, others⟩ := record.spares nonce fresh gone
    refine ⟨still, fun call hc => ?_⟩
    rcases List.mem_append.mp hc with before | here
    · exact others call before
    · rw [List.mem_singleton.mp here]
      rintro rfl
      exact gone found

/-! ## Computations -/

/-- A computation leads from a world in order to a later one, also where it fails. -/
def Proceeds {α : Type} (act : RoomM α) : Prop :=
  ∀ u, Keeps (Later u) act

variable {α β : Type}

theorem proceeds_of_later {act : RoomM α} (h : ∀ w, Orderly w → Later w (act.run w).2) : Proceeds act :=
  fun _ w hw => later_trans hw (h w hw.orderly)

theorem Proceeds.later {act : RoomM α} (h : Proceeds act) (orderly : Orderly w) :
    Later w (act.run w).2 :=
  h w w (later_refl orderly)

theorem proceeds_pure (a : α) : Proceeds (pure a) :=
  fun _ => keeps_pure a

theorem proceeds_throw (e : Failure) : Proceeds (throw e : RoomM α) :=
  fun _ => keeps_throw e

theorem proceeds_bind {x : RoomM α} {f : α → RoomM β} (hx : Proceeds x) (hf : ∀ a, Proceeds (f a)) :
    Proceeds (x >>= f) :=
  fun u => keeps_bind (hx u) fun a => hf a u

theorem proceeds_get {f : Room → RoomM α} (hf : ∀ w, Proceeds (f w)) : Proceeds (get >>= f) :=
  proceeds_bind (fun _ _ h => h) hf

theorem proceeds_tryCatch {x : RoomM α} {handle : Failure → RoomM α} (hx : Proceeds x)
    (hf : ∀ e, Proceeds (handle e)) : Proceeds (tryCatch x handle) :=
  fun u => keeps_tryCatch (hx u) fun e => hf e u

theorem proceeds_discard {x : RoomM α} (h : Proceeds x) : Proceeds (discard x) :=
  fun u => keeps_discard (h u)

theorem proceeds_report (n : Notice) : Proceeds (report n) :=
  proceeds_of_later fun _ orderly => later_notices orderly _

theorem proceeds_withStore {p : StoreM α} (fades : ∀ c, Fades c (runOn p c).2) :
    Proceeds (withStore p : RoomM α) := by
  refine proceeds_of_later fun w orderly => ?_
  rw [run_withStore]
  exact later_holding orderly (fades _)

theorem proceeds_noting {notice : StoreFailure → Notice} {x : RoomM Unit} (h : Proceeds x) :
    Proceeds (noting notice x) := by
  refine proceeds_tryCatch h fun e => ?_
  cases e with
  | store failure => exact proceeds_report _
  | _ => exact proceeds_throw _

end ShortcutRelay.Assembly
