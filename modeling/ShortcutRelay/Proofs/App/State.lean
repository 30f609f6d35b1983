import ShortcutRelay.Proofs.App.Registry
import ShortcutRelay.Proofs.App.Sharing
import ShortcutRelay.Proofs.Protocol.Key

/-!
# The application's state in the store

A manager keeps the keys in mind under which it wrote values of the application's state, so that it
can remove them all. A full cleanup forgets them, also where a failure has stopped it half way.

* `StateCall` : the calls that bring state into the store and remove it;
* `StateCall.own` : the keys of the manager's own entries, followed through a call;
* `Accounted` : what the own entries have to do with the contents of the store;
* `Touches` : what a call leaves alone, `touches_writeStates`, `touches_clearKeys`;
* `course` : a run of calls; `own_state_tracked` : an own entry stays tracked unless a full cleanup
  was stopped, `interrupted_cleanup_strands` : then it does not.
-/

namespace ShortcutRelay
open Protocol App

variable {σ κ : Type}

/-- A call that brings state into the store, or removes it: under given keys, or all of it. -/
inductive StateCall
  | update (state : OrderedMap Document)
  | cleanup (keys : Option (List String))

/-! ## Own entries -/

/-- The keys of own entries after one more key was treated so. -/
def Sharing.own (key : String) (mine : List String) : Sharing → List String
  | put _ => key :: mine
  | remove => mine.filter (· != key)
  | leave _ | refuse _ => mine

def App.deserted (w : World σ κ) : World σ κ :=
  { w with manager := { w.manager with listeners := [], registered := false } }

theorem run_noting (notice : StoreFailure → Notice) (act : AppM σ κ Unit) (w : World σ κ) :
    (noting notice act).run w =
      match (act.run w).1 with
      | .ok () => (.ok (), (act.run w).2)
      | .error (.store f) =>
        (.ok (), { (act.run w).2 with notices := (act.run w).2.notices ++ [notice f] })
      | .error e => (.error e, (act.run w).2) := by
  unfold noting
  rw [Fallible.run_tryCatch]
  rcases act.run w with ⟨e | _, v⟩
  · cases e <;> rfl
  · rfl

namespace StateCall

variable [Backend σ]

def perform : StateCall → AppM σ κ Unit
  | update state => Manager.updateState state
  | cleanup keys => Manager.cleanup keys

/-- The keys that a call is about: those it is given, or the tracked ones. -/
def keys (tracked : List String) : StateCall → List String
  | update state => state.keys
  | cleanup keys => keys.getD tracked

def bring (key : String) (value : Document) : AppM σ κ Unit := do
  Manager.update (·.withTracked key)
  Manager.writeState key value

/-- The keys of own entries after values were written as far as there was no error. -/
def ownAfterWrites (mine : List String) (w : World σ κ) : List (String × Document) → List String
  | [] => mine
  | (key, value) :: rest =>
    match (bring key value : AppM σ κ Unit).run w with
    | (.ok _, v) => ownAfterWrites ((Sharing.of value).own key mine) v rest
    | (.error _, _) => mine

/-- The keys of own entries after keys were removed as far as there was no error. -/
def ownAfterClears (mine : List String) (w : World σ κ) : List String → List String
  | [] => mine
  | key :: keys =>
    match (Bridge.shareText (stateEntry key) .null : AppM σ κ Unit).run w with
    | (.ok _, v) => ownAfterClears (Sharing.remove.own key mine) v keys
    | (.error _, _) => mine

/-- The keys of the manager's own entries after a call: those which it wrote and did not remove
since. -/
def own (w : World σ κ) (mine : List String) : StateCall → List String
  | update state => ownAfterWrites mine w state.toList
  | cleanup keys => ownAfterClears mine (deserted w) (keys.getD w.manager.tracked)

end StateCall

/-- Own entries are there, and any other entry is as it was at the beginning or gone. -/
structure Accounted (Like : Document → Document → Prop) (start now : Contents) (mine : List String) :
    Prop where
  there : ∀ k ∈ mine, now.get? (stateEntry k) ≠ none
  others : ∀ key, (∀ k ∈ mine, key ≠ stateEntry k) →
    now.get? key = none ∨ Option.Rel Like (now.get? key) (start.get? key)

namespace Accounted

variable {Like : Document → Document → Prop} {start c d : Contents} {mine : List String}

theorem agree (tolerance : Tolerance Like) (h : Accounted Like start c mine) (agree : Agree Like d c) :
    Accounted Like start d mine where
  there := by
    intro k own none
    have here := agree (stateEntry k)
    rw [none] at here
    generalize found : c.get? (stateEntry k) = v at here
    cases here
    exact h.there k own found
  others := by
    intro key other
    have here := agree key
    rcases h.others key other with gone | same
    · rw [gone] at here
      generalize d.get? key = v at here
      cases here
      exact .inl rfl
    · exact .inr (tolerance.optionRel_trans here same)

theorem put (h : Accounted Like start c mine) (key : String) (v : Document) :
    Accounted Like start (c.put (stateEntry key) v) (key :: mine) where
  there := by
    intro k own
    rw [OrderedMap.get?_put]
    split
    · exact Option.some_ne_none v
    · next different =>
      rcases List.mem_cons.mp own with rfl | own
      · exact absurd rfl different
      · exact h.there k own
  others := by
    intro k other
    rw [OrderedMap.get?_put_of_ne c (other key List.mem_cons_self)]
    exact h.others k fun k' own => other k' (List.mem_cons_of_mem key own)

theorem erase (h : Accounted Like start c mine) (key : String) :
    Accounted Like start (c.erase (stateEntry key)) (mine.filter (· != key)) where
  there := by
    intro k own
    obtain ⟨own, different⟩ := List.mem_filter.mp own
    have other : stateEntry k ≠ stateEntry key := by
      intro same
      obtain rfl := stateEntry_injective same
      simp at different
    rw [OrderedMap.get?_erase, if_neg other]
    exact h.there k own
  others := by
    intro k other
    rw [OrderedMap.get?_erase]
    split
    · exact .inl rfl
    · next different =>
      refine h.others k fun k' own => ?_
      by_cases same : k' = key
      · exact same ▸ different
      · exact other k' (List.mem_filter.mpr ⟨own, by simpa using same⟩)

/-- Treating an entry changes the own entries accordingly. -/
theorem effect (h : Accounted Like start c mine) (key : String) (sharing : Sharing) :
    Accounted Like start (sharing.effect key c) (sharing.own key mine) := by
  cases sharing with
  | put v => exact h.put key v
  | remove => exact h.erase key
  | leave _ => exact h
  | refuse _ => exact h

end Accounted

/-! ## What calls leave alone -/

/-- An own entry that is not tracked afterwards was there before, and it was not tracked then. -/
def NoneLost (w v : World σ κ) (mine mine' : List String) : Prop :=
  ∀ k ∈ mine', k ∉ v.manager.tracked → k ∈ mine ∧ k ∉ w.manager.tracked

theorem NoneLost.trans {w v u : World σ κ} {mine mine' mine'' : List String}
    (first : NoneLost w v mine mine') (second : NoneLost v u mine' mine'') :
    NoneLost w u mine mine'' := by
  intro k own untracked
  obtain ⟨own', untracked'⟩ := second k own untracked
  exact first k own' untracked'

variable [Backend σ]

/-- The second world is one that entries of some keys were treated in, the own ones being followed. -/
structure Touches (K : Keeper σ) (keys : List String) (w v : World σ κ) (mine mine' : List String) :
    Prop where
  later : K.Later w.around v.around
  bridge : v.bridge = w.bridge
  others : ∀ key, (∀ k ∈ keys, key ≠ stateEntry k) →
    Option.Rel K.like ((K.contents v.around).get? key) ((K.contents w.around).get? key)
  accounted : ∀ start, Accounted K.like start (K.contents w.around) mine →
    Accounted K.like start (K.contents v.around) mine'

namespace Touches

variable {K : Keeper σ} {keys more : List String} {w v u : World σ κ} {mine mine' mine'' : List String}

theorem trans (first : Touches K keys w v mine mine') (second : Touches K keys v u mine' mine'') :
    Touches K keys w u mine mine'' where
  later := first.later.trans second.later
  bridge := second.bridge.trans first.bridge
  others key other := K.tolerance.optionRel_trans (second.others key other) (first.others key other)
  accounted start h := second.accounted start (first.accounted start h)

theorem mono (h : Touches K keys w v mine mine') (sub : ∀ k ∈ keys, k ∈ more) :
    Touches K more w v mine mine' :=
  ⟨h.later, h.bridge, fun key other => h.others key fun k mem => other k (sub k mem), h.accounted⟩

/-- Nothing of the store changes. -/
theorem of_same (later : K.Later w.around v.around) (bridge : v.bridge = w.bridge)
    (same : K.contents v.around = K.contents w.around) : Touches K keys w v mine mine where
  later := later
  bridge := bridge
  others := by
    intro key _
    rw [same]
    exact optionRel_refl K.tolerance.equivalence.refl _
  accounted start h := h.agree K.tolerance (K.agree_of_eq same)

/-- One entry is treated. -/
theorem of_effect {key : String} {sharing : Sharing} (used : Used K w v)
    (agree : Agree K.like (K.contents v.around) (sharing.effect key (K.contents w.around))) :
    Touches K [key] w v mine (sharing.own key mine) where
  later := used.later
  bridge := used.bridge
  others := by
    intro k other
    have different : k ≠ stateEntry key := other key List.mem_cons_self
    have unchanged : (sharing.effect key (K.contents w.around)).get? k = (K.contents w.around).get? k := by
      cases sharing with
      | put v => exact OrderedMap.get?_put_of_ne _ different v
      | remove => exact (OrderedMap.get?_erase ..).trans (if_neg different)
      | _ => rfl
    rw [← unchanged]
    exact agree k
  accounted start h := (h.effect key sharing).agree K.tolerance agree

/-- An entry that is gone stays gone where others are treated. -/
theorem none_of_none (h : Touches K keys w v mine mine') {key : String} (other : key ∉ keys)
    (gone : (K.contents w.around).get? (stateEntry key) = none) :
    (K.contents v.around).get? (stateEntry key) = none := by
  have same := h.others (stateEntry key) fun k mem e => other (stateEntry_injective e ▸ mem)
  exact (optionRel_none_iff same).mpr gone

end Touches

variable {K : Keeper σ} {w v : World σ κ} {mine : List String}

/-! ### Values that are written -/

theorem Manager.mem_tracked_withTracked (m : Manager) (key k : String) :
    k ∈ (m.withTracked key).tracked ↔ k ∈ m.tracked ∨ k = key := by
  unfold Manager.withTracked
  split
  · next known =>
    constructor
    · exact .inl
    · rintro (old | rfl)
      · exact old
      · exact known
  · rw [List.mem_append, List.mem_singleton]

theorem mem_own_sharing {key k : String} {sharing : Sharing} (h : k ∈ sharing.own key mine) :
    k = key ∨ k ∈ mine := by
  cases sharing with
  | put v => exact List.mem_cons.mp h
  | remove => exact .inr (List.mem_filter.mp h).1
  | _ => exact .inr h

theorem run_writeStates_cons (key : String) (value : Document) (rest : List (String × Document))
    (w : World σ κ) : (Manager.writeStates ((key, value) :: rest) : AppM σ κ Unit).run w =
      match (StateCall.bring key value : AppM σ κ Unit).run w with
      | (.ok _, v) => (Manager.writeStates rest : AppM σ κ Unit).run v
      | (.error e, v) => (.error e, v) := by
  have together : (Manager.writeStates ((key, value) :: rest) : AppM σ κ Unit) =
      StateCall.bring key value >>= fun _ => Manager.writeStates rest :=
    (bind_assoc (Manager.update (·.withTracked key) : AppM σ κ Unit)
      (fun _ => Manager.writeState key value) fun _ => Manager.writeStates rest).symm
  rw [together, Fallible.run_bind]
  rcases (StateCall.bring key value : AppM σ κ Unit).run w with ⟨_ | _, _⟩ <;> rfl

/-- A key is tracked before its value is written, so that it is tracked also where that fails. -/
theorem touches_bring (mine : List String) (valid : K.valid w.around) (takes : K.TakesScalars) (key : String)
    (value : Document) {r : Except Failure Unit} (h : (StateCall.bring key value).run w = (r, v)) :
    (r = .ok () ∧ Touches K [key] w v mine ((Sharing.of value).own key mine) ∨
      (∃ e, r = .error e) ∧ Touches K [key] w v mine mine) ∧
    v.manager = w.manager.withTracked key := by
  have written := Manager.written_writeState (K := K) (w := { w with manager := w.manager.withTracked key })
    valid takes key value
  change (Manager.writeState key value).run { w with manager := w.manager.withTracked key } = _ at h
  rw [h] at written
  cases written with
  | done used agree =>
    have here : Used K w { v with manager := w.manager } := ⟨used.later, rfl, used.bridge⟩
    have touched : Touches K [key] w { v with manager := w.manager } mine
        ((Sharing.of value).own key mine) := .of_effect here agree
    exact ⟨.inl ⟨rfl, touched.later, touched.bridge, touched.others, touched.accounted⟩, used.manager⟩
  | raised used same cause =>
    exact ⟨.inr ⟨⟨_, rfl⟩, .of_same used.later used.bridge same⟩, used.manager⟩

theorem touches_writeStates (mine : List String) (takes : K.TakesScalars) (es : List (String × Document))
    (valid : K.valid w.around) :
    Touches K (entryKeys es) w ((Manager.writeStates es).run w).2 mine
      (StateCall.ownAfterWrites mine w es) ∧
    NoneLost w ((Manager.writeStates es).run w).2 mine (StateCall.ownAfterWrites mine w es) := by
  induction es generalizing w mine with
  | nil => exact ⟨.of_same (K.later_refl valid) rfl rfl, fun k own untracked => ⟨own, untracked⟩⟩
  | cons e es ih =>
    obtain ⟨key, value⟩ := e
    rw [run_writeStates_cons]
    unfold StateCall.ownAfterWrites
    generalize ran : (StateCall.bring key value : AppM σ κ Unit).run w = q
    obtain ⟨r, v⟩ := q
    obtain ⟨touched, tracked⟩ := touches_bring mine valid takes key value ran
    have lost (mine' : List String) (own : ∀ k ∈ mine', k = key ∨ k ∈ mine) :
        NoneLost w v mine mine' := by
      intro k mem untracked
      rw [tracked, Manager.mem_tracked_withTracked, not_or] at untracked
      exact ⟨(own k mem).resolve_left untracked.2, untracked.1⟩
    have first : ∀ k ∈ [key], k ∈ entryKeys ((key, value) :: es) := by simp
    have later : ∀ k ∈ entryKeys es, k ∈ entryKeys ((key, value) :: es) := by simp_all
    rcases touched with ⟨rfl, touched⟩ | ⟨⟨e, rfl⟩, touched⟩
    · obtain ⟨rest, lost'⟩ := ih (w := v) ((Sharing.of value).own key mine) touched.later.1
      exact ⟨(touched.mono first).trans (rest.mono later),
        (lost _ fun k => mem_own_sharing).trans lost'⟩
    · exact ⟨touched.mono first, lost _ fun k => .inr⟩

/-! ### Keys that are removed -/

theorem run_clearKeys_cons (key : String) (keys : List String) (w : World σ κ) :
    (Manager.clearKeys (key :: keys) : AppM σ κ Unit).run w =
      match (Bridge.shareText (stateEntry key) .null : AppM σ κ Unit).run w with
      | (.ok _, v) => (Manager.clearKeys keys : AppM σ κ Unit).run v
      | (.error e, v) => (.error e, v) := by
  refine (Fallible.run_bind (Bridge.shareText (stateEntry key) .null : AppM σ κ Unit)
    (fun _ => Manager.clearKeys keys) w).trans ?_
  rcases (Bridge.shareText (stateEntry key) .null : AppM σ κ Unit).run w with ⟨_ | _, _⟩ <;> rfl

theorem mem_of_mem_ownAfterClears {keys : List String} {k : String}
    (h : k ∈ StateCall.ownAfterClears mine w keys) : k ∈ mine := by
  induction keys generalizing w mine with
  | nil => exact h
  | cons key keys ih =>
    unfold StateCall.ownAfterClears at h
    split at h
    · exact (List.mem_filter.mp (ih h)).1
    · exact h

/-- Keys are removed one after the other until a failure comes. -/
theorem touches_clearKeys (mine keys : List String) (valid : K.valid w.around) :
    Touches K keys w ((Manager.clearKeys keys).run w).2 mine (StateCall.ownAfterClears mine w keys) ∧
    ((Manager.clearKeys keys).run w).2.manager = w.manager ∧
    (((Manager.clearKeys keys).run w).1 = .ok () ∧
        (∀ k ∈ keys, k ∉ StateCall.ownAfterClears mine w keys) ∧
        (∀ k ∈ keys, (K.contents ((Manager.clearKeys keys).run w).2.around).get? (stateEntry k) = none) ∨
      ∃ f, K.threat w.around f ∧ ((Manager.clearKeys keys).run w).1 = .error (.store f)) := by
  induction keys generalizing w mine with
  | nil => exact ⟨.of_same (K.later_refl valid) rfl rfl, rfl, .inl ⟨rfl, by simp, by simp⟩⟩
  | cons key keys ih =>
    rw [run_clearKeys_cons]
    unfold StateCall.ownAfterClears
    have written := written_remove valid (stateEntry key)
    change Written K w _ _ ((Bridge.shareText (stateEntry key) .null : AppM σ κ Unit).run w) at written
    generalize (Bridge.shareText (stateEntry key) .null : AppM σ κ Unit).run w = q at written ⊢
    have first : ∀ k ∈ [key], k ∈ key :: keys := by simp
    cases written with
    -- the rest starts with one own entry less, so that the induction is over all own entries
    | @done v used agree =>
      have touched : Touches K [key] w v mine (Sharing.remove.own key mine) := .of_effect used agree
      obtain ⟨rest, manager, ended⟩ := ih (w := v) (Sharing.remove.own key mine) used.later.1
      refine ⟨(touched.mono first).trans (rest.mono fun k => List.mem_cons_of_mem key),
        manager.trans used.manager, ?_⟩
      rcases ended with ⟨ok, gone, removed⟩ | ⟨f, threat, failed⟩
      · refine .inl ⟨ok, ?_, ?_⟩
        · intro k mem own
          rcases List.mem_cons.mp mem with rfl | mem
          · have kept := (List.mem_filter.mp (mem_of_mem_ownAfterClears own)).2
            simp at kept
          · exact gone k mem own
        · intro k mem
          by_cases later : k ∈ keys
          · exact removed k later
          · obtain rfl : k = key := (List.mem_cons.mp mem).resolve_right later
            have erased := agree (stateEntry k)
            rw [OrderedMap.get?_erase, if_pos rfl] at erased
            exact rest.none_of_none later ((optionRel_none_iff erased).mpr rfl)
      · exact .inr ⟨f, used.later.2 f threat, failed⟩
    | raised used same cause =>
      obtain ⟨f, rfl, threat⟩ := cause.resolve_left id
      exact ⟨.of_same used.later used.bridge same, used.manager, .inr ⟨f, threat, rfl⟩⟩

/-! ### Calls -/

theorem Touches.aside {keys : List String} {mine' : List String} (h : Touches K keys w v mine mine')
    (m : Manager) (notices : List Notice) :
    Touches K keys w { v with manager := m, notices } mine mine' :=
  ⟨h.later, h.bridge, h.others, h.accounted⟩

theorem updateState_eq (bridged : w.bridge.isSome = true) (state : OrderedMap Document) :
    (Manager.updateState state : AppM σ κ Unit).run w =
      (noting .stateNotWritten (Manager.writeStates state.toList)).run w := by
  unfold Manager.updateState
  rw [Fallible.run_bind_ok (Fallible.run_get w), if_pos bridged]

theorem run_updateState (bridged : w.bridge.isSome = true) (state : OrderedMap Document) :
    ∃ result notices, (Manager.updateState state : AppM σ κ Unit).run w =
      (result, { ((Manager.writeStates state.toList).run w).2 with notices }) := by
  rw [updateState_eq bridged, run_noting]
  generalize (Manager.writeStates state.toList : AppM σ κ Unit).run w = q
  obtain ⟨_ | _, v⟩ := q
  · split <;> exact ⟨_, _, rfl⟩
  · exact ⟨_, _, rfl⟩

/-- A cleanup removes keys as far as no failure comes, and a full one forgets them all in any
case. -/
theorem run_cleanup_cases (valid : K.valid w.around) (bridged : w.bridge.isSome = true)
    (keys : Option (List String)) : ∃ notices, (Manager.cleanup keys : AppM σ κ Unit).run w =
      (.ok (),
        { ((Manager.clearKeys (keys.getD w.manager.tracked)).run (deserted w)).2 with
          notices
          manager := { (deserted w).manager with
            tracked := if keys.isNone then [] else w.manager.tracked } }) := by
  obtain ⟨-, manager, ended⟩ := touches_clearKeys (K := K) (w := deserted w) []
    (keys.getD w.manager.tracked) valid
  have cleared : ∃ notices,
      (noting .stateNotCleared (Manager.clearKeys (keys.getD w.manager.tracked))).run (deserted w) =
        (.ok (), { ((Manager.clearKeys (keys.getD w.manager.tracked)).run (deserted w)).2 with
          notices }) := by
    rw [run_noting]
    rcases ended with ⟨ok, -⟩ | ⟨f, -, failed⟩
    · rw [ok]
      exact ⟨_, rfl⟩
    · rw [failed]
      exact ⟨_, rfl⟩
  obtain ⟨notices, cleared⟩ := cleared
  refine ⟨notices, ?_⟩
  generalize (Manager.clearKeys (keys.getD w.manager.tracked) : AppM σ κ Unit).run (deserted w) = q
    at manager cleared ⊢
  unfold Manager.cleanup
  rw [Fallible.run_bind_ok (run_update ..)]
  refine (Fallible.run_bind_ok (Fallible.run_get (deserted w)) _).trans ?_
  rw [if_pos (show (deserted w).bridge.isSome = true from bridged)]
  refine (Fallible.run_bind_ok cleared _).trans ?_
  cases keys with
  | none =>
    simp only [Option.isNone_none, if_true]
    rw [run_update, ← manager]
  | some keys =>
    simp only [Option.isNone_some, Bool.false_eq_true, if_false]
    rw [← show (deserted w).manager.tracked = w.manager.tracked from rfl, ← manager]
    rfl

theorem touches_perform (mine : List String) (valid : K.valid w.around) (takes : K.TakesScalars)
    (bridged : w.bridge.isSome = true) (call : StateCall) :
    Touches K (call.keys w.manager.tracked) w (call.perform.run w).2 mine (call.own w mine) := by
  cases call with
  | update state =>
    obtain ⟨result, notices, ran⟩ := run_updateState bridged state
    change Touches K state.keys w ((Manager.updateState state).run w).2 mine _
    rw [ran]
    exact (touches_writeStates mine takes state.toList valid).1.aside _ notices
  | cleanup keys =>
    obtain ⟨notices, ran⟩ := run_cleanup_cases (K := K) valid bridged keys
    change Touches K (keys.getD w.manager.tracked) w ((Manager.cleanup keys).run w).2 mine _
    rw [ran]
    have touched := (touches_clearKeys (w := deserted w) mine
      (keys.getD w.manager.tracked) valid).1
    exact ⟨touched.later, touched.bridge, touched.others, touched.accounted⟩

/-- A failure stops the removal of all tracked keys. -/
def Interrupted (w : World σ κ) : Prop :=
  ∃ f, ((Manager.clearKeys w.manager.tracked : AppM σ κ Unit).run (deserted w)).1 = .error (.store f)

/-- An own entry gets lost only in a full cleanup that is stopped. -/
theorem noneLost_or_interrupted (mine : List String) (valid : K.valid w.around) (takes : K.TakesScalars)
    (bridged : w.bridge.isSome = true) (call : StateCall) :
    NoneLost w (call.perform.run w).2 mine (call.own w mine) ∨
      call = .cleanup none ∧ Interrupted w := by
  cases call with
  | update state =>
    left
    obtain ⟨result, notices, ran⟩ := run_updateState bridged state
    change NoneLost w ((Manager.updateState state).run w).2 mine _
    rw [ran]
    exact (touches_writeStates mine takes state.toList valid).2
  | cleanup keys =>
    obtain ⟨notices, ran⟩ := run_cleanup_cases (K := K) valid bridged keys
    change NoneLost w ((Manager.cleanup keys).run w).2 mine _ ∨ _
    rw [ran]
    cases keys with
    | some keys =>
      left
      intro k own untracked
      exact ⟨mem_of_mem_ownAfterClears own, untracked⟩
    | none =>
      obtain ⟨-, -, ⟨-, gone, -⟩ | ⟨f, -, failed⟩⟩ := touches_clearKeys (K := K) (w := deserted w)
        mine w.manager.tracked valid
      · left
        intro k own _
        exact ⟨mem_of_mem_ownAfterClears own, fun tracked => gone k tracked own⟩
      · exact .inr ⟨rfl, f, failed⟩

/-! ## Runs -/

/-- The world after some calls, with the keys of own entries. -/
def course (w : World σ κ) (mine : List String) : List StateCall → World σ κ × List String
  | [] => (w, mine)
  | call :: calls => course (call.perform.run w).2 (call.own w mine) calls

theorem course_append (w : World σ κ) (mine : List String) (calls more : List StateCall) :
    course w mine (calls ++ more) =
      course (course w mine calls).1 (course w mine calls).2 more := by
  induction calls generalizing w mine with
  | nil => rfl
  | cons call calls ih => exact ih ..

theorem course_keeps (valid : K.valid w.around) (takes : K.TakesScalars)
    (bridged : w.bridge.isSome = true) (calls : List StateCall) {start : Contents}
    (accounted : Accounted K.like start (K.contents w.around) mine) :
    K.valid (course w mine calls).1.around ∧ (course w mine calls).1.bridge.isSome = true ∧
      Accounted K.like start (K.contents (course w mine calls).1.around) (course w mine calls).2 := by
  induction calls generalizing w mine with
  | nil => exact ⟨valid, bridged, accounted⟩
  | cons call calls ih =>
    have touched := touches_perform mine valid takes bridged call
    exact ih touched.later.1 (touched.bridge ▸ bridged) (touched.accounted start accounted)

theorem accounted_nil (c : Contents) : Accounted K.like c c [] :=
  ⟨nofun, fun _ _ => .inr (optionRel_refl K.tolerance.equivalence.refl _)⟩

/-- Where an own entry is not tracked, a full cleanup was stopped and left it behind. -/
theorem interrupted_of_untracked (valid : K.valid w.around) (takes : K.TakesScalars)
    (bridged : w.bridge.isSome = true) (calls : List StateCall) {k : String}
    (own : k ∈ (course w [] calls).2) (untracked : k ∉ (course w [] calls).1.manager.tracked) :
    ∃ before after, calls = before ++ .cleanup none :: after ∧
      Interrupted (course w [] before).1 ∧ k ∈ (course w [] (before ++ [.cleanup none])).2 := by
  -- from the end, as the last call either loses nothing or is the cleanup in question
  induction calls using List.reverseRecOn with
  | nil => cases own
  | append_singleton calls call ih =>
    obtain ⟨valid', bridged', -⟩ := course_keeps valid takes bridged calls
      (accounted_nil (K := K) (K.contents w.around))
    have last : course w [] (calls ++ [call]) =
        ((call.perform.run (course w [] calls).1).2,
          call.own (course w [] calls).1 (course w [] calls).2) := course_append ..
    rcases noneLost_or_interrupted (course w [] calls).2 valid' takes bridged' call with
      kept | ⟨rfl, interrupted⟩
    · have here := own
      rw [last] at here untracked
      obtain ⟨own', untracked'⟩ := kept k here untracked
      obtain ⟨before, after, split, interrupted, left⟩ := ih own' untracked'
      refine ⟨before, after ++ [call], ?_, interrupted, left⟩
      rw [split, List.append_assoc, List.cons_append]
    · exact ⟨calls, [], rfl, interrupted, own⟩

/-- After calls that met failures anywhere, every entry that the manager wrote and did not remove since
is there, and its key is tracked unless a failure has stopped a full cleanup, which left the entry
behind; a full cleanup that meets no failure removes the entries of all tracked keys. No call changes
an entry other than those of the keys that it is given or that are tracked. -/
theorem own_state_tracked (valid : K.valid w.around) (takes : K.TakesScalars)
    (bridged : w.bridge.isSome = true) (calls : List StateCall)
    (ran : course w [] calls = (v, mine)) :
    Accounted K.like (K.contents w.around) (K.contents v.around) mine ∧
    (∀ k ∈ mine, k ∈ v.manager.tracked ∨
      ∃ before after, calls = before ++ .cleanup none :: after ∧
        Interrupted (course w [] before).1 ∧ k ∈ (course w [] (before ++ [.cleanup none])).2) ∧
    ((∀ f, ¬ K.threat v.around f) → ∀ k ∈ v.manager.tracked,
      (K.contents ((Manager.cleanup none).run v).2.around).get? (stateEntry k) = none) ∧
    ∀ (call : StateCall) key, (∀ k ∈ call.keys v.manager.tracked, key ≠ stateEntry k) →
      Option.Rel K.like ((K.contents (call.perform.run v).2.around).get? key)
        ((K.contents v.around).get? key) := by
  obtain ⟨valid', bridged', accounted⟩ := course_keeps valid takes bridged calls
    (accounted_nil (K := K) (K.contents w.around))
  rw [ran] at valid' bridged' accounted
  refine ⟨accounted, ?_, ?_, ?_⟩
  · intro k own
    by_cases tracked : k ∈ v.manager.tracked
    · exact .inl tracked
    · refine .inr (interrupted_of_untracked valid takes bridged calls ?_ ?_)
      · rw [ran]
        exact own
      · rw [ran]
        exact tracked
  · intro quiet k tracked
    obtain ⟨notices, cleaned⟩ := run_cleanup_cases (K := K) valid' bridged' none
    obtain ⟨-, -, ⟨-, -, removed⟩ | ⟨f, threat, -⟩⟩ := touches_clearKeys (K := K) (w := deserted v)
      mine v.manager.tracked valid'
    · rw [cleaned]
      exact removed k tracked
    · exact absurd threat (quiet f)
  · intro call key other
    exact (touches_perform mine valid' takes bridged' call).others key other

/-! ## An entry that is left behind -/

def unluckyWorld : World (Disturbed MemoryStore) Empty where
  around := {
    store := { contents := .empty }
    faults := fun n => if n = 7 then some (.injected .writing) else none }
  bridge := some {}

/-- A value is brought into the store, and then all state is to be removed. -/
def broughtAndCleared : List StateCall :=
  [.update (OrderedMap.ofList [("a", .bool true)]), .cleanup none]

theorem own_state_tracked_unlucky :
    Accounted Eq unluckyWorld.around.store.contents
      (course unluckyWorld [] broughtAndCleared).1.around.store.contents
      (course unluckyWorld [] broughtAndCleared).2 ∧
    ∀ k ∈ (course unluckyWorld [] broughtAndCleared).2,
      k ∈ (course unluckyWorld [] broughtAndCleared).1.manager.tracked ∨
        ∃ before after, broughtAndCleared = before ++ .cleanup none :: after ∧
          Interrupted (course unluckyWorld [] before).1 ∧
          k ∈ (course unluckyWorld [] (before ++ [.cleanup none])).2 := by
  have result := own_state_tracked (K := Disturbed.keeper MemoryStore.keeper) (w := unluckyWorld)
    trivial (fun _ _ => trivial) rfl broughtAndCleared rfl
  exact ⟨result.1, result.2.1⟩

/-- The failure stops the cleanup, which forgets the key all the same: the entry is there, it is not
tracked, and a cleanup that meets no failure leaves it where it is. -/
theorem interrupted_cleanup_strands :
    (course unluckyWorld [] broughtAndCleared).2 = ["a"] ∧
      (course unluckyWorld [] broughtAndCleared).1.manager.tracked = [] ∧
      (∀ n, (course unluckyWorld [] broughtAndCleared).1.around.uses ≤ n →
        (course unluckyWorld [] broughtAndCleared).1.around.faults n = none) ∧
      (((Manager.cleanup none).run (course unluckyWorld [] broughtAndCleared).1).2.around.store.contents.get?
        (stateEntry "a")).isSome = true := by
  refine ⟨by decide, by decide, ?_, by decide⟩
  have uses : (course unluckyWorld [] broughtAndCleared).1.around.uses = 8 := by decide
  intro n later
  rw [uses] at later
  exact if_neg (Nat.ne_of_gt later)

end ShortcutRelay
