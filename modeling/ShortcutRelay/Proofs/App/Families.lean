import ShortcutRelay.Proofs.App.State
import ShortcutRelay.Proofs.Protocol.Families
import ShortcutRelay.Proofs.Store.SuiteFile

/-!
# Operations of different families

The application brings its state into the store that also carries commands and replies.

* `Family.region` : what an operation of a family may depend on and change in the world;
* `Operation` : the operations on the store, `stays_perform` : each stays in its family's part;
* `Family.within_of_beyond` : what stays in one part leaves the others alone;
* `Question` : what is asked of the store; `Interchangeable` : operations the order of which does not
  matter;
* `families_independent` : operations of different families are interchangeable, and answers depend
  on the operations of one family.
-/

namespace ShortcutRelay
open Protocol App Keeper

variable {σ κ : Type}

/-- Two worlds differ in the store at most. -/
def SameBesideStore (w v : World σ κ) : Prop :=
  { w with around := v.around } = v

theorem SameBesideStore.symm {w v : World σ κ} (h : SameBesideStore w v) : SameBesideStore v w := by
  unfold SameBesideStore at *
  rw [← h]

theorem SameBesideStore.trans {w v u : World σ κ} (first : SameBesideStore w v)
    (second : SameBesideStore v u) : SameBesideStore w u := by
  unfold SameBesideStore at *
  rw [← second, ← first]

/-! ## Parts of the world -/

section Regions

variable [Backend σ] {K : Keeper σ} {f g : Family} {w v u : World σ κ}

/-- A family's part of the world: its entries, and for the state all that is not in the store. -/
def Family.region (K : Keeper σ) (f : Family) : Region (World σ κ) where
  within w v := (K.region f.Owns).within w.around v.around ∧ (f = .state → SameBesideStore w v)
  beyond w v := (K.region f.Owns).beyond w.around v.around ∧ (f ≠ .state → SameBesideStore w v)
  beyond_refl _ := ⟨(K.region f.Owns).beyond_refl _, fun _ => rfl⟩
  beyond_trans first second := ⟨(K.region f.Owns).beyond_trans first.1 second.1,
    fun other => (first.2 other).trans (second.2 other)⟩

namespace Family

theorem within_refl (valid : K.valid w.around) : (f.region K).within w w :=
  ⟨⟨valid, valid, K.tolerance.agreeOn_refl _⟩, fun _ => rfl⟩

theorem within_symm (h : (f.region K).within w v) : (f.region K).within v w :=
  ⟨⟨h.1.2.1, h.1.1, K.tolerance.agreeOn_symm h.1.2.2⟩, fun own => (h.2 own).symm⟩

theorem within_trans (first : (f.region K).within w v) (second : (f.region K).within v u) :
    (f.region K).within w u :=
  ⟨⟨first.1.1, second.1.2.1, K.tolerance.agreeOn_trans first.1.2.2 second.1.2.2⟩,
    fun own => (first.2 own).trans (second.2 own)⟩

/-- What stays in one family's part leaves that of another one alone. -/
theorem within_of_beyond (apart : f ≠ g) (validW : K.valid w.around) (validV : K.valid v.around)
    (h : (f.region K).beyond w v) : (g.region K).within w v := by
  refine ⟨⟨validW, validV, h.1.mono fun key own here => ?_⟩, ?_⟩
  · exact apart (owns_unique here own)
  · rintro rfl
    exact h.2 apart

end Family

/-! ### Computations in a part -/

variable {α β : Type} {R : α → β → Prop}

theorem stays_onBackend {x : BackendM σ α} {y : BackendM σ β} (h : (K.region f.Owns).Stays R x y) :
    (f.region K).Stays R (onBackend x : AppM σ κ α) (onBackend y) := by
  rintro w v ⟨near, beside⟩
  obtain ⟨results, near', left, right⟩ := h _ _ near
  refine ⟨results, ⟨near', fun own => ?_⟩, ⟨left, fun _ => rfl⟩, ⟨right, fun _ => rfl⟩⟩
  exact congrArg (fun u : World σ κ => { u with around := (y.run v.around).2 }) (beside own)

theorem stays_onStore {p : StoreM α} {q : StoreM β} (h : K.Confined f.Owns R p q) :
    (f.region K).Stays R (onStore p : AppM σ κ α) (onStore q) :=
  stays_onBackend h

/-- The store is opened before a program is run. -/
theorem stays_withStore (healthy : K.Healthy) {p : StoreM α} {q : StoreM β}
    (h : K.Confined f.Owns R p q) :
    (f.region K).Stays R (withStore p : AppM σ κ α) (withStore q) := by
  have obtain : (K.region f.Owns).Stays Eq (Backend.obtain : BackendM σ Unit) Backend.obtain := by
    rintro s t ⟨validS, validT, near⟩
    obtain ⟨s', ranS, validS', sameS⟩ := healthy.run_obtain validS
    obtain ⟨t', ranT, validT', sameT⟩ := healthy.run_obtain validT
    rw [ranS, ranT]
    refine ⟨.ok rfl, ⟨validS', validT', ?_⟩, ?_, ?_⟩
    · rw [sameS, sameT]
      exact near
    · exact (K.agree_of_eq sameS.symm).on
    · exact (K.agree_of_eq sameT.symm).on
  rw [withStore_eq, withStore_eq]
  exact stays_onBackend (obtain.bind fun _ _ _ => h)

/-- What is changed beside the store belongs to the state. -/
theorem stays_aside {F : World σ κ → World σ κ} (around : ∀ w, (F w).around = w.around)
    (same : ∀ {w v}, SameBesideStore w v → SameBesideStore (F w) (F v)) :
    (Family.state.region K).Stays Eq (modify F : AppM σ κ Unit) (modify F) := by
  have beyond (w : World σ κ) : (Family.state.region K).beyond w (F w) := by
    refine ⟨?_, fun other => absurd rfl other⟩
    rw [around]
    exact (K.region _).beyond_refl _
  refine Region.stays_modify (fun w v near => ⟨?_, fun _ => same (near.2 rfl)⟩) beyond beyond
  rw [around, around]
  exact near.1

theorem stays_report (n : Notice) :
    (Family.state.region K).Stays Eq (report n : AppM σ κ Unit) (report n) := by
  refine stays_aside (fun _ => rfl) fun {w v} same => ?_
  unfold SameBesideStore at *
  rw [← same]

theorem stays_update (F : Manager → Manager) :
    (Family.state.region K).Stays Eq (Manager.update F : AppM σ κ Unit) (Manager.update F) := by
  refine stays_aside (fun _ => rfl) fun {w v} same => ?_
  unfold SameBesideStore at *
  rw [← same]

theorem stays_noting {notice : StoreFailure → Notice} {act : AppM σ κ Unit}
    (h : (Family.state.region K).Stays Eq act act) :
    (Family.state.region K).Stays Eq (noting notice act) (noting notice act) := by
  refine h.tryCatch fun e => ?_
  cases e with
  | store failure => exact stays_report _
  | _ => exact Region.stays_throw _

end Regions

/-! ## Operations -/

inductive Operation
  | state (call : StateCall)
  | storeParameter (name : String) (type : ValueType) (value : Document)
  | postCommand (identifier nonce : String) (confirmed : Option Bool) (timestamp : Document)
  | clearCommand (nonce : Option String)
  | postReply (nonce : String) (message : Option String)
  | takeReply (nonce : String)

namespace Operation

def Result : Operation → Type
  | clearCommand _ => Bool
  | takeReply _ => Option String
  | _ => Unit

def family : Operation → Family
  | state _ => .state
  | storeParameter .. | postCommand .. | clearCommand _ => .command
  | postReply .. | takeReply _ => .reply

def perform [Backend σ] : (o : Operation) → AppM σ κ o.Result
  | state call => call.perform
  | storeParameter name type value => onStore (Protocol.storeParameter name type value)
  | postCommand identifier nonce confirmed timestamp =>
    onStore (Protocol.postCommand identifier nonce confirmed timestamp)
  | clearCommand nonce => onStore (Protocol.clearCommand nonce)
  | postReply nonce message => onStore (Protocol.postReply nonce message)
  | takeReply nonce => onStore (Protocol.takeReply nonce)

def performAll [Backend σ] (w : World σ κ) : List Operation → World σ κ
  | [] => w
  | o :: os => performAll (o.perform.run w).2 os

end Operation

inductive Question
  | pending
  | reply (nonce : String)
  | condition (key : String) (expected : Document)

namespace Question

def Answer : Question → Type
  | pending => Option Command
  | reply _ => Option String
  | condition .. => Bool

def family : Question → Family
  | pending => .command
  | reply _ => .reply
  | condition .. => .state

def program : (q : Question) → StoreM q.Answer
  | pending => readCommand
  | reply nonce => takeReply nonce
  | condition key expected => Intent.stateMatches key expected

/-- Answers are the same, as data where values may be replaced. -/
def Same (Like : Document → Document → Prop) : (q : Question) → q.Answer → q.Answer → Prop
  | pending => Option.Rel (Command.AlikeBy Like)
  | reply _ | condition .. => Eq

end Question

section Operations

variable [Backend σ] {K : Keeper σ} {w v : World σ κ} (healthy : K.Healthy)
include healthy

/-! ### Each in its part -/

theorem stays_writeStates (takes : K.TakesScalars) (es : List (String × Document)) :
    (Family.state.region K).Stays Eq (Manager.writeStates es : AppM σ κ Unit)
      (Manager.writeStates es) := by
  induction es with
  | nil => exact Region.stays_pure rfl
  | cons e es ih =>
    obtain ⟨key, value⟩ := e
    have owned := Family.owns_stateEntry key
    have written : (Family.state.region K).Stays Eq (Manager.writeState key value : AppM σ κ Unit)
        (Manager.writeState key value) := by
      rw [Manager.writeState_eq]
      cases Sharing.of value with
      | put v => exact stays_withStore healthy (confined_set healthy takes owned v)
      | remove => exact stays_withStore healthy (confined_remove healthy owned)
      | leave kind => exact stays_report _
      | refuse e => exact stays_withStore healthy (confined_throw _)
    exact (stays_update _).bind fun _ _ _ => written.bind fun _ _ _ => ih

theorem stays_clearKeys (keys : List String) :
    (Family.state.region K).Stays Eq (Manager.clearKeys keys : AppM σ κ Unit)
      (Manager.clearKeys keys) := by
  induction keys with
  | nil => exact Region.stays_pure rfl
  | cons key keys ih =>
    have removed := confined_remove healthy (Family.owns_stateEntry key)
    exact (stays_withStore healthy removed).bind fun _ _ _ => ih

theorem stays_call (takes : K.TakesScalars) (call : StateCall) :
    (Family.state.region K).Stays Eq (call.perform : AppM σ κ Unit) call.perform := by
  cases call with
  | update state =>
    refine Region.stays_get.bind fun w v near => ?_
    rw [← near.2 rfl]
    split
    · exact stays_noting (stays_writeStates healthy takes state.toList)
    · exact stays_report _
  | cleanup keys =>
    refine (stays_update _).bind fun _ _ _ => Region.stays_get.bind fun w v near => ?_
    obtain ⟨bridge, manager⟩ : v.bridge = w.bridge ∧ v.manager = w.manager := by
      rw [← near.2 rfl]
      exact ⟨rfl, rfl⟩
    have forget : (Family.state.region K).Stays Eq
        (do if keys.isNone then Manager.update fun m => { m with tracked := [] } : AppM σ κ Unit)
        (do if keys.isNone then Manager.update fun m => { m with tracked := [] }) := by
      split
      · exact stays_update _
      · exact Region.stays_pure rfl
    rw [bridge, manager]
    by_cases bridged : w.bridge.isSome = true
    · rw [if_pos bridged]
      exact (stays_noting (stays_clearKeys healthy _)).bind fun _ _ _ => forget
    · rw [if_neg bridged]
      exact forget

/-- Every operation stays in its family's part of the world. -/
theorem stays_perform (takes : K.TakesScalars) (o : Operation) :
    (o.family.region K).Stays Eq (o.perform : AppM σ κ o.Result) o.perform := by
  cases o with
  | state call => exact stays_call healthy takes call
  | storeParameter name type value =>
    exact stays_onStore (confined_storeParameter healthy takes name type value)
  | postCommand identifier nonce confirmed timestamp =>
    exact stays_onStore (confined_postCommand healthy takes identifier nonce confirmed timestamp)
  | clearCommand nonce => exact stays_onStore (confined_clearCommand healthy nonce)
  | postReply nonce message => exact stays_onStore (confined_postReply healthy takes nonce message)
  | takeReply nonce => exact stays_onStore (confined_takeReply healthy nonce)

/-- A question stays in the part of the world that it is about. -/
theorem stays_question (q : Question) :
    (q.family.region K).Stays (q.Same K.like) (onStore q.program : AppM σ κ q.Answer)
      (onStore q.program) := by
  cases q with
  | pending => exact stays_onStore (confined_readCommand healthy)
  | reply nonce => exact stays_onStore (confined_takeReply healthy nonce)
  | condition key expected => exact stays_onStore (confined_stateMatches healthy key expected)

/-! ### Independence -/

variable {f : Family} (takes : K.TakesScalars)
include takes

theorem valid_perform (valid : K.valid w.around) (o : Operation) : K.valid (o.perform.run w).2.around :=
  (stays_perform healthy takes o w w (Family.within_refl valid)).2.1.1.1

/-- An operation leaves the parts of the other families alone. -/
theorem within_perform (valid : K.valid w.around) {o : Operation} (other : o.family ≠ f) :
    (f.region K).within w (o.perform.run w).2 :=
  Family.within_of_beyond other valid (valid_perform healthy takes valid o)
    (stays_perform healthy takes o w w (Family.within_refl valid)).2.2.1

/-- A family's part of the world is as if the operations of that family alone had been performed. -/
theorem within_performAll (ops : List Operation) (h : (f.region K).within w v) :
    (f.region K).within (Operation.performAll w ops)
      (Operation.performAll v (ops.filter (·.family = f))) := by
  induction ops generalizing w v with
  | nil => exact h
  | cons o ops ih =>
    -- an operation of the family is performed on both sides, another one on the left only
    by_cases own : o.family = f
    · rw [List.filter_cons_of_pos (by simpa using own)]
      subst own
      exact ih (stays_perform healthy takes o w v h).2.1
    · rw [List.filter_cons_of_neg (by simpa using own)]
      have unseen : (f.region K).within (o.perform.run w).2 w :=
        Family.within_symm (within_perform healthy takes h.1.1 own)
      exact ih (Family.within_trans unseen h)

end Operations

/-- The order of two operations does not matter: in either order each ends as it does by itself, and
afterwards the contents agree and all that is not in the store is the same. -/
structure Interchangeable [Backend σ] (K : Keeper σ) (w : World σ κ) (a b : Operation) : Prop where
  first : (a.perform.run (b.perform.run w).2).1 = (a.perform.run w).1
  second : (b.perform.run (a.perform.run w).2).1 = (b.perform.run w).1
  contents : Agree K.like (K.contents (b.perform.run (a.perform.run w).2).2.around)
    (K.contents (a.perform.run (b.perform.run w).2).2.around)
  others : SameBesideStore (b.perform.run (a.perform.run w).2).2 (a.perform.run (b.perform.run w).2).2

section Independence

variable [Backend σ] {K : Keeper σ} {w : World σ κ} (healthy : K.Healthy) (takes : K.TakesScalars)
include healthy takes

theorem interchangeable (valid : K.valid w.around) {a b : Operation} (apart : a.family ≠ b.family) :
    Interchangeable K w a b := by
  have tolerance := K.tolerance
  obtain ⟨first, withinA, aboutA, afterA⟩ := stays_perform healthy takes a w _
    (within_perform healthy takes valid fun same => apart same.symm)
  obtain ⟨second, withinB, aboutB, afterB⟩ := stays_perform healthy takes b w _
    (within_perform healthy takes valid apart)
  refine ⟨first.eq.symm, second.eq.symm, fun key => ?_, ?_⟩
  -- an entry is in the part of `a`, of `b` or of neither; who does not own it leaves it as it is
  · by_cases ownA : a.family.Owns key
    · have notB : ¬ b.family.Owns key := fun ownB => apart (Family.owns_unique ownA ownB)
      exact tolerance.optionRel_trans (tolerance.optionRel_symm (afterB.1 key notB))
        (withinA.1.2.2 key ownA)
    · refine tolerance.optionRel_trans ?_ (afterA.1 key ownA)
      by_cases ownB : b.family.Owns key
      · exact tolerance.optionRel_symm (withinB.1.2.2 key ownB)
      · exact tolerance.optionRel_trans (tolerance.optionRel_symm (afterB.1 key ownB))
          (tolerance.optionRel_trans (tolerance.optionRel_symm (aboutA.1 key ownA))
            (aboutB.1 key ownB))
  · by_cases stateA : a.family = .state
    · have notB : b.family ≠ .state := fun stateB => apart (stateA.trans stateB.symm)
      exact (afterB.2 notB).symm.trans (withinA.2 stateA)
    · refine SameBesideStore.trans ?_ (afterA.2 stateA)
      by_cases stateB : b.family = .state
      · exact (withinB.2 stateB).symm
      · exact (afterB.2 stateB).symm.trans ((aboutA.2 stateA).symm.trans (aboutB.2 stateB))

/-- Two operations of different families can be performed in either order. What is asked of the store
after some operations is answered as if those of the family in question had been the only ones. -/
theorem families_independent (valid : K.valid w.around) :
    (∀ a b : Operation, a.family ≠ b.family → Interchangeable K w a b) ∧
    ∀ (q : Question) (ops : List Operation),
      Matching (q.Same K.like) ((onStore q.program).run (Operation.performAll w ops)).1
        ((onStore q.program).run (Operation.performAll w (ops.filter (·.family = q.family)))).1 := by
  refine ⟨fun a b => interchangeable healthy takes valid, fun q ops => ?_⟩
  have near := within_performAll healthy takes ops (Family.within_refl (f := q.family) valid)
  exact (stays_question healthy q _ _ near).1

end Independence

/-! ## A suite in a file -/

/-- An application whose suite is not there yet. -/
def newcomer : World SuiteFile Empty where
  around := { directory := "/groups", name := "timer.plist" }
  bridge := some {}

/-- Values of the state under names that look like entries of commands and replies. -/
def disguised : Operation :=
  .state (.update (OrderedMap.ofList [("", .text "on"), ("IosIntentsParam_minutes", .int 5),
    ("IosIntentsResponse_", .bool true)]))

theorem families_independent_disguised :
    Interchangeable (SuiteFile.keeper PropertyList.zeroRule_alike) newcomer disguised
        (.clearCommand none) ∧
      Matching (Question.pending.Same Document.Alike)
        ((onStore readCommand).run
          (Operation.performAll newcomer [disguised, .postReply "" (some "Done")])).1
        ((onStore readCommand).run newcomer).1 := by
  have reachable : newcomer.around.Reachable := ⟨by decide +kernel, by decide +kernel, rfl, rfl⟩
  obtain ⟨interchangeable, answers⟩ :=
    families_independent (K := SuiteFile.keeper PropertyList.zeroRule_alike)
    (SuiteFile.keeper_healthy _) (SuiteFile.keeper_takesScalars _) (w := newcomer)
    (reachable.kept_missing rfl)
  exact ⟨interchangeable _ _ (by decide), answers .pending [disguised, .postReply "" (some "Done")]⟩

end ShortcutRelay
