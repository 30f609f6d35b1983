import ShortcutRelay.Proofs.Except
import ShortcutRelay.Proofs.Fallible
import ShortcutRelay.Proofs.Store.Keeper

/-!
# Programs that keep to some keys

Where no failure can come, what a program does depends on the values of the keys that it is about, and
it changes no others.

* `Region` : a part of the states;
* `Region.Stays` : what two computations come to depends on the region alone, and beyond it they change
  nothing; `Region.Stays.bind`, `Region.Stays.tryCatch` and companions take computations apart;
* `Keeper.Healthy.run_answer` : how a request ends where no failure can come;
* `Keeper.region` : the part of a store that some keys make up;
* `Keeper.Confined` : programs that stay in it, with rules for the requests, `Confined.bind`;
* `confined_number`, `confined_double` : reads by type.
-/

namespace ShortcutRelay

/-! ## Parts of a state -/

/-- A part of the states: states are alike `within` it, or alike `beyond` it. -/
structure Region (S : Type) where
  within : S → S → Prop
  beyond : S → S → Prop
  beyond_refl : ∀ s, beyond s s
  beyond_trans : ∀ {s t u}, beyond s t → beyond t u → beyond s u

namespace Region

variable {S : Type} {α β γ δ : Type}

/-- Two computations that start from states which are alike within a region end alike there, with
related values or with the same error, and neither of them has changed anything beyond. -/
def Stays (A : Region S) (R : α → β → Prop) (x : Fallible S α) (y : Fallible S β) : Prop :=
  ∀ s t, A.within s t → Matching R (x.run s).1 (y.run t).1 ∧ A.within (x.run s).2 (y.run t).2 ∧
    A.beyond s (x.run s).2 ∧ A.beyond t (y.run t).2

variable {A : Region S} {R : α → β → Prop} {T : γ → δ → Prop}

theorem stays_ofExcept {r : Except Failure α} {q : Except Failure β} (h : Matching R r q) :
    A.Stays R (MonadExcept.ofExcept r) (MonadExcept.ofExcept q) := by
  intro s t near
  cases h with
  | ok related => exact ⟨.ok related, near, A.beyond_refl s, A.beyond_refl t⟩
  | error e => exact ⟨.error e, near, A.beyond_refl s, A.beyond_refl t⟩

theorem stays_pure {a : α} {b : β} (related : R a b) : A.Stays R (pure a) (pure b) :=
  stays_ofExcept (.ok related)

theorem stays_throw (e : Failure) : A.Stays R (throw e) (throw e) :=
  stays_ofExcept (.error e)

theorem stays_modify {f g : S → S} (within : ∀ s t, A.within s t → A.within (f s) (g t))
    (left : ∀ s, A.beyond s (f s)) (right : ∀ t, A.beyond t (g t)) :
    A.Stays Eq (modify f : Fallible S Unit) (modify g) :=
  fun s t near => ⟨.ok rfl, within s t near, left s, right t⟩

theorem stays_get : A.Stays A.within (get : Fallible S S) get :=
  fun s t near => ⟨.ok near, near, A.beyond_refl s, A.beyond_refl t⟩

theorem Stays.bind {x : Fallible S α} {y : Fallible S β} (first : A.Stays R x y)
    {f : α → Fallible S γ} {g : β → Fallible S δ} (next : ∀ a b, R a b → A.Stays T (f a) (g b)) :
    A.Stays T (x >>= f) (y >>= g) := by
  intro s t near
  obtain ⟨results, near', left, right⟩ := first s t near
  rw [Fallible.run_bind, Fallible.run_bind]
  generalize x.run s = p at results near' left
  generalize y.run t = q at results near' right
  obtain ⟨r, s'⟩ := p
  obtain ⟨r', t'⟩ := q
  cases results with
  | ok related =>
    obtain ⟨results', near'', left', right'⟩ := next _ _ related s' t' near'
    exact ⟨results', near'', A.beyond_trans left left', A.beyond_trans right right'⟩
  | error e => exact ⟨.error e, near', left, right⟩

theorem Stays.tryCatch {x : Fallible S α} {y : Fallible S β} (attempt : A.Stays R x y)
    {handle : Failure → Fallible S α} {handle' : Failure → Fallible S β}
    (handled : ∀ e, A.Stays R (handle e) (handle' e)) :
    A.Stays R (tryCatch x handle) (tryCatch y handle') := by
  intro s t near
  obtain ⟨results, near', left, right⟩ := attempt s t near
  rw [Fallible.run_tryCatch, Fallible.run_tryCatch]
  generalize x.run s = p at results near' left
  generalize y.run t = q at results near' right
  obtain ⟨r, s'⟩ := p
  obtain ⟨r', t'⟩ := q
  cases results with
  | ok related => exact ⟨.ok related, near', left, right⟩
  | error e =>
    obtain ⟨results', near'', left', right'⟩ := handled e s' t' near'
    exact ⟨results', near'', A.beyond_trans left left', A.beyond_trans right right'⟩

end Region

/-! ## Programs -/

/-- The failure to write the value that a request comes with, if there is no room for it. -/
def StoreRequest.rejection {σ : Type} (V : StoreView σ) : StoreRequest → Option Failure
  | .put _ v => V.rejection v
  | _ => none

namespace Keeper
open StoreView

variable {σ : Type} [Backend σ] {K : Keeper σ} {s t : σ}

theorem rejected_iff (r : StoreRequest) (e : Failure) :
    r.Rejected K.toStoreView e ↔ r.rejection K.toStoreView = some e := by
  cases r <;> simp [StoreRequest.Rejected, StoreRequest.rejection]

/-- A value that was written has room. -/
theorem rejection_none_of_agree {r : StoreRequest} (valid : K.valid t) {c : Contents}
    (agree : Agree K.like (K.contents t) (r.effect c).2) : r.rejection K.toStoreView = none := by
  cases r with
  | put key v =>
    have written := agree key
    rw [show ((StoreRequest.put key v).effect c).2 = c.put key v from rfl, OrderedMap.get?_put_self]
      at written
    generalize found : (K.contents t).get? key = w at written
    cases written with
    | some like => exact (K.rejection_eq like).symm.trans (K.fitting valid found).2
  | _ => rfl

/-- Where no failure can come, a request has its effect or its value is rejected. -/
theorem Healthy.run_answer (healthy : K.Healthy) (valid : K.valid s) {r : StoreRequest}
    (suits : r.Suits K.toStoreView) : ∃ t, K.valid t ∧
      (r.rejection K.toStoreView = none ∧
          (Backend.answer r).run s = (.ok (r.effect (K.contents s)).1, t) ∧
          Agree K.like (K.contents t) (r.effect (K.contents s)).2 ∨
        ∃ e, r.rejection K.toStoreView = some e ∧ (Backend.answer r).run s = (.error e, t) ∧
          K.contents t = K.contents s) := by
  have ended := K.answer r valid suits
  generalize (Backend.answer r).run s = q at ended ⊢
  cases ended with
  | @done t later agree =>
    exact ⟨t, later.1, .inl ⟨rejection_none_of_agree later.1 agree, rfl, agree⟩⟩
  | @rejected e t later same rejection =>
    exact ⟨t, later.1, .inr ⟨e, (rejected_iff r e).mp rejection, rfl, same⟩⟩
  | failed later same threat => exact (healthy s valid _ threat).elim

/-! ## A part of a store -/

/-- The part of a store that the keys with a property make up. -/
def region (K : Keeper σ) (P : String → Prop) : Region σ where
  within s t := K.valid s ∧ K.valid t ∧ AgreeOn K.like P (K.contents s) (K.contents t)
  beyond s t := AgreeOn K.like (¬ P ·) (K.contents s) (K.contents t)
  beyond_refl _ := K.tolerance.agreeOn_refl _
  beyond_trans first second := K.tolerance.agreeOn_trans first second

variable {α β γ δ : Type} {P : String → Prop} {R : α → β → Prop} {T : γ → δ → Prop}

/-- Two programs keep to the keys with a property. -/
def Confined (K : Keeper σ) (P : String → Prop) (R : α → β → Prop) (p : StoreM α) (q : StoreM β) :
    Prop :=
  (K.region P).Stays R (Backend.run p) (Backend.run q)

theorem confined_ofExcept {r : Except Failure α} {q : Except Failure β} (h : Matching R r q) :
    K.Confined P R (MonadExcept.ofExcept r) (MonadExcept.ofExcept q) := by
  have ran {ε : Type} (r : Except Failure ε) : Backend.run (σ := σ) (MonadExcept.ofExcept r) =
      MonadExcept.ofExcept r := by
    cases r <;> rfl
  unfold Confined
  rw [ran, ran]
  exact Region.stays_ofExcept h

theorem confined_pure {a : α} {b : β} (related : R a b) : K.Confined P R (pure a) (pure b) :=
  confined_ofExcept (.ok related)

theorem confined_throw (e : Failure) : K.Confined P R (throw e) (throw e) :=
  confined_ofExcept (.error e)

theorem confined_ofNumber {r : Except NumberError α} {q : Except NumberError β}
    (h : Matching R r q) : K.Confined P R (Store.ofNumber r) (Store.ofNumber q) := by
  cases h with
  | ok related => exact confined_pure related
  | error e => exact confined_throw (.number e)

theorem Confined.bind {p : StoreM α} {q : StoreM β} (first : K.Confined P R p q)
    {f : α → StoreM γ} {g : β → StoreM δ} (next : ∀ a b, R a b → K.Confined P T (f a) (g b)) :
    K.Confined P T (p >>= f) (q >>= g) := by
  unfold Confined
  rw [Backend.run_bind, Backend.run_bind]
  exact Region.Stays.bind first next

/-- Two requests keep to some keys: their answers are related, they keep contents alike there, and they
change no others. -/
theorem confined_perform (healthy : K.Healthy) {r q : StoreRequest} {R : r.Result → q.Result → Prop}
    (suitsR : r.Suits K.toStoreView) (suitsQ : q.Suits K.toStoreView)
    (rejection : r.rejection K.toStoreView = q.rejection K.toStoreView)
    (answers : ∀ c d, AgreeOn K.like P c d → R (r.effect c).1 (q.effect d).1)
    (within : ∀ c d, AgreeOn K.like P c d → AgreeOn K.like P (r.effect c).2 (q.effect d).2)
    (beyondR : ∀ c, AgreeOn K.like (¬ P ·) c (r.effect c).2)
    (beyondQ : ∀ c, AgreeOn K.like (¬ P ·) c (q.effect c).2) :
    K.Confined P R (Store.perform r) (Store.perform q) := by
  rintro s t ⟨validS, validT, near⟩
  have tolerance := K.tolerance
  rw [Backend.run_perform, Backend.run_perform]
  obtain ⟨s', validS', ⟨roomR, ranR, agreeR⟩ | ⟨e, noRoomR, ranR, sameR⟩⟩ :=
    healthy.run_answer validS suitsR <;>
  obtain ⟨t', validT', ⟨roomQ, ranQ, agreeQ⟩ | ⟨f, noRoomQ, ranQ, sameQ⟩⟩ :=
    healthy.run_answer validT suitsQ <;>
  rw [ranR, ranQ]
  · refine ⟨.ok (answers _ _ near), ⟨validS', validT', ?_⟩, ?_, ?_⟩
    · exact tolerance.agreeOn_trans agreeR.on
        (tolerance.agreeOn_trans (within _ _ near) (tolerance.agreeOn_symm agreeQ.on))
    · exact tolerance.agreeOn_trans (beyondR _) (tolerance.agreeOn_symm agreeR.on)
    · exact tolerance.agreeOn_trans (beyondQ _) (tolerance.agreeOn_symm agreeQ.on)
  -- one of them alone cannot be rejected, as that is a matter of the value
  · rw [roomR, noRoomQ] at rejection
    cases rejection
  · rw [noRoomR, roomQ] at rejection
    cases rejection
  · rw [noRoomR, noRoomQ] at rejection
    obtain rfl := Option.some.inj rejection
    refine ⟨.error e, ⟨validS', validT', ?_⟩, ?_, ?_⟩
    · rw [sameR, sameQ]
      exact near
    · exact (K.agree_of_eq sameR.symm).on
    · exact (K.agree_of_eq sameQ.symm).on

/-- A request that only reads keeps to the keys that its answer depends on. -/
theorem confined_read (healthy : K.Healthy) {r : StoreRequest} {R : r.Result → r.Result → Prop}
    (read : r.IsRead) (answers : ∀ c d, AgreeOn K.like P c d → R (r.effect c).1 (r.effect d).1) :
    K.Confined P R (Store.perform r) (Store.perform r) := by
  have suits : r.Suits K.toStoreView := by
    cases r <;> trivial
  refine confined_perform healthy suits suits rfl answers (fun c d near => ?_) (fun c => ?_) fun c => ?_
  · rw [r.effect_of_isRead read, r.effect_of_isRead read]
    exact near
  all_goals
    rw [r.effect_of_isRead read]
    exact K.tolerance.agreeOn_refl c

section Requests

variable (healthy : K.Healthy) {key : String}
include healthy

theorem confined_get (owned : P key) : K.Confined P K.like (Store.get key) (Store.get key) :=
  confined_read healthy (r := .value key) trivial fun _ _ near => K.tolerance.getD_null (near key owned)

theorem confined_text (owned : P key) : K.Confined P Eq (Store.text key) (Store.text key) := by
  have answers := confined_read (R := Eq) healthy (r := .text key) trivial fun _ _ near =>
    K.tolerance.textAt_eq (near key owned)
  refine answers.bind fun found found' same => confined_ofNumber ?_
  exact Matching.of_eq (fun _ => rfl) same

/-- The same keys of the kind in question are found. -/
theorem confined_keys : K.Confined P (fun ks ls => ∀ k, P k → (k ∈ ks ↔ k ∈ ls)) Store.keys
    Store.keys := by
  refine confined_read healthy (r := .keys) trivial fun c d near k owned => ?_
  have absent : k ∉ c.keys ↔ k ∉ d.keys := by
    rw [← OrderedMap.get?_eq_none_iff, ← OrderedMap.get?_eq_none_iff]
    exact optionRel_none_iff (near k owned)
  exact not_iff_not.mp absent

theorem confined_snapshot : K.Confined P (AgreeOn K.like P) Store.snapshot Store.snapshot :=
  confined_read healthy (r := .snapshot) trivial fun _ _ near => near

theorem confined_removeAll {ks ls : List String} (ownedK : ∀ k ∈ ks, P k) (ownedL : ∀ k ∈ ls, P k)
    (same : ∀ k, P k → (k ∈ ks ↔ k ∈ ls)) :
    K.Confined P Eq (Store.removeAll ks) (Store.removeAll ls) := by
  refine confined_perform healthy (r := .removeAll ks) (q := .removeAll ls) trivial trivial rfl
    (fun _ _ _ => rfl) (fun c d near => near.eraseAll same) (fun c => ?_) fun c => ?_
  · exact K.tolerance.agreeOn_eraseAll fun k mem => not_not_intro (ownedK k mem)
  · exact K.tolerance.agreeOn_eraseAll fun k mem => not_not_intro (ownedL k mem)

theorem confined_remove (owned : P key) :
    K.Confined P Eq (Store.remove key) (Store.remove key) := by
  have others : ∀ k ∈ [key], ¬ ¬ P k := by
    intro k mem
    obtain rfl := List.mem_singleton.mp mem
    exact not_not_intro owned
  exact confined_perform healthy (r := .remove key) (q := .remove key) trivial trivial rfl
    (fun _ _ _ => rfl) (fun _ _ near => near.erase key)
    (fun _ => K.tolerance.agreeOn_eraseAll others) fun _ => K.tolerance.agreeOn_eraseAll others

theorem confined_set (takes : K.TakesScalars) (owned : P key) (v : Document) :
    K.Confined P Eq (Store.set key v) (Store.set key v) := by
  by_cases scalar : v.isScalar = true
  · have suits : (StoreRequest.put key v).Suits K.toStoreView := takes v scalar
    have other : ¬ ¬ P key := not_not_intro owned
    rw [set_of_isScalar scalar]
    exact confined_perform healthy (r := .put key v) (q := .put key v) suits suits rfl
      (fun _ _ _ => rfl) (fun _ _ near => near.put key (K.tolerance.equivalence.refl v))
      (fun _ => K.tolerance.agreeOn_put other v) fun _ => K.tolerance.agreeOn_put other v
  · cases v with
    | null => exact confined_remove healthy owned
    | text _ | bool _ | int _ | float _ => exact absurd rfl scalar
    | _ => exact confined_throw _

/-! ## Reads by type -/

theorem confined_number (owned : P key) :
    K.Confined P (Option.Rel fun x y => K.like (.float x) (.float y)) (Store.number key)
      (Store.number key) :=
  (confined_get healthy owned).bind fun _ _ like => confined_ofNumber (K.tolerance.storedNumber like)

theorem confined_double (owned : P key) :
    K.Confined P (fun x y => K.like (.float x) (.float y)) (Store.double key) (Store.double key) := by
  have refl := K.tolerance.equivalence.refl
  have number : K.Confined P (fun x y => K.like (.float x) (.float y))
      (do return (← Store.number key).getD 0.0) (do return (← Store.number key).getD 0.0) := by
    refine (confined_number healthy owned).bind fun m n related => confined_pure ?_
    cases related with
    | some like => exact like
    | none => exact refl _
  refine (confined_get healthy owned).bind fun v w like => ?_
  cases K.tolerance.alike like with
  | zeros _ _ => exact number
  | same =>
    cases v with
    | null => exact confined_pure (refl _)
    | text s => exact confined_pure (refl _)
    | _ => exact number

end Requests

end Keeper

end ShortcutRelay
