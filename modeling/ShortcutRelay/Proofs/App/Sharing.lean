import ShortcutRelay.App.Manager
import ShortcutRelay.Proofs.App.Attend
import ShortcutRelay.Proofs.Store.Disturbed

/-!
# Single values of the application's state

* `withStore_eq` : a use of the store that is opened first, as one use of the backend;
* `Used` : the world after uses of the store, `Written` : how a use of it ends that writes;
* `Sharing` : what bringing a value of the state into the store comes to, `writeState_eq`;
* `written_writeState`, `written_remove` : what becomes of one entry.
-/

namespace ShortcutRelay
open Protocol App

variable {σ κ : Type} [Backend σ] {α : Type}

namespace App

/-- The store is opened and used in one use of the backend. -/
theorem withStore_eq (p : StoreM α) :
    (withStore p : AppM σ κ α) = onBackend (do Backend.obtain; Backend.run p) := by
  funext w
  have opened := Fallible.run_bind (Backend.obtain : BackendM σ Unit) (fun _ => Backend.run p) w.around
  refine (Fallible.run_bind (openStore : AppM σ κ Unit) (fun _ => onStore p) w).trans ?_
  refine Eq.trans ?_ (run_onBackend opened).symm
  have apart : (openStore : AppM σ κ Unit).run w =
      (((Backend.obtain : BackendM σ Unit).run w.around).1,
        { w with around := ((Backend.obtain : BackendM σ Unit).run w.around).2 }) := rfl
  rw [apart]
  rcases (Backend.obtain : BackendM σ Unit).run w.around with ⟨_ | _, _⟩ <;> rfl

/-- The second world is what uses of the store have made of the first one. -/
structure Used (K : Keeper σ) (w v : World σ κ) : Prop where
  later : K.Later w.around v.around
  manager : v.manager = w.manager
  bridge : v.bridge = w.bridge

/-- How a use of the store ends that is to leave the contents `d`: with them, or with an error and
nothing changed. -/
inductive Written (K : Keeper σ) (w : World σ κ) (rejects : Failure → Prop) (d : Contents) :
    Except Failure Unit × World σ κ → Prop
  | done {v} (used : Used K w v) (agree : Agree K.like (K.contents v.around) d) :
      Written K w rejects d (.ok (), v)
  | raised {e v} (used : Used K w v) (same : K.contents v.around = K.contents w.around)
      (cause : rejects e ∨ ∃ f, e = .store f ∧ K.threat w.around f) :
      Written K w rejects d (.error e, v)

variable {K : Keeper σ} {w : World σ κ} {rejects : Failure → Prop} {d : Contents}

/-- The store is opened, and then a program is run that is to leave some contents. -/
theorem written_withStore {p : StoreM Unit} (valid : K.valid w.around)
    (h : ∀ s, K.valid s → K.contents s = K.contents w.around →
      K.Ended s rejects () (Agree K.like · d) ((Backend.run p).run s)) :
    Written K w rejects d ((withStore p : AppM σ κ Unit).run w) := by
  have ended : K.Ended w.around rejects () (Agree K.like · d)
      ((do Backend.obtain; Backend.run p : BackendM σ Unit).run w.around) :=
    (K.obtain valid).bind fun t later same => h t later.1 same
  rw [withStore_eq]
  generalize (do Backend.obtain; Backend.run p : BackendM σ Unit) = act at ended ⊢
  have ran : (onBackend act : AppM σ κ Unit).run w =
      ((act.run w.around).1, { w with around := (act.run w.around).2 }) := rfl
  rw [ran]
  generalize act.run w.around = r at ended ⊢
  cases ended with
  | done later agree => exact .done ⟨later, rfl, rfl⟩ agree
  | rejected later same rejection => exact .raised ⟨later, rfl, rfl⟩ same (.inl rejection)
  | failed later same threat => exact .raised ⟨later, rfl, rfl⟩ same (.inr ⟨_, rfl, threat⟩)

theorem written_remove (valid : K.valid w.around) (key : String) :
    Written K w (fun _ => False) ((K.contents w.around).erase key)
      ((withStore (Store.remove key) : AppM σ κ Unit).run w) := by
  refine written_withStore valid fun s valid same => ?_
  rw [← same]
  exact K.answer (.remove key) valid trivial

theorem written_set (valid : K.valid w.around) (takes : K.TakesScalars) (key : String)
    {v : Document} (scalar : v.isScalar = true) :
    Written K w (K.rejection v = some ·) ((K.contents w.around).put key v)
      ((withStore (Store.set key v) : AppM σ κ Unit).run w) := by
  refine written_withStore valid fun s valid same => ?_
  rw [← same, set_of_isScalar scalar]
  exact K.answer (.put key v) valid (takes v scalar)

end App

/-! ## One value -/

/-- What bringing a value of the state into the store comes to: a scalar is written, the entry is
removed, it is left alone as the value has no JSON form, or the number does not fit a double. -/
inductive Sharing
  | put (v : Document)
  | remove
  | leave (cause : Unserializable)
  | refuse (e : NumberError)

namespace Sharing

def of (value : Document) : Sharing :=
  match value with
  | .bool _ | .int _ | .float _ =>
    match value.toFloat with
    | .ok x => put (.float x)
    | .error e => refuse e
  | .text s => put (.text s)
  | .null => remove
  | value =>
    match value.toJson with
    | .ok j => put (.text (Json.inlineAscii j))
    | .error cause => leave cause

/-- The contents in which the entry of a key was treated so. -/
def effect (key : String) (c : Contents) : Sharing → Contents
  | put v => c.put (stateEntry key) v
  | remove => c.erase (stateEntry key)
  | leave _ | refuse _ => c

def perform (key : String) : Sharing → AppM σ κ Unit
  | put v => withStore (Store.set (stateEntry key) v)
  | remove => withStore (Store.remove (stateEntry key))
  | leave cause => report (.stateUnserializable key cause)
  | refuse e => withStore (throw (.number e))

/-- The failures to bring a value into the store that are not the store's own. -/
def Rejected (V : StoreView σ) : Sharing → Failure → Prop
  | put v, e => V.rejection v = some e
  | refuse cause, e => e = .number cause
  | _, _ => False

theorem isScalar_of_eq_put {value v : Document} (h : of value = put v) : v.isScalar = true := by
  have number (h : (match value.toFloat with
      | .ok x => put (.float x)
      | .error e => refuse e) = put v) : v.isScalar = true := by
    cases toFloat : value.toFloat with
    | error e =>
      rw [toFloat] at h
      cases h
    | ok x =>
      rw [toFloat] at h
      cases h
      rfl
  have json (h : (match value.toJson with
      | .ok j => put (.text (Json.inlineAscii j))
      | .error cause => leave cause) = put v) : v.isScalar = true := by
    cases toJson : value.toJson with
    | error e =>
      rw [toJson] at h
      cases h
    | ok j =>
      rw [toJson] at h
      cases h
      rfl
  cases value with
  | bool _ | int _ | float _ => exact number h
  | null => cases h
  | text s =>
    cases h
    rfl
  | _ => exact json h

end Sharing

namespace Manager

theorem writeState_eq (key : String) (value : Document) :
    (writeState key value : AppM σ κ Unit) = (Sharing.of value).perform key := by
  have number (h : value.isNumeric = true) : (Bridge.shareNumber (stateEntry key) value : AppM σ κ Unit) =
      (match value.toFloat with
        | .ok x => Sharing.put (.float x)
        | .error e => .refuse e).perform key := by
    have written : (Bridge.shareNumber (stateEntry key) value : AppM σ κ Unit) =
        withStore (Store.ofNumber value.toFloat >>= fun x => Store.set (stateEntry key) (.float x)) := by
      cases value <;> first | rfl | cases h
    rw [written]
    cases value.toFloat <;> rfl
  have json : (match value.toJson with
      | .ok j => Bridge.shareText (stateEntry key) (.text (Json.inlineAscii j))
      | .error cause => report (.stateUnserializable key cause) : AppM σ κ Unit) =
      (match value.toJson with
        | .ok j => Sharing.put (.text (Json.inlineAscii j))
        | .error cause => .leave cause).perform key := by
    cases value.toJson <;> rfl
  cases value with
  | bool _ | int _ | float _ => exact number rfl
  | text s => rfl
  | null => rfl
  | _ => exact json

variable {K : Keeper σ} {w : World σ κ}

/-- A value of the state is brought into the store, or nothing changes. -/
theorem written_writeState (valid : K.valid w.around) (takes : K.TakesScalars) (key : String)
    (value : Document) : Written K w ((Sharing.of value).Rejected K.toStoreView)
      ((Sharing.of value).effect key (K.contents w.around))
      ((writeState key value : AppM σ κ Unit).run w) := by
  rw [writeState_eq]
  cases sharing : Sharing.of value with
  | put v => exact written_set valid takes _ (Sharing.isScalar_of_eq_put sharing)
  | remove => exact written_remove valid _
  | leave cause => exact .done ⟨K.later_refl valid, rfl, rfl⟩ (K.agree_refl _)
  | refuse e =>
    refine written_withStore valid fun s valid same => ?_
    exact .rejected (K.later_refl valid) rfl rfl

end Manager

end ShortcutRelay
