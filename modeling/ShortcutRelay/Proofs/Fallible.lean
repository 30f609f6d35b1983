import ShortcutRelay.Failure

/-!
# Computations with a state that may fail

Backends and applications run in `ExceptT Failure (StateM S)`: what a computation has done to the
state before it fails stays done.

* `Fallible.run_bind`, `Fallible.run_tryCatch` and companions : one step of a run;
* `Keeps P act` : `act` leads from states with `P` to states with `P`, also where it fails;
  `keeps_bind` and its companions take a computation apart.
-/

namespace ShortcutRelay

/-- Computations with a state that may fail. -/
abbrev Fallible (S : Type) := ExceptT Failure (StateM S)

variable {S : Type} {α β : Type}

namespace Fallible

@[simp] theorem run_pure (a : α) (s : S) : (pure a : Fallible S α).run s = (.ok a, s) := rfl

@[simp] theorem run_throw (e : Failure) (s : S) :
    (throw e : Fallible S α).run s = (.error e, s) := rfl

@[simp] theorem run_get (s : S) : (get : Fallible S S).run s = (.ok s, s) := rfl

@[simp] theorem run_set (s t : S) : (set t : Fallible S Unit).run s = (.ok (), t) := rfl

@[simp] theorem run_modify (f : S → S) (s : S) :
    (modify f : Fallible S Unit).run s = (.ok (), f s) := rfl

theorem run_bind (x : Fallible S α) (f : α → Fallible S β) (s : S) :
    (x >>= f).run s =
      match x.run s with
      | (.ok a, t) => (f a).run t
      | (.error e, t) => (.error e, t) := by
  change (match x.run s with | (r, t) => (ExceptT.bindCont f r).run t) = _
  rcases x.run s with ⟨_ | _, _⟩ <;> rfl

theorem run_bind_ok {x : Fallible S α} {s t : S} {a : α} (h : x.run s = (.ok a, t))
    (f : α → Fallible S β) : (x >>= f).run s = (f a).run t := by
  rw [run_bind, h]

theorem run_bind_error {x : Fallible S α} {s t : S} {e : Failure} (h : x.run s = (.error e, t))
    (f : α → Fallible S β) : (x >>= f).run s = (.error e, t) := by
  rw [run_bind, h]

theorem run_tryCatch (x : Fallible S α) (handle : Failure → Fallible S α) (s : S) :
    (tryCatch x handle).run s =
      match x.run s with
      | (.ok a, t) => (.ok a, t)
      | (.error e, t) => (handle e).run t := by
  simp only [tryCatch, tryCatchThe, MonadExceptOf.tryCatch, ExceptT.tryCatch, ExceptT.run_mk]
  simp only [bind, StateT.bind]
  generalize h : x.run s = r
  change x s = r at h
  rw [h]
  rcases r with ⟨_ | _, _⟩ <;> rfl

theorem run_tryFinally_ok {x : Fallible S α} {f : Fallible S β} {s t u : S} {a : α} {b : β}
    (h : x.run s = (.ok a, t)) (h' : f.run t = (.ok b, u)) :
    (tryFinally x f).run s = (.ok a, u) := by
  change x s = _ at h
  change f t = _ at h'
  simp only [tryFinally, tryFinally', MonadFinally.tryFinally', Functor.map, ExceptT.map, ExceptT.run,
    ExceptT.mk, bind, StateT.bind, pure]
  rw [h]
  simp only [h']
  rfl

end Fallible

/-! ## What a computation keeps -/

/-- The computation leads from states with a property to states with it, also where it fails. -/
def Keeps (P : S → Prop) (act : Fallible S α) : Prop :=
  ∀ s, P s → P (act.run s).2

variable {P : S → Prop}

theorem keeps_pure (a : α) : Keeps P (pure a : Fallible S α) := fun _ h => h

theorem keeps_throw (e : Failure) : Keeps P (throw e : Fallible S α) := fun _ h => h

theorem keeps_modify {f : S → S} (h : ∀ s, P s → P (f s)) :
    Keeps P (modify f : Fallible S Unit) := h

theorem keeps_bind {x : Fallible S α} {f : α → Fallible S β} (hx : Keeps P x)
    (hf : ∀ a, Keeps P (f a)) : Keeps P (x >>= f) := by
  intro s hs
  have hm := hx s hs
  rw [Fallible.run_bind]
  split
  · next a t h => rw [h] at hm; exact hf a t hm
  · next e t h => rw [h] at hm; exact hm

/-- What is read may be used in the proof for what follows. -/
theorem keeps_get {f : S → Fallible S α} (h : ∀ s, P s → P ((f s).run s).2) :
    Keeps P (get >>= f) :=
  h

theorem keeps_discard {x : Fallible S α} (h : Keeps P x) : Keeps P (discard x) :=
  keeps_bind h fun _ => keeps_pure _

theorem keeps_tryCatch {x : Fallible S α} {handle : Failure → Fallible S α} (hx : Keeps P x)
    (hf : ∀ e, Keeps P (handle e)) : Keeps P (tryCatch x handle) := by
  intro s hs
  have hm := hx s hs
  rw [Fallible.run_tryCatch]
  split
  · next a t h => rw [h] at hm; exact hm
  · next e t h => rw [h] at hm; exact hf e t hm

end ShortcutRelay
