import ShortcutRelay.Proofs.Store.Keeper

/-!
# Stores of which some uses fail

* `Disturbed` : a store with a plan of which of its uses fail; a use that fails has no effect;
* `Disturbed.keeper` : it can be relied on as far as the store itself.
-/

namespace ShortcutRelay

/-- A store of which some uses fail. `faults` says which ones and how, counted from the
beginning. -/
structure Disturbed (σ : Type) where
  store : σ
  faults : Nat → Option StoreFailure := fun _ => none
  uses : Nat := 0

namespace Disturbed

variable {σ : Type} {α : Type}

/-- Uses the store, unless this use is to fail. -/
def use (act : BackendM σ α) : BackendM (Disturbed σ) α :=
  ExceptT.mk fun d =>
    match d.faults d.uses with
    | some failure => (.error (.store failure), { d with uses := d.uses + 1 })
    | none =>
      let (result, store) := act.run d.store
      (result, { d with store, uses := d.uses + 1 })

instance [Backend σ] : Backend (Disturbed σ) where
  obtain := use Backend.obtain
  load := use Backend.load
  save c := use (Backend.save c)
  enter := use Backend.enter
  leave := modify fun d => { d with store := (Backend.leave.run d.store).2 }
  textRead key := use (Backend.textRead key)

/-- The failures of a disturbed store are those of the store itself and those that are planned for
its uses to come. -/
def view (V : StoreView σ) : StoreView (Disturbed σ) where
  contents d := V.contents d.store
  valid d := V.valid d.store
  threat d f := V.threat d.store f ∨ ∃ n, d.uses ≤ n ∧ d.faults n = some f
  like := V.like
  suits := V.suits
  rejection := V.rejection

variable {V : StoreView σ} {d : Disturbed σ}

theorem later_of_later {t : σ} (later : V.Later d.store t) {n : Nat} (counted : d.uses ≤ n) :
    (view V).Later d { d with store := t, uses := n } := by
  refine ⟨later.1, ?_⟩
  rintro f (own | ⟨m, further, planned⟩)
  · exact .inl (later.2 f own)
  · exact .inr ⟨m, counted.trans further, planned⟩

/-- A use of a disturbed store ends as one of the store itself does, or as planned. -/
theorem ended_use {act : BackendM σ α} {rejects : Failure → Prop} {a : α} {after : Contents → Prop}
    (valid : V.valid d.store) (h : V.Ended d.store rejects a after (act.run d.store)) :
    (view V).Ended d rejects a after ((use act).run d) := by
  change (view V).Ended d rejects a after (match d.faults d.uses with
    | some failure => (.error (.store failure), { d with uses := d.uses + 1 })
    | none => ((act.run d.store).1, { d with store := (act.run d.store).2, uses := d.uses + 1 }))
  cases planned : d.faults d.uses with
  | some failure =>
    have unchanged : V.Later d.store d.store := ⟨valid, fun _ h => h⟩
    exact .failed (later_of_later unchanged (Nat.le_succ _)) rfl (.inr ⟨d.uses, Nat.le_refl _, planned⟩)
  | none =>
    generalize act.run d.store = r at h
    cases h with
    | done later effect => exact .done (later_of_later later (Nat.le_succ _)) effect
    | rejected later same rejection =>
      exact .rejected (later_of_later later (Nat.le_succ _)) same rejection
    | failed later same threat =>
      exact .failed (later_of_later later (Nat.le_succ _)) same (.inl threat)

/-- A disturbed store can be relied on as far as the store itself. -/
def keeper [Backend σ] (K : Keeper σ) : Keeper (Disturbed σ) where
  toStoreView := view K.toStoreView
  tolerance := K.tolerance
  rejection_eq := K.rejection_eq
  fitting := K.fitting
  obtain valid := ended_use valid (K.obtain valid)
  load valid := ended_use valid (K.load valid)
  enter valid := ended_use valid (K.enter valid)
  textRead valid key := ended_use valid (K.textRead valid key)
  leave := by
    rintro d _ valid ⟨⟩
    have left := K.leave (t := ((Backend.leave : StateM σ Unit).run d.store).2) valid rfl
    exact ⟨later_of_later left.1 (Nat.le_refl _), left.2⟩
  save valid suits := ended_use valid (K.save valid suits)

end Disturbed

end ShortcutRelay
