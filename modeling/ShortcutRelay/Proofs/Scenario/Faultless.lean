import ShortcutRelay.Proofs.Store.Steady
import ShortcutRelay.Scenario.Play

/-!
# Surroundings without faults

Where nothing is made to fail and nobody else writes, a store program does in a scenario what it
does on bare contents.

* `Surroundings.Faultless s c` : the store holds `c` in memory and no fault is switched on;
* `Surroundings.holding` : the surroundings with other contents;
* `run_onStore`, `run_openStore`, `run_withStore` : the uses of the store by an application.
-/

namespace ShortcutRelay.Scenario
open Protocol App

def Surroundings.holding (s : Surroundings) (c : Contents) : Surroundings :=
  { s with store := { s.store with kind := .memory ⟨c⟩ } }

/-- The store holds some contents in memory, no fault is switched on and nobody else is about to
write. -/
structure Surroundings.Faultless (s : Surroundings) (c : Contents) : Prop where
  memory : s.store.kind = .memory ⟨c⟩
  opens : s.store.openFails = false
  reads : s.store.readFails = false
  writes : s.store.writesLeft = none
  race : s.race = none

def holding (w : World Surroundings Script) (c : Contents) : World Surroundings Script :=
  { w with around := w.around.holding c }

namespace Surroundings

variable {s : Surroundings} {c : Contents}

theorem Faultless.holding_eq (h : s.Faultless c) : s.holding c = s := by
  unfold holding
  rw [← h.memory]

theorem Faultless.holding (h : s.Faultless c) (d : Contents) : (s.holding d).Faultless d where
  memory := rfl
  opens := h.opens
  reads := h.reads
  writes := h.writes
  race := h.race

@[simp] theorem holding_holding (s : Surroundings) (c d : Contents) :
    (s.holding c).holding d = s.holding d := rfl

/-! ## The backend -/

theorem run_store {α : Type} {act : BackendM FallibleStore α} {r : Except Failure α} {t : FallibleStore}
    (h : act.run s.store = (r, t)) : (onStore act).run s = (r, { s with store := t }) := by
  change ((act.run s.store).1, { s with store := (act.run s.store).2 }) = _
  rw [h]

theorem run_load (h : s.Faultless c) :
    (Backend.load : BackendM Surroundings Contents).run s = (.ok c, s) := by
  have loaded : (Backend.load : BackendM FallibleStore Contents).run s.store = (.ok c, s.store) := by
    change (if s.store.fragile && s.store.readFails then _ else _ : Fallible FallibleStore Contents).run
      s.store = _
    rw [h.reads, Bool.and_false, if_neg Bool.false_ne_true, h.memory]
    rfl
  exact run_store loaded

theorem run_save (h : s.Faultless c) (d : Contents) :
    (Backend.save d : BackendM Surroundings Unit).run s = (.ok (), s.holding d) := by
  have counted : s.store.countWrite = .ok s.store := by
    unfold FallibleStore.countWrite
    rw [h.writes]
    cases s.store.fragile <;> rfl
  have written : s.store.write d = .ok { s.store with kind := .memory ⟨d⟩ } := by
    unfold FallibleStore.write
    rw [h.memory]
    rfl
  have saved : (Backend.save d : BackendM FallibleStore Unit).run s.store =
      (.ok (), { s.store with kind := .memory ⟨d⟩ }) := by
    change (MonadExcept.ofExcept (s.store.countWrite >>= (·.write d)) >>= set :
      Fallible FallibleStore Unit).run s.store = _
    rw [counted]
    change (MonadExcept.ofExcept (s.store.write d) >>= set : Fallible FallibleStore Unit).run s.store = _
    rw [written]
    rfl
  exact run_store saved

theorem run_enter (h : s.Faultless c) :
    (Backend.enter : BackendM Surroundings Unit).run s = (.ok (), s) := by
  have entered {t : FallibleStore} (memory : t.kind = .memory ⟨c⟩) :
      (Backend.enter : BackendM FallibleStore Unit).run t = (.ok (), t) := by
    cases t
    cases memory
    rfl
  exact run_store (entered h.memory)

theorem run_leave (h : s.Faultless c) : (Backend.leave : StateM Surroundings Unit).run s = ((), s) := by
  have left {t : FallibleStore} (memory : t.kind = .memory ⟨c⟩) :
      ((Backend.leave : StateM FallibleStore Unit).run t).2 = t := by
    cases t
    cases memory
    rfl
  change ((), { s with store := ((Backend.leave : StateM FallibleStore Unit).run s.store).2 }) = _
  rw [left h.memory]

theorem run_letRace (h : s.Faultless c) (key : String) : (letRace key).run s = (.ok (), s) := by
  unfold letRace
  rw [Fallible.run_bind_ok (Fallible.run_get s), h.race]
  rfl

theorem run_obtain (h : s.Faultless c) :
    (Backend.obtain : BackendM Surroundings Unit).run s = (.ok (), s) := by
  have obtained : (Backend.obtain : BackendM FallibleStore Unit).run s.store = (.ok (), s.store) := by
    change (if s.store.openFails && !s.store.isDirect then _ else _ : Fallible FallibleStore Unit).run
      s.store = _
    rw [h.opens, Bool.false_and, if_neg Bool.false_ne_true, h.memory]
    rfl
  exact run_store obtained

/-! ## Requests and programs -/

theorem steady : Backend.Steady Faultless holding where
  load := run_load
  save := run_save
  enter := run_enter
  leave := run_leave
  textRead := run_letRace
  held := Faultless.holding
  unchanged := Faultless.holding_eq
  again := holding_holding

theorem run_answer (h : s.Faultless c) (r : StoreRequest) :
    (Backend.answer r).run s = (.ok (r.effect c).1, s.holding (r.effect c).2) :=
  steady.run_answer h r

/-- Without faults a store program does what it does on bare contents. -/
theorem run_program {α : Type} (h : s.Faultless c) (p : StoreM α) :
    (Backend.run p).run s = ((runOn p c).1, s.holding (runOn p c).2) :=
  steady.run_program h p

end Surroundings

/-! ## The application -/

variable {w : World Surroundings Script} {c : Contents}

theorem holding_eq (h : w.around.Faultless c) : holding w c = w := by
  unfold holding
  rw [h.holding_eq]

theorem run_onStore {α : Type} (h : w.around.Faultless c) (p : StoreM α) :
    (onStore p : PlayM α).run w = ((runOn p c).1, holding w (runOn p c).2) := by
  change (((Backend.run p).run w.around).1, { w with around := ((Backend.run p).run w.around).2 }) = _
  rw [Surroundings.run_program h]
  rfl

theorem run_openStore (h : w.around.Faultless c) : (openStore : PlayM Unit).run w = (.ok (), w) := by
  change (((Backend.obtain : BackendM Surroundings Unit).run w.around).1,
    { w with around := ((Backend.obtain : BackendM Surroundings Unit).run w.around).2 }) = _
  rw [Surroundings.run_obtain h]

theorem run_withStore {α : Type} (h : w.around.Faultless c) (p : StoreM α) :
    (withStore p : PlayM α).run w = ((runOn p c).1, holding w (runOn p c).2) := by
  unfold withStore
  rw [Fallible.run_bind_ok (run_openStore h), run_onStore h]

end ShortcutRelay.Scenario
