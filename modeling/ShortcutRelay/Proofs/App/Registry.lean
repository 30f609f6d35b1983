import ShortcutRelay.App.Manager
import ShortcutRelay.Proofs.Fallible

/-!
# The registry of listeners

* `Manager.Consistent m` : the listeners are distinct, and the manager counts as registered just while
  it has some;
* `Manager.Consistent.withListener`, `Manager.Consistent.withoutListener` : it stays so;
* `run_enlist_unregistered`, `run_enlist_first`, `run_enlist_later` : what adding a listener comes to,
  whoever the host is;
* `run_remove` : what ending a subscription comes to.
-/

namespace ShortcutRelay
open Protocol App

namespace Manager

/-- The listeners are distinct, and the manager counts as registered just while it has some. -/
structure Consistent (m : Manager) : Prop where
  distinct : m.listeners.Nodup
  registered : m.registered = !m.listeners.isEmpty

variable {m : Manager}

theorem consistent_empty (tracked : List String) : Consistent { tracked } :=
  ⟨List.nodup_nil, rfl⟩

theorem registered_withListener (m : Manager) (name : String) :
    (m.withListener name).registered = m.registered := by
  unfold withListener
  split <;> rfl

theorem registered_withoutListener (h : m.registered = !m.listeners.isEmpty) (name : String) :
    (m.withoutListener name).registered = !(m.withoutListener name).listeners.isEmpty := by
  change (m.registered && !(m.listeners.erase name).isEmpty) = !(m.listeners.erase name).isEmpty
  rw [h]
  cases listeners : m.listeners <;> rfl

theorem Consistent.unregistered (h : m.Consistent) (nobody : m.listeners = []) :
    m.registered = false := by
  rw [h.registered, nobody]
  rfl

theorem Consistent.is_registered (h : m.Consistent) (somebody : m.listeners ≠ []) :
    m.registered = true := by
  rw [h.registered, List.isEmpty_eq_false_iff.mpr somebody]
  rfl

theorem Consistent.registered_iff (h : m.Consistent) : m.registered = true ↔ m.listeners ≠ [] := by
  rw [h.registered]
  cases m.listeners <;> simp

/-- Where there are listeners already, another one may join. -/
theorem Consistent.withListener (h : m.Consistent) (somebody : m.listeners ≠ []) (name : String) :
    (m.withListener name).Consistent := by
  have registered := h.is_registered somebody
  unfold Manager.withListener
  split
  · exact h
  · next new =>
    refine ⟨List.nodup_append.mpr ⟨h.distinct, by simp, ?_⟩, ?_⟩
    · rintro other there _ same rfl
      exact new (List.mem_singleton.mp same ▸ there)
    · rw [registered, List.isEmpty_eq_false_iff.mpr (List.append_ne_nil_of_left_ne_nil somebody _)]
      rfl

theorem Consistent.withoutListener (h : m.Consistent) (name : String) :
    (m.withoutListener name).Consistent :=
  ⟨h.distinct.erase name, registered_withoutListener h.registered name⟩

end Manager

/-! ## Adding and removing -/

namespace App

variable {σ κ : Type} {w : World σ κ}

theorem run_update (f : Manager → Manager) (w : World σ κ) :
    (Manager.update f : AppM σ κ Unit).run w = (.ok (), { w with manager := f w.manager }) :=
  rfl

/-- The world with a first listener, whom the bridge hands commands to. -/
def enrolled (name : String) (w : World σ κ) : World σ κ :=
  { w with
    manager := { w.manager with listeners := [name], registered := true }
    bridge := w.bridge.map fun b => { b with callback := some .manager } }

theorem run_remove (s : Subscription) (w : World σ κ) : (s.remove : AppM σ κ Subscription).run w =
    (.ok { s with isActive := false },
      if s.isActive then { w with manager := w.manager.withoutListener s.listener } else w) := by
  unfold Subscription.remove
  cases s.isActive <;> rfl

variable [Backend σ] (host : Host σ κ)

/-- While the manager does not count as registered, a new listener makes the bridge look for a command,
which it hands to the manager. -/
theorem run_enlist_unregistered (unregistered : w.manager.registered = false)
    (bridged : w.bridge.isSome = true) (name : String) :
    (Manager.enlist host name).run w = (discard (attend host) : AppM σ κ Unit).run { w with
      manager := { w.manager.withListener name with registered := true }
      bridge := w.bridge.map fun b => { b with callback := some .manager } } := by
  have still : (w.manager.withListener name).registered = false := by
    rw [Manager.registered_withListener, unregistered]
  unfold Manager.enlist Manager.register
  rw [Fallible.run_bind_ok (run_update ..), Fallible.run_bind_ok (Fallible.run_get _)]
  simp only [still, bridged, Bool.not_false, Bool.and_self, if_true]
  rw [Fallible.run_bind_ok (run_update ..)]
  rfl

/-- The first listener makes the bridge look for a command, which it hands to the manager. -/
theorem run_enlist_first (nobody : w.manager.listeners = [])
    (unregistered : w.manager.registered = false) (bridged : w.bridge.isSome = true) (name : String) :
    (Manager.enlist host name).run w =
      (discard (attend host) : AppM σ κ Unit).run (enrolled name w) := by
  have joined : w.manager.withListener name = { w.manager with listeners := [name] } := by
    rw [Manager.withListener, nobody, if_neg List.not_mem_nil]
    rfl
  rw [run_enlist_unregistered host unregistered bridged, joined]
  rfl

/-- While the manager counts as registered, a listener only joins the others. -/
theorem run_enlist_later (registered : w.manager.registered = true) (name : String) :
    (Manager.enlist host name).run w =
      (.ok (), { w with manager := w.manager.withListener name }) := by
  have still : (w.manager.withListener name).registered = true := by
    rw [Manager.registered_withListener, registered]
  unfold Manager.enlist Manager.register
  rw [Fallible.run_bind_ok (run_update ..), Fallible.run_bind_ok (Fallible.run_get _)]
  simp only [still, Bool.not_true, Bool.false_and]
  rfl

end App

end ShortcutRelay
