import ShortcutRelay.Proofs.Store.Effect

/-!
# Backends that do not fail

A backend that holds contents without a fault answers every request as bare contents do.

* `Backend.Steady holds hold` : the states of a backend that hold contents without a fault, and how
  other contents get into them;
* `Steady.run_answer`, `Steady.run_program` : what requests and store programs do there.
-/

namespace ShortcutRelay.Backend

variable {σ : Type} [Backend σ]

/-- `holds s c` says that the backend holds the contents `c` in the state `s` without a fault, and
`hold s d` is that state with other contents. -/
structure Steady (holds : σ → Contents → Prop) (hold : σ → Contents → σ) : Prop where
  load : ∀ {s c}, holds s c → (Backend.load : BackendM σ Contents).run s = (.ok c, s)
  save : ∀ {s c}, holds s c → ∀ d, (Backend.save d : BackendM σ Unit).run s = (.ok (), hold s d)
  enter : ∀ {s c}, holds s c → (Backend.enter : BackendM σ Unit).run s = (.ok (), s)
  leave : ∀ {s c}, holds s c → (Backend.leave : StateM σ Unit).run s = ((), s)
  textRead : ∀ {s c}, holds s c → ∀ key,
    (Backend.textRead key : BackendM σ Unit).run s = (.ok (), s)
  held : ∀ {s c}, holds s c → ∀ d, holds (hold s d) d
  unchanged : ∀ {s c}, holds s c → hold s c = s
  again : ∀ s c d, hold (hold s c) d = hold s d

namespace Steady

variable {holds : σ → Contents → Prop} {hold : σ → Contents → σ} {s : σ} {c : Contents}

theorem run_exclusively (steady : Steady holds hold) (h : holds s c) {act : BackendM σ Unit}
    {d : Contents} (inside : act.run s = (.ok (), hold s d)) :
    (exclusively act).run s = (.ok (), hold s d) := by
  rw [Backend.run_exclusively, steady.enter h]
  simp only [inside]
  rw [steady.leave (steady.held h d)]

theorem run_removal (steady : Steady holds hold) (h : holds s c) (keys : List String) :
    (removal keys).run s = (.ok (), hold s (keys.foldl OrderedMap.erase c)) := by
  unfold removal
  rw [Fallible.run_bind_ok (steady.load h)]
  cases changed : (erased keys c).2 with
  | false =>
    have same : keys.foldl OrderedMap.erase c = c := erased_unchanged changed
    rw [same, steady.unchanged h]
    simp [changed]
  | true =>
    simp only [changed, if_true]
    exact steady.save h _

theorem run_answer (steady : Steady holds hold) (h : holds s c) (r : StoreRequest) :
    (answer r).run s = (.ok (r.effect c).1, hold s (r.effect c).2) := by
  have reading {α : Type} (f : Contents → α) :
      (do return f (← Backend.load) : BackendM σ α).run s = (.ok (f c), hold s c) := by
    rw [Fallible.run_bind_ok (steady.load h), steady.unchanged h]
    rfl
  cases r with
  | value key => exact reading fun c => (c.get? key).getD .null
  | text key =>
    refine (Fallible.run_bind_ok (steady.textRead h key) _).trans ?_
    exact reading fun c => textAt c key
  | keys => exact reading OrderedMap.keys
  | snapshot => exact (steady.load h).trans (congrArg (Prod.mk (Except.ok c)) (steady.unchanged h).symm)
  | put key v =>
    apply steady.run_exclusively h
    rw [Fallible.run_bind_ok (steady.load h)]
    exact steady.save h _
  | remove key => exact steady.run_exclusively h (steady.run_removal h [key])
  | removeAll keys => exact steady.run_exclusively h (steady.run_removal h keys)

theorem serve_eq (steady : Steady holds hold) {α : Type} (p : Program storeInterface α)
    (h : holds s c) : serve p s =
      ((serve p (⟨c⟩ : MemoryStore)).1, hold s (serve p (⟨c⟩ : MemoryStore)).2.contents) := by
  induction p generalizing s c with
  | done a => exact congrArg (Prod.mk a) (steady.unchanged h).symm
  | ask r next ih =>
    have here := serve_ask (steady.run_answer h r) next
    have bare := serve_ask (MemoryStore.run_answer r ⟨c⟩) next
    have rest := ih (.ok (StoreRequest.effect r c).1) (steady.held h (StoreRequest.effect r c).2)
    rw [here, bare]
    refine rest.trans (congrArg (Prod.mk _) ?_)
    exact steady.again _ _ _

/-- A store program does what it does on bare contents. -/
theorem run_program (steady : Steady holds hold) {α : Type} (h : holds s c) (p : StoreM α) :
    (run p).run s = ((runOn p c).1, hold s (runOn p c).2) :=
  steady.serve_eq p.run h

end Steady

end ShortcutRelay.Backend
