import ShortcutRelay.Proofs.Program
import ShortcutRelay.Proofs.Store.Effect

/-!
# Which requests a program makes

* `Asks P p` : every request that the store program can make has a property;
* `asks_bind`, `asks_set` and companions take a store program apart;
* `cutOff k p c` : the contents after the first `k` requests of a program, `runOn_eq_cutOff` : after
  all of them;
* `cutOff_keeps` : what each of the requests keeps is kept wherever a program is cut off.
-/

namespace ShortcutRelay

/-- Every request that the store program can make has a property. -/
def Asks {α : Type} (P : StoreRequest → Prop) (p : StoreM α) : Prop :=
  Program.Asks (I := storeInterface) P p.run

variable {α β : Type} {P : StoreRequest → Prop}

theorem asks_pure (a : α) : Asks P (pure a : StoreM α) := trivial

theorem asks_ofExcept (r : Except Failure α) :
    Asks P (MonadExcept.ofExcept r : StoreM α) := by
  cases r <;> trivial

theorem asks_ofNumber (r : Except NumberError α) : Asks P (Store.ofNumber r) := by
  cases r <;> trivial

theorem asks_perform {r : StoreRequest} (h : P r) : Asks P (Store.perform r) :=
  ⟨h, fun _ => trivial⟩

theorem asks_bind {p : StoreM α} {f : α → StoreM β} (hp : Asks P p) (hf : ∀ a, Asks P (f a)) :
    Asks P (p >>= f) :=
  Program.asks_except_bind hp hf

theorem asks_text {key : String} (h : P (.text key)) : Asks P (Store.text key) :=
  asks_bind (asks_perform h) asks_ofNumber

theorem asks_set {key : String} {v : Document} (remove : P (.remove key)) (put : P (.put key v)) :
    Asks P (Store.set key v) := by
  by_cases h : v.isScalar = true
  · rw [set_of_isScalar h]
    exact asks_perform put
  · cases v with
    | null => exact asks_perform remove
    | text _ | bool _ | int _ | float _ => exact absurd rfl h
    | _ => trivial

/-! ## Programs that are cut off -/

/-- The contents after the first requests of a program. -/
def cutOff : Nat → Program storeInterface α → Contents → Contents
  | 0, _, c => c
  | _, .done _, c => c
  | k + 1, .ask r next, c =>
    cutOff k (next (.ok (StoreRequest.effect r c).1)) (StoreRequest.effect r c).2

theorem cutOff_keeps {Q : Contents → Prop} (step : ∀ r c, P r → Q c → Q (StoreRequest.effect r c).2)
    {p : Program storeInterface α} (hp : Program.Asks P p) (k : Nat) {c : Contents} (h : Q c) :
    Q (cutOff k p c) := by
  induction k generalizing p c with
  | zero => exact h
  | succ k ih =>
    cases p with
    | done a => exact h
    | ask r next => exact ih (hp.2 _) (step r c hp.1 h)

theorem runOn_ask (r : StoreRequest)
    (next : Except Failure r.Result → Program storeInterface (Except Failure α)) (c : Contents) :
    runOn (ExceptT.mk (.ask (I := storeInterface) r next)) c =
      runOn (ExceptT.mk (next (.ok (r.effect c).1))) (r.effect c).2 := by
  unfold runOn
  change Prod.map id MemoryStore.contents
    (Program.run (I := storeInterface) (fun r => (Backend.answer r).run)
      (next ((Backend.answer r).run { contents := c : MemoryStore }).1)
      ((Backend.answer r).run { contents := c : MemoryStore }).2) = _
  rw [MemoryStore.run_answer r { contents := c }]
  rfl

theorem runOn_eq_cutOff (p : StoreM α) (c : Contents) :
    ∃ k, (runOn p c).2 = cutOff k p.run c := by
  suffices h : ∀ q : Program storeInterface (Except Failure α),
      ∃ k, (runOn (ExceptT.mk q) c).2 = cutOff k q c from h p.run
  intro q
  induction q generalizing c with
  | done r => exact ⟨0, rfl⟩
  | ask r next ih =>
    obtain ⟨k, hk⟩ := ih (.ok (StoreRequest.effect r c).1) (StoreRequest.effect r c).2
    exact ⟨k + 1, (congrArg Prod.snd (runOn_ask r next c)).trans hk⟩

/-- What each of its requests keeps is kept by a program. -/
theorem runOn_keeps {Q : Contents → Prop} (step : ∀ r c, P r → Q c → Q (StoreRequest.effect r c).2)
    {p : StoreM α} (hp : Asks P p) {c : Contents} (h : Q c) : Q (runOn p c).2 := by
  obtain ⟨k, hk⟩ := runOn_eq_cutOff p c
  rw [hk]
  exact cutOff_keeps step hp k h

end ShortcutRelay
