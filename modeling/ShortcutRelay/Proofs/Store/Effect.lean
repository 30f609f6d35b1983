import ShortcutRelay.Proofs.Fallible
import ShortcutRelay.Proofs.Store.Contents
import ShortcutRelay.Store.Backend

/-!
# What store programs do

* `StoreRequest.effect` : the answer to a request on contents, with the contents afterwards;
* `Backend.run_bind`, `Backend.run_perform` : how a backend runs a program, piece by piece;
* `runOn` : the result of a store program on a store without faults, with the contents afterwards;
  `runOn_bind` and its companions compute it;
* `runOn_text`, `runOn_set` and companions : the results of the uses of a store, `doubleAt` for a
  number.
-/

namespace ShortcutRelay

/-- The answer to a request on contents, and the contents afterwards. -/
def StoreRequest.effect : (r : StoreRequest) → Contents → r.Result × Contents
  | .value key, c => ((c.get? key).getD .null, c)
  | .text key, c => (textAt c key, c)
  | .put key v, c => ((), c.put key v)
  | .remove key, c => ((), c.erase key)
  | .removeAll ks, c => ((), ks.foldl OrderedMap.erase c)
  | .keys, c => (c.keys, c)
  | .snapshot, c => (c, c)

/-! ## Programs run piece by piece -/

theorem Program.run_bind {I : Interface} {m : Type → Type} [Monad m] [LawfulMonad m] {α β : Type}
    (answer : (r : I.Request) → m (I.Answer r)) (p : Program I α) (f : α → Program I β) :
    (p >>= f).run answer = p.run answer >>= fun a => (f a).run answer := by
  induction p with
  | done a => simp [Program.run]
  | ask r next ih => simp [Program.run, ih]

namespace Backend

variable {σ : Type} [Backend σ] {α β : Type}

@[simp] theorem run_pure (a : α) : run (σ := σ) (pure a : StoreM α) = pure a := rfl

@[simp] theorem run_throw (e : Failure) : run (σ := σ) (throw e : StoreM α) = throw e := rfl

@[simp] theorem run_perform (r : StoreRequest) : run (σ := σ) (Store.perform r) = answer r := by
  funext s
  rfl

@[simp] theorem run_bind (p : StoreM α) (f : α → StoreM β) :
    run (σ := σ) (p >>= f) = run p >>= fun a => run (f a) := by
  refine ExceptT.ext ((Program.run_bind (I := storeInterface) _ p.run _).trans ?_)
  change _ = (run p).run >>= ExceptT.bindCont _
  refine congrArg (Bind.bind _) (funext fun r => ?_)
  cases r <;> rfl

def serve (p : Program storeInterface α) : StateM σ α :=
  Program.run (I := storeInterface) (fun r => (answer r).run) p

theorem serve_ask {r : StoreRequest} {s t : σ} {a : Except Failure r.Result}
    (h : (answer r).run s = (a, t)) (next : Except Failure r.Result → Program storeInterface α) :
    serve (.ask (I := storeInterface) r next) s = serve (next a) t := by
  change serve (next ((answer r).run s).1) ((answer r).run s).2 = _
  rw [h]

theorem run_exclusively (act : BackendM σ α) (s : σ) :
    (exclusively act).run s =
      match (enter : BackendM σ Unit).run s with
      | (.ok _, t) => ((act.run t).1, ((leave : StateM σ Unit).run (act.run t).2).2)
      | (.error e, t) => (.error e, t) := by
  rw [exclusively, Fallible.run_bind]
  rcases (enter : BackendM σ Unit).run s with ⟨_ | _, _⟩ <;> rfl

/-- What a section does that removes keys. -/
def removal (keys : List String) : BackendM σ Unit := do
  let (c, changed) := erased keys (← load)
  if changed then save c

end Backend

/-! ## Runs without faults -/

theorem MemoryStore.run_removal (keys : List String) (s : MemoryStore) :
    (Backend.removal keys).run s = (.ok (), ⟨keys.foldl OrderedMap.erase s.contents⟩) := by
  cases h : (Backend.erased keys s.contents).2 with
  | false =>
    have unchanged : keys.foldl OrderedMap.erase s.contents = s.contents := erased_unchanged h
    rw [unchanged, Backend.removal, Fallible.run_bind_ok (rfl : Backend.load.run s = (.ok s.contents, s))]
    simp [h]
  | true =>
    rw [Backend.removal, Fallible.run_bind_ok (rfl : Backend.load.run s = (.ok s.contents, s))]
    simp [h]
    rfl

theorem MemoryStore.run_answer (r : StoreRequest) (s : MemoryStore) :
    (Backend.answer r).run s = (.ok (r.effect s.contents).1, ⟨(r.effect s.contents).2⟩) := by
  cases r with
  | remove key =>
    refine (Backend.run_exclusively (Backend.removal [key]) s).trans ?_
    exact run_removal [key] s
  | removeAll ks =>
    refine (Backend.run_exclusively (Backend.removal ks) s).trans ?_
    exact run_removal ks s
  | _ => rfl

/-- The result of a store program on a store without faults, and the contents afterwards. -/
def runOn {α : Type} (p : StoreM α) (c : Contents) : Except Failure α × Contents :=
  ((Backend.run p).run { contents := c : MemoryStore }).map id MemoryStore.contents

variable {α β : Type}

@[simp] theorem runOn_pure (a : α) (c : Contents) : runOn (pure a) c = (.ok a, c) := rfl

@[simp] theorem runOn_throw (e : Failure) (c : Contents) :
    runOn (throw e : StoreM α) c = (.error e, c) := rfl

theorem runOn_bind (p : StoreM α) (f : α → StoreM β) (c : Contents) :
    runOn (p >>= f) c =
      match runOn p c with
      | (.ok a, c) => runOn (f a) c
      | (.error e, c) => (.error e, c) := by
  unfold runOn
  rw [Backend.run_bind, Fallible.run_bind]
  rcases (Backend.run p).run { contents := c : MemoryStore } with ⟨_ | _, _⟩ <;> rfl

theorem runOn_bind_ok {p : StoreM α} {c d : Contents} {a : α} (h : runOn p c = (.ok a, d))
    (f : α → StoreM β) : runOn (p >>= f) c = runOn (f a) d := by
  rw [runOn_bind, h]

@[simp] theorem runOn_perform (r : StoreRequest) (c : Contents) :
    runOn (Store.perform r) c = (.ok (r.effect c).1, (r.effect c).2) := by
  rw [runOn, Backend.run_perform, MemoryStore.run_answer]
  rfl

/-! ## Uses of a store -/

@[simp] theorem runOn_get (key : String) (c : Contents) :
    runOn (Store.get key) c = (.ok ((c.get? key).getD .null), c) :=
  runOn_perform _ c

theorem runOn_ofNumber (r : Except NumberError α) (c : Contents) :
    runOn (Store.ofNumber r) c = (r.mapError .number, c) := by
  cases r <;> rfl

@[simp] theorem runOn_text (key : String) (c : Contents) :
    runOn (Store.text key) c = ((textAt c key).mapError .number, c) := by
  refine (runOn_bind_ok (runOn_perform (.text key) c) _).trans ?_
  exact runOn_ofNumber (textAt c key) c

theorem runOn_text_ok {key : String} {c : Contents} {found : Option String}
    (h : textAt c key = .ok found) : runOn (Store.text key) c = (.ok found, c) := by
  rw [runOn_text, h]
  rfl

@[simp] theorem runOn_keys (c : Contents) : runOn Store.keys c = (.ok c.keys, c) :=
  runOn_perform _ c

@[simp] theorem runOn_snapshot (c : Contents) : runOn Store.snapshot c = (.ok c, c) :=
  runOn_perform _ c

@[simp] theorem runOn_remove (key : String) (c : Contents) :
    runOn (Store.remove key) c = (.ok (), c.erase key) :=
  runOn_perform _ c

@[simp] theorem runOn_removeAll (ks : List String) (c : Contents) :
    runOn (Store.removeAll ks) c = (.ok (), ks.foldl OrderedMap.erase c) :=
  runOn_perform _ c

theorem set_of_isScalar {v : Document} (h : v.isScalar = true) (key : String) :
    Store.set key v = Store.perform (.put key v) := by
  cases v <;> first | rfl | cases h

theorem runOn_set {v : Document} (h : v.isScalar = true) (key : String) (c : Contents) :
    runOn (Store.set key v) c = (.ok (), c.put key v) := by
  rw [set_of_isScalar h]
  exact runOn_perform _ c

/-! ## Numbers -/

def doubleAt (c : Contents) (key : String) : Except NumberError Float :=
  match (c.get? key).getD .null with
  | .text s => .ok ((Decimal.readFloat? s).getD 0.0)
  | v => do return (← v.storedNumber).getD 0.0

theorem runOn_number (key : String) (c : Contents) :
    runOn (Store.number key) c = (((c.get? key).getD .null).storedNumber.mapError .number, c) := by
  unfold Store.number
  rw [runOn_bind_ok (runOn_get key c), runOn_ofNumber]

theorem runOn_double (key : String) (c : Contents) :
    runOn (Store.double key) c = ((doubleAt c key).mapError .number, c) := by
  have read := runOn_number key c
  unfold Store.double doubleAt
  rw [runOn_bind_ok (runOn_get key c)]
  generalize (c.get? key).getD .null = v at read
  cases v with
  | text s => rfl
  | null => rfl
  | _ =>
    refine (runOn_bind _ _ c).trans ?_
    rw [read]
    dsimp only
    generalize Document.storedNumber _ = number
    cases number <;> rfl

end ShortcutRelay
