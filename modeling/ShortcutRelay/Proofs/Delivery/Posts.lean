import ShortcutRelay.Proofs.Protocol.Succession

/-!
# Programs that write a nonce

* `Posts n r` : the request `r` makes `n` the nonce in the store, `textAt_effect` : nothing else
  does;
* `Silent n p` : the program never makes `n` the nonce in the store;
* `PostsOnce p` : the program makes no nonce the one in the store a second time;
* `silent_perform`, `postsOnce_perform` : an intent makes its own nonce the one in the store, once;
* `textAt_of_silent` : what a silent program leaves.
-/

namespace ShortcutRelay
open Protocol

/-- A request that makes a text the nonce in the store. -/
def Posts (n : String) (r : StoreRequest) : Prop :=
  ∃ v, r = .put commandNonce v ∧ v.storedText = .ok (some n)

/-- The program never makes a text the nonce in the store. -/
def Silent {α : Type} (n : String) (p : Program storeInterface α) : Prop :=
  p.Asks (fun r => ¬ Posts n r)

/-- What the program once made the nonce in the store it does not make the nonce again. -/
def PostsOnce {α : Type} : Program storeInterface α → Prop
  | .done _ => True
  | .ask r next => (∀ n, Posts n r → ∀ a, Silent n (next a)) ∧ ∀ a, PostsOnce (next a)

theorem textAt_effect {r : StoreRequest} {c : Contents} {n : String}
    (h : textAt (r.effect c).2 commandNonce = .ok (some n)) :
    textAt c commandNonce = .ok (some n) ∨ Posts n r := by
  cases r with
  | put key v =>
    change textAt (c.put key v) _ = _ at h
    rw [textAt_put] at h
    split at h
    · next here => exact .inr ⟨v, by rw [here], h⟩
    · exact .inl h
  | remove key =>
    change textAt (c.erase key) _ = _ at h
    rw [textAt_erase] at h
    split at h
    · cases h
    · exact .inl h
  | removeAll keys =>
    change textAt (keys.foldl OrderedMap.erase c) _ = _ at h
    rw [textAt_eraseAll] at h
    split at h
    · cases h
    · exact .inl h
  | _ => exact .inl h

theorem not_posts_put {key : String} (h : key ≠ commandNonce) (v : Document) (n : String) :
    ¬ Posts n (.put key v) := by
  rintro ⟨_, e, -⟩
  cases e
  exact h rfl

/-! ## Programs that never write a nonce -/

/-- A request that makes nothing the nonce in the store. -/
def Quiet (r : StoreRequest) : Prop :=
  ∀ n, ¬ Posts n r

theorem quiet_put {key : String} (h : key ≠ commandNonce) (v : Document) : Quiet (.put key v) :=
  fun n => not_posts_put h v n

theorem quiet_remove (key : String) : Quiet (.remove key) := by
  rintro n ⟨_, e, -⟩
  cases e

theorem quiet_text (key : String) : Quiet (.text key) := by
  rintro n ⟨_, e, -⟩
  cases e

variable {α β : Type}

theorem silent_of_quiet {p : Program storeInterface α} (h : p.Asks Quiet) (n : String) :
    Silent n p := by
  induction p with
  | done a => trivial
  | ask r next ih => exact ⟨h.1 n, fun a => ih a (h.2 a)⟩

theorem postsOnce_of_quiet {p : Program storeInterface α} (h : p.Asks Quiet) : PostsOnce p := by
  induction p with
  | done a => trivial
  | ask r next ih => exact ⟨fun n posts => absurd posts (h.1 n), fun a => ih a (h.2 a)⟩

theorem postsOnce_bind_quiet {p : StoreM α} {f : α → StoreM β} (hp : Asks Quiet p)
    (hf : ∀ a, PostsOnce (f a).run) : PostsOnce (p >>= f).run := by
  suffices h : ∀ q : Program storeInterface (Except Failure α), q.Asks Quiet →
      PostsOnce (ExceptT.run (ExceptT.mk q >>= f)) from h p.run hp
  intro q hq
  induction q with
  | done r =>
    cases r with
    | ok a => exact hf a
    | error e => trivial
  | ask r next ih => exact ⟨fun n posts => absurd posts (hq.1 n), fun a => ih a (hq.2 a)⟩

theorem postsOnce_bind {p : StoreM α} {f : α → StoreM β} (hp : PostsOnce p.run)
    (hf : ∀ a, Asks Quiet (f a)) : PostsOnce (p >>= f).run := by
  have later : ∀ r : Except Failure α,
      Program.Asks (I := storeInterface) Quiet (ExceptT.run (ExceptT.mk (.done r) >>= f)) := by
    intro r
    cases r with
    | ok a => exact hf a
    | error e => trivial
  suffices h : ∀ q : Program storeInterface (Except Failure α), PostsOnce q →
      PostsOnce (ExceptT.run (ExceptT.mk q >>= f)) from h p.run hp
  intro q hq
  induction q with
  | done r => exact postsOnce_of_quiet (later r)
  | ask r next ih =>
    refine ⟨fun n posts a => ?_, fun a => ih a (hq.2 a)⟩
    exact Program.asks_bind (hq.1 n posts a) fun r => silent_of_quiet (later r) n

/-! ## Intents -/

theorem quiet_storeParameters (ps : List (String × ValueType × Document)) :
    Asks Quiet (storeParameters ps) := by
  refine asks_storeParameters ps (fun key w parameter _ => quiet_put ?_ w) quiet_remove
  rintro rfl
  exact absurd parameter (by decide)

theorem quiet_lookFor (nonce : String) (looks : Nat) : Asks Quiet (lookFor nonce looks) :=
  asks_lookFor nonce looks (quiet_text _) (quiet_remove _)

/-- What an intent writes after its nonce. -/
theorem quiet_after_nonce (d : Draft) : Asks Quiet (do
    Store.set commandTimestamp (.float d.time)
    if let some b := d.confirmed then Store.set userConfirmed (.bool b)) := by
  refine asks_bind (asks_set (quiet_remove _) (quiet_put (by decide) _)) fun _ => ?_
  cases d.confirmed with
  | none => trivial
  | some b => exact asks_set (quiet_remove _) (quiet_put (by decide) _)

theorem quiet_identifier (d : Draft) : Asks Quiet (Store.set commandIdentifier (.text d.identifier)) :=
  asks_set (quiet_remove _) (quiet_put (by decide) _)

theorem postsOnce_perform (d : Draft) (looks : Nat) : PostsOnce (d.perform looks).run := by
  refine postsOnce_bind ?_ fun _ => quiet_lookFor d.nonce looks
  refine postsOnce_bind_quiet (quiet_storeParameters _) fun _ => ?_
  refine postsOnce_bind_quiet (quiet_identifier d) fun _ => ?_
  refine postsOnce_bind ?_ fun _ => quiet_after_nonce d
  exact ⟨fun _ _ _ => trivial, fun _ => trivial⟩

theorem silent_write {d : Draft} {n : String} (h : n ≠ d.nonce) : Silent n d.write.run := by
  have other : ¬ Posts n (.put commandNonce (.text d.nonce)) := by
    rintro ⟨_, e, hv⟩
    cases e
    exact h (Option.some.inj (Except.ok.inj hv)).symm
  have quietly {α : Type} {p : StoreM α} (hp : Asks Quiet p) : Asks (fun r => ¬ Posts n r) p :=
    silent_of_quiet hp n
  refine asks_bind (quietly (quiet_storeParameters _)) fun _ => ?_
  refine asks_bind (quietly (quiet_identifier d)) fun _ => ?_
  exact asks_bind (asks_perform other) fun _ => quietly (quiet_after_nonce d)

theorem silent_perform {d : Draft} {n : String} (h : n ≠ d.nonce) (looks : Nat) :
    Silent n (d.perform looks).run :=
  asks_bind (silent_write h) fun _ => silent_of_quiet (quiet_lookFor d.nonce looks) n

/-- A silent program does not bring a nonce into the store. -/
theorem textAt_of_silent {p : StoreM α} {c : Contents} {n : String} (silent : Silent n p.run)
    (gone : textAt c commandNonce ≠ .ok (some n)) : textAt (runOn p c).2 commandNonce ≠ .ok (some n) :=
  runOn_keeps (Q := fun c => textAt c commandNonce ≠ .ok (some n))
    (fun _ _ other gone after => (textAt_effect after).elim gone other) silent gone

end ShortcutRelay
