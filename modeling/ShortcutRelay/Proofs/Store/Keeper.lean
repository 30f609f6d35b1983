import ShortcutRelay.Proofs.Store.Alike

/-!
# What can be relied on in a backend

A use of a backend has its effect or fails, and where it fails nothing has changed.

* `StoreView` : what a backend keeps, how far it may replace values by like ones, which values it
  has no room for and which failures may come;
* `StoreView.Ended` : how a use ends: with its effect, with a value rejected, or with a failure;
* `Keeper` : a view that the uses of the backend conform to, `Keeper.Healthy` without failures;
* `Keeper.Healthy.run_obtain` : the store is opened;
* `Keeper.answer` : how a request ends, `Keeper.answer_read` : one that only reads;
* `Keeper.Reads` : a program that finds what it finds on bare contents, with its rules;
* `MemoryStore.keeper` : stores in memory.
-/

namespace ShortcutRelay

/-- What a backend keeps. `threat` holds of the failures that may still come, `like` of values that
may stand for each other, `suits` of the values that may be written; `rejection` is the failure to
write a value that there is no room for. -/
structure StoreView (σ : Type) where
  contents : σ → Contents
  valid : σ → Prop
  threat : σ → StoreFailure → Prop
  like : Document → Document → Prop
  suits : Document → Prop
  rejection : Document → Option Failure

namespace StoreView

variable {σ : Type} (V : StoreView σ) {α β : Type}

/-- The second state is valid, and no failure may come there that could not come before. -/
def Later (s t : σ) : Prop :=
  V.valid t ∧ ∀ f, V.threat t f → V.threat s f

/-- How a use ends that was made in a state: with a value and the contents that it is to leave, with
a rejection or with a failure that was to be expected. In the last two cases nothing has changed. -/
inductive Ended (s : σ) (rejects : Failure → Prop) (a : α) (after : Contents → Prop) :
    Except Failure α × σ → Prop
  | done {t} (later : V.Later s t) (effect : after (V.contents t)) :
      Ended s rejects a after (.ok a, t)
  | rejected {e t} (later : V.Later s t) (same : V.contents t = V.contents s) (rejection : rejects e) :
      Ended s rejects a after (.error e, t)
  | failed {f t} (later : V.Later s t) (same : V.contents t = V.contents s) (threat : V.threat s f) :
      Ended s rejects a after (.error (.store f), t)

/-- How a use ends that only reads. -/
abbrev Passed (s : σ) (a : α) : Except Failure α × σ → Prop :=
  V.Ended s (fun _ => False) a (· = V.contents s)

variable {V} {s t u : σ} {rejects : Failure → Prop} {a : α} {b : β} {after : Contents → Prop}

theorem Later.trans (first : V.Later s t) (second : V.Later t u) : V.Later s u :=
  ⟨second.1, fun f h => first.2 f (second.2 f h)⟩

theorem Ended.later {r : Except Failure α × σ} (h : V.Ended s rejects a after r) :
    V.Later s r.2 := by
  cases h <;> assumption

theorem Ended.valid {r : Except Failure α × σ} (h : V.Ended s rejects a after r) :
    V.valid r.2 :=
  h.later.1

/-- What is used later with the same contents could have been used before. -/
theorem Ended.sooner {r : Except Failure α × σ} (later : V.Later s t)
    (same : V.contents t = V.contents s) (h : V.Ended t rejects a after r) :
    V.Ended s rejects a after r := by
  cases h with
  | done later' effect => exact .done (later.trans later') effect
  | rejected later' same' rejection => exact .rejected (later.trans later') (same'.trans same) rejection
  | failed later' same' threat => exact .failed (later.trans later') (same'.trans same) (later.2 _ threat)

theorem Ended.mono {r : Except Failure α × σ} {rejects' : Failure → Prop} {after' : Contents → Prop}
    (h : V.Ended s rejects a after r) (more : ∀ e, rejects e → rejects' e)
    (weaker : ∀ c, after c → after' c) : V.Ended s rejects' a after' r := by
  cases h with
  | done later effect => exact .done later (weaker _ effect)
  | rejected later same rejection => exact .rejected later same (more _ rejection)
  | failed later same threat => exact .failed later same threat

/-- A read is followed by the rest of a use. -/
theorem Passed.bind {x : BackendM σ α} {f : α → BackendM σ β} (h : V.Passed s a (x.run s))
    (next : ∀ t, V.Later s t → V.contents t = V.contents s →
      V.Ended t rejects b after ((f a).run t)) :
    V.Ended s rejects b after ((x >>= f).run s) := by
  rw [Fallible.run_bind]
  generalize x.run s = r at h
  cases h with
  | done later effect => exact (next _ later effect).sooner later effect
  | rejected _ _ rejection => exact rejection.elim
  | failed later same threat => exact .failed later same threat

/-- What a read gives is turned into another value. -/
theorem Passed.map {x : BackendM σ α} (h : V.Passed s a (x.run s)) (f : α → β) :
    V.Passed s (f a) ((x >>= fun a => pure (f a)).run s) := by
  rw [Fallible.run_bind]
  generalize x.run s = r at h
  cases h with
  | done later effect => exact .done later effect
  | rejected _ _ rejection => exact rejection.elim
  | failed later same threat => exact .failed later same threat

end StoreView

/-- A view that the uses of a backend conform to. -/
structure Keeper (σ : Type) [Backend σ] extends StoreView σ where
  tolerance : Tolerance like
  rejection_eq : ∀ {v w}, like v w → rejection v = rejection w
  fitting : ∀ {s key v}, valid s → (contents s).get? key = some v → suits v ∧ rejection v = none
  obtain : ∀ {s}, valid s →
    toStoreView.Passed s () ((Backend.obtain : BackendM σ Unit).run s)
  load : ∀ {s}, valid s →
    toStoreView.Passed s (contents s) ((Backend.load : BackendM σ Contents).run s)
  enter : ∀ {s}, valid s →
    toStoreView.Passed s () ((Backend.enter : BackendM σ Unit).run s)
  textRead : ∀ {s}, valid s → ∀ key,
    toStoreView.Passed s () ((Backend.textRead key : BackendM σ Unit).run s)
  leave : ∀ {s t}, valid s → (Backend.leave : StateM σ Unit).run s = ((), t) →
    toStoreView.Later s t ∧ contents t = contents s
  save : ∀ {s d}, valid s → (∀ key v, d.get? key = some v → suits v) →
    toStoreView.Ended s (fun e => ∃ key v, d.get? key = some v ∧ rejection v = some e) ()
      (Agree like · d) ((Backend.save d : BackendM σ Unit).run s)

def StoreRequest.Suits {σ : Type} (V : StoreView σ) : StoreRequest → Prop
  | .put _ v => V.suits v
  | _ => True

def StoreRequest.Rejected {σ : Type} (V : StoreView σ) : StoreRequest → Failure → Prop
  | .put _ v, e => V.rejection v = some e
  | _, _ => False

def StoreRequest.IsRead : StoreRequest → Prop
  | .value _ | .text _ | .keys | .snapshot => True
  | _ => False

theorem StoreRequest.effect_of_isRead {r : StoreRequest} (read : r.IsRead) (c : Contents) :
    (r.effect c).2 = c := by
  cases r <;> first | rfl | exact read.elim

namespace Keeper
open StoreView

variable {σ : Type} [Backend σ] (K : Keeper σ) {s : σ}

/-- No failure can come. -/
def Healthy : Prop :=
  ∀ s, K.valid s → ∀ f, ¬ K.threat s f

def TakesScalars : Prop :=
  ∀ v : Document, v.isScalar = true → K.suits v

theorem later_refl (valid : K.valid s) : K.Later s s :=
  ⟨valid, fun _ h => h⟩

theorem agree_refl (c : Contents) : Agree K.like c c :=
  fun _ => optionRel_refl K.tolerance.equivalence.refl _

theorem agree_of_eq {c d : Contents} (h : c = d) : Agree K.like c d :=
  h ▸ K.agree_refl c

variable {K} in
/-- Where no failure can come, the store is opened. -/
theorem Healthy.run_obtain (healthy : K.Healthy) (valid : K.valid s) : ∃ t,
    (Backend.obtain : BackendM σ Unit).run s = (.ok (), t) ∧ K.valid t ∧
      K.contents t = K.contents s := by
  have ended := K.obtain valid
  generalize (Backend.obtain : BackendM σ Unit).run s = r at ended ⊢
  cases ended with
  | done later same => exact ⟨_, rfl, later.1, same⟩
  | rejected _ _ rejection => exact rejection.elim
  | failed _ _ threat => exact (healthy s valid _ threat).elim

/-- A section ends as what is done in it. -/
theorem exclusively {α : Type} {rejects : Failure → Prop} {a : α} {after : Contents → Prop}
    {act : BackendM σ α} (valid : K.valid s)
    (inside : ∀ t, K.valid t → K.contents t = K.contents s →
      K.Ended t rejects a after (act.run t)) :
    K.Ended s rejects a after ((Backend.exclusively act).run s) := by
  rw [Backend.run_exclusively]
  have entered := K.enter valid
  generalize (Backend.enter : BackendM σ Unit).run s = r at entered
  cases entered with
  | @done t later same =>
    have ended := (inside t later.1 same).sooner later same
    have left := K.leave (t := ((Backend.leave : StateM σ Unit).run (act.run t).2).2) ended.valid rfl
    simp only
    generalize act.run t = q at ended left
    cases ended with
    | done later effect => exact .done (later.trans left.1) (left.2.symm ▸ effect)
    | rejected later same rejection =>
      exact .rejected (later.trans left.1) (left.2.trans same) rejection
    | failed later same threat => exact .failed (later.trans left.1) (left.2.trans same) threat
  | rejected _ _ rejection => exact rejection.elim
  | failed later same threat => exact .failed later same threat

/-- What is removed is gone; nothing is written where it was not there. -/
theorem removal (keys : List String) (valid : K.valid s) :
    K.Ended s (fun _ => False) () (Agree K.like · (keys.foldl OrderedMap.erase (K.contents s)))
      ((Backend.removal keys).run s) := by
  refine (K.load valid).bind fun t later same => ?_
  cases changed : (Backend.erased keys (K.contents s)).2 with
  | false =>
    simp only [changed]
    have unchanged : keys.foldl OrderedMap.erase (K.contents s) = K.contents s :=
      erased_unchanged changed
    exact .done (K.later_refl later.1) (K.agree_of_eq (same.trans unchanged.symm))
  | true =>
    simp only [changed, if_true]
    -- what is left was there before, so that none of it is rejected
    have left : ∀ key v, (keys.foldl OrderedMap.erase (K.contents s)).get? key = some v →
        K.suits v ∧ K.rejection v = none := by
      intro key v there
      rw [OrderedMap.get?_eraseAll] at there
      split at there
      · cases there
      · exact K.fitting valid there
    refine (K.save later.1 fun key v there => (left key v there).1).mono ?_ fun _ h => h
    rintro e ⟨key, v, there, rejection⟩
    rw [(left key v there).2] at rejection
    cases rejection

theorem put (key : String) {v : Document} (valid : K.valid s) (suits : K.suits v) :
    K.Ended s (K.rejection v = some ·) () (Agree K.like · ((K.contents s).put key v))
      ((do Backend.save ((← Backend.load).put key v) : BackendM σ Unit).run s) := by
  refine (K.load valid).bind fun t later same => ?_
  have there : ∀ k w, ((K.contents s).put key v).get? k = some w →
      w = v ∨ K.suits w ∧ K.rejection w = none := by
    intro k w found
    rw [OrderedMap.get?_put] at found
    split at found
    · exact .inl (Option.some.inj found).symm
    · exact .inr (K.fitting valid found)
  refine (K.save later.1 fun k w found => ?_).mono ?_ fun _ h => h
  · rcases there k w found with rfl | old
    · exact suits
    · exact old.1
  · rintro e ⟨k, w, found, rejection⟩
    rcases there k w found with rfl | old
    · exact rejection
    · rw [old.2] at rejection
      cases rejection

/-- How a request ends that only reads. -/
theorem answer_read {r : StoreRequest} (read : r.IsRead) (valid : K.valid s) :
    K.Passed s (r.effect (K.contents s)).1 ((Backend.answer r).run s) := by
  cases r with
  | value key => exact (K.load valid).map fun c => (c.get? key).getD .null
  | text key =>
    refine (K.textRead valid key).bind fun t later same => ?_
    have found := (K.load later.1).map fun c => textAt c key
    rw [same] at found
    exact found.mono (fun _ h => h) fun _ unchanged => unchanged.trans same
  | keys => exact (K.load valid).map OrderedMap.keys
  | snapshot => exact K.load valid
  | _ => exact read.elim

/-- How a request ends. -/
theorem answer (r : StoreRequest) (valid : K.valid s) (suits : r.Suits K.toStoreView) :
    K.Ended s (r.Rejected K.toStoreView) (r.effect (K.contents s)).1
      (Agree K.like · (r.effect (K.contents s)).2) ((Backend.answer r).run s) := by
  have reading (read : r.IsRead) : K.Ended s (r.Rejected K.toStoreView) (r.effect (K.contents s)).1
      (Agree K.like · (r.effect (K.contents s)).2) ((Backend.answer r).run s) := by
    rw [r.effect_of_isRead read]
    exact (K.answer_read read valid).mono (fun _ h => h.elim) fun _ same => K.agree_of_eq same
  cases r with
  | put key v =>
    refine K.exclusively valid fun t valid' same => ?_
    rw [← same]
    exact K.put key valid' suits
  | remove key =>
    refine K.exclusively valid fun t valid' same => ?_
    rw [← same]
    exact K.removal [key] valid'
  | removeAll keys =>
    refine K.exclusively valid fun t valid' same => ?_
    rw [← same]
    exact K.removal keys valid'
  | _ => exact reading trivial

/-! ## Programs that only read -/

/-- The program finds what it finds on bare contents, or a failure comes; nothing changes. -/
def Reads {α : Type} (p : StoreM α) : Prop :=
  ∀ s, K.valid s → (runOn p (K.contents s)).2 = K.contents s ∧
    ∃ t, K.Later s t ∧ K.contents t = K.contents s ∧
      ((Backend.run p).run s = ((runOn p (K.contents s)).1, t) ∨
        ∃ f, K.threat s f ∧ (Backend.run p).run s = (.error (.store f), t))

variable {K} {α β : Type}

theorem reads_ofExcept (r : Except Failure α) : K.Reads (MonadExcept.ofExcept r) := by
  intro s valid
  cases r <;> exact ⟨rfl, s, K.later_refl valid, rfl, .inl rfl⟩

theorem reads_pure (a : α) : K.Reads (pure a) :=
  K.reads_ofExcept (.ok a)

theorem reads_ofNumber (r : Except NumberError α) : K.Reads (Store.ofNumber r) := by
  cases r with
  | ok a => exact reads_pure a
  | error e => exact reads_ofExcept (.error (.number e))

theorem reads_perform {r : StoreRequest} (read : r.IsRead) : K.Reads (Store.perform r) := by
  intro s valid
  rw [Backend.run_perform, runOn_perform]
  refine ⟨r.effect_of_isRead read _, ?_⟩
  have ended := K.answer_read read valid
  generalize (Backend.answer r).run s = q at ended
  cases ended with
  | done later same => exact ⟨_, later, same, .inl rfl⟩
  | rejected _ _ rejection => exact rejection.elim
  | failed later same threat => exact ⟨_, later, same, .inr ⟨_, threat, rfl⟩⟩

theorem reads_get (key : String) : K.Reads (Store.get key) :=
  reads_perform (r := .value key) trivial

theorem Reads.bind {p : StoreM α} {f : α → StoreM β} (first : K.Reads p)
    (next : ∀ a, K.Reads (f a)) : K.Reads (p >>= f) := by
  intro s valid
  obtain ⟨unchanged, t, later, same, ran⟩ := first s valid
  rw [Backend.run_bind, Fallible.run_bind, runOn_bind]
  generalize runOn p (K.contents s) = q at unchanged ran ⊢
  obtain ⟨r, c⟩ := q
  obtain rfl : c = K.contents s := unchanged
  rcases ran with ran | ⟨failure, threat, ran⟩
  · rw [ran]
    cases r with
    | error e => exact ⟨rfl, t, later, same, .inl rfl⟩
    | ok a =>
      obtain ⟨unchanged', u, later', same', ran'⟩ := next a t later.1
      rw [same] at unchanged' same' ran'
      refine ⟨unchanged', u, later.trans later', same', ran'.imp_right ?_⟩
      rintro ⟨failure, threat, failed⟩
      exact ⟨failure, later.2 failure threat, failed⟩
  · rw [ran]
    refine ⟨?_, t, later, same, .inr ⟨failure, threat, rfl⟩⟩
    cases r with
    | error e => rfl
    | ok a => exact (next a s valid).1

theorem reads_text (key : String) : K.Reads (Store.text key) :=
  (reads_perform (r := .text key) trivial).bind reads_ofNumber

end Keeper

/-! ## Stores in memory -/

/-- A store in memory keeps what it is given. -/
def MemoryStore.keeper : Keeper MemoryStore where
  contents := MemoryStore.contents
  valid _ := True
  threat _ _ := False
  like := Eq
  suits _ := True
  rejection _ := none
  tolerance := tolerance_eq
  rejection_eq _ := rfl
  fitting _ _ := ⟨trivial, rfl⟩
  obtain _ := .done ⟨trivial, fun _ h => h⟩ rfl
  load _ := .done ⟨trivial, fun _ h => h⟩ rfl
  enter _ := .done ⟨trivial, fun _ h => h⟩ rfl
  textRead _ _ := .done ⟨trivial, fun _ h => h⟩ rfl
  leave := by
    rintro s _ - ⟨⟩
    exact ⟨⟨trivial, fun _ h => h⟩, rfl⟩
  save _ _ := .done ⟨trivial, fun _ h => h⟩ fun _ => optionRel_refl Eq.refl _

theorem MemoryStore.keeper_healthy : MemoryStore.keeper.Healthy :=
  fun _ _ _ => id

end ShortcutRelay
