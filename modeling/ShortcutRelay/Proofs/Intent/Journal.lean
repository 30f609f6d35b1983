import ShortcutRelay.Intent.Perform
import ShortcutRelay.Proofs.Program
import ShortcutRelay.Proofs.Store.Requests

/-!
# Runs of intents from request to request

What an intent meets is given beforehand, and a journal keeps each of its requests with the contents
that it found. The store itself does not fail.

* `Circumstances`, `Journal` : what an intent meets, and what has become of it so far;
* `Circumstances.run` : the result of a program of an intent and the journal afterwards;
* `run_bind_ok`, `run_onStore` and companions : a run taken apart;
* `Journal.questions`, `Journal.posts` : the confirmations that were asked for and the notifications,
  `run_silent` : a program that asks for neither.
-/

namespace ShortcutRelay.Intent

/-- What an intent meets: the answers to its questions in their order, the readings of its clock, and
what others do to the store when they are notified and during each of its sleeps. -/
structure Circumstances where
  answer : Nat → Document := fun _ => .null
  confirmation : Nat → Except Failure Bool := fun _ => .ok true
  reading : Nat → Float := fun _ => 0.0
  wallClock : Float := 0.0
  nonce : String := ""
  notified : Contents → Contents := id
  asleep : Nat → Contents → Contents := fun _ c => c

/-- The contents of the store, and the requests so far, each with the contents that it found. -/
structure Journal where
  contents : Contents
  entries : List (IntentRequest × Contents) := []

namespace Journal

/-- How many requests of the same kind there were. -/
def earlier (j : Journal) (r : IntentRequest) : Nat :=
  j.entries.countP fun e => e.1.ctorIdx == r.ctorIdx

/-- The journal after one more request, which left some contents. -/
def note (j : Journal) (r : IntentRequest) (after : Contents) : Journal :=
  { contents := after, entries := j.entries ++ [(r, j.contents)] }

end Journal

namespace Circumstances

/-- The answer to a request, and the contents afterwards. -/
def answerTo (s : Circumstances) (j : Journal) : (r : IntentRequest) → r.Result × Contents
  | .open => (.ok (), j.contents)
  | .store q => (.ok (q.effect j.contents).1, (q.effect j.contents).2)
  | .ask p prompt => (s.answer (j.earlier (.ask p prompt)), j.contents)
  | .confirm message => (s.confirmation (j.earlier (.confirm message)), j.contents)
  | .post _ => ((), s.notified j.contents)
  | .clock => (s.reading (j.earlier .clock), j.contents)
  | .wallClock => (s.wallClock, j.contents)
  | .sleep seconds => ((), s.asleep (j.earlier (.sleep seconds)) j.contents)
  | .newNonce => (s.nonce, j.contents)
  | .report _ => ((), j.contents)

/-- A request that is answered and kept. -/
def serve (s : Circumstances) (r : intentInterface.Request) :
    StateM Journal (intentInterface.Answer r) := fun j =>
  ((s.answerTo j r).1, j.note r (s.answerTo j r).2)

def run {α : Type} (s : Circumstances) (p : IntentM α) (j : Journal) : Except Failure α × Journal :=
  p.run.run s.serve j

variable {s : Circumstances} {j k : Journal} {α β : Type}

/-! ## Runs taken apart -/

theorem run_pure (a : α) : s.run (pure a) j = (.ok a, j) := rfl

theorem run_mk {p : Program intentInterface α} {f : α → Program intentInterface (Except Failure β)}
    {a : α} (h : p.run s.serve j = (a, k)) :
    s.run (ExceptT.mk (p >>= f)) j = s.run (ExceptT.mk (f a)) k := by
  have parts := congrFun (Program.run_bind s.serve p f) j
  change _ = (f (p.run s.serve j).1).run s.serve (p.run s.serve j).2 at parts
  rw [h] at parts
  exact parts

theorem run_bind_ok {p : IntentM α} {a : α} (h : s.run p j = (.ok a, k)) (f : α → IntentM β) :
    s.run (p >>= f) j = s.run (f a) k :=
  run_mk (f := ExceptT.bindCont f) h

theorem run_bind_error {p : IntentM α} {e : Failure} (h : s.run p j = (.error e, k))
    (f : α → IntentM β) : s.run (p >>= f) j = (.error e, k) :=
  run_mk (f := ExceptT.bindCont f) h

/-- What only turns a result into another leaves the run as it is. -/
theorem run_bind_map {p : IntentM α} {f : α → IntentM β} {g : α → β} (turns : ∀ a, f a = pure (g a)) :
    s.run (p >>= f) j = ((s.run p j).1.map g, (s.run p j).2) := by
  cases run : s.run p j with
  | mk result k =>
    cases result with
    | ok a =>
      rw [run_bind_ok run, turns]
      rfl
    | error e => exact run_bind_error run f

theorem run_tryCatch_ok {p : IntentM α} {a : α} (h : s.run p j = (.ok a, k))
    (handle : Failure → IntentM α) : s.run (tryCatch p handle) j = (.ok a, k) :=
  run_mk (p := p.run) h

theorem run_tryCatch_error {p : IntentM α} {e : Failure} (h : s.run p j = (.error e, k))
    (handle : Failure → IntentM α) : s.run (tryCatch p handle) j = s.run (handle e) k :=
  run_mk (p := p.run) h

theorem run_request_bind (r : IntentRequest) (f : r.Result → IntentM β) :
    s.run (request r >>= f) j = s.run (f (s.answerTo j r).1) (j.note r (s.answerTo j r).2) := rfl

/-! ## Uses of the store -/

/-- The requests that a store program makes on some contents, each with the contents that it finds. -/
def usesOf : Program storeInterface α → Contents → List (IntentRequest × Contents)
  | .done _, _ => []
  | .ask r next, c =>
    (.store r, c) :: usesOf (next (.ok (StoreRequest.effect r c).1)) (StoreRequest.effect r c).2

theorem usesOf_text_bind {key : String} {c : Contents} {found : Option String}
    (h : textAt c key = .ok found) (f : Option String → StoreM α) :
    usesOf (Store.text key >>= f).run c = (.store (.text key), c) :: usesOf (f found).run c := by
  change _ :: usesOf (Store.ofNumber (textAt c key) >>= f).run c = _
  rw [h]
  rfl

theorem usesOf_text_bind_error {key : String} {c : Contents} {e : NumberError}
    (h : textAt c key = .error e) (f : Option String → StoreM α) :
    usesOf (Store.text key >>= f).run c = [(.store (.text key), c)] := by
  change _ :: usesOf (Store.ofNumber (textAt c key) >>= f).run c = _
  rw [h]
  rfl

/-- A store program does what it does on a store without faults. -/
theorem run_onStore (p : StoreM α) (j : Journal) :
    s.run (onStore p) j = ((runOn p j.contents).1,
      { contents := (runOn p j.contents).2, entries := j.entries ++ usesOf p.run j.contents }) := by
  suffices main : ∀ (q : Program storeInterface (Except Failure α)) (j : Journal),
      s.run (onStore (ExceptT.mk q)) j = ((runOn (ExceptT.mk q) j.contents).1,
        { contents := (runOn (ExceptT.mk q) j.contents).2
          entries := j.entries ++ usesOf q j.contents }) from main p.run j
  intro q
  induction q with
  | done r =>
    intro j
    rw [usesOf, List.append_nil]
    rfl
  | ask r next ih =>
    intro j
    have bare : runOn (ExceptT.mk (.ask (I := storeInterface) r next)) j.contents =
        runOn (ExceptT.mk (next (.ok (StoreRequest.effect r j.contents).1)))
          (StoreRequest.effect r j.contents).2 := runOn_ask r next j.contents
    have rest := ih (.ok (StoreRequest.effect r j.contents).1)
      (j.note (.store r) (StoreRequest.effect r j.contents).2)
    rw [bare, usesOf]
    refine rest.trans ?_
    rw [Journal.note, List.append_assoc]
    rfl

end Circumstances

/-! ## Questions and notifications -/

def questionIn : IntentRequest × Contents → Option String
  | (.confirm message, _) => some message
  | _ => none

/-- The name of a notification, and the contents that those who are notified find. -/
def postIn : IntentRequest × Contents → Option (String × Contents)
  | (.post name, c) => some (name, c)
  | _ => none

/-- The request is neither for a confirmation nor for a notification. -/
def IsSilent : IntentRequest → Prop
  | .confirm _ | .post _ => False
  | _ => True

namespace Journal

def questions (j : Journal) : List String :=
  j.entries.filterMap questionIn

def posts (j : Journal) : List (String × Contents) :=
  j.entries.filterMap postIn

variable {j k : Journal}

/-- No confirmation was asked for and no notification posted since. -/
structure Silently (j k : Journal) : Prop where
  questions : k.questions = j.questions
  posts : k.posts = j.posts

theorem Silently.refl (j : Journal) : j.Silently j :=
  ⟨rfl, rfl⟩

theorem Silently.trans {l : Journal} (first : j.Silently k) (second : k.Silently l) : j.Silently l :=
  ⟨second.questions.trans first.questions, second.posts.trans first.posts⟩

theorem silently_note {r : IntentRequest} (silent : IsSilent r) (c : Contents) :
    j.Silently (j.note r c) := by
  have none : questionIn (r, j.contents) = none ∧ postIn (r, j.contents) = none := by
    cases r <;> first | exact ⟨rfl, rfl⟩ | exact silent.elim
  constructor
  · rw [questions, note, List.filterMap_append, List.filterMap_cons_none none.1, List.filterMap_nil,
      List.append_nil, questions]
  · rw [posts, note, List.filterMap_append, List.filterMap_cons_none none.2, List.filterMap_nil,
      List.append_nil, posts]

/-- Some confirmations were asked for since, and nothing else happened that others could see. -/
structure Asked (j : Journal) (messages : List String) (k : Journal) : Prop where
  questions : k.questions = j.questions ++ messages
  posts : k.posts = j.posts
  contents : k.contents = j.contents

theorem Asked.refl (j : Journal) : j.Asked [] j :=
  ⟨(List.append_nil _).symm, rfl, rfl⟩

theorem Asked.trans {l : Journal} {ms ns : List String} (first : j.Asked ms k) (second : k.Asked ns l) :
    j.Asked (ms ++ ns) l := by
  refine ⟨?_, second.posts.trans first.posts, second.contents.trans first.contents⟩
  rw [second.questions, first.questions, List.append_assoc]

theorem Asked.length {ms : List String} (asked : j.Asked ms k) :
    k.questions.length = j.questions.length + ms.length := by
  rw [asked.questions, List.length_append]

theorem Silently.asked (silent : j.Silently k) (same : k.contents = j.contents) : j.Asked [] k :=
  ⟨silent.questions.trans (List.append_nil _).symm, silent.posts, same⟩

end Journal

namespace Circumstances

variable {s : Circumstances} {α : Type}

/-- A program that asks for no confirmation and posts nothing leaves both as they were. -/
theorem run_silent {p : IntentM α} (silent : p.run.Asks IsSilent) (j : Journal) :
    j.Silently (s.run p j).2 := by
  suffices main : ∀ (q : Program intentInterface (Except Failure α)) (j : Journal), q.Asks IsSilent →
      j.Silently (s.run (ExceptT.mk q) j).2 from main p.run j silent
  intro q
  induction q with
  | done r => exact fun j _ => .refl j
  | ask r next ih =>
    intro j silent
    exact (Journal.silently_note silent.1 _).trans (ih _ _ (silent.2 _))

end Circumstances

theorem silent_onStore {α : Type} (p : StoreM α) : (onStore p).run.Asks IsSilent := by
  suffices main : ∀ q : Program storeInterface (Except Failure α),
      (onStore (ExceptT.mk q)).run.Asks IsSilent from main p.run
  intro q
  induction q with
  | done r => trivial
  | ask r next ih => exact ⟨trivial, ih⟩

end ShortcutRelay.Intent
