import ShortcutRelay.Proofs.Store.Disturbed
import ShortcutRelay.Proofs.Store.SuiteFile

/-!
# Handles on one suite

A suite in a file answers every call as a store in memory does that is given the same calls, through
whichever of its handles they come.

* `StoreCall` : the calls on a store, `StoreCall.program` what they do;
* `StoreCall.Beside` : how a call ends beside the same call on contents in memory;
* `Keeper.beside` : so does every call on a backend that can be relied on;
* `SharedSuite` : a suite with its handles, `SharedSuite.Refines` : a run of calls beside memory;
* `suite_refines_memory` : every run of calls is one.
-/

namespace ShortcutRelay

/-- A call on a store. -/
inductive StoreCall
  | get (key : String)
  | text (key : String)
  | number (key : String)
  | double (key : String)
  | contains (key : String)
  | set (key : String) (value : Document)
  | remove (key : String)
  | removeAll (keys : List String)

namespace StoreCall

def Result : StoreCall → Type
  | get _ => Document
  | text _ => Option String
  | number _ => Option Float
  | double _ => Float
  | contains _ => Bool
  | set _ _ | remove _ | removeAll _ => Unit

def program : (call : StoreCall) → StoreM call.Result
  | get key => Store.get key
  | text key => Store.text key
  | number key => Store.number key
  | double key => Store.double key
  | contains key => Store.contains key
  | set key value => Store.set key value
  | remove key => Store.remove key
  | removeAll keys => Store.removeAll keys

/-- Results of a call that may stand for each other: values and numbers that are alike, and
otherwise the same result. -/
def Agrees (Like : Document → Document → Prop) : (call : StoreCall) → call.Result → call.Result → Prop
  | get _, v, w => Like v w
  | number _, x, y => Option.Rel (fun x y => Like (.float x) (.float y)) x y
  | double _, x, y => Like (.float x) (.float y)
  | text _, a, b => a = b
  | contains _, a, b => a = b
  | set _ _, a, b => a = b
  | remove _, a, b => a = b
  | removeAll _, a, b => a = b

/-- The scalar that a call writes, if it is one, suits the store. -/
def Suits {σ : Type} (V : StoreView σ) (call : StoreCall) : Prop :=
  ∀ key v, call = set key v → v.isScalar = true → V.suits v

/-- How a call ends beside the same call on contents `d` in memory. It is answered as in memory, or
raises what it raises in memory; or else there is no room for the value, or a failure has come.
Unless it is answered, nothing has changed. -/
inductive Beside {σ : Type} (V : StoreView σ) (call : StoreCall) (s : σ) (d : Contents) :
    Except Failure call.Result × σ → Prop
  | answered {a b t d'} (later : V.Later s t) (memory : runOn call.program d = (.ok b, d'))
      (result : call.Agrees V.like a b) (contents : Agree V.like (V.contents t) d') :
      Beside V call s d (.ok a, t)
  | raised {e t} (later : V.Later s t) (memory : runOn call.program d = (.error e, d))
      (same : V.contents t = V.contents s) : Beside V call s d (.error e, t)
  | rejected {key v e t} (later : V.Later s t) (isSet : call = .set key v)
      (rejection : V.rejection v = some e) (same : V.contents t = V.contents s) :
      Beside V call s d (.error e, t)
  | failed {f t} (later : V.Later s t) (threat : V.threat s f)
      (same : V.contents t = V.contents s) : Beside V call s d (.error (.store f), t)

theorem Beside.later {σ : Type} {V : StoreView σ} {call : StoreCall} {s : σ} {d : Contents}
    {r : Except Failure call.Result × σ} (h : call.Beside V s d r) : V.Later s r.2 := by
  cases h <;> assumption

end StoreCall

namespace Keeper
open StoreCall

variable {σ : Type} [Backend σ] (K : Keeper σ) {s : σ} {d : Contents}

/-- A call that only reads, on contents that agree. -/
theorem beside_of_reads {call : StoreCall} (reads : K.Reads call.program) (valid : K.valid s)
    (memory : (runOn call.program d).2 = d)
    (matching : Matching (call.Agrees K.like) (runOn call.program (K.contents s)).1
      (runOn call.program d).1) (agree : Agree K.like (K.contents s) d) :
    call.Beside K.toStoreView s d ((Backend.run call.program).run s) := by
  obtain ⟨-, t, later, same, ran | ⟨f, threat, ran⟩⟩ := reads s valid
  · rw [ran]
    generalize (runOn call.program (K.contents s)).1 = r at matching
    generalize inMemory : runOn call.program d = q at matching memory
    obtain ⟨r', d'⟩ := q
    obtain rfl : d' = d := memory
    cases matching with
    | ok result => exact .answered later inMemory result (agree.replace same)
    | error e => exact .raised later inMemory same
  · rw [ran]
    exact .failed later threat same

theorem beside_get (key : String) (valid : K.valid s) (agree : Agree K.like (K.contents s) d) :
    (get key).Beside K.toStoreView s d ((Backend.run (get key).program).run s) := by
  have here := runOn_get key (K.contents s)
  have there := runOn_get key d
  refine K.beside_of_reads (reads_get key) valid (congrArg Prod.snd there) ?_ agree
  change Matching K.like (runOn (Store.get key) _).1 (runOn (Store.get key) d).1
  rw [here, there]
  exact .ok (K.tolerance.getD_null (agree key))

theorem beside_text (key : String) (valid : K.valid s) (agree : Agree K.like (K.contents s) d) :
    (text key).Beside K.toStoreView s d ((Backend.run (text key).program).run s) := by
  have here := runOn_text key (K.contents s)
  have there := runOn_text key d
  refine K.beside_of_reads (reads_text key) valid (congrArg Prod.snd there) ?_ agree
  change Matching Eq (runOn (Store.text key) _).1 (runOn (Store.text key) d).1
  rw [here, there]
  dsimp only
  rw [K.tolerance.textAt_eq (agree key)]
  exact Matching.of_eq (fun _ => rfl) rfl

theorem reads_number (key : String) : K.Reads (Store.number key) :=
  (reads_get key).bind fun _ => reads_ofNumber _

theorem beside_number (key : String) (valid : K.valid s) (agree : Agree K.like (K.contents s) d) :
    (number key).Beside K.toStoreView s d ((Backend.run (number key).program).run s) := by
  have here := runOn_number key (K.contents s)
  have there := runOn_number key d
  refine K.beside_of_reads (K.reads_number key) valid (congrArg Prod.snd there) ?_ agree
  change Matching (Option.Rel fun x y => K.like (.float x) (.float y)) (runOn (Store.number key) _).1
    (runOn (Store.number key) d).1
  rw [here, there]
  exact (K.tolerance.storedNumber (K.tolerance.getD_null (agree key))).mapError _

theorem reads_double (key : String) : K.Reads (Store.double key) := by
  refine (reads_get key).bind fun v => ?_
  have numeric : K.Reads (do return (← Store.number key).getD 0.0) :=
    (K.reads_number key).bind fun _ => reads_pure _
  cases v <;> first | exact reads_pure _ | exact numeric

theorem beside_double (key : String) (valid : K.valid s) (agree : Agree K.like (K.contents s) d) :
    (double key).Beside K.toStoreView s d ((Backend.run (double key).program).run s) := by
  have here := runOn_double key (K.contents s)
  have there := runOn_double key d
  refine K.beside_of_reads (K.reads_double key) valid (congrArg Prod.snd there) ?_ agree
  change Matching (fun x y => K.like (.float x) (.float y)) (runOn (Store.double key) _).1
    (runOn (Store.double key) d).1
  rw [here, there]
  exact (K.tolerance.doubleAt (agree key)).mapError _

theorem beside_contains (key : String) (valid : K.valid s) (agree : Agree K.like (K.contents s) d) :
    (contains key).Beside K.toStoreView s d ((Backend.run (contains key).program).run s) := by
  have unchanged : (runOn (Store.contains key) d).2 = d := by
    unfold Store.contains
    rw [runOn_bind_ok (runOn_get key d)]
    rfl
  have reads : K.Reads (Store.contains key) := (reads_get key).bind fun _ => reads_pure _
  refine K.beside_of_reads reads valid unchanged ?_ agree
  change Matching Eq (runOn (Store.contains key) _).1 (runOn (Store.contains key) d).1
  unfold Store.contains
  rw [runOn_bind_ok (runOn_get key _), runOn_bind_ok (runOn_get key d)]
  have like := K.tolerance.getD_null (agree key)
  generalize ((K.contents s).get? key).getD .null = v at like
  generalize (d.get? key).getD .null = w at like
  cases K.tolerance.alike like with
  | same => exact .ok rfl
  | zeros _ _ => exact .ok rfl

/-- A request to write, on contents that agree. -/
theorem beside_of_ended {call : StoreCall} {r : StoreRequest} {a : call.Result}
    {result : Except Failure call.Result × σ}
    (ended : K.Ended s (r.Rejected K.toStoreView) a (Agree K.like · (r.effect (K.contents s)).2) result)
    (memory : runOn call.program d = (.ok a, (r.effect d).2)) (same : call.Agrees K.like a a)
    (agree : Agree K.like (r.effect (K.contents s)).2 (r.effect d).2)
    (set : ∀ e, r.Rejected K.toStoreView e → ∃ key v, call = .set key v ∧ K.rejection v = some e) :
    call.Beside K.toStoreView s d result := by
  cases ended with
  | done later effect =>
    exact .answered later memory same fun key => K.tolerance.optionRel_trans (effect key) (agree key)
  | rejected later unchanged rejection =>
    obtain ⟨key, v, isSet, rejection⟩ := set _ rejection
    exact .rejected later isSet rejection unchanged
  | failed later unchanged threat => exact .failed later threat unchanged

theorem beside_remove (key : String) (valid : K.valid s) (agree : Agree K.like (K.contents s) d) :
    (remove key).Beside K.toStoreView s d ((Backend.run (remove key).program).run s) := by
  have ended := K.answer (.remove key) valid trivial
  rw [← Backend.run_perform] at ended
  refine K.beside_of_ended ended (runOn_remove key d) rfl (fun k => ?_) fun _ h => h.elim
  exact agree.on.erase (P := fun _ => True) key k trivial

theorem beside_removeAll (keys : List String) (valid : K.valid s)
    (agree : Agree K.like (K.contents s) d) :
    (removeAll keys).Beside K.toStoreView s d ((Backend.run (removeAll keys).program).run s) := by
  have ended := K.answer (.removeAll keys) valid trivial
  rw [← Backend.run_perform] at ended
  refine K.beside_of_ended ended (runOn_removeAll keys d) rfl (fun k => ?_) fun _ h => h.elim
  exact agree.on.eraseAll (P := fun _ => True) (fun _ _ => Iff.rfl) k trivial

theorem beside_set (key : String) (v : Document) (suits : (set key v).Suits K.toStoreView)
    (valid : K.valid s) (agree : Agree K.like (K.contents s) d) :
    (set key v).Beside K.toStoreView s d ((Backend.run (set key v).program).run s) := by
  have scalar (h : v.isScalar = true) :
      (set key v).Beside K.toStoreView s d ((Backend.run (set key v).program).run s) := by
    have ended := K.answer (.put key v) valid (suits key v rfl h)
    rw [← Backend.run_perform, ← set_of_isScalar h] at ended
    refine K.beside_of_ended ended (runOn_set h key d) rfl (fun k => ?_) fun e rejection => ?_
    · exact agree.on.put (P := fun _ => True) key (K.tolerance.equivalence.refl v) k trivial
    · exact ⟨key, v, rfl, rejection⟩
  have unsupported (h : Store.set key v = throw (.unsupportedValue key v.kind)) :
      (set key v).Beside K.toStoreView s d ((Backend.run (set key v).program).run s) := by
    change (set key v).Beside K.toStoreView s d ((Backend.run (Store.set key v)).run s)
    rw [h]
    refine .raised (K.later_refl valid) ?_ rfl
    change runOn (Store.set key v) d = _
    rw [h]
    rfl
  cases v with
  | null =>
    have ended := K.answer (.remove key) valid trivial
    rw [← Backend.run_perform] at ended
    refine K.beside_of_ended ended (runOn_remove key d) rfl (fun k => ?_) fun _ h => h.elim
    exact agree.on.erase (P := fun _ => True) key k trivial
  | text _ | bool _ | int _ | float _ => exact scalar rfl
  | _ => exact unsupported rfl

/-- A call on a backend that can be relied on ends beside the same call in memory. -/
theorem beside (call : StoreCall) (suits : call.Suits K.toStoreView) (valid : K.valid s)
    (agree : Agree K.like (K.contents s) d) :
    call.Beside K.toStoreView s d ((Backend.run call.program).run s) := by
  cases call with
  | get key => exact K.beside_get key valid agree
  | text key => exact K.beside_text key valid agree
  | number key => exact K.beside_number key valid agree
  | double key => exact K.beside_double key valid agree
  | contains key => exact K.beside_contains key valid agree
  | set key v => exact K.beside_set key v suits valid agree
  | remove key => exact K.beside_remove key valid agree
  | removeAll keys => exact K.beside_removeAll keys valid agree

end Keeper

/-! ## Handles -/

/-- A suite in a file and its handles. They keep nothing of what the file holds; `depths` says how
many sections each one is in. -/
structure SharedSuite where
  file : Disturbed SuiteFile
  depths : Nat → Nat := fun _ => 0

namespace SharedSuite
open PropertyList

variable {Like : Document → Document → Prop} {P : Float → Prop} {s : SharedSuite} {d : Contents}

def contents (s : SharedSuite) : Contents :=
  s.file.store.contents

/-- The file as a handle finds it. -/
def lent (s : SharedSuite) (i : Nat) : Disturbed SuiteFile :=
  { s.file with store := { s.file.store with depth := s.depths i } }

def call (s : SharedSuite) (i : Nat) (c : StoreCall) : Except Failure c.Result × SharedSuite :=
  let (result, file) := (Backend.run c.program).run (s.lent i)
  (result, { file, depths := Function.update s.depths i file.store.depth })

/-- How a suite with its handles is seen. The failures that may come are the planned ones. -/
def view (Like : Document → Document → Prop) (P : Float → Prop) : StoreView SharedSuite where
  contents := contents
  valid s := s.file.store.Kept P
  threat s f := ∃ n, s.file.uses ≤ n ∧ s.file.faults n = some f
  like := Like
  suits := Storable P
  rejection := rejection

/-- Contents in memory that are given a call where it is answered. -/
def beside (d : Contents) (c : StoreCall) : Except Failure c.Result → Contents
  | .ok _ => (runOn c.program d).2
  | .error _ => d

/-- A run of calls through handles beside contents in memory, which are given the calls that are
answered: at every point the contents agree, and every call ends as it does in memory. -/
def Refines (Like : Document → Document → Prop) (P : Float → Prop) :
    SharedSuite → Contents → List (Nat × StoreCall) → Prop
  | s, d, [] => Agree Like s.contents d
  | s, d, (i, c) :: calls =>
    Agree Like s.contents d ∧ c.Beside (view Like P) s d (s.call i c) ∧
      Refines Like P (s.call i c).2 (beside d c (s.call i c).1) calls

/-- A call through a handle ends beside the same call in memory. -/
theorem call_beside (rule : ZeroRule Like P) (kept : s.file.store.Kept P) {c : StoreCall}
    (suits : c.Suits (view Like P)) (agree : Agree Like s.contents d) (i : Nat) :
    c.Beside (view Like P) s d (s.call i c) := by
  have lock : s.file.store.LockOnly (s.lent i).store := ⟨s.file.store.hasLock, s.depths i, rfl⟩
  obtain ⟨valid, same⟩ := lock.kept kept
  have ended := (Disturbed.keeper (SuiteFile.keeper rule)).beside (s := s.lent i) (d := d) c suits valid
    (agree.replace same)
  have later {f : Disturbed SuiteFile} {depths : Nat → Nat}
      (h : (Disturbed.keeper (SuiteFile.keeper rule)).Later (s.lent i) f) :
      (view Like P).Later s ⟨f, depths⟩ :=
    ⟨h.1, fun e planned => (h.2 e (.inr planned)).resolve_left id⟩
  unfold call
  generalize (Backend.run c.program).run (s.lent i) = r at ended
  cases ended with
  | answered l memory result contents => exact .answered (later l) memory result contents
  | raised l memory unchanged => exact .raised (later l) memory (unchanged.trans same)
  | rejected l isSet rejection unchanged =>
    exact .rejected (later l) isSet rejection (unchanged.trans same)
  | failed l threat unchanged =>
    exact .failed (later l) (threat.resolve_left id) (unchanged.trans same)

/-- After a call the contents agree again. -/
theorem agree_beside {c : StoreCall} {i : Nat}
    (agree : Agree Like s.contents d) (h : c.Beside (view Like P) s d (s.call i c)) :
    Agree Like (s.call i c).2.contents (beside d c (s.call i c).1) := by
  generalize s.call i c = r at h
  cases h with
  | answered _ memory _ contents =>
    change Agree Like _ (runOn c.program d).2
    rw [memory]
    exact contents
  | raised _ _ same => exact agree.replace same
  | rejected _ _ _ same => exact agree.replace same
  | failed _ _ same => exact agree.replace same

theorem refines (rule : ZeroRule Like P) (calls : List (Nat × StoreCall)) (kept : s.file.store.Kept P)
    (suits : ∀ p ∈ calls, p.2.Suits (view Like P)) (agree : Agree Like s.contents d) :
    Refines Like P s d calls := by
  induction calls generalizing s d with
  | nil => exact agree
  | cons p calls ih =>
    obtain ⟨i, c⟩ := p
    have ended := call_beside rule kept (suits (i, c) List.mem_cons_self) agree i
    refine ⟨agree, ended, ih ended.later.1 ?_ (agree_beside agree ended)⟩
    exact fun p mem => suits p (List.mem_cons_of_mem _ mem)

/-- No double in the suite, and none that is written, is the negative zero. -/
structure NoNegativeZero (s : SharedSuite) (calls : List (Nat × StoreCall)) : Prop where
  held : ∀ key, s.contents.get? key ≠ some (.float (-0.0))
  written : ∀ i key, (i, StoreCall.set key (.float (-0.0))) ∉ calls

/-- A suite in a file answers every run of calls, through whichever handles they come, as a store in
memory does that holds the same at the beginning: with results and contents that are equal as data,
and with the very same ones where there is only one zero. -/
theorem suite_refines_memory {s : SharedSuite} (kept : s.file.store.Kept fun _ => True)
    (calls : List (Nat × StoreCall)) :
    Refines Document.Alike (fun _ => True) s s.contents calls ∧
      (NoNegativeZero s calls → Refines Eq (fun x => x ≠ -0.0) s s.contents calls) := by
  constructor
  · refine refines zeroRule_alike calls kept ?_ fun _ => optionRel_refl .same _
    exact fun p _ key v _ scalar => ⟨scalar, fun _ _ => trivial⟩
  · intro one
    have kept' : s.file.store.Kept fun x => x ≠ -0.0 := by
      refine ⟨kept.reachable, kept.readable, fun {key v} there => ?_⟩
      obtain ⟨⟨scalar, -⟩, fits⟩ := kept.fitting there
      refine ⟨⟨scalar, ?_⟩, fits⟩
      rintro x rfl rfl
      exact one.held key there
    refine refines zeroRule_eq calls kept' ?_ fun _ => optionRel_refl Eq.refl _
    rintro ⟨i, c⟩ mem key v rfl scalar
    refine ⟨scalar, ?_⟩
    rintro x rfl rfl
    exact one.written i key mem

/-- A suite that is not there yet, whose fifth use fails. -/
def unsteadySuite : SharedSuite where
  file := { store := { directory := "/groups", name := "timer.plist" }
            faults := fun n => if n = 4 then some (.injected .writing) else none }

/-- Two handles: the second one reads what the first one writes, and one write meets the failure,
another one an integer that does not fit. -/
def crossedCalls : List (Nat × StoreCall) :=
  [(0, .set "minutes" (.int 5)), (1, .number "minutes"), (1, .set "minutes" (.bool true)),
    (0, .set "huge" (.int 0x10000000000000000)), (0, .removeAll ["minutes", "absent"]),
    (1, .contains "minutes")]

theorem suite_refines_memory_crossed :
    Refines Document.Alike (fun _ => True) unsteadySuite unsteadySuite.contents crossedCalls ∧
      Refines Eq (fun x => x ≠ -0.0) unsteadySuite unsteadySuite.contents crossedCalls := by
  have reachable : unsteadySuite.file.store.Reachable :=
    ⟨by decide +kernel, by decide +kernel, rfl, rfl⟩
  have kept : unsteadySuite.file.store.Kept fun _ => True := reachable.kept_missing rfl
  have nothing : unsteadySuite.contents = {} := by
    unfold contents SuiteFile.contents
    rw [reachable.read_missing rfl]
    rfl
  have result := suite_refines_memory kept crossedCalls
  refine ⟨result.1, result.2 ⟨?_, ?_⟩⟩
  · intro key there
    rw [nothing] at there
    cases there
  · intro i key mem
    simp [crossedCalls] at mem

end SharedSuite

end ShortcutRelay
