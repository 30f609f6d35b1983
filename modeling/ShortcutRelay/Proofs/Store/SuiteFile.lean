import ShortcutRelay.Proofs.Store.Keeper
import ShortcutRelay.Proofs.Text.Utf8
import ShortcutRelay.Store.SuiteFile

/-!
# What a suite in a file keeps

A property list gives back the scalars that were written to it, except that it stores equal scalars
once and so may give back another zero.

* `PropertyList.ZeroRule` : how zeros may be replaced: by each other, or not at all where only one
  of them is written;
* `PropertyList.saved_cases` : what is read back of a dictionary of scalars, or which integer does
  not fit;
* `SuiteFile.Reachable` : nothing is in the way of the file;
* `SuiteFile.keeper` : a suite within reach keeps scalars.
-/

namespace ShortcutRelay

namespace PropertyList

variable {Like : Document → Document → Prop} {P : Float → Prop} {v w : Document}

/-- Zeros among the doubles with a property may be replaced by each other. -/
structure ZeroRule (Like : Document → Document → Prop) (P : Float → Prop) : Prop where
  tolerance : Tolerance Like
  zeros : ∀ {x y}, P x → P y → (x == 0.0) = true → (y == 0.0) = true →
    Like (.float x) (.float y)

theorem zeroRule_alike : ZeroRule Document.Alike fun _ => True :=
  ⟨tolerance_alike, fun _ _ => .zeros⟩

/-- Where there are no negative zeros, nothing is replaced. -/
theorem zeroRule_eq : ZeroRule Eq fun x => x ≠ -0.0 where
  tolerance := tolerance_eq
  zeros := by
    intro x y hx hy zeroX zeroY
    obtain rfl := (Decimal.zero_cases zeroX).resolve_right hx
    obtain rfl := (Decimal.zero_cases zeroY).resolve_right hy
    rfl

def Storable (P : Float → Prop) (v : Document) : Prop :=
  v.isScalar = true ∧ ∀ x, v = .float x → P x

/-- The failure to write an integer that does not fit. -/
def rejection : Document → Option Failure
  | .int n => if fitsInteger n then none else some (.integerRange n)
  | _ => none

theorem rejection_eq (h : v.Alike w) : rejection v = rejection w := by
  cases h <;> rfl

/-- The value that is read back of one that was written. -/
structure SavedAs (Like : Document → Document → Prop) (P : Float → Prop) (v w : Document) : Prop where
  like : Like w v
  storable : Storable P w
  fits : rejection w = none

/-- The zero that was met before, if any, is a zero that may stand for the others. -/
def IsZeroOf (P : Float → Prop) (zero : Option Float) : Prop :=
  ∀ z, zero = some z → P z ∧ (z == 0.0) = true

/-! ## What is read back -/

theorem savedFloat_cases (rule : ZeroRule Like P) {x : Float} (hx : P x) {zero : Option Float}
    (known : IsZeroOf P zero) : ∃ y zero', (savedFloat x).run zero = .ok (y, zero') ∧
      Like (.float y) (.float x) ∧ P y ∧ IsZeroOf P zero' := by
  have refl := rule.tolerance.equivalence.refl
  unfold savedFloat
  by_cases isZero : (x == 0.0) = true
  · rw [if_pos isZero]
    cases zero with
    | none =>
      refine ⟨x, some x, rfl, refl _, hx, ?_⟩
      rintro _ ⟨⟩
      exact ⟨hx, isZero⟩
    | some z =>
      obtain ⟨hz, zeroZ⟩ := known z rfl
      exact ⟨z, some z, rfl, rule.zeros hz hx zeroZ isZero, hz, known⟩
  · rw [if_neg isZero]
    exact ⟨x, zero, rfl, refl _, hx, known⟩

/-- A scalar is read back as a like one, unless it is an integer that does not fit. -/
theorem savedValue_cases (rule : ZeroRule Like P) (storable : Storable P v) {zero : Option Float}
    (known : IsZeroOf P zero) :
    (∃ w zero', (savedValue (sortedValue v)).run zero = .ok (w, zero') ∧ SavedAs Like P v w ∧
      IsZeroOf P zero') ∨
    ∃ n, (savedValue (sortedValue v)).run zero = .error n ∧ v = .int n ∧ fitsInteger n = false := by
  have refl := rule.tolerance.equivalence.refl
  obtain ⟨scalar, double⟩ := storable
  cases v with
  | text s => exact .inl ⟨.text s, zero, rfl, ⟨refl _, ⟨rfl, nofun⟩, rfl⟩, known⟩
  | bool b => exact .inl ⟨.bool b, zero, rfl, ⟨refl _, ⟨rfl, nofun⟩, rfl⟩, known⟩
  | int n =>
    cases fits : fitsInteger n with
    | true =>
      refine .inl ⟨.int n, zero, ?_, ⟨refl _, ⟨rfl, nofun⟩, ?_⟩, known⟩
      · simp only [sortedValue, savedValue, fits, if_true]
        rfl
      · exact if_pos fits
    | false =>
      refine .inr ⟨n, ?_, rfl, fits⟩
      simp only [sortedValue, savedValue, fits]
      rfl
  | float x =>
    obtain ⟨y, zero', saved, like, hy, known'⟩ := savedFloat_cases rule (double x rfl) known
    refine .inl ⟨.float y, zero', ?_, ⟨like, ⟨rfl, ?_⟩, rfl⟩, known'⟩
    · simp only [sortedValue, savedValue, StateT.run_bind, saved]
      rfl
    · rintro _ ⟨⟩
      exact hy
  | _ => cases scalar

theorem savedEntries_cases (rule : ZeroRule Like P) {es : List (String × Document)}
    (storable : ∀ e ∈ es, Storable P e.2) {zero : Option Float} (known : IsZeroOf P zero) :
    (∃ fs zero', (savedEntries es).run zero = .ok (fs, zero') ∧
      List.Forall₂ (fun e f => e.1 = f.1 ∧ SavedAs Like P e.2 f.2) es fs) ∨
    ∃ n key, (savedEntries es).run zero = .error n ∧ (key, .int n) ∈ es ∧ fitsInteger n = false := by
  induction es generalizing zero with
  | nil => exact .inl ⟨[], zero, rfl, .nil⟩
  | cons e es ih =>
    obtain ⟨key, v⟩ := e
    unfold savedEntries
    rw [StateT.run_bind]
    rcases savedValue_cases rule (storable _ List.mem_cons_self) known with
      ⟨w, zero', saved, here, known'⟩ | ⟨n, failed, rfl, tooLarge⟩
    · rw [saved]
      rcases ih (fun e mem => storable e (List.mem_cons_of_mem _ mem)) known' with
        ⟨fs, last, rest, behind⟩ | ⟨n, k, failed, mem, tooLarge⟩
      · refine .inl ⟨(key, w) :: fs, last, ?_, .cons ⟨rfl, here⟩ behind⟩
        change ((savedEntries es).run zero' >>= fun p => pure ((key, w) :: p.1, p.2)) = _
        rw [rest]
        rfl
      · refine .inr ⟨n, k, ?_, List.mem_cons_of_mem _ mem, tooLarge⟩
        change ((savedEntries es).run zero' >>= fun p => pure ((key, w) :: p.1, p.2)) = _
        rw [failed]
        rfl
    · refine .inr ⟨n, key, ?_, List.mem_cons_self, tooLarge⟩
      rw [failed]
      rfl

/-! ## Look-ups -/

theorem valueAt?_forall₂ {R : Document → Document → Prop} {es fs : List (String × Document)}
    (h : List.Forall₂ (fun e f => e.1 = f.1 ∧ R e.2 f.2) es fs) (key : String) :
    Option.Rel R (valueAt? key es) (valueAt? key fs) := by
  induction h with
  | nil => exact .none
  | @cons e f es fs head _ ih =>
    obtain ⟨k, v⟩ := e
    obtain ⟨l, w⟩ := f
    obtain ⟨rfl, related⟩ := head
    unfold valueAt?
    split
    · exact .some related
    · exact ih

theorem entryKeys_forall₂ {R : Document → Document → Prop} {es fs : List (String × Document)}
    (h : List.Forall₂ (fun e f => e.1 = f.1 ∧ R e.2 f.2) es fs) : entryKeys es = entryKeys fs := by
  induction h with
  | nil => rfl
  | cons head _ ih => rw [entryKeys_cons, entryKeys_cons, head.1, ih]

theorem entryKeys_sortEntries_nodup {es : List (String × Document)} (h : (entryKeys es).Nodup) :
    (entryKeys (sortEntries es)).Nodup :=
  ((List.mergeSort_perm es _).map Prod.fst).nodup_iff.mpr h

/-- Sorting leaves the values of keys as they are. -/
theorem valueAt?_sortEntries {es : List (String × Document)} (distinct : (entryKeys es).Nodup)
    (key : String) : valueAt? key (sortEntries es) = valueAt? key es := by
  apply Option.ext
  intro v
  rw [valueAt?_eq_some_iff (entryKeys_sortEntries_nodup distinct), valueAt?_eq_some_iff distinct]
  exact (List.mergeSort_perm es _).mem_iff

/-- A dictionary of scalars is read back with like values, unless an integer in it does not fit. -/
theorem saved_cases (rule : ZeroRule Like P) {c : Contents}
    (storable : ∀ key v, c.get? key = some v → Storable P v) :
    (∃ d, saved c = .ok d ∧ Agree Like d c ∧
      ∀ key v, d.get? key = some v → Storable P v ∧ rejection v = none) ∨
    ∃ n key, saved c = .error n ∧ c.get? key = some (.int n) ∧ fitsInteger n = false := by
  have sorted : ∀ e ∈ sortEntries c.toList, c.get? e.1 = some e.2 := by
    intro e mem
    exact (c.get?_eq_some_iff ..).mpr ((List.mergeSort_perm c.toList _).mem_iff.mp mem)
  have start : IsZeroOf P none := nofun
  unfold saved
  rcases savedEntries_cases rule (fun e mem => storable _ _ (sorted e mem)) start with
    ⟨fs, zero, read, all⟩ | ⟨n, key, failed, mem, tooLarge⟩
  · left
    have distinct : (entryKeys fs).Nodup :=
      entryKeys_forall₂ all ▸ entryKeys_sortEntries_nodup c.nodup
    have found (key : String) :
        Option.Rel (SavedAs Like P) (c.get? key) ((OrderedMap.ofList fs).get? key) := by
      have here := valueAt?_forall₂ all key
      rw [valueAt?_sortEntries c.nodup] at here
      rw [OrderedMap.get?_ofList distinct]
      exact here
    refine ⟨OrderedMap.ofList fs, ?_, ?_, ?_⟩
    · rw [read]
      rfl
    · intro key
      have here := found key
      generalize c.get? key = v at here ⊢
      generalize (OrderedMap.ofList fs).get? key = w at here ⊢
      cases here with
      | some saved => exact .some saved.like
      | none => exact .none
    · intro key w there
      have here := found key
      rw [there] at here
      generalize c.get? key = v at here
      cases here with
      | some saved => exact ⟨saved.storable, saved.fits⟩
  · refine .inr ⟨n, key, ?_, sorted _ mem, tooLarge⟩
    rw [failed]
    rfl

end PropertyList

/-! ## Suites -/

namespace SuiteFile
open PropertyList

variable {Like : Document → Document → Prop} {P : Float → Prop} {f : SuiteFile}

/-- Nothing is in the way of the file. -/
structure Reachable (f : SuiteFile) : Prop where
  noNull : hasNull f.name = false
  short : isTooLong f.name draftExtra = false
  near : f.moved = false
  group : f.checkGroup = .ok ()

def contents (f : SuiteFile) : Contents :=
  f.read.toOption.getD .empty

/-- The file is within reach and holds scalars that fit, if it is there. -/
structure Kept (P : Float → Prop) (f : SuiteFile) : Prop where
  reachable : f.Reachable
  readable : f.read = .ok f.contents
  fitting : ∀ {key v}, f.contents.get? key = some v → Storable P v ∧ rejection v = none

theorem isTooLong_of_le {name : String} {m n : Nat} (h : isTooLong name n = false) (less : m ≤ n) :
    isTooLong name m = false := by
  unfold isTooLong at h ⊢
  simp only [decide_eq_false_iff_not] at h ⊢
  omega

theorem Reachable.lock_short (h : f.Reachable) : isTooLong f.lockName 0 = false := by
  have short := h.short
  unfold isTooLong lockName at *
  simp only [decide_eq_false_iff_not] at short ⊢
  have point : (Text.encodeUtf8 ".").length = 1 := by decide +kernel
  have ending : (Text.encodeUtf8 ".lock").length = 5 := by decide +kernel
  rw [Text.length_encodeUtf8_append, Text.length_encodeUtf8_append, point, ending]
  change ¬ nameLimit < _ + 10 at short
  omega

theorem Reachable.read_missing (h : f.Reachable) (missing : f.content = .missing) :
    f.read = .ok (.ofList []) := by
  unfold read
  simp [h.noNull, h.near, isTooLong_of_le h.short (Nat.zero_le _), missing]

/-- A file that is not there yet holds nothing. -/
theorem Reachable.kept_missing (h : f.Reachable) (missing : f.content = .missing) : f.Kept P := by
  have read := h.read_missing missing
  have nothing : f.contents = {} := by
    unfold contents
    rw [read]
    rfl
  refine ⟨h, ?_, fun {key v} there => ?_⟩
  · rw [nothing, read]
    rfl
  · rw [nothing] at there
    cases there

theorem textEntries_fields (es : List (String × Document)) :
    textEntries (es.map fun (k, v) => (.text k, v)) = es := by
  induction es with
  | nil => rfl
  | cons e es ih =>
    rw [List.map_cons, textEntries, ih]

/-- What was written is read. -/
theorem Reachable.read_written (h : f.Reachable) (c : Contents) :
    read { f with content := .list (.ofFields c.toList) } = .ok c := by
  unfold read Document.ofFields
  simp only [h.noNull, h.near, isTooLong_of_le h.short (Nat.zero_le _), textEntries_fields,
    OrderedMap.ofList_toList]
  rfl

/-- Only the lock is different. -/
def LockOnly (f g : SuiteFile) : Prop :=
  ∃ hasLock depth, g = { f with hasLock, depth }

theorem LockOnly.kept {g : SuiteFile} (h : LockOnly f g) (kept : f.Kept P) :
    g.Kept P ∧ g.contents = f.contents := by
  obtain ⟨hasLock, depth, rfl⟩ := h
  have reachable := kept.reachable
  exact ⟨⟨⟨reachable.noNull, reachable.short, reachable.near, reachable.group⟩, kept.readable,
    kept.fitting⟩, rfl⟩

theorem Reachable.lock_ok (h : f.Reachable) : ∃ g, f.lock = .ok g ∧ LockOnly f g := by
  have named : ¬ hasNull f.name = true := Bool.eq_false_iff.mp h.noNull
  have unhindered : ¬ (f.moved || isTooLong f.lockName 0) = true := by
    rw [h.near, h.lock_short]
    exact Bool.false_ne_true
  unfold lock
  by_cases inside : 0 < f.depth
  · rw [if_pos inside]
    exact ⟨_, rfl, f.hasLock, f.depth + 1, rfl⟩
  · rw [if_neg inside, if_neg named, if_neg unhindered]
    exact ⟨_, rfl, true, 1, rfl⟩

theorem Kept.write_cases (rule : ZeroRule Like P) (kept : f.Kept P) {d : Contents}
    (storable : ∀ key v, d.get? key = some v → Storable P v) :
    (∃ g, f.write d = .ok g ∧ g.Kept P ∧ Agree Like g.contents d) ∨
    ∃ n key, f.write d = .error (.integerRange n) ∧ d.get? key = some (.int n) ∧
      fitsInteger n = false := by
  have reachable := kept.reachable
  have unhindered : ¬ (f.moved || isTooLong f.name draftExtra) = true := by
    rw [reachable.near, reachable.short]
    exact Bool.false_ne_true
  unfold write
  rw [if_neg unhindered]
  rcases saved_cases rule storable with ⟨c, saved, agree, fitting⟩ | ⟨n, key, failed, there, tooLarge⟩
  · left
    have read := reachable.read_written c
    have holds : contents { f with content := .list (.ofFields c.toList) } = c := by
      unfold contents
      rw [read]
      rfl
    refine ⟨{ f with content := .list (.ofFields c.toList) }, ?_, ⟨?_, ?_, ?_⟩, ?_⟩
    · rw [saved]
      rfl
    · exact ⟨reachable.noNull, reachable.short, reachable.near, reachable.group⟩
    · rw [holds]
      exact read
    · rw [holds]
      exact fitting _ _
    · rw [holds]
      exact agree
  · right
    refine ⟨n, key, ?_, there, tooLarge⟩
    rw [failed]
    rfl

/-- How a suite in a file is seen. -/
def view (Like : Document → Document → Prop) (P : Float → Prop) : StoreView SuiteFile where
  contents := contents
  valid := Kept P
  threat _ _ := False
  like := Like
  suits := Storable P
  rejection := rejection

theorem Kept.passed {α : Type} {a : α} {g : SuiteFile} (kept : f.Kept P) (lock : LockOnly f g) :
    (view Like P).Passed f a (.ok a, g) :=
  .done ⟨(lock.kept kept).1, fun _ h => h⟩ (lock.kept kept).2

/-- A suite within reach keeps scalars, up to the zeros that may be replaced. -/
def keeper (rule : ZeroRule Like P) : Keeper SuiteFile where
  toStoreView := view Like P
  tolerance := rule.tolerance
  rejection_eq like := rejection_eq (rule.tolerance.alike like)
  fitting valid := Kept.fitting valid
  obtain := by
    intro f kept
    change (view Like P).Passed f () ((do MonadExcept.ofExcept (← get).checkGroup :
      BackendM SuiteFile Unit).run f)
    rw [Fallible.run_bind_ok (Fallible.run_get f), kept.reachable.group]
    exact kept.passed ⟨f.hasLock, f.depth, rfl⟩
  load := by
    intro f kept
    change (view Like P).Passed f f.contents ((do MonadExcept.ofExcept (← get).read :
      BackendM SuiteFile Contents).run f)
    rw [Fallible.run_bind_ok (Fallible.run_get f), kept.readable]
    exact kept.passed ⟨f.hasLock, f.depth, rfl⟩
  enter := by
    intro f kept
    obtain ⟨g, locked, lock⟩ := kept.reachable.lock_ok
    change (view Like P).Passed f () ((do set (← MonadExcept.ofExcept (← get).lock) :
      BackendM SuiteFile Unit).run f)
    rw [Fallible.run_bind_ok (Fallible.run_get f), locked]
    exact kept.passed lock
  textRead kept _ := kept.passed ⟨_, _, rfl⟩
  leave := by
    rintro f _ kept ⟨⟩
    have unlocked : LockOnly f { f with depth := f.depth - 1 } := ⟨f.hasLock, f.depth - 1, rfl⟩
    exact ⟨⟨(unlocked.kept kept).1, fun _ h => h⟩, (unlocked.kept kept).2⟩
  save := by
    intro f d kept storable
    change (view Like P).Ended f _ () _ ((do set (← MonadExcept.ofExcept ((← get).write d)) :
      BackendM SuiteFile Unit).run f)
    rw [Fallible.run_bind_ok (Fallible.run_get f)]
    rcases kept.write_cases rule storable with ⟨g, written, kept', agree⟩ | ⟨n, key, failed, there, tooLarge⟩
    · rw [written]
      exact .done ⟨kept', fun _ h => h⟩ agree
    · rw [failed]
      refine .rejected ⟨kept, fun _ h => h⟩ rfl ⟨key, .int n, there, ?_⟩
      change (if fitsInteger n = true then none else some (Failure.integerRange n)) = _
      rw [if_neg (Bool.eq_false_iff.mp tooLarge)]

theorem keeper_healthy (rule : ZeroRule Like P) : (keeper rule).Healthy :=
  fun _ _ _ => id

theorem keeper_takesScalars (rule : ZeroRule Like fun _ => True) : (keeper rule).TakesScalars :=
  fun _ scalar => ⟨scalar, fun _ _ => trivial⟩

end SuiteFile

end ShortcutRelay
