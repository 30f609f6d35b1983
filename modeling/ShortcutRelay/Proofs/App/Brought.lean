import ShortcutRelay.Proofs.App.State
import ShortcutRelay.Proofs.Protocol.Parameter
import ShortcutRelay.Proofs.Store.SuiteFile

/-!
# Mappings brought into the store

The values of a mapping are brought into the store one by one. A value that has no JSON form is passed
over; a number that does not fit a double ends the call, and the values behind it are not written.

* `Keeper.Sound` : a store without failures that has room for doubles and texts;
* `Encodes` : the entry that a value stands for;
* `shareAll` : contents after values were treated in order, `get?_shareAll`;
* `run_writeStates` : how far the values come;
* `updateState_brings` : what becomes of every entry, `number_blocks_others` : of one behind a number
  that does not fit.
-/

namespace ShortcutRelay
open Protocol App

variable {σ κ : Type}

/-- No failure can come, scalars suit the store, and it has room for all of them except for whole
numbers. -/
structure Keeper.Sound [Backend σ] (K : Keeper σ) : Prop where
  healthy : K.Healthy
  takes : K.TakesScalars
  room : ∀ {v : Document}, v.isScalar = true → (∀ n, v ≠ .int n) → K.rejection v = none

theorem MemoryStore.keeper_sound : MemoryStore.keeper.Sound :=
  ⟨MemoryStore.keeper_healthy, fun _ _ => trivial, fun _ _ => rfl⟩

theorem SuiteFile.keeper_sound {Like : Document → Document → Prop}
    (rule : PropertyList.ZeroRule Like fun _ => True) : (SuiteFile.keeper rule).Sound where
  healthy := SuiteFile.keeper_healthy rule
  takes := SuiteFile.keeper_takesScalars rule
  room := by
    intro v scalar other
    cases v with
    | int n => exact absurd rfl (other n)
    | text _ | bool _ | float _ => rfl
    | _ => cases scalar

/-! ## Encodings -/

/-- The entry that a value of the state stands for: truth values and numbers are kept as doubles,
texts as they are, null as no entry, and anything else as the text of its JSON form. -/
inductive Encodes : Document → Option Document → Prop
  | truth (b : Bool) : Encodes (.bool b) (some (.float (if b then 1.0 else 0.0)))
  | whole {n : Int} {x : Float} (fits : Decimal.ofInteger? n = some x) :
      Encodes (.int n) (some (.float x))
  | double (x : Float) : Encodes (.float x) (some (.float x))
  | text (s : String) : Encodes (.text s) (some (.text s))
  | nothing : Encodes .null none
  | json {value : Document} {j : Json} (composed : value.isScalar = false) (present : value ≠ .null)
      (form : value.toJson = .ok j) : Encodes value (some (.text (Json.inlineAscii j)))

namespace Sharing

def entry : Sharing → Option (Option Document)
  | put v => some (some v)
  | remove => some none
  | leave _ | refuse _ => none

theorem of_int (n : Int) : of (.int n) =
    match Decimal.ofInteger? n with
    | some x => put (.float x)
    | none => refuse .tooLarge := by
  unfold of
  simp only [Document.toFloat, floatOfInt]
  cases Decimal.ofInteger? n <;> rfl

theorem of_composed {value : Document} (composed : value.isScalar = false) (present : value ≠ .null) :
    of value = match value.toJson with
      | .ok j => put (.text (Json.inlineAscii j))
      | .error cause => leave cause := by
  cases value with
  | null => exact absurd rfl present
  | bool _ | int _ | float _ | text _ => cases composed
  | _ => rfl

theorem entry_of_encodes {value : Document} {entry : Option Document} (h : Encodes value entry) :
    (of value).entry = some entry := by
  cases h with
  | whole fits =>
    rw [of_int, fits]
    rfl
  | json composed present form =>
    rw [of_composed composed present, form]
    rfl
  | _ => rfl

theorem encodes_of_entry {value : Document} {entry : Option Document}
    (h : (of value).entry = some entry) : Encodes value entry := by
  have number {n : Int} (h : (of (.int n)).entry = some entry) : Encodes (.int n) entry := by
    rw [of_int] at h
    cases fits : Decimal.ofInteger? n with
    | none =>
      rw [fits] at h
      cases h
    | some x =>
      rw [fits] at h
      cases h
      exact .whole fits
  have composed (composed : value.isScalar = false) (present : value ≠ .null) :
      Encodes value entry := by
    rw [of_composed composed present] at h
    cases form : value.toJson with
    | error cause =>
      rw [form] at h
      cases h
    | ok j =>
      rw [form] at h
      cases h
      exact .json composed present form
  cases value with
  | int n => exact number h
  | bool b =>
    cases h
    exact .truth b
  | float x =>
    cases h
    exact .double x
  | text s =>
    cases h
    exact .text s
  | null =>
    cases h
    exact .nothing
  | _ => exact composed rfl (by rintro ⟨⟩)

/-- A value leaves the entry that it stands for. -/
theorem entry_of_iff {value : Document} {entry : Option Document} :
    (of value).entry = some entry ↔ Encodes value entry :=
  ⟨encodes_of_entry, entry_of_encodes⟩

/-- Only a number that does not fit a double is refused. -/
theorem of_refuse_iff {value : Document} {cause : NumberError} :
    of value = refuse cause ↔ value.fitsDouble = false ∧ cause = .tooLarge := by
  have number (n : Int) : of (.int n) = refuse cause ↔
      (Decimal.ofInteger? n).isSome = false ∧ cause = .tooLarge := by
    rw [of_int]
    cases Decimal.ofInteger? n <;> simp [eq_comm]
  cases value with
  | int n => exact number n
  | bool _ | float _ | text _ | null => simp [of, Document.fitsDouble, Document.toFloat]
  | _ =>
    rw [of_composed rfl (by rintro ⟨⟩)]
    simp only [Document.fitsDouble]
    split <;> simp

theorem not_int_of_eq_put {value v : Document} (h : of value = put v) (n : Int) : v ≠ .int n := by
  rintro rfl
  have encoded : Encodes value (some (.int n)) := entry_of_iff.mp (by rw [h]; rfl)
  cases encoded

theorem get?_effect (sharing : Sharing) (key k : String) (c : Contents) :
    (sharing.effect key c).get? k =
      if k = stateEntry key then sharing.entry.getD (c.get? (stateEntry key)) else c.get? k := by
  cases sharing with
  | put v => exact OrderedMap.get?_put ..
  | remove => exact OrderedMap.get?_erase ..
  | leave _ | refuse _ =>
    change c.get? k = if k = stateEntry key then c.get? (stateEntry key) else c.get? k
    split
    · next same => rw [same]
    · rfl

end Sharing

/-! ## All values of a mapping -/

def shareAll (c : Contents) (es : List (String × Document)) : Contents :=
  es.foldl (fun c e => (Sharing.of e.2).effect e.1 c) c

/-- The entries of other keys stay as they are. -/
theorem get?_shareAll_of_notMem {es : List (String × Document)} {k : String}
    (other : ∀ e ∈ es, k ≠ stateEntry e.1) (c : Contents) : (shareAll c es).get? k = c.get? k := by
  induction es generalizing c with
  | nil => rfl
  | cons e es ih =>
    have here : k ≠ stateEntry e.1 := other e List.mem_cons_self
    refine (ih (fun e mem => other e (List.mem_cons_of_mem _ mem)) _).trans ?_
    rw [Sharing.get?_effect, if_neg here]

/-- Every value has its own entry, so that none depends on those before or behind it. -/
theorem get?_shareAll {es : List (String × Document)} (distinct : (entryKeys es).Nodup) (c : Contents)
    {key : String} {value : Document} (mem : (key, value) ∈ es) :
    (shareAll c es).get? (stateEntry key) = (Sharing.of value).entry.getD (c.get? (stateEntry key)) := by
  induction es generalizing c with
  | nil => cases mem
  | cons e es ih =>
    obtain ⟨notMem, distinct⟩ := List.nodup_cons.mp distinct
    rcases List.mem_cons.mp mem with rfl | mem
    · have other : ∀ e ∈ es, stateEntry key ≠ stateEntry e.1 := by
        intro e mem same
        have here : e.1 ∈ entryKeys es := List.mem_map_of_mem mem
        exact notMem (stateEntry_injective same ▸ here)
      refine (get?_shareAll_of_notMem other _).trans ?_
      rw [Sharing.get?_effect, if_pos rfl]
    · have different : stateEntry key ≠ stateEntry e.1 := by
        intro same
        have here : key ∈ entryKeys es := List.mem_map_of_mem mem
        exact notMem (stateEntry_injective same ▸ here)
      refine (ih distinct _ mem).trans ?_
      rw [Sharing.get?_effect, if_neg different]

/-- The values up to the first number that does not fit a double. -/
def reached (es : List (String × Document)) : List (String × Document) :=
  es.takeWhile fun e => e.2.fitsDouble

theorem reached_cons_of_fits {e : String × Document} (fits : e.2.fitsDouble = true)
    (es : List (String × Document)) : reached (e :: es) = e :: reached es :=
  List.takeWhile_cons_of_pos fits

theorem reached_cons_of_unfit {e : String × Document} (unfit : e.2.fitsDouble = false)
    (es : List (String × Document)) : reached (e :: es) = [] :=
  List.takeWhile_cons_of_neg (Bool.eq_false_iff.mp unfit)

theorem reached_sublist (es : List (String × Document)) : (reached es).Sublist es :=
  List.takeWhile_sublist _

theorem agree_effect {Like : Document → Document → Prop} (tolerance : Tolerance Like) {c d : Contents}
    (h : Agree Like c d) (key : String) (sharing : Sharing) :
    Agree Like (sharing.effect key c) (sharing.effect key d) := by
  intro k
  rw [Sharing.get?_effect, Sharing.get?_effect]
  split
  · cases sharing.entry with
    | some entry => exact optionRel_refl tolerance.equivalence.refl entry
    | none => exact h _
  · exact h k

theorem agree_shareAll {Like : Document → Document → Prop} (tolerance : Tolerance Like)
    (es : List (String × Document)) {c d : Contents} (h : Agree Like c d) :
    Agree Like (shareAll c es) (shareAll d es) := by
  induction es generalizing c d with
  | nil => exact h
  | cons e es ih => exact ih (agree_effect tolerance h e.1 _)

/-! ## Runs -/

variable [Backend σ] {K : Keeper σ} {w : World σ κ}

/-- A value that fits is brought into the store. -/
theorem bring_fits (sound : K.Sound) (valid : K.valid w.around) (key : String) {value : Document}
    (fits : value.fitsDouble = true) :
    ∃ v, (StateCall.bring key value).run w = (.ok (), v) ∧ K.valid v.around ∧ v.bridge = w.bridge ∧
      Agree K.like (K.contents v.around) ((Sharing.of value).effect key (K.contents w.around)) := by
  have written := Manager.written_writeState (K := K) (w := { w with manager := w.manager.withTracked key })
    valid sound.takes key value
  change Written K _ _ _ ((StateCall.bring key value : AppM σ κ Unit).run w) at written
  generalize (StateCall.bring key value : AppM σ κ Unit).run w = r at written ⊢
  cases written with
  | done used agree => exact ⟨_, rfl, used.later.1, used.bridge, agree⟩
  | @raised e v used same cause =>
    exfalso
    rcases cause with rejected | ⟨f, -, threat⟩
    · cases sharing : Sharing.of value with
      | put v =>
        rw [sharing] at rejected
        have room := sound.room (Sharing.isScalar_of_eq_put sharing) (Sharing.not_int_of_eq_put sharing)
        cases room.symm.trans rejected
      | refuse cause =>
        rw [(Sharing.of_refuse_iff.mp sharing).1] at fits
        cases fits
      | remove | leave _ =>
        rw [sharing] at rejected
        exact rejected
    · exact sound.healthy _ valid f threat

/-- A number that does not fit a double is not written, and the call fails. -/
theorem bring_tooLarge (sound : K.Sound) (valid : K.valid w.around) (key : String) {value : Document}
    (unfit : value.fitsDouble = false) :
    ∃ v, (StateCall.bring key value).run w = (.error (.number .tooLarge), v) ∧ K.valid v.around ∧
      v.bridge = w.bridge ∧ K.contents v.around = K.contents w.around := by
  have refused : Sharing.of value = .refuse .tooLarge := Sharing.of_refuse_iff.mpr ⟨unfit, rfl⟩
  obtain ⟨t, opened, valid', same⟩ := sound.healthy.run_obtain valid
  have shared : (StateCall.bring key value : AppM σ κ Unit).run w =
      (withStore (throw (.number .tooLarge))).run
        { w with manager := w.manager.withTracked key } := by
    change (Manager.writeState key value).run { w with manager := w.manager.withTracked key } = _
    rw [Manager.writeState_eq, refused, Sharing.perform]
  have thrown : (withStore (throw (.number .tooLarge)) : AppM σ κ Unit).run
      { w with manager := w.manager.withTracked key } =
      ((Backend.obtain >>= fun _ => Backend.run (throw (.number .tooLarge)) : BackendM σ Unit).run
          w.around).map id fun t =>
        { w with around := t, manager := w.manager.withTracked key } := by
    rw [withStore_eq]
    rfl
  rw [shared, thrown, Fallible.run_bind_ok opened]
  exact ⟨_, rfl, valid', rfl, same⟩

/-- Values are brought into the store in order. A number that does not fit a double ends the call. -/
theorem run_writeStates (sound : K.Sound) (es : List (String × Document)) (valid : K.valid w.around) :
    ∃ result v, (Manager.writeStates es).run w = (result, v) ∧
      (result = .ok () ∧ reached es = es ∨
        result = .error (.number .tooLarge) ∧ ∃ e ∈ es, e.2.fitsDouble = false) ∧
      K.valid v.around ∧ v.bridge = w.bridge ∧
      Agree K.like (K.contents v.around) (shareAll (K.contents w.around) (reached es)) := by
  induction es generalizing w with
  | nil => exact ⟨.ok (), w, rfl, .inl ⟨rfl, rfl⟩, valid, rfl, K.agree_refl _⟩
  | cons e es ih =>
    obtain ⟨key, value⟩ := e
    rw [run_writeStates_cons]
    cases fits : value.fitsDouble with
    | true =>
      obtain ⟨v, ran, valid', bridge, agree⟩ := bring_fits sound valid key fits
      obtain ⟨result, u, rest, outcome, valid'', bridge', agree'⟩ := ih valid'
      have all := agree_shareAll K.tolerance (reached es) agree
      refine ⟨result, u, ?_, ?_, valid'', bridge'.trans bridge, ?_⟩
      · rw [ran]
        exact rest
      · rw [reached_cons_of_fits fits]
        rcases outcome with ⟨rfl, whole⟩ | ⟨rfl, e, mem, unfit⟩
        · exact .inl ⟨rfl, congrArg _ whole⟩
        · exact .inr ⟨rfl, e, List.mem_cons_of_mem _ mem, unfit⟩
      · rw [reached_cons_of_fits fits]
        exact fun k => K.tolerance.optionRel_trans (agree' k) (all k)
    | false =>
      obtain ⟨v, ran, valid', bridge, same⟩ := bring_tooLarge sound valid key fits
      refine ⟨_, v, ?_, .inr ⟨rfl, _, List.mem_cons_self, fits⟩, valid', bridge, ?_⟩
      · rw [ran]
      · rw [reached_cons_of_unfit fits]
        exact K.agree_of_eq same

/-! ## The call -/

/-- What has become of the contents where some values were brought into them: the entry of a value is
the one that it stands for, or the one that was there where it stands for none. -/
structure Brought (Like : Document → Document → Prop) (es : List (String × Document))
    (before after : Contents) : Prop where
  encoded : ∀ key value entry, (key, value) ∈ es → Encodes value entry →
    Option.Rel Like (after.get? (stateEntry key)) entry
  unencoded : ∀ key value, (key, value) ∈ es → (∀ entry, ¬ Encodes value entry) →
    Option.Rel Like (after.get? (stateEntry key)) (before.get? (stateEntry key))
  others : ∀ k, (∀ e ∈ es, k ≠ stateEntry e.1) → Option.Rel Like (after.get? k) (before.get? k)

theorem brought_of_agree {Like : Document → Document → Prop} {es : List (String × Document)}
    (distinct : (entryKeys es).Nodup) {c d : Contents} (agree : Agree Like d (shareAll c es)) :
    Brought Like es c d where
  encoded := by
    intro key value entry mem encodes
    have here := agree (stateEntry key)
    rw [get?_shareAll distinct c mem, Sharing.entry_of_encodes encodes] at here
    exact here
  unencoded := by
    intro key value mem nothing
    have here := agree (stateEntry key)
    rw [get?_shareAll distinct c mem] at here
    cases entry : (Sharing.of value).entry with
    | none =>
      rw [entry] at here
      exact here
    | some e => exact absurd (Sharing.encodes_of_entry entry) (nothing e)
  others := by
    intro k other
    have here := agree k
    rw [get?_shareAll_of_notMem other] at here
    exact here

/-- A call for new state brings every value into the store up to the first number that does not fit a
double, each one independently of the others. Such a number ends the call with an error, and nothing
changes for its key and for those behind it. -/
theorem updateState_brings (sound : K.Sound) (valid : K.valid w.around)
    (bridged : w.bridge.isSome = true) (state : OrderedMap Document) :
    ∃ result v, (Manager.updateState state).run w = (result, v) ∧
      (result = .ok () ∧ reached state.toList = state.toList ∨
        result = .error (.number .tooLarge) ∧ ∃ e ∈ state.toList, e.2.fitsDouble = false) ∧
      K.valid v.around ∧
      Brought K.like (reached state.toList) (K.contents w.around) (K.contents v.around) := by
  obtain ⟨written, v, ran, outcome, valid', -, agree⟩ := run_writeStates sound state.toList valid
  have distinct : (entryKeys (reached state.toList)).Nodup :=
    state.nodup.sublist ((reached_sublist state.toList).map Prod.fst)
  have brought := brought_of_agree distinct agree
  rw [updateState_eq bridged, run_noting, ran]
  rcases outcome with ⟨rfl, whole⟩ | ⟨rfl, unfit⟩
  · exact ⟨.ok (), v, rfl, .inl ⟨rfl, whole⟩, valid', brought⟩
  · exact ⟨_, v, rfl, .inr ⟨rfl, unfit⟩, valid', brought⟩

/-! ## A number that does not fit -/

def bareWorld : World MemoryStore Empty where
  around := { contents := .empty }
  bridge := some {}

/-- State in which a value has no JSON form. -/
def unformedState : OrderedMap Document :=
  .ofList [("bad", .set []), ("paused", .bool true)]

theorem updateState_brings_unformed :
    ∃ result v, (Manager.updateState unformedState).run bareWorld = (result, v) ∧
      (result = .ok () ∧ reached unformedState.toList = unformedState.toList ∨
        result = .error (.number .tooLarge) ∧ ∃ e ∈ unformedState.toList, e.2.fitsDouble = false) ∧
      MemoryStore.keeper.valid v.around ∧
      Brought Eq (reached unformedState.toList) .empty v.around.contents :=
  updateState_brings MemoryStore.keeper_sound trivial rfl unformedState

/-- State in which a number fits no double. -/
def oversizedState : OrderedMap Document :=
  .ofList [("elapsed", .int (10 ^ 400)), ("paused", .bool true)]

/-- The number ends the call, and the truth value behind it is not written. -/
theorem number_blocks_others :
    ((Manager.updateState oversizedState).run bareWorld).1 = .error (.number .tooLarge) ∧
      ("paused", .bool true) ∈ oversizedState.toList ∧
      Encodes (.bool true) (some (.float 1.0)) ∧
      ((Manager.updateState oversizedState).run bareWorld).2.around.contents.get?
        (stateEntry "paused") = none := by
  have unfit : (Document.int (10 ^ 400)).fitsDouble = false := by decide +kernel
  obtain ⟨v, ran, -, -, same⟩ := bring_tooLarge (w := bareWorld) MemoryStore.keeper_sound trivial
    "elapsed" unfit
  have entries : oversizedState.toList = [("elapsed", .int (10 ^ 400)), ("paused", .bool true)] :=
    OrderedMap.toList_ofList (by decide)
  have ended : (Manager.updateState oversizedState).run bareWorld =
      (.error (.number .tooLarge), v) := by
    rw [updateState_eq rfl, run_noting, entries, run_writeStates_cons, ran]
  rw [ended, entries]
  refine ⟨rfl, List.mem_cons_of_mem _ List.mem_cons_self, .truth true, ?_⟩
  change v.around.contents = .empty at same
  rw [same]
  rfl

end ShortcutRelay
