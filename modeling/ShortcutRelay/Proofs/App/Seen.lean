import ShortcutRelay.Proofs.App.Brought
import ShortcutRelay.Proofs.Decimal.Faithful
import ShortcutRelay.Proofs.Intent.State
import ShortcutRelay.Proofs.Store.Handles

/-!
# The application's state as dialogs see it

A dialog waits for a value of the state. What it finds is the value that the application brought into
the store, compared as a number or as a text.

* `Document.IsPlain` : the values in question;
* `Meets` : whether a value of the application is the one that a dialog waits for;
* `matchesAt_of_encodes` : a dialog tells from the entry of a value just this;
* `updateState_seen` : so do the dialogs after a call for new state.
-/

namespace ShortcutRelay
open Protocol App

variable {σ κ : Type}

/-! ## Values -/

/-- A truth value, a text, null or a whole number that doubles tell from all others. -/
inductive Document.IsPlain : Document → Prop
  | null : IsPlain .null
  | bool (b : Bool) : IsPlain (.bool b)
  | text (s : String) : IsPlain (.text s)
  | int {n : Int} (exact : n.natAbs ≤ 2 ^ 53) : IsPlain (.int n)

/-- The value is the one that a dialog waits for: an equal number, a text that reads as that number or
nothing in place of zero; or else the very text or the decimal text of the number. -/
inductive Meets : Document → Document → Prop
  | equal {value expected : Document} {n : Int} (here : value.whole? = some n)
      (there : expected.whole? = some n) : Meets value expected
  | missing {expected : Document} (zero : expected.whole? = some 0) : Meets .null expected
  | reading {s : String} {expected : Document} {n : Int} (there : expected.whole? = some n)
      (reads : ((Decimal.readFloat? s).getD 0.0 == Float.ofInt n) = true) : Meets (.text s) expected
  | same (s : String) : Meets (.text s) (.text s)
  | decimal {value : Document} {n : Int} (here : value.whole? = some n) :
      Meets value (.text (toString n))

namespace Meets

variable {value expected : Document} {n m : Int} {s t : String}

theorem numbers_iff (here : value.whole? = some n) (there : expected.whole? = some m) :
    Meets value expected ↔ n = m := by
  constructor
  · intro h
    cases h with
    | equal here' there' => exact Option.some.inj (here.symm.trans (here'.trans (there'.symm.trans there)))
    | missing => cases here
    | reading => cases here
    | same => cases here
    | decimal => cases there
  · rintro rfl
    exact .equal here there

theorem text_of_number_iff (here : value.whole? = some n) :
    Meets value (.text t) ↔ toString n = t := by
  constructor
  · intro h
    cases h with
    | equal _ there => cases there
    | missing zero => cases zero
    | reading there => cases there
    | same => cases here
    | decimal here' => rw [Option.some.inj (here.symm.trans here')]
  · rintro rfl
    exact .decimal here

theorem missing_iff (there : expected.whole? = some m) : Meets .null expected ↔ 0 = m := by
  constructor
  · intro h
    cases h with
    | equal here => cases here
    | missing zero => exact Option.some.inj (zero.symm.trans there)
    | decimal here => cases here
  · rintro rfl
    exact .missing there

theorem not_missing_text : ¬ Meets .null (.text t) := by
  intro h
  cases h with
  | equal here => cases here
  | missing zero => cases zero
  | decimal here => cases here

theorem reading_iff (there : expected.whole? = some m) :
    Meets (.text s) expected ↔ ((Decimal.readFloat? s).getD 0.0 == Float.ofInt m) = true := by
  constructor
  · intro h
    cases h with
    | equal here => cases here
    | reading there' reads => rw [← Option.some.inj (there'.symm.trans there)]; exact reads
    | same => cases there
    | decimal here => cases here
  · exact .reading there

theorem texts_iff : Meets (.text s) (.text t) ↔ s = t := by
  constructor
  · intro h
    cases h with
    | equal here => cases here
    | reading there => cases there
    | same => rfl
    | decimal here => cases here
  · rintro rfl
    exact .same s

end Meets

namespace Document

/-- A plain value is null, a text or a number. -/
theorem IsPlain.cases {v : Document} (h : v.IsPlain) :
    v = .null ∨ (∃ s, v = .text s) ∨ ∃ n, v.whole? = some n ∧ Decimal.Faithful n := by
  cases h with
  | null => exact .inl rfl
  | text s => exact .inr (.inl ⟨s, rfl⟩)
  | bool b => cases b <;> exact .inr (.inr ⟨_, rfl, Decimal.faithful_of_le (by decide)⟩)
  | int exact => exact .inr (.inr ⟨_, rfl, Decimal.faithful_of_le exact⟩)

end Document

/-- A number stands for its double. -/
theorem encodes_of_whole {v : Document} {n : Int} (h : v.whole? = some n) (exact : Decimal.Faithful n) :
    Encodes v (some (.float (Float.ofInt n))) := by
  have float := Document.toFloat_of_whole h exact
  cases v with
  | bool b =>
    rw [← Except.ok.inj float]
    exact .truth b
  | int m =>
    cases h
    exact .whole exact.ofInteger?
  | _ => cases h

theorem Document.IsPlain.encodes {v : Document} (h : v.IsPlain) : ∃ entry, Encodes v entry := by
  rcases h.cases with rfl | ⟨s, rfl⟩ | ⟨n, here, exact⟩
  · exact ⟨_, .nothing⟩
  · exact ⟨_, .text s⟩
  · exact ⟨_, encodes_of_whole here exact⟩

theorem Document.IsPlain.fitsDouble {v : Document} (h : v.IsPlain) : v.fitsDouble = true := by
  cases h with
  | int exact => exact Option.isSome_of_eq_some (Decimal.faithful_of_le exact).ofInteger?
  | _ => rfl

/-! ## Conditions -/

namespace Intent

variable {Like : Document → Document → Prop} {c d : Contents} {dialog : ConditionalDialog}

/-- A dialog looks at the entry of its key only, and like entries are the same to it. -/
theorem matchesAt_like (tolerance : Tolerance Like)
    (h : Option.Rel Like (c.get? (stateEntry dialog.stateKey)) (d.get? (stateEntry dialog.stateKey))) :
    matchesAt c dialog = matchesAt d dialog := by
  have text := tolerance.textAt_eq h
  have number : (do
        let stored ← doubleAt c (stateEntry dialog.stateKey)
        return stored == (← dialog.showWhen.toFloat) : Except NumberError Bool) = (do
        let stored ← doubleAt d (stateEntry dialog.stateKey)
        return stored == (← dialog.showWhen.toFloat)) := by
    have like := tolerance.doubleAt h
    generalize doubleAt c _ = x at like ⊢
    generalize doubleAt d _ = y at like ⊢
    cases like with
    | error e => rfl
    | ok like =>
      cases tolerance.alike like with
      | same => rfl
      | zeros hx hy => simp only [ok_bind, Decimal.beq_of_zeros hx hy]
  unfold matchesAt
  rw [text]
  generalize dialog.showWhen = expected at number ⊢
  cases expected with
  | bool _ | int _ | float _ => exact number
  | _ => rfl

/-- A dialog that waits for a number compares the double. -/
theorem matchesAt_whole {x : Float} {n : Int}
    (found : doubleAt c (stateEntry dialog.stateKey) = .ok x)
    (expected : dialog.showWhen.whole? = some n) (exact : Decimal.Faithful n) :
    matchesAt c dialog = .ok (x == Float.ofInt n) := by
  have float := Document.toFloat_of_whole expected exact
  unfold matchesAt
  rw [found]
  generalize dialog.showWhen = e at expected float
  cases e with
  | bool _ | int _ =>
    simp only [ok_bind, float]
    rfl
  | _ => cases expected

/-- A dialog that waits for a text compares the text. -/
theorem matchesAt_text {s : String} {found : Option String} (expected : dialog.showWhen = .text s)
    (there : textAt c (stateEntry dialog.stateKey) = .ok found) :
    matchesAt c dialog = .ok (found == some s) := by
  unfold matchesAt
  rw [expected, there]
  rfl

/-- A dialog finds in the entry of a plain value whether the value is the one that it waits for. -/
theorem matchesAt_of_encodes {value : Document} {entry : Option Document} (plain : value.IsPlain)
    (encodes : Encodes value entry) (found : c.get? (stateEntry dialog.stateKey) = entry)
    (expected : dialog.showWhen.IsPlain) (present : dialog.showWhen ≠ .null) :
    ∃ b, matchesAt c dialog = .ok b ∧ (b = true ↔ Meets value dialog.showWhen) := by
  rcases plain.cases with rfl | ⟨s, rfl⟩ | ⟨n, here, exact⟩
  · cases encodes with
    | json _ present => exact absurd rfl present
    | nothing =>
      rcases expected.cases with null | ⟨t, there⟩ | ⟨m, there, exact⟩
      · exact absurd null present
      · refine ⟨_, matchesAt_text there (textAt_of_none found), ?_⟩
        rw [there]
        simp [Meets.not_missing_text]
      · have double : doubleAt c (stateEntry dialog.stateKey) = .ok (Float.ofInt 0) := by
          rw [doubleAt, found]
          exact congrArg Except.ok (Decimal.eq_of_bits (by decide))
        refine ⟨_, matchesAt_whole double there exact, ?_⟩
        rw [Meets.missing_iff there]
        exact (Decimal.faithful_of_le (by decide)).beq_iff exact
  · cases encodes with
    | json composed => cases composed
    | text =>
      rcases expected.cases with null | ⟨t, there⟩ | ⟨m, there, exact⟩
      · exact absurd null present
      · refine ⟨_, matchesAt_text there (textAt_of_get? found), ?_⟩
        rw [there, Meets.texts_iff]
        simp
      · have double : doubleAt c (stateEntry dialog.stateKey) =
            .ok ((Decimal.readFloat? s).getD 0.0) := by
          rw [doubleAt, found]
          rfl
        exact ⟨_, matchesAt_whole double there exact, (Meets.reading_iff there).symm⟩
  · have whole := Sharing.entry_of_encodes (encodes_of_whole here exact)
    obtain rfl := Option.some.inj ((Sharing.entry_of_encodes encodes).symm.trans whole)
    rcases expected.cases with null | ⟨t, there⟩ | ⟨m, there, exact'⟩
    · exact absurd null present
    · refine ⟨_, matchesAt_text there (textAt_of_get? found), ?_⟩
      rw [there, Meets.text_of_number_iff here]
      simp [exact.whole]
    · have double : doubleAt c (stateEntry dialog.stateKey) = .ok (Float.ofInt n) := by
        rw [doubleAt, found]
        rfl
      refine ⟨_, matchesAt_whole double there exact', ?_⟩
      rw [Meets.numbers_iff here there]
      exact exact.beq_iff exact'

end Intent

/-! ## After a call -/

section Call

variable [Backend σ] {K : Keeper σ} {w v : World σ κ}

theorem reads_stateMatches (key : String) (expected : Document) :
    K.Reads (Intent.stateMatches key expected) := by
  have number : K.Reads (do
      let stored ← Store.double (stateEntry key)
      return stored == (← Store.ofNumber expected.toFloat)) :=
    (K.reads_double _).bind fun _ => (Keeper.reads_ofNumber _).bind fun _ => Keeper.reads_pure _
  unfold Intent.stateMatches
  cases expected with
  | bool _ | int _ | float _ => exact number
  | _ => exact (Keeper.reads_text _).bind fun _ => Keeper.reads_pure _

/-- Where no failure can come, a dialog finds what there is in the contents. -/
theorem run_stateMatches (healthy : K.Healthy) {s : σ} (valid : K.valid s) (dialog : ConditionalDialog) :
    ∃ t, (Backend.run (Intent.stateMatches dialog.stateKey dialog.showWhen)).run s =
      ((Intent.matchesAt (K.contents s) dialog).mapError .number, t) := by
  obtain ⟨-, t, -, -, ran⟩ := reads_stateMatches (K := K) dialog.stateKey dialog.showWhen s valid
  rw [Intent.runOn_stateMatches] at ran
  rcases ran with ran | ⟨f, threat, -⟩
  · exact ⟨t, ran⟩
  · exact absurd threat (healthy s valid f)

/-- A mapping of plain values is brought into the store, and a dialog that waits for a value of one of
its keys then finds the application's value there; with any other key it finds what it found before. -/
theorem updateState_seen (sound : K.Sound) (valid : K.valid w.around)
    (bridged : w.bridge.isSome = true) (state : OrderedMap Document)
    (plain : ∀ e ∈ state.toList, e.2.IsPlain) :
    ∃ v, (Manager.updateState state).run w = (.ok (), v) ∧
      (∀ key value expected, (key, value) ∈ state.toList → expected.IsPlain → expected ≠ .null →
        ∃ b t, (Backend.run (Intent.stateMatches key expected)).run v.around = (.ok b, t) ∧
          (b = true ↔ Meets value expected)) ∧
      ∀ key expected, key ∉ state.keys → ∃ result t u,
        (Backend.run (Intent.stateMatches key expected)).run w.around = (result, t) ∧
        (Backend.run (Intent.stateMatches key expected)).run v.around = (result, u) := by
  obtain ⟨result, v, ran, outcome, valid', -, agree⟩ := run_writeStates sound state.toList valid
  obtain ⟨rfl, whole⟩ : result = .ok () ∧ reached state.toList = state.toList := by
    refine outcome.resolve_right ?_
    rintro ⟨-, e, mem, unfit⟩
    rw [(plain e mem).fitsDouble] at unfit
    cases unfit
  rw [whole] at agree
  have brought := brought_of_agree state.nodup agree
  refine ⟨v, ?_, ?_, ?_⟩
  · rw [updateState_eq bridged, run_noting, ran]
  · intro key value expected mem plainExpected present
    obtain ⟨entry, encodes⟩ := (plain _ mem).encodes
    -- contents with the very entry of the value, which the store may have replaced by a like one
    let d := (Sharing.of value).effect key (K.contents v.around)
    have found : d.get? (stateEntry key) = entry := by
      rw [Sharing.get?_effect, if_pos rfl, Sharing.entry_of_encodes encodes]
      rfl
    have like := brought.encoded key value entry mem encodes
    rw [← found] at like
    have told : ∃ b, Intent.matchesAt d ⟨key, expected, "", true⟩ = .ok b ∧
        (b = true ↔ Meets value expected) :=
      Intent.matchesAt_of_encodes (plain _ mem) encodes found plainExpected present
    obtain ⟨b, matched, meets⟩ := told
    obtain ⟨t, looked⟩ := run_stateMatches sound.healthy valid' ⟨key, expected, "", true⟩
    rw [Intent.matchesAt_like K.tolerance like, matched] at looked
    exact ⟨b, t, looked, meets⟩
  · intro key expected unknown
    have like := brought.others (stateEntry key) fun e mem same =>
      unknown (stateEntry_injective same ▸ List.mem_map_of_mem mem)
    obtain ⟨t, before⟩ := run_stateMatches sound.healthy valid ⟨key, expected, "", true⟩
    obtain ⟨u, after⟩ := run_stateMatches sound.healthy valid' ⟨key, expected, "", true⟩
    rw [Intent.matchesAt_like K.tolerance like] at after
    exact ⟨_, t, u, before, after⟩

end Call

/-! ## A store in memory -/

def shownState : OrderedMap Document :=
  .ofList [("elapsed", .int 42), ("taskName", .text "1.0"), ("paused", .null)]

theorem shownState_toList : shownState.toList =
    [("elapsed", .int 42), ("taskName", .text "1.0"), ("paused", .null)] :=
  OrderedMap.toList_ofList (by decide)

theorem updateState_seen_shown :
    (∀ e ∈ shownState.toList, e.2.IsPlain) ∧
    ∃ v, (Manager.updateState shownState).run bareWorld = (.ok (), v) ∧
      ∃ b t, (Backend.run (Intent.stateMatches "taskName" (.bool true))).run v.around = (.ok b, t) ∧
        (b = true ↔ Meets (.text "1.0") (.bool true)) := by
  have plain : ∀ e ∈ shownState.toList, e.2.IsPlain := by
    rw [shownState_toList]
    simp only [List.forall_mem_cons]
    exact ⟨.int (by decide), .text _, .null, nofun⟩
  obtain ⟨v, ran, seen, -⟩ := updateState_seen (w := bareWorld) MemoryStore.keeper_sound trivial rfl
    shownState plain
  refine ⟨plain, v, ran, seen "taskName" _ _ ?_ (.bool true) nofun⟩
  rw [shownState_toList]
  simp

end ShortcutRelay
