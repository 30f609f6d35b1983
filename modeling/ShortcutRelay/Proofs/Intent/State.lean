import ShortcutRelay.Config.Parse
import ShortcutRelay.Intent.State
import ShortcutRelay.Proofs.Protocol.Parameter
import ShortcutRelay.Proofs.Swift.Literal

/-!
# The application's state as intents find it

* `matchesAt` : whether the contents have what a dialog waits for, `runOn_stateMatches`;
* `dueAt` : whether a dialog is to be shown, `runOn_isDue`;
* `matchesAt_ok`, `dueAt_ok` : there is an answer where all numbers fit a double;
* `interpolateAt` : a message with the values of the state, `runOn_interpolate`.
-/

namespace ShortcutRelay.Intent
open Protocol

/-- Whether the contents have what a dialog waits for; there is no answer where a number that is compared
does not fit a double, or one that is to be a text has too many digits. -/
def matchesAt (c : Contents) (d : ConditionalDialog) : Except NumberError Bool :=
  match d.showWhen with
  | .text s => do return (← textAt c (stateEntry d.stateKey)) == some s
  | .bool _ | .int _ | .float _ => do
    let stored ← doubleAt c (stateEntry d.stateKey)
    return stored == (← d.showWhen.toFloat)
  | _ => do return (← textAt c (stateEntry d.stateKey)).isSome

/-- Whether a dialog is to be shown; there is no answer either where it is, but the value that it waited
for cannot be written. -/
def dueAt (c : Contents) (d : ConditionalDialog) : Except NumberError Bool := do
  if ← matchesAt c d then
    let _ ← Swift.formatValue d.showWhen
    return true
  else return false

def isMatching (c : Contents) (d : ConditionalDialog) : Bool :=
  (matchesAt c d).toOption.getD false

theorem isMatching_of_ok {c : Contents} {d : ConditionalDialog} {b : Bool}
    (matched : matchesAt c d = .ok b) : isMatching c d = b := by
  rw [isMatching, matched]
  rfl

theorem isMatching_of_dueAt {c : Contents} {d : ConditionalDialog} {b : Bool} (due : dueAt c d = .ok b) :
    isMatching c d = b := by
  obtain ⟨matching, matched, due⟩ := of_bind_eq_ok due
  rw [isMatching_of_ok matched]
  cases matching with
  | false => exact Except.ok.inj due
  | true =>
    obtain ⟨text, -, due⟩ := of_bind_eq_ok due
    exact Except.ok.inj due

/-- A dialog's condition is looked up without changing anything. -/
theorem runOn_stateMatches (d : ConditionalDialog) (c : Contents) :
    runOn (stateMatches d.stateKey d.showWhen) c = ((matchesAt c d).mapError .number, c) := by
  have number : runOn (do
        let stored ← Store.double (stateEntry d.stateKey)
        return stored == (← Store.ofNumber d.showWhen.toFloat)) c =
      ((do
        let stored ← doubleAt c (stateEntry d.stateKey)
        return stored == (← d.showWhen.toFloat)).mapError .number, c) := by
    rw [runOn_bind, runOn_double]
    cases doubleAt c (stateEntry d.stateKey) with
    | error e => rfl
    | ok stored =>
      change runOn (Store.ofNumber d.showWhen.toFloat >>= _) c = _
      rw [runOn_bind, runOn_ofNumber]
      cases d.showWhen.toFloat <;> rfl
  have text (judge : Option String → Bool) : runOn (do
        return judge (← Store.text (stateEntry d.stateKey))) c =
      ((do return judge (← textAt c (stateEntry d.stateKey))).mapError .number, c) := by
    rw [runOn_bind, runOn_text]
    cases textAt c (stateEntry d.stateKey) <;> rfl
  unfold stateMatches matchesAt
  generalize d.showWhen = expected at number
  cases expected with
  | bool b => exact number
  | int n => exact number
  | float x => exact number
  | text s => exact text (· == some s)
  | _ => exact text Option.isSome

theorem runOn_isDue (d : ConditionalDialog) (c : Contents) :
    runOn (isDue d) c = ((dueAt c d).mapError .number, c) := by
  unfold isDue dueAt
  rw [runOn_bind, runOn_stateMatches]
  match matchesAt c d with
  | .error e => rfl
  | .ok false => rfl
  | .ok true =>
    change runOn (Store.ofNumber (Swift.formatValue d.showWhen) >>= _) c = _
    rw [runOn_bind, runOn_ofNumber]
    change _ = (Except.mapError Failure.number (do
      let _ ← Swift.formatValue d.showWhen
      return true), c)
    cases Swift.formatValue d.showWhen <;> rfl

/-! ## Numbers that fit a double -/

def StateFits (c : Contents) : Prop :=
  ∀ name v, c.get? (stateEntry name) = some v → v.fitsDouble = true

theorem stateFits_empty : StateFits {} := by
  intro name v found
  cases found

theorem stateFits_put {c : Contents} (state : StateFits c) (key : String) {v : Document}
    (fits : v.fitsDouble = true) : StateFits (c.put key v) := by
  intro name w found
  rw [OrderedMap.get?_put] at found
  split at found
  · cases found
    exact fits
  · exact state name w found

/-- Where all numbers fit a double, a dialog matches or it does not. -/
theorem matchesAt_ok {c : Contents} {d : ConditionalDialog} (state : StateFits c)
    (expected : d.showWhen.fitsDouble = true) : ∃ b, matchesAt c d = .ok b := by
  obtain ⟨stored, found⟩ := doubleAt_ok (state d.stateKey)
  have number (numeric : d.showWhen.isNumeric = true) : ∃ b, (do
      let stored ← doubleAt c (stateEntry d.stateKey)
      return stored == (← d.showWhen.toFloat)) = Except.ok b := by
    obtain ⟨x, hx⟩ := Document.toFloat_of_fitsDouble numeric expected
    rw [found, hx]
    exact ⟨_, rfl⟩
  obtain ⟨text, written⟩ := textAt_ok (state d.stateKey)
  unfold matchesAt
  generalize d.showWhen = expected at number
  cases expected with
  | bool b => exact number rfl
  | int n => exact number rfl
  | float x => exact number rfl
  | _ =>
    rw [written]
    exact ⟨_, rfl⟩

/-- What has no text has no number. -/
theorem storedNumber_of_storedText {v : Document} (h : v.storedText = .ok none) :
    v.storedNumber = .ok none := by
  cases v with
  | int n =>
    rw [Document.storedText] at h
    cases digits : wholeText n <;> rw [digits] at h <;> cases h
  | _ => first | rfl | cases h

theorem runOn_number_of_textAt {c : Contents} {key : String} (missing : textAt c key = .ok none) :
    runOn (Store.number key) c = (.ok none, c) := by
  have number : ((c.get? key).getD .null).storedNumber = .ok none := by
    unfold textAt at missing
    cases stored : c.get? key with
    | none => rfl
    | some v =>
      rw [stored] at missing
      exact storedNumber_of_storedText missing
  rw [runOn_number, number]
  rfl

def fillAt (c : Contents) (message name : String) : Except NumberError String := do
  match ← textAt c (stateEntry name) with
  | some value => return Text.replaceAll (Template.placeholder name) value message
  | none => return message

def interpolateAt (c : Contents) (message : String) : Except NumberError String :=
  (Template.placeholders message).foldlM (fillAt c) message

theorem runOn_fill (message name : String) (c : Contents) :
    runOn (fill message name) c = ((fillAt c message name).mapError .number, c) := by
  unfold fill fillAt
  rw [runOn_bind, runOn_text]
  match found : textAt c (stateEntry name) with
  | .error e => rfl
  | .ok (some value) => rfl
  | .ok none => exact runOn_bind_ok (runOn_number_of_textAt found) _

/-- A message is filled in, unless a number that it names has too many digits, and nothing changes. -/
theorem runOn_interpolate (message : String) (c : Contents) :
    runOn (interpolate message) c = ((interpolateAt c message).mapError .number, c) := by
  unfold interpolate interpolateAt
  generalize Template.placeholders message = names
  induction names generalizing message with
  | nil => rfl
  | cons name names ih =>
    unfold fillAll
    rw [runOn_bind, runOn_fill, List.foldlM_cons]
    cases fillAt c message name with
    | error e => rfl
    | ok filled => exact ih filled

end ShortcutRelay.Intent
