import ShortcutRelay.Proofs.Protocol.Parameter
import ShortcutRelay.Proofs.Store.Alike

/-!
# What is read of like contents

Of like contents like parameters are read, in whatever order the entries come; where one cannot be
read, the error is the same.

* `StoredValue.AlikeBy`, `Command.AlikeBy` : values, and commands, that are equal as data up to the
  values that a store may give back for each other;
* `Tolerance.decodeParameter` : one parameter, read of like values;
* `decodeParameters_cases` : how the reading of all parameters ends, `Tolerance.decodeParameters` : of like
  contents.
-/

namespace ShortcutRelay
open Protocol

/-- Values of one kind whose contents are alike. -/
structure StoredValue.AlikeBy (Like : Document → Document → Prop) (v w : StoredValue) : Prop where
  kind : v.kind = w.kind
  raw : Like v.raw w.raw

/-- Commands whose parts are alike. The parameters count as a map from their names. -/
structure Protocol.Command.AlikeBy (Like : Document → Document → Prop) (a b : Command) : Prop where
  identifier : a.identifier = b.identifier
  nonce : a.nonce = b.nonce
  timestamp : Like (.float a.timestamp) (.float b.timestamp)
  parameters : ∀ name, Option.Rel (StoredValue.AlikeBy Like) (valueAt? name a.parameters)
    (valueAt? name b.parameters)
  userConfirmed : a.userConfirmed = b.userConfirmed

variable {Like : Document → Document → Prop} {P : String → Prop} {c d : Contents}

/-! ## One parameter -/

theorem Tolerance.isText_eq (tolerance : Tolerance Like) (expected : String) {v w : Document}
    (h : Like v w) : isText expected v = isText expected w := by
  cases tolerance.alike h <;> rfl

theorem Tolerance.decodeParameter (tolerance : Tolerance Like) {raw raw' tag tag' : Document}
    (like : Like raw raw') (tags : Like tag tag') :
    Matching (Option.Rel (StoredValue.AlikeBy Like)) (decodeParameter raw tag)
      (decodeParameter raw' tag') := by
  have refl := tolerance.equivalence.refl
  have sameTag : Protocol.decodeParameter raw' tag' = Protocol.decodeParameter raw' tag := by
    unfold Protocol.decodeParameter
    rw [tolerance.isText_eq _ tags, tolerance.isText_eq _ tags]
  rw [sameTag]
  cases tolerance.alike like with
  | same => exact Matching.of_eq (optionRel_refl fun v => ⟨rfl, refl v.raw⟩) rfl
  -- zeros of either sign: a time and a number keep theirs, and as a truth value both are false
  | @zeros x y hx hy =>
    have truth : (Document.float x).truthy = (Document.float y).truthy := tolerance.truthy_eq like
    unfold Protocol.decodeParameter
    split
    · exact .ok (.some ⟨rfl, like⟩)
    · by_cases boolean : isText booleanTag tag = true
      · simp only [boolean, Document.isNumeric, Bool.and_self, if_true, truth]
        exact .ok (.some ⟨rfl, refl _⟩)
      · simp only [boolean, Bool.false_and, Bool.false_eq_true, if_false]
        exact .ok (.some ⟨rfl, like⟩)

theorem Document.toFloat_error {d : Document} (numeric : d.isNumeric = true) {e : NumberError}
    (h : d.toFloat = .error e) : e = .tooLarge := by
  cases d with
  | int n =>
    change floatOfInt n = _ at h
    unfold floatOfInt at h
    split at h
    · cases h
    · cases h
      rfl
  | bool b => cases h
  | float x => cases h
  | _ => cases numeric

/-- A parameter cannot be read only where its number does not fit a double. -/
theorem decodeParameter_error {raw tag : Document} {e : NumberError}
    (h : decodeParameter raw tag = .error e) : e = .tooLarge := by
  have number {f : Float → StoredValue}
      (h : (if raw.isNumeric then do return some (f (← raw.toFloat)) else .ok none :
        Except NumberError (Option StoredValue)) = .error e) : e = .tooLarge := by
    split at h
    · next numeric =>
      rcases bind_eq_error_iff.mp h with failed | ⟨x, -, ⟨⟩⟩
      exact Document.toFloat_error numeric failed
    · cases h
  unfold decodeParameter at h
  split at h
  · unfold timestampOf at h
    split at h
    · cases h
    · exact number h
  · split at h
    · cases h
    · split at h
      · cases h
      · exact number h

/-! ## All parameters -/

/-- What is read under the name of a parameter, if it is there. -/
def decodeAt (c : Contents) (name : String) : Except NumberError (Option StoredValue) :=
  match c.get? (parameterEntry name) with
  | none => .ok none
  | some raw => decodeParameter raw (tagAt c name)

theorem parameterAt_of_decodeAt {name : String} {found : Option StoredValue}
    (h : decodeAt c name = .ok found) : parameterAt c name = found := by
  unfold decodeAt at h
  unfold parameterAt
  cases there : c.get? (parameterEntry name) with
  | none =>
    rw [there] at h
    cases h
    rfl
  | some raw =>
    rw [there] at h
    change decodeParameter raw (tagAt c name) = .ok found at h
    change (decodeParameter raw (tagAt c name)).toOption.join = found
    rw [h]
    rfl

theorem decodeAt_of_mem {name : String} {raw : Document} (mem : (parameterEntry name, raw) ∈ c.toList) :
    decodeAt c name = decodeParameter raw (tagAt c name) := by
  unfold decodeAt
  rw [(c.get?_eq_some_iff ..).mpr mem]

theorem valueAt?_parametersOf (c : Contents) (name : String) :
    valueAt? name (parametersOf c) = parameterAt c name := by
  refine Option.ext fun v => ?_
  rw [valueAt?_eq_some_iff (names_parametersOf_nodup c), mem_parametersOf]

/-- One parameter that cannot be read spoils the reading of all. -/
theorem decodeParameters_error {es : List (String × Document)} {name : String} {raw : Document}
    (mem : (parameterEntry name, raw) ∈ es)
    (failed : decodeParameter raw (tagAt c name) = .error .tooLarge) :
    decodeParameters c es = .error .tooLarge := by
  induction es with
  | nil => cases mem
  | cons e es ih =>
    obtain ⟨key, other⟩ := e
    rw [decodeParameters]
    rcases List.mem_cons.mp mem with here | later
    · cases here
      rw [show Text.afterStart? parameterStart (parameterEntry name) = some name from
        Text.afterStart?_append parameterStart name]
      simp only
      rw [show (c.get? (parameterTagEntry name)).getD .null = tagAt c name from rfl, failed]
      rfl
    · rw [ih later]
      split
      · rfl
      -- a parameter in front that cannot be read fails in the same way
      · next name' _ =>
        cases first : decodeParameter other ((c.get? (parameterTagEntry name')).getD .null) with
        | ok found => rfl
        | error e =>
          rw [decodeParameter_error first]
          rfl

/-- All parameters are read, or the number of one of them does not fit a double. -/
theorem decodeParameters_cases (c : Contents) :
    decodeParameters c c.toList = .ok (parametersOf c) ∧
        (∀ name, decodeAt c name = .ok (parameterAt c name)) ∨
      decodeParameters c c.toList = .error .tooLarge ∧ ∃ name, decodeAt c name = .error .tooLarge := by
  by_cases readable : ∀ name, ∃ found, decodeAt c name = .ok found
  · left
    constructor
    · refine decodeParameters_eq fun name raw mem => ?_
      rw [← decodeAt_of_mem mem]
      exact readable name
    · intro name
      obtain ⟨found, read⟩ := readable name
      rw [read, parameterAt_of_decodeAt read]
  · right
    obtain ⟨name, unreadable⟩ := not_forall.mp readable
    cases there : c.get? (parameterEntry name) with
    | none =>
      refine absurd ⟨none, ?_⟩ unreadable
      rw [decodeAt, there]
    | some raw =>
      have mem := (c.get?_eq_some_iff ..).mp there
      rw [decodeAt_of_mem mem] at unreadable
      cases failed : decodeParameter raw (tagAt c name) with
      | ok found => exact absurd ⟨found, failed⟩ unreadable
      | error e =>
        obtain rfl := decodeParameter_error failed
        exact ⟨decodeParameters_error mem failed, name, (decodeAt_of_mem mem).trans failed⟩

namespace Tolerance

variable (tolerance : Tolerance Like)
include tolerance

theorem decodeAt (parameters : ∀ key, isParameterKey key = true → P key) (near : AgreeOn Like P c d)
    (name : String) : Matching (Option.Rel (StoredValue.AlikeBy Like)) (decodeAt c name)
      (decodeAt d name) := by
  have value := near _ (parameters _ (isParameterKey_parameterEntry name))
  have tag := near _ (parameters _ (isParameterKey_parameterTagEntry name))
  unfold ShortcutRelay.decodeAt
  generalize c.get? (parameterEntry name) = v at value
  generalize d.get? (parameterEntry name) = w at value
  cases value with
  | none => exact .ok .none
  | some like => exact tolerance.decodeParameter like (tolerance.getD_null tag)

/-- Of like contents like parameters are read. -/
theorem decodeParameters (parameters : ∀ key, isParameterKey key = true → P key)
    (near : AgreeOn Like P c d) :
    Matching (fun ps qs => ∀ name, Option.Rel (StoredValue.AlikeBy Like) (valueAt? name ps)
      (valueAt? name qs)) (decodeParameters c c.toList) (decodeParameters d d.toList) := by
  have each := tolerance.decodeAt parameters near
  rcases decodeParameters_cases c with ⟨readC, partsC⟩ | ⟨failedC, name, partC⟩ <;>
  rcases decodeParameters_cases d with ⟨readD, partsD⟩ | ⟨failedD, name', partD⟩
  · rw [readC, readD]
    refine .ok fun name => ?_
    have here := each name
    rw [partsC, partsD] at here
    rw [valueAt?_parametersOf, valueAt?_parametersOf]
    cases here with
    | ok related => exact related
  · have here := each name'
    rw [partsC, partD] at here
    cases here
  · have here := each name
    rw [partC, partsD] at here
    cases here
  · rw [failedC, failedD]
    exact .error _

end Tolerance

end ShortcutRelay
