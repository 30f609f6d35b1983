import ShortcutRelay.Proofs.Intent.State
import ShortcutRelay.Proofs.Template.Turns

/-!
# Messages with values of the state

* `isLegible c` : whether the value that a name has can be written;
* `stateText c` : the texts of the application's state, by the names that messages use;
* `interpolateAt_eq` : the names of a message have their turns, one after the other, where the values of all
  of them can be written;
* `interpolate_in_turns` : so a message is filled in, and where no value brings about a placeholder whose
  turn is yet to come, in one pass; `value_expanded_again` : otherwise a value is changed as well.
-/

namespace ShortcutRelay.Intent
open Protocol Template

/-- Whether the value that a name has can be written: it is no whole number with too many digits. -/
def isLegible (c : Contents) (name : String) : Bool :=
  match c.get? (stateEntry name) with
  | some (.int n) => Decimal.isWritable n
  | _ => true

/-- The text of a value of the application's state, where it has one. -/
def stateText (c : Contents) (name : String) : Option String :=
  (textAt c (stateEntry name)).toOption.join

/-- A message after the turns of some names, whose values are all written out. -/
def turnsAt (c : Contents) (message : String) (names : List String) : Except NumberError String :=
  if names.all (isLegible c) then .ok (afterTurns (stateText c) message names) else .error .tooManyDigits

theorem textAt_of_isLegible {c : Contents} {name : String} (legible : isLegible c name = true) :
    textAt c (stateEntry name) = .ok (stateText c name) := by
  rw [stateText]
  cases found : textAt c (stateEntry name) with
  | ok text => rfl
  | error e =>
    rw [textAt_error found] at found
    obtain ⟨n, there, long⟩ := textAt_eq_error_iff.mp found
    rw [isLegible, there] at legible
    exact absurd legible (Bool.eq_false_iff.mp long)

theorem textAt_of_not_isLegible {c : Contents} {name : String} (legible : isLegible c name = false) :
    textAt c (stateEntry name) = .error .tooManyDigits := by
  rw [isLegible] at legible
  split at legible
  · next n there => exact textAt_eq_error_iff.mpr ⟨n, there, legible⟩
  · cases legible

theorem fillAt_eq {name : String} (named : IsName name) (c : Contents) (message : String) :
    fillAt c message name = if isLegible c name then .ok (substitute (only (stateText c) name) message)
      else .error .tooManyDigits := by
  unfold fillAt
  cases legible : isLegible c name with
  | false =>
    rw [textAt_of_not_isLegible legible]
    rfl
  | true =>
    rw [textAt_of_isLegible legible]
    cases given : stateText c name with
    | some text => exact congrArg Except.ok (replaceAll_placeholder named given message)
    | none =>
      rw [only_of_none given, substitute_none]
      rfl

/-- The text of a message after the turns of some names. -/
theorem foldlM_fillAt (c : Contents) (message : String) {turns : List String}
    (named : ∀ name ∈ turns, IsName name) : turns.foldlM (fillAt c) message = turnsAt c message turns := by
  induction turns generalizing message with
  | nil => rfl
  | cons name turns ih =>
    have later (text : String) := ih text fun other mem => named other (.tail name mem)
    rw [List.foldlM_cons, fillAt_eq (named name (.head _)), turnsAt, List.all_cons, afterTurns_cons]
    cases isLegible c name with
    | false => rfl
    | true => exact later _

theorem interpolateAt_eq (c : Contents) (message : String) :
    interpolateAt c message = turnsAt c message (placeholders message) :=
  foldlM_fillAt c message fun _ => isName_of_mem_placeholders

/-- Names whose values fit a double have their turns. -/
theorem turnsAt_of_stateFits {c : Contents} (state : StateFits c) (message : String) (names : List String) :
    turnsAt c message names = .ok (afterTurns (stateText c) message names) := by
  refine if_pos (List.all_eq_true.mpr fun name _ => ?_)
  by_contra long
  obtain ⟨text, found⟩ := textAt_ok (state name)
  rw [textAt_of_not_isLegible (Bool.eq_false_iff.mpr long)] at found
  cases found

/-- The placeholders of a message have their turns in order, with repetitions, and each turn is one pass over
the text so far: a placeholder of the name, also one that values of earlier turns brought about, gives way to
the value of the name where there is one, and all other text stays, the value itself included. There is no
text just where one of the values is a whole number with too many digits. Where at each turn no more
placeholders of the name are there than the message has, the whole is one pass over the message; so it is
where each dollar sign of the message begins a placeholder and no value holds one. -/
theorem interpolate_in_turns (message : String) (c : Contents) :
    runOn (interpolate message) c =
        (if (placeholders message).all (isLegible c) then
          .ok (afterTurns (stateText c) message (placeholders message))
        else .error (.number .tooManyDigits), c) ∧
      (Undisturbed (stateText c) (placeholders message) message → (placeholders message).all (isLegible c) →
        runOn (interpolate message) c = (.ok (substitute (stateText c) message), c)) ∧
      (Steady (stateText c) (placeholders message) message →
        Undisturbed (stateText c) (placeholders message) message) := by
  have turns : runOn (interpolate message) c =
      ((turnsAt c message (placeholders message)).mapError .number, c) := by
    rw [runOn_interpolate, interpolateAt_eq]
  refine ⟨?_, fun calm legible => ?_, Steady.undisturbed⟩
  · rw [turns, turnsAt]
    split <;> rfl
  · rw [turns, turnsAt, if_pos legible, afterTurns_eq (fun _ => isName_of_mem_placeholders) calm,
      substitute_among fun _ mem _ => mem]
    rfl

/-- A state whose texts hold dollar signs and, in one of them, a placeholder. -/
def pricedState : Contents :=
  .ofList [(stateEntry "price", .text "5 $"), (stateEntry "item", .text "$\x7bprice\x7d"),
    (stateEntry "count", .int 3)]

/-- A message that names two values and somebody unknown. -/
def offer : String :=
  "$\x7bcount\x7d for $\x7bprice\x7d, $\x7bwho\x7d"

/-- A message that names a value with a placeholder, and what this placeholder names. -/
def label : String :=
  "$\x7bitem\x7d: $\x7bprice\x7d"

theorem interpolate_in_turns_priced :
    Undisturbed (stateText pricedState) (placeholders offer) offer ∧
      runOn (interpolate offer) pricedState = (.ok "3 for 5 $, $\x7bwho\x7d", pricedState) := by
  have calm : Undisturbed (stateText pricedState) (placeholders offer) offer := by decide +kernel
  have legible : (placeholders offer).all (isLegible pricedState) := by decide +kernel
  have text : substitute (stateText pricedState) offer = "3 for 5 $, $\x7bwho\x7d" := by decide +kernel
  obtain ⟨-, onePass, -⟩ := interpolate_in_turns offer pricedState
  rw [text] at onePass
  exact ⟨calm, onePass calm legible⟩

/-- The turn of the price changes the value of the item, which stays in one pass. -/
theorem value_expanded_again :
    runOn (interpolate label) pricedState = (.ok "5 $: 5 $", pricedState) ∧
      substitute (stateText pricedState) label = "$\x7bprice\x7d: 5 $" ∧
      ¬ ∀ message c, runOn (interpolate message) c = (.ok (substitute (stateText c) message), c) := by
  have turns : interpolateAt pricedState label = .ok "5 $: 5 $" := by decide
  have onePass : substitute (stateText pricedState) label = "$\x7bprice\x7d: 5 $" := by decide
  have run : runOn (interpolate label) pricedState = (.ok "5 $: 5 $", pricedState) := by
    rw [runOn_interpolate, turns]
    rfl
  refine ⟨run, onePass, fun always => ?_⟩
  have same := always label pricedState
  rw [run, onePass] at same
  exact absurd (Except.ok.inj (Prod.mk.inj same).1) (by decide)

end ShortcutRelay.Intent
