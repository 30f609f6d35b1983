import Mathlib.Data.List.Forall2
import ShortcutRelay.App.Invocation
import ShortcutRelay.Proofs.Calendar.Range
import ShortcutRelay.Proofs.Except
import ShortcutRelay.Proofs.Protocol.Pending

/-!
# Which commands can be read and handed over

The numbers of a command are read as doubles, and its times are made moments of the calendar. Each of
the two may fail: the first before the command is cleared, the second after it.

* `StoredValue.seconds?` : the seconds that a value is made a moment of, `resolve_cases`;
* `StoredValue.resolve_ok_iff` : when there is a value of the declared type;
* `StoredValue.Becomes` : what a value may become, `becomes_of_resolve`;
* `Command.Timeless` : a parameter of a command stands for no moment, `ofCommand_timeless`;
* `Invocation.Carries` : an invocation is for a command, `carries_of_not_timeless`;
* `Oversized` : a number of a command fits no double, `decodeParameters_oversized`;
* `runOn_readCommand_oversized`, `pending_of_not_oversized` : what a look for a command finds.
-/

namespace ShortcutRelay
open Protocol Calendar

/-! ## Values -/

def ValueType.Holds : ValueType → Document → Prop
  | .text, .text _ | .number, .float _ | .boolean, .bool _ | .date, .moment _ => True
  | _, _ => False

namespace StoredValue

variable {v : StoredValue} {declared : Option ValueType} {value : Document}

/-- The seconds that a value is made a moment of: those of a time, unless a number or a truth value is
declared, and those of a number where a date is. -/
def seconds? (v : StoredValue) (declared : Option ValueType) : Option Float :=
  match v, declared with
  | timestamp _, some .number | timestamp _, some .boolean => none
  | timestamp x, _ | number x, some .date => some x
  | _, _ => none

/-- A value is there at once, or it is what a function makes of the moment of some seconds. -/
theorem resolve_cases (v : StoredValue) (declared : Option ValueType) :
    (v.seconds? declared = none ∧ ∃ value, v.resolve declared = .ok value) ∨
      ∃ x, ∃ f : Moment → Document,
        v.seconds? declared = some x ∧ v.resolve declared = f <$> Moment.ofEpoch x := by
  cases v with
  | text s =>
    cases declared with
    | none => exact .inl ⟨rfl, _, rfl⟩
    | some type => cases type <;> exact .inl ⟨rfl, _, rfl⟩
  | boolean b =>
    cases declared with
    | none => exact .inl ⟨rfl, _, rfl⟩
    | some type => cases type <;> exact .inl ⟨rfl, _, rfl⟩
  | number x =>
    cases declared with
    | none => exact .inl ⟨rfl, _, rfl⟩
    | some type =>
      cases type with
      | date => exact .inr ⟨x, .moment, rfl, rfl⟩
      | _ => exact .inl ⟨rfl, _, rfl⟩
  | timestamp x =>
    cases declared with
    | none => exact .inr ⟨x, .moment, rfl, rfl⟩
    | some type =>
      cases type with
      | number | boolean => exact .inl ⟨rfl, _, rfl⟩
      | text =>
        refine .inr ⟨x, fun m => .text (m.textWith " "), rfl, ?_⟩
        change (Moment.ofEpoch x >>= fun m => Except.ok (Document.text (m.textWith " "))) = _
        cases Moment.ofEpoch x <;> rfl
      | date | other name => exact .inr ⟨x, .moment, rfl, rfl⟩

/-- Only a number of seconds outside the calendar has no value of the declared type. -/
theorem resolve_ok_iff (v : StoredValue) (declared : Option ValueType) :
    (∃ value, v.resolve declared = .ok value) ↔
      ∀ x, v.seconds? declared = some x → Moment.InCalendar x := by
  rcases v.resolve_cases declared with ⟨none_needed, done⟩ | ⟨x, f, needed, made⟩
  · refine ⟨fun _ x there => ?_, fun _ => done⟩
    rw [none_needed] at there
    cases there
  · rw [made, needed]
    constructor
    · rintro ⟨value, done⟩ y ⟨⟩
      rw [← Moment.ofEpoch_ok_iff]
      cases there : Moment.ofEpoch x with
      | ok m => exact ⟨m, rfl⟩
      | error e =>
        rw [there] at done
        cases done
    · intro within
      obtain ⟨m, there⟩ := (Moment.ofEpoch_ok_iff x).mpr (within x rfl)
      rw [there]
      exact ⟨f m, rfl⟩

/-- What a value may become: one of the declared type, or what it is by itself. -/
inductive Becomes (v : StoredValue) (declared : Option ValueType) (value : Document) : Prop
  | coerced {type : ValueType} (known : declared = some type) (holds : type.Holds value)
  | itself (natural : v.natural = .ok value)

theorem becomes_of_resolve (h : v.resolve declared = .ok value) : v.Becomes declared value := by
  -- the value of a text that may be read, by whether it can be
  have read {α : Type} {type : ValueType} {s : String} {f : α → Document} {found : Option α}
      (known : declared = some type) (holds : ∀ a, type.Holds (f a)) (text : v = .text s)
      (done : (found.map f).getD (.text s) = value) : v.Becomes declared value := by
    subst done
    cases found with
    | none =>
      subst text
      exact .itself rfl
    | some a => exact .coerced known (holds a)
  cases declared with
  | none => exact .itself h
  | some type =>
    cases type with
    | other name => exact .itself h
    | text =>
      cases v with
      | text s =>
        cases h
        exact .itself rfl
      | timestamp x =>
        obtain ⟨m, -, done⟩ := of_bind_eq_ok h
        cases done
        exact .coerced rfl trivial
      | _ =>
        cases h
        exact .coerced rfl trivial
    | number =>
      cases v with
      | text s => exact read (f := .float) rfl (fun _ => trivial) rfl (Except.ok.inj h)
      | _ =>
        cases h
        exact .coerced rfl trivial
    | boolean =>
      cases v with
      | text s =>
        have done : ((truthOfText? s).map Document.bool).getD (.text s) = value := by
          rw [resolve, resolveBoolean] at h
          exact Except.ok.inj h
        exact read (f := .bool) rfl (fun _ => trivial) rfl done
      | _ =>
        cases h
        exact .coerced rfl trivial
    | date =>
      cases v with
      | text s => exact read (f := .moment) rfl (fun _ => trivial) rfl (Except.ok.inj h)
      | boolean b =>
        cases h
        exact .itself rfl
      | _ =>
        obtain ⟨m, -, done⟩ := of_bind_eq_ok h
        cases done
        exact .coerced rfl trivial

end StoredValue

/-! ## Parameters -/

def declaredType (shortcut : Option Shortcut) (name : String) : Option ValueType :=
  (shortcut.bind (·.parameter? name)).map (·.type)

/-- A parameter is made a moment of seconds that are outside the calendar. -/
def Timeless (shortcut : Option Shortcut) (vs : List (String × StoredValue)) : Prop :=
  ∃ v ∈ vs, ∃ x, v.2.seconds? (declaredType shortcut v.1) = some x ∧ ¬ Moment.InCalendar x

/-- The parameters have the names of others, with what these may become. -/
def Resolved (shortcut : Option Shortcut) (vs : List (String × StoredValue))
    (ps : List (String × Document)) : Prop :=
  List.Forall₂ (fun v p => p.1 = v.1 ∧ v.2.Becomes (declaredType shortcut v.1) p.2) vs ps

variable {shortcut : Option Shortcut} {vs : List (String × StoredValue)}

theorem resolveParameters_timeless (h : Timeless shortcut vs) :
    ∃ e, resolveParameters shortcut vs = .error e := by
  obtain ⟨v, there, x, seconds, outside⟩ := h
  induction vs with
  | nil => cases there
  | cons w vs ih =>
    obtain ⟨name, raw⟩ := w
    change ∃ e, (raw.resolve (declaredType shortcut name) >>= _) = Except.error e
    cases resolved : raw.resolve (declaredType shortcut name) with
    | error e => exact ⟨e, rfl⟩
    | ok value =>
      rcases List.mem_cons.mp there with rfl | later
      · exact absurd ((StoredValue.resolve_ok_iff ..).mp ⟨value, resolved⟩ x seconds) outside
      · obtain ⟨e, failed⟩ := ih later
        rw [ok_bind, failed]
        exact ⟨e, rfl⟩

theorem resolveParameters_resolved (h : ¬ Timeless shortcut vs) :
    ∃ ps, resolveParameters shortcut vs = .ok ps ∧ Resolved shortcut vs ps := by
  induction vs with
  | nil => exact ⟨[], rfl, List.Forall₂.nil⟩
  | cons v vs ih =>
    obtain ⟨name, raw⟩ := v
    have within (x : Float) (seconds : raw.seconds? (declaredType shortcut name) = some x) :
        Moment.InCalendar x := by
      refine Classical.byContradiction fun outside => ?_
      exact h ⟨_, List.mem_cons_self, x, seconds, outside⟩
    obtain ⟨value, resolved⟩ := (raw.resolve_ok_iff _).mpr within
    obtain ⟨ps, others, related⟩ := ih fun ⟨v, there, timeless⟩ =>
      h ⟨v, List.mem_cons_of_mem _ there, timeless⟩
    refine ⟨(name, value) :: ps, ?_, List.Forall₂.cons ⟨rfl, StoredValue.becomes_of_resolve resolved⟩ related⟩
    change (raw.resolve (declaredType shortcut name) >>= _) = _
    rw [resolved, ok_bind, others]
    rfl

/-! ## Invocations -/

def Protocol.Command.shortcut? (c : Command) (config : Option Config) : Option Shortcut :=
  config.bind (·.shortcut? c.identifier)

/-- A parameter of the command stands for a moment outside the calendar. -/
def Protocol.Command.Timeless (c : Command) (config : Option Config) : Prop :=
  ShortcutRelay.Timeless (c.shortcut? config) c.parameters

/-- The invocation is for the command: it has its identifier and its nonce, the user's confirmation,
and all parameters, which are as their types want them or as they are by themselves. -/
structure Invocation.Carries (i : Invocation) (config : Option Config) (c : Command) : Prop where
  identifier : i.identifier = c.identifier
  nonce : i.nonce = c.nonce
  userConfirmed : i.userConfirmed = c.userConfirmed
  raw : i.raw = c.parameters
  parameters : Resolved (c.shortcut? config) c.parameters i.parameters

variable {config : Option Config} {command : Command}

theorem ofCommand_timeless (h : command.Timeless config) :
    ∃ e, Invocation.ofCommand config command = .error e := by
  obtain ⟨e, failed⟩ := resolveParameters_timeless h
  refine ⟨e, ?_⟩
  change (resolveParameters (command.shortcut? config) command.parameters >>= _) = _
  rw [failed]
  rfl

theorem carries_of_not_timeless (h : ¬ command.Timeless config) :
    ∃ i, Invocation.ofCommand config command = .ok i ∧ i.Carries config command := by
  obtain ⟨ps, resolved, related⟩ := resolveParameters_resolved h
  refine ⟨{
      identifier := command.identifier
      nonce := command.nonce
      parameters := ps
      userConfirmed := command.userConfirmed
      raw := command.parameters }, ?_, ⟨rfl, rfl, rfl, rfl, related⟩⟩
  change (resolveParameters (command.shortcut? config) command.parameters >>= _) = _
  rw [resolved]
  rfl

/-! ## Numbers in the store -/

namespace Protocol

/-- The time of a command or a parameter that is read as a number fits no double. -/
inductive Oversized (c : Contents) : Prop
  | timestamp {raw : Document} (there : c.get? commandTimestamp = some raw)
    (large : raw.fitsDouble = false)
  | parameter {name : String} {raw : Document} (there : c.get? (parameterEntry name) = some raw)
    (large : raw.fitsDouble = false) (tag : isText booleanTag (tagAt c name) = false)

theorem decodeParameter_oversized {raw tag : Document} (large : raw.fitsDouble = false)
    (untagged : isText booleanTag tag = false) : decodeParameter raw tag = .error .tooLarge := by
  obtain ⟨-, failed⟩ := Document.toFloat_of_not_fitsDouble large
  cases raw with
  | int n =>
    have read (f : Float → StoredValue) :
        (do return some (f (← (Document.int n).toFloat)) : Except NumberError (Option StoredValue)) =
          .error .tooLarge := by
      rw [failed]
      rfl
    unfold decodeParameter
    rw [untagged]
    split
    · exact read .timestamp
    · exact read .number
  | _ => cases large

theorem decodeParameter_boolean {raw tag : Document} (large : raw.fitsDouble = false)
    (tagged : isText booleanTag tag = true) : decodeParameter raw tag = .ok (some (.boolean raw.truthy)) := by
  cases tag with
  | text s =>
    obtain rfl : s = booleanTag := by simpa [isText] using tagged
    unfold decodeParameter
    rw [tagged, (Document.toFloat_of_not_fitsDouble large).1]
    rfl
  | _ => cases tagged

variable {c : Contents}

theorem doubleAt_oversized {key : String} {raw : Document} (there : c.get? key = some raw)
    (large : raw.fitsDouble = false) : doubleAt c key = .error .tooLarge := by
  obtain ⟨-, failed⟩ := Document.toFloat_of_not_fitsDouble large
  cases raw with
  | int n =>
    rw [doubleAt, there]
    change (some <$> (Document.int n).toFloat >>= _) = Except.error NumberError.tooLarge
    rw [failed]
    rfl
  | _ => cases large

theorem decodeParameters_oversized {es : List (String × Document)} {name : String} {raw : Document}
    (there : (parameterEntry name, raw) ∈ es) (large : raw.fitsDouble = false)
    (untagged : isText booleanTag (tagAt c name) = false) :
    decodeParameters c es = .error .tooLarge := by
  induction es with
  | nil => cases there
  | cons e es ih =>
    obtain ⟨key, other⟩ := e
    rw [decodeParameters]
    rcases List.mem_cons.mp there with here | later
    · cases here
      rw [parameterEntry, Text.afterStart?_append]
      change (decodeParameter raw (tagAt c name) >>= _) = _
      rw [decodeParameter_oversized large untagged]
      rfl
    · rw [ih later]
      cases Text.afterStart? parameterStart key with
      | none => rfl
      | some n =>
        change (decodeParameter other (tagAt c n) >>= _) = _
        cases fits : other.fitsDouble with
        | true =>
          obtain ⟨found, decoded⟩ := decodeParameter_ok fits (tagAt c n)
          rw [decoded]
          rfl
        | false =>
          cases tagged : isText booleanTag (tagAt c n) with
          | true =>
            rw [decodeParameter_boolean fits tagged]
            rfl
          | false =>
            rw [decodeParameter_oversized fits tagged]
            rfl

variable {identifier nonce : String}

/-- A command with a number that fits no double is not readable. -/
theorem runOn_readCommand_oversized (hi : textAt c commandIdentifier = .ok (some identifier))
    (hn : textAt c commandNonce = .ok (some nonce)) (h : Oversized c) :
    runOn readCommand c = (.error (.number .tooLarge), c) := by
  rw [runOn_readCommand_found hi hn]
  by_cases fits : ∀ raw, c.get? commandTimestamp = some raw → raw.fitsDouble = true
  · obtain ⟨timestamp, read⟩ := doubleAt_ok fits
    rw [read]
    cases h with
    | timestamp there large =>
      rw [fits _ there] at large
      cases large
    | parameter there large untagged =>
      rw [decodeParameters_oversized ((c.get?_eq_some_iff ..).mp there) large untagged]
  · push Not at fits
    obtain ⟨raw, there, large⟩ := fits
    rw [doubleAt_oversized there (by simpa using large)]

theorem Pending.not_oversized {command : Command} (h : Pending c command) : ¬ Oversized c := by
  intro oversized
  have failed := runOn_readCommand_oversized h.texts.1 h.texts.2 oversized
  rw [h] at failed
  cases failed

/-- Any other command is readable. -/
theorem pending_of_not_oversized (hi : textAt c commandIdentifier = .ok (some identifier))
    (hn : textAt c commandNonce = .ok (some nonce)) (h : ¬ Oversized c) : ∃ command, Pending c command := by
  have timestamp (raw : Document) (there : c.get? commandTimestamp = some raw) :
      raw.fitsDouble = true := by
    cases fits : raw.fitsDouble with
    | true => rfl
    | false => exact absurd (.timestamp there fits) h
  have parameter (name : String) (raw : Document) (there : (parameterEntry name, raw) ∈ c.toList) :
      ∃ found, decodeParameter raw (tagAt c name) = .ok found := by
    cases fits : raw.fitsDouble with
    | true => exact decodeParameter_ok fits _
    | false =>
      cases tagged : isText booleanTag (tagAt c name) with
      | true => exact ⟨_, decodeParameter_boolean fits tagged⟩
      | false => exact absurd (.parameter ((c.get?_eq_some_iff ..).mpr there) fits tagged) h
  obtain ⟨time, read⟩ := doubleAt_ok timestamp
  exact ⟨_, by rw [Pending, runOn_readCommand_found hi hn, read, decodeParameters_eq parameter]⟩

end Protocol

end ShortcutRelay
