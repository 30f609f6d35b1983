import ShortcutRelay.Proofs.Config.Accepted

/-!
# Documents that are refused

A document that is no configuration breaks a rule. Two kinds of values get in front of the rules: a
value that cannot be gone through, where a list of parameters or dialogs belongs, and a parameter's
type that has too many digits to be shown.

* `Document.isSolid` : a value of the first kind, on which `elements` fails;
* `Lawful p` : reading a part of a document fails on broken rules only, as for most parts;
* `Strays d f` : the first thing in a document that is not in order is a value of the two kinds, and
  `f` is the failure that belongs to it;
* `ofDocument_eq_stray_iff` : these are the failures other than broken rules.
-/

namespace ShortcutRelay
open Text Template

/-- The failure is no broken rule. -/
def ConfigFailure.IsStray (f : ConfigFailure) : Prop :=
  ∀ e, f ≠ .invalid e

theorem invalid_or_isStray (f : ConfigFailure) : (∃ e, f = .invalid e) ∨ f.IsStray := by
  cases f with
  | invalid e => exact .inl ⟨e, rfl⟩
  | notIterable | tooManyDigits => exact .inr fun _ => nofun

/-- The value is present, and it is none of those that can be gone through. -/
def Document.isSolid : Document → Bool
  | .bool b => b
  | .int n => n != 0
  | .float x => x != 0.0
  | .date _ | .moment _ => true
  | _ => false

variable {α β : Type}

/-! ## Parts that fail on broken rules only -/

/-- Reading a part fails on broken rules only. -/
def Lawful (p : Parsed α) : Prop :=
  ∀ f, p = .error f → ∃ e, f = .invalid e

theorem lawful_ok (a : α) : Lawful (.ok a) := nofun

theorem lawful_reject (e : ConfigFault) : Lawful (reject e : Parsed α) := by
  rintro f ⟨⟩
  exact ⟨e, rfl⟩

theorem lawful_bind {p : Parsed α} {q : α → Parsed β} (hp : Lawful p) (hq : ∀ a, Lawful (q a)) :
    Lawful (p >>= q) := by
  intro f failed
  rcases bind_eq_error_iff.mp failed with first | ⟨a, -, later⟩
  · exact hp f first
  · exact hq a f later

theorem lawful_mapM {check : α → Parsed β} (each : ∀ a, Lawful (check a)) (items : List α) :
    Lawful (items.mapM check) := by
  induction items with
  | nil => exact lawful_ok []
  | cons item items ih =>
    rw [List.mapM_cons]
    exact lawful_bind (each item) fun _ => lawful_bind ih fun _ => lawful_ok _

theorem lawful_mapPositions {read : Nat → α → Parsed β} (each : ∀ i a, Lawful (read i a)) (i : Nat)
    (items : List α) : Lawful (mapPositions read i items) := by
  induction items generalizing i with
  | nil => exact lawful_ok []
  | cons item items ih =>
    exact lawful_bind (each i item) fun _ => lawful_bind (ih (i + 1)) fun _ => lawful_ok _

/-- A failure that is no broken rule comes from behind a lawful part. -/
theorem Lawful.bind_eq_error_iff {p : Parsed α} (lawful : Lawful p) {f : ConfigFailure}
    (stray : f.IsStray) {q : α → Parsed β} :
    p >>= q = .error f ↔ ∃ a, p = .ok a ∧ q a = .error f := by
  rw [ShortcutRelay.bind_eq_error_iff]
  refine or_iff_right fun failed => ?_
  obtain ⟨e, same⟩ := lawful f failed
  exact stray e same

theorem Lawful.ne_error {p : Parsed α} (lawful : Lawful p) {f : ConfigFailure} (stray : f.IsStray) :
    p ≠ .error f := by
  intro failed
  obtain ⟨e, same⟩ := lawful f failed
  exact stray e same

/-- A failure that is no broken rule comes from behind a check. -/
theorem check_eq_error_iff {broken : Prop} [Decidable broken] {e : ConfigFault}
    {next : Unit → Parsed α} {f : ConfigFailure} (stray : f.IsStray) :
    (if broken then reject e >>= next else next ()) = .error f ↔ ¬ broken ∧ next () = .error f := by
  split
  · next given =>
    constructor
    · rintro ⟨⟩
      exact absurd rfl (stray e)
    · rintro ⟨fine, -⟩
      exact absurd given fine
  · next fine => exact ⟨fun failed => ⟨fine, failed⟩, And.right⟩

section Fields

variable (fields : Fields) (place : Place) (name : FieldName)

theorem lawful_requiredText : Lawful (requiredText fields place name) := by
  unfold requiredText
  split
  · split
    · exact lawful_reject _
    · exact lawful_ok _
  · exact lawful_reject _

theorem lawful_optionalText : Lawful (optionalText fields place name) := by
  unfold optionalText
  split
  · exact lawful_ok _
  · exact lawful_ok _
  · exact lawful_ok _
  · exact lawful_reject _

theorem lawful_optionalFlag (default : Bool) : Lawful (optionalFlag fields place default name) := by
  unfold optionalFlag
  split
  · exact lawful_ok _
  · exact lawful_ok _
  · exact lawful_ok _
  · exact lawful_reject _

end Fields

theorem lawful_parsePhrases (place : Place) (value : Option Document) :
    Lawful (parsePhrases place value) := by
  unfold parsePhrases
  split
  · split
    · exact lawful_reject _
    · refine lawful_mapM (fun item => ?_) _
      split
      · split
        · exact lawful_reject _
        · exact lawful_ok _
      · exact lawful_reject _
  · exact lawful_reject _

theorem lawful_readDialog (identifier : String) (index : Nat) (d : Document) :
    Lawful (readDialog identifier index d) := by
  unfold readDialog
  dsimp only
  split
  · split
    · exact lawful_reject _
    · split
      · refine lawful_bind (lawful_requiredText _ _ _) fun _ => ?_
        exact lawful_bind (lawful_optionalFlag _ _ _ _) fun _ => lawful_ok _
      · exact lawful_reject _
  · exact lawful_reject _

/-! ## Values of the two kinds -/

theorem elements_eq_error_iff {value : Option Document} {f : ConfigFailure} :
    elements value = .error f ↔
      ∃ v, value = some v ∧ v.isSolid = true ∧ f = .notIterable v.fullKind := by
  cases value with
  | none =>
    constructor
    · rintro ⟨⟩
    · rintro ⟨v, ⟨⟩, -⟩
  | some v =>
    have failing (present : Bool) (e : ConfigFailure) :
        (if present then .error e else .ok [] : Parsed (List Document)) = .error f ↔
          present = true ∧ f = e := by
      cases present <;> simp [eq_comm]
    have listed (present : Bool) (items : List Document) :
        (if present then .ok items else .ok [] : Parsed (List Document)) = .error f ↔
          false = true ∧ f = .notIterable v.fullKind := by
      cases present <;> simp
    simp only [Option.some.injEq, exists_eq_left']
    cases v with
    | null => exact failing false _
    | bool | int | float => exact failing _ _
    | date | moment => exact failing true _
    | text | bytes | list | map | set => exact listed _ _
    | pair => exact listed true _

/-- In front of a lawful part, going through a value fails on its own only. -/
theorem elements_bind_eq_error_iff {value : Option Document} {q : List Document → Parsed β}
    (lawful : ∀ items, Lawful (q items)) {f : ConfigFailure} (stray : f.IsStray) :
    elements value >>= q = .error f ↔
      ∃ v, value = some v ∧ v.isSolid = true ∧ f = .notIterable v.fullKind := by
  rw [bind_eq_error_iff, elements_eq_error_iff]
  refine or_iff_left ?_
  rintro ⟨items, -, failed⟩
  exact (lawful items).ne_error stray failed

/-- The parameter is in order up to its type, which is none of the four and has too many digits to
be shown. -/
structure StrayType (identifier : String) (index : Nat) (fields : Fields) : Prop where
  named : ∃ name, isIdentifier name = true ∧
    requiredText fields (.parameter identifier index) (.single "name") = .ok name
  unknown : valueType? (Document.field? "type" fields) = none
  unshown : ((Document.field? "type" fields).getD .null).isShowable = false

theorem rejectType_eq_error_iff {place : Place} {name : String} {type : Document}
    {f : ConfigFailure} (stray : f.IsStray) :
    (rejectType place name type : Parsed α) = .error f ↔
      type.isShowable = false ∧ f = .tooManyDigits := by
  unfold rejectType
  split
  · next shown =>
    refine iff_of_false ((lawful_reject _).ne_error stray) ?_
    rintro ⟨unshown, -⟩
    cases shown.symm.trans unshown
  · next unshown =>
    constructor
    · rintro ⟨⟩
      exact ⟨Bool.eq_false_iff.mpr unshown, rfl⟩
    · rintro ⟨-, rfl⟩
      rfl

theorem readParameter_eq_error_iff {identifier : String} {index : Nat} {d : Document}
    {f : ConfigFailure} (stray : f.IsStray) : readParameter identifier index d = .error f ↔
      ∃ fields, d = .map fields ∧ StrayType identifier index fields ∧ f = .tooManyDigits := by
  unfold readParameter
  split
  · next fields =>
    simp only [(lawful_requiredText _ _ _).bind_eq_error_iff stray, check_eq_error_iff stray]
    constructor
    · rintro ⟨name, given, isName, failed⟩
      refine ⟨fields, rfl, ?_⟩
      cases known : valueType? (Document.field? "type" fields) with
      | some type =>
        simp only [known] at failed
        refine absurd failed (Lawful.ne_error ?_ stray)
        refine lawful_bind (lawful_requiredText _ _ _) fun _ => ?_
        refine lawful_bind (lawful_optionalFlag _ _ _ _) fun _ => ?_
        exact lawful_bind (lawful_optionalText _ _ _) fun _ => lawful_ok _
      | none =>
        simp only [known] at failed
        obtain ⟨unshown, same⟩ := (rejectType_eq_error_iff stray).mp failed
        exact ⟨⟨⟨name, by simpa using isName, given⟩, known, unshown⟩, same⟩
    · rintro ⟨_, ⟨⟩, ⟨⟨name, isName, given⟩, unknown, unshown⟩, same⟩
      refine ⟨name, given, by simpa using isName, ?_⟩
      simp only [unknown]
      exact (rejectType_eq_error_iff stray).mpr ⟨unshown, same⟩
  · next other =>
    refine iff_of_false ((lawful_reject _).ne_error stray) ?_
    rintro ⟨fields, rfl, -⟩
    exact other fields rfl

/-! ## Shortcuts -/

/-- What stands in front of the parameters of a shortcut is in order. -/
structure Headed (index : Nat) (fields : Fields) (identifier : String) : Prop where
  identified : requiredText fields (.shortcutAt index) (.single "identifier") = .ok identifier
  symbol : isIdentifier (symbolCase identifier) = true
  phrases : ∃ phrases, parsePhrases (.shortcut identifier) (Document.field? "phrases" fields) =
    .ok phrases

/-- The parameters of a shortcut are in order. -/
def Parametric (fields : Fields) (identifier : String) : Prop :=
  ∃ items parameters, elements (Document.field? "parameters" fields) = .ok items ∧
    mapPositions (readParameter identifier) 0 items = .ok parameters ∧
    firstRepeated? [] (parameters.map (·.name)) = none

/-- The first thing in a shortcut that is not in order is of the two kinds, with the failure that
belongs to it. -/
inductive ShortcutStrays (index : Nat) (fields : Fields) : ConfigFailure → Prop
  | parameters {identifier : String} {v : Document} (head : Headed index fields identifier)
      (given : Document.field? "parameters" fields = some v) (solid : v.isSolid = true) :
      ShortcutStrays index fields (.notIterable v.fullKind)
  | parameterType {identifier : String} {before after : List Document} {inner : Fields}
      {earlier : List Parameter} (head : Headed index fields identifier)
      (listed : elements (Document.field? "parameters" fields) =
        .ok (before ++ .map inner :: after))
      (read : mapPositions (readParameter identifier) 0 before = .ok earlier)
      (stray : StrayType identifier before.length inner) :
      ShortcutStrays index fields .tooManyDigits
  | dialogs {identifier : String} {v : Document} (head : Headed index fields identifier)
      (parameters : Parametric fields identifier)
      (given : pick? fields ⟨"stateDialogs", "state_dialogs"⟩ = some v) (solid : v.isSolid = true) :
      ShortcutStrays index fields (.notIterable v.fullKind)

theorem readShortcut_eq_error_iff {index : Nat} {d : Document} {f : ConfigFailure}
    (stray : f.IsStray) : readShortcut index d = .error f ↔
      ∃ fields, d = .map fields ∧ ShortcutStrays index fields f := by
  unfold readShortcut
  split
  · next fields =>
    simp only [(lawful_requiredText _ _ _).bind_eq_error_iff stray, check_eq_error_iff stray,
      (lawful_parsePhrases _ _).bind_eq_error_iff stray]
    constructor
    · rintro ⟨identifier, identified, symbol, phrases, spoken, failed⟩
      have head : Headed index fields identifier :=
        ⟨identified, by simpa using symbol, phrases, spoken⟩
      refine ⟨fields, rfl, ?_⟩
      rcases bind_eq_error_iff.mp failed with unlisted | ⟨items, listed, failed⟩
      · obtain ⟨v, given, solid, rfl⟩ := elements_eq_error_iff.mp unlisted
        exact .parameters head given solid
      rcases bind_eq_error_iff.mp failed with unread | ⟨parameters, read, failed⟩
      · obtain ⟨before, p, after, earlier, rfl, read, unread⟩ := mapPositions_eq_error_iff.mp unread
        obtain ⟨inner, rfl, strays, rfl⟩ := (readParameter_eq_error_iff stray).mp unread
        rw [Nat.zero_add] at strays
        exact .parameterType head listed read strays
      cases distinct : firstRepeated? [] (parameters.map (·.name)) with
      | some name =>
        simp only [distinct] at failed
        cases failed
        exact absurd rfl (stray _)
      | none =>
        simp only [distinct] at failed
        rw [elements_bind_eq_error_iff (fun _ => ?_) stray] at failed
        · obtain ⟨v, given, solid, rfl⟩ := failed
          exact .dialogs head ⟨items, parameters, listed, read, distinct⟩ given solid
        · refine lawful_bind (lawful_mapPositions (lawful_readDialog identifier) 0 _) fun _ => ?_
          refine lawful_bind (lawful_requiredText _ _ _) fun _ => ?_
          refine lawful_bind (lawful_optionalText _ _ _) fun _ => ?_
          exact lawful_bind (lawful_optionalText _ _ _) fun _ => lawful_ok _
    · rintro ⟨_, ⟨⟩, strays⟩
      cases strays with
      | parameters head given solid =>
        obtain ⟨identified, symbol, phrases, spoken⟩ := head
        refine ⟨_, identified, by simpa using symbol, phrases, spoken, ?_⟩
        exact bind_eq_error_iff.mpr (.inl (elements_eq_error_iff.mpr ⟨_, given, solid, rfl⟩))
      | parameterType head listed read strays =>
        obtain ⟨identified, symbol, phrases, spoken⟩ := head
        refine ⟨_, identified, by simpa using symbol, phrases, spoken, ?_⟩
        refine bind_eq_error_iff.mpr (.inr ⟨_, listed, bind_eq_error_iff.mpr (.inl ?_)⟩)
        refine mapPositions_eq_error_iff.mpr ⟨_, _, _, _, rfl, read, ?_⟩
        rw [Nat.zero_add]
        exact (readParameter_eq_error_iff stray).mpr ⟨_, rfl, strays, rfl⟩
      | dialogs head parameters given solid =>
        obtain ⟨identified, symbol, phrases, spoken⟩ := head
        obtain ⟨items, parameters, listed, read, distinct⟩ := parameters
        refine ⟨_, identified, by simpa using symbol, phrases, spoken, ?_⟩
        refine bind_eq_error_iff.mpr (.inr ⟨_, listed, bind_eq_error_iff.mpr (.inr ⟨_, read, ?_⟩)⟩)
        simp only [distinct]
        exact bind_eq_error_iff.mpr (.inl (elements_eq_error_iff.mpr ⟨_, given, solid, rfl⟩))
  · next other =>
    refine iff_of_false ((lawful_reject _).ne_error stray) ?_
    rintro ⟨fields, rfl, -⟩
    exact other fields rfl

/-! ## Documents -/

/-- The first thing in a document that is not in order is of the two kinds, with the failure that
belongs to it. -/
inductive Strays : Document → ConfigFailure → Prop
  | shortcut {fields inner : Fields} {before after : List Document} {earlier : List Shortcut}
      {f : ConfigFailure}
      (listed : Document.field? "shortcuts" fields = some (.list (before ++ .map inner :: after)))
      (read : mapPositions readShortcut 0 before = .ok earlier)
      (stray : ShortcutStrays before.length inner f) : Strays (.map fields) f

theorem Strays.isStray {d : Document} {f : ConfigFailure} (h : Strays d f) : f.IsStray := by
  obtain ⟨-, -, stray⟩ := h
  cases stray <;> exact nofun

/-- The failures of a document other than broken rules are those of the two kinds. -/
theorem ofDocument_eq_stray_iff {d : Document} {f : ConfigFailure} (stray : f.IsStray) :
    Config.ofDocument d = .error f ↔ Strays d f := by
  unfold Config.ofDocument
  split
  · next fields =>
    split
    · next given found =>
      split
      · next items =>
        rw [check_eq_error_iff stray]
        constructor
        · rintro ⟨-, failed⟩
          rcases bind_eq_error_iff.mp failed with unread | ⟨shortcuts, -, failed⟩
          · obtain ⟨before, s, after, earlier, rfl, read, unread⟩ :=
              mapPositions_eq_error_iff.mp unread
            obtain ⟨inner, rfl, strays⟩ := (readShortcut_eq_error_iff stray).mp unread
            rw [Nat.zero_add] at strays
            exact .shortcut found read strays
          · refine absurd failed (Lawful.ne_error ?_ stray)
            dsimp only
            split
            · exact lawful_bind (lawful_reject _) fun _ => lawful_bind (lawful_optionalText _ _ _)
                fun _ => lawful_bind (lawful_optionalFlag _ _ _ _) fun _ => lawful_ok _
            · exact lawful_bind (lawful_optionalText _ _ _) fun _ =>
                lawful_bind (lawful_optionalFlag _ _ _ _) fun _ => lawful_ok _
        · rintro ⟨listed, read, strays⟩
          cases found.symm.trans listed
          refine ⟨by simp, bind_eq_error_iff.mpr (.inl ?_)⟩
          refine mapPositions_eq_error_iff.mpr ⟨_, _, _, _, rfl, read, ?_⟩
          rw [Nat.zero_add]
          exact (readShortcut_eq_error_iff stray).mpr ⟨_, rfl, strays⟩
      · next other =>
        refine iff_of_false ((lawful_reject _).ne_error stray) ?_
        rintro ⟨listed, -, -⟩
        cases found.symm.trans listed
        exact other _ rfl
    · next missing =>
      refine iff_of_false ((lawful_reject _).ne_error stray) ?_
      rintro ⟨listed, -, -⟩
      exact missing _ listed
  · next other =>
    refine iff_of_false ((lawful_reject _).ne_error stray) ?_
    rintro ⟨-, -, -⟩
    exact other _ rfl

end ShortcutRelay
