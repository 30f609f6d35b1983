import ShortcutRelay.Proofs.Config.Accepted

/-!
# Two spellings of a field

A field whose name has several words may be spelled with underscores. Where a document has none that
is spelled so, any of them may be: the configuration stays the same, and so does the failure.

* `spellings` : the names with two spellings, `respell` : a name in the spelling that is chosen;
* `Spelling`, `Document.respelled` : a choice for each mapping that is read, and the document with it;
* `Document.Plain` : none of these mappings has a field that is spelled with underscores;
* `pick?_respellFields` : a field is found in either spelling;
* `readDialog_respelled`, `readShortcut_respelled`, `ofDocument_respelled` : so what is read from a
  dialog, a shortcut and the document does not depend on the choice.
-/

namespace ShortcutRelay

/-! ## Names -/

/-- The names with several words, in capitals and with underscores. -/
def spellings : List (String × String) :=
  [("appGroupId", "app_group_id"), ("systemImageName", "system_image_name"),
   ("stateDialogs", "state_dialogs"), ("stateKey", "state_key"), ("showWhen", "show_when"),
   ("requiresConfirmation", "requires_confirmation")]

/-- A name, with underscores if it has two spellings and is chosen. -/
def respell (chosen : String → Bool) (name : String) : String :=
  match spellings.lookup name with
  | some other => if chosen name then other else name
  | none => name

/-- A name is not spelled with underscores. -/
def IsPlain (name : String) : Prop :=
  ∀ s ∈ spellings, name ≠ s.2

/-- A field that has its two spellings in the list, or only one, which is not in the list. -/
def FieldName.Listed (f : FieldName) : Prop :=
  (f.name, f.alternative) ∈ spellings ∨
    f.alternative = f.name ∧ ∀ s ∈ spellings, f.name ≠ s.1 ∧ f.name ≠ s.2

instance (f : FieldName) : Decidable f.Listed :=
  inferInstanceAs (Decidable (_ ∨ _))

/-- No spelling belongs to two fields. -/
theorem spellings_apart : ∀ s ∈ spellings, ∀ t ∈ spellings,
    s.1 ≠ t.2 ∧ (s.1 = t.1 ↔ s.2 = t.2) := by
  decide

variable {chosen : String → Bool} {f : FieldName}

theorem respell_cases (chosen : String → Bool) (name : String) :
    respell chosen name = name ∨ (name, respell chosen name) ∈ spellings := by
  unfold respell
  split
  · next other found =>
    split
    · obtain ⟨before, after, listed, -⟩ := List.lookup_eq_some_iff.mp found
      exact .inr (listed ▸ List.mem_append_right before List.mem_cons_self)
    · exact .inl rfl
  · exact .inl rfl

theorem FieldName.Listed.respell_cases (listed : f.Listed) (chosen : String → Bool) :
    respell chosen f.name = f.name ∨ respell chosen f.name = f.alternative := by
  rcases ShortcutRelay.respell_cases chosen f.name with same | other
  · exact .inl same
  · rcases listed with two | ⟨-, apart⟩
    · exact .inr ((spellings_apart _ other _ two).2.mp rfl)
    · exact absurd rfl (apart _ other).1

/-- Only the name of a field is turned into one of its spellings. -/
theorem FieldName.Listed.eq_of_respell (listed : f.Listed) {name : String} (plain : IsPlain name)
    (h : respell chosen name = f.name ∨ respell chosen name = f.alternative) : name = f.name := by
  rcases ShortcutRelay.respell_cases chosen name with same | other
  · rw [same] at h
    rcases listed with two | ⟨one, -⟩
    · exact h.resolve_right (plain _ two)
    · rwa [one, or_self] at h
  · rcases listed with two | ⟨one, apart⟩
    · rcases h with first | second
      · exact absurd first.symm (spellings_apart _ two _ other).1
      · exact (spellings_apart _ other _ two).2.mpr second
    · rw [one, or_self] at h
      exact absurd h.symm (apart _ other).2

/-! ## Mappings -/

/-- The fields of a mapping, spelled as chosen, and their values as they are then. -/
def respellFields (chosen : String → Bool) (values : String → Document → Document)
    (fields : Fields) : Fields :=
  fields.map fun
    | (.text name, v) => (.text (respell chosen name), values name v)
    | field => field

def PlainFields (fields : Fields) : Prop :=
  ∀ field ∈ fields, ∀ name, field.1 = .text name → IsPlain name

section Fields

variable {values : String → Document → Document} {fields : Fields}

/-- What is found under a key that one name only is turned into. -/
theorem field?_respellFields {name key : String}
    (only : ∀ field ∈ fields, ∀ other, field.1 = .text other → respell chosen other = key →
      other = name) :
    Document.field? key (respellFields chosen values fields) =
      if respell chosen name = key then (Document.field? name fields).map (values name)
      else none := by
  induction fields with
  | nil => simp [respellFields, Document.field?]
  | cons field fields ih =>
    have rest := ih fun field mem => only field (List.mem_cons_of_mem _ mem)
    have here := only field List.mem_cons_self
    obtain ⟨k, v⟩ := field
    simp only [respellFields, List.map_cons] at rest ⊢
    cases k with
    | text other =>
      simp only [Document.field?]
      by_cases turned : respell chosen other = key
      · obtain rfl := here other rfl turned
        rw [if_pos turned, if_pos turned, if_pos rfl, Option.map_some]
      · rw [if_neg turned, rest]
        by_cases same : other = name
        · rw [same] at turned
          rw [if_neg turned, if_neg turned]
        · rw [if_neg same]
    | _ => simpa only [Document.field?] using rest

theorem field?_eq_none {key : String} (absent : ∀ field ∈ fields, field.1 ≠ .text key) :
    Document.field? key fields = none := by
  induction fields with
  | nil => rfl
  | cons field fields ih =>
    have rest := ih fun field mem => absent field (List.mem_cons_of_mem _ mem)
    have here := absent field List.mem_cons_self
    obtain ⟨k, v⟩ := field
    cases k with
    | text other =>
      have differs : other ≠ key := fun same => here (same ▸ rfl)
      rw [Document.field?, if_neg differs, rest]
    | _ => simpa only [Document.field?] using rest

theorem pick?_eq_field? (listed : f.Listed) (plain : PlainFields fields) :
    pick? fields f = Document.field? f.name fields := by
  unfold pick?
  cases named : Document.field? f.name fields with
  | some v => rfl
  | none =>
    rcases listed with two | ⟨one, -⟩
    · exact field?_eq_none fun field mem same => plain field mem _ same _ two rfl
    · exact one ▸ named

/-- A field is found in either spelling. -/
theorem pick?_respellFields (listed : f.Listed) (plain : PlainFields fields)
    (chosen : String → Bool) (values : String → Document → Document) :
    pick? (respellFields chosen values fields) f = (pick? fields f).map (values f.name) := by
  have under {key : String} (spelled : f.name = key ∨ f.alternative = key) :
      Document.field? key (respellFields chosen values fields) =
        if respell chosen f.name = key then (Document.field? f.name fields).map (values f.name)
        else none := by
    refine field?_respellFields fun field mem other same turned => ?_
    have turned : respell chosen other = f.name ∨ respell chosen other = f.alternative := by
      rw [turned]
      exact spelled.imp Eq.symm Eq.symm
    exact listed.eq_of_respell (plain field mem other same) turned
  rw [pick?_eq_field? listed plain]
  unfold pick?
  rw [under (.inl rfl), under (.inr rfl)]
  cases Document.field? f.name fields with
  | none => simp
  | some v =>
    by_cases first : respell chosen f.name = f.name
    · simp [first]
    · have second := (listed.respell_cases chosen).resolve_left first
      rw [if_neg first, if_pos second]

/-- A field whose value stays as it is. -/
theorem pick?_respellFields_of_eq (listed : f.Listed) (plain : PlainFields fields)
    (chosen : String → Bool) (values : String → Document → Document)
    (same : ∀ v, values f.name v = v) :
    pick? (respellFields chosen values fields) f = pick? fields f := by
  rw [pick?_respellFields listed plain, funext same, Option.map_id']

theorem pick?_single (fields : Fields) (name : String) :
    pick? fields (.single name) = Document.field? name fields := by
  unfold pick? FieldName.single
  cases Document.field? name fields <;> rfl

end Fields

/-! ## Documents -/

def Document.mapFields (change : Fields → Fields) : Document → Document
  | .map fields => .map (change fields)
  | d => d

def Document.fields : Document → Fields
  | .map fields => fields
  | _ => []

def Document.mapItems (change : Nat → Document → Document) : Document → Document
  | .list items => .list (items.mapIdx change)
  | .set items => .set (items.mapIdx change)
  | .pair a b => .pair (change 0 a) (change 1 b)
  | d => d

def Document.items : Document → List Document
  | .list items | .set items => items
  | .pair a b => [a, b]
  | _ => []

def itemsAt (name : String) (fields : Fields) : List Document :=
  ((Document.field? name fields).map Document.items).getD []

/-- A change of the value under one name. -/
def changeAt (name : String) (change : Document → Document) (other : String) (v : Document) :
    Document :=
  if other = name then change v else v

/-- Which names are spelled with underscores: in the document, in each shortcut and in each dialog of
each shortcut. -/
structure Spelling where
  document : String → Bool
  shortcut : Nat → String → Bool
  dialog : Nat → Nat → String → Bool

namespace Spelling

variable (ρ : Spelling)

def respellDialog (i j : Nat) : Document → Document :=
  .mapFields (respellFields (ρ.dialog i j) fun _ v => v)

def respellShortcut (i : Nat) : Document → Document :=
  .mapFields (respellFields (ρ.shortcut i)
    (changeAt "stateDialogs" (.mapItems (ρ.respellDialog i))))

end Spelling

def Document.respelled (d : Document) (ρ : Spelling) : Document :=
  d.mapFields (respellFields ρ.document (changeAt "shortcuts" (.mapItems ρ.respellShortcut)))

/-- Neither a document nor one of its shortcuts or their dialogs has a field that is spelled with
underscores. -/
structure Document.Plain (d : Document) : Prop where
  document : PlainFields d.fields
  shortcuts : ∀ s ∈ itemsAt "shortcuts" d.fields, PlainFields s.fields
  dialogs : ∀ s ∈ itemsAt "shortcuts" d.fields,
    ∀ x ∈ itemsAt "stateDialogs" s.fields, PlainFields x.fields

/-! ## What is read -/

variable {α β : Type} {read : Nat → Document → Parsed α} {change : Nat → Document → Document}

theorem mapPositions_mapIdx {items : List Document} {i : Nat}
    (same : ∀ j, ∀ x ∈ items, read (i + j) (change j x) = read (i + j) x) :
    mapPositions read i (items.mapIdx change) = mapPositions read i items := by
  induction items generalizing i change with
  | nil => rfl
  | cons item items ih =>
    have here := same 0 item List.mem_cons_self
    have rest : mapPositions read (i + 1) (items.mapIdx fun j => change (j + 1)) =
        mapPositions read (i + 1) items := by
      refine ih fun j x mem => ?_
      have there := same (j + 1) x (List.mem_cons_of_mem _ mem)
      rwa [← Nat.add_assoc, Nat.add_right_comm] at there
    rw [Nat.add_zero] at here
    rw [List.mapIdx_cons, mapPositions, mapPositions, rest, here]

theorem elements_list (items : List Document) : elements (some (.list items)) = .ok items := by
  cases items <;> rfl

theorem elements_set (items : List Document) : elements (some (.set items)) = .ok items := by
  cases items <;> rfl

/-- Items that are read in the same way after a change. -/
theorem readItems_mapItems {value : Document}
    (same : ∀ j, ∀ x ∈ value.items, read j (change j x) = read j x) (next : List α → Parsed β) :
    (elements (some (value.mapItems change)) >>= fun items => mapPositions read 0 items >>= next) =
      elements (some value) >>= fun items => mapPositions read 0 items >>= next := by
  have positions : mapPositions read 0 (value.items.mapIdx change) =
      mapPositions read 0 value.items :=
    mapPositions_mapIdx fun j x mem => by rw [Nat.zero_add, same j x mem]
  cases value with
  | list items =>
    rw [Document.mapItems, elements_list, elements_list, ok_bind, ok_bind]
    exact congrArg (· >>= next) positions
  | set items =>
    rw [Document.mapItems, elements_set, elements_set, ok_bind, ok_bind]
    exact congrArg (· >>= next) positions
  | pair a b => exact congrArg (· >>= next) positions
  | _ => rfl

theorem readDialog_respelled {d : Document} (plain : PlainFields d.fields) (identifier : String)
    (ρ : Spelling) (i j : Nat) :
    readDialog identifier j (ρ.respellDialog i j d) = readDialog identifier j d := by
  cases d with
  | map fields =>
    change PlainFields fields at plain
    have same {f : FieldName} (listed : f.Listed) :=
      pick?_respellFields_of_eq listed plain (ρ.dialog i j) (fun _ v => v) fun _ => rfl
    simp only [readDialog, Spelling.respellDialog, Document.mapFields, requiredText, optionalFlag]
    rw [same (f := ⟨"showWhen", "show_when"⟩) (by decide),
      same (f := .single "message") (by decide), same (f := ⟨"stateKey", "state_key"⟩) (by decide),
      same (f := ⟨"requiresConfirmation", "requires_confirmation"⟩) (by decide)]
  | _ => rfl

/-- The items under a name in a mapping are read in the same way after a change of each. -/
theorem readItems_changeAt {fields : Fields} {name : String}
    (same : ∀ j, ∀ x ∈ itemsAt name fields, read j (change j x) = read j x)
    (next : List α → Parsed β) :
    (elements ((Document.field? name fields).map (changeAt name (.mapItems change) name)) >>=
        fun items => mapPositions read 0 items >>= next) =
      elements (Document.field? name fields) >>= fun items => mapPositions read 0 items >>= next := by
  unfold itemsAt at same
  generalize Document.field? name fields = given at same ⊢
  cases given with
  | none => rfl
  | some value =>
    rw [Option.map_some, changeAt, if_pos rfl]
    exact readItems_mapItems same next

theorem readShortcut_respelled {d : Document} (plain : PlainFields d.fields)
    (dialogs : ∀ x ∈ itemsAt "stateDialogs" d.fields, PlainFields x.fields) (ρ : Spelling) (i : Nat) :
    readShortcut i (ρ.respellShortcut i d) = readShortcut i d := by
  cases d with
  | map fields =>
    change PlainFields fields at plain
    change ∀ x ∈ itemsAt "stateDialogs" fields, PlainFields x.fields at dialogs
    have same {f : FieldName} (listed : f.Listed) (other : f.name ≠ "stateDialogs") :=
      pick?_respellFields_of_eq listed plain (ρ.shortcut i)
        (changeAt "stateDialogs" (.mapItems (ρ.respellDialog i))) fun v => if_neg other
    have phrases := same (f := .single "phrases") (by decide) (by decide)
    have parameters := same (f := .single "parameters") (by decide) (by decide)
    rw [pick?_single, pick?_single] at phrases parameters
    simp only [readShortcut, Spelling.respellShortcut, Document.mapFields, requiredText, optionalText]
    rw [same (f := .single "identifier") (by decide) (by decide), phrases, parameters,
      same (f := .single "title") (by decide) (by decide),
      same (f := ⟨"systemImageName", "system_image_name"⟩) (by decide) (by decide),
      same (f := .single "description") (by decide) (by decide),
      pick?_respellFields (f := ⟨"stateDialogs", "state_dialogs"⟩) (by decide) plain,
      pick?_eq_field? (f := ⟨"stateDialogs", "state_dialogs"⟩) (by decide) plain]
    have nested (identifier : String) (next : List ConditionalDialog → Parsed Shortcut) :=
      readItems_changeAt
        (fun j x mem => readDialog_respelled (dialogs x mem) identifier ρ i j) next
    simp only [nested]
  | _ => rfl

/-- The spelling changes neither the configuration that a document describes nor the failure. -/
theorem ofDocument_respelled {d : Document} (plain : d.Plain) (ρ : Spelling) :
    Config.ofDocument (d.respelled ρ) = Config.ofDocument d := by
  obtain ⟨document, shortcuts, dialogs⟩ := plain
  cases d with
  | map fields =>
    change PlainFields fields at document
    have same {f : FieldName} (listed : f.Listed) (other : f.name ≠ "shortcuts") :=
      pick?_respellFields_of_eq listed document ρ.document
        (changeAt "shortcuts" (.mapItems ρ.respellShortcut)) fun v => if_neg other
    have given := pick?_respellFields (f := .single "shortcuts") (by decide) document ρ.document
      (changeAt "shortcuts" (.mapItems ρ.respellShortcut))
    rw [pick?_single, pick?_single] at given
    simp only [Config.ofDocument, Document.respelled, Document.mapFields, optionalText, optionalFlag]
    rw [given, same (f := ⟨"appGroupId", "app_group_id"⟩) (by decide) (by decide),
      same (f := .single "localization") (by decide) (by decide)]
    have shortcut (i : Nat) (s : Document) (mem : s ∈ itemsAt "shortcuts" fields) :
        readShortcut i (ρ.respellShortcut i s) = readShortcut i s :=
      readShortcut_respelled (shortcuts s mem) (dialogs s mem) ρ i
    unfold itemsAt at shortcut
    generalize Document.field? "shortcuts" fields = value at shortcut ⊢
    cases value with
    | none => rfl
    | some value =>
      cases value with
      | list items =>
        have read : mapPositions readShortcut 0 (items.mapIdx ρ.respellShortcut) =
            mapPositions readShortcut 0 items :=
          mapPositions_mapIdx fun j s mem => by rw [Nat.zero_add, shortcut j s mem]
        have number : (items.mapIdx ρ.respellShortcut).isEmpty = items.isEmpty := by
          cases items <;> simp
        simp only [Option.map_some, changeAt, FieldName.single, if_true, Document.mapItems, read, number]
      | _ => rfl
  | _ => rfl

/-- A document with all the names, in the spellings given: of the group, of the fields of its shortcut
and of those of a dialog. -/
def spelledDocument (group image dialogs key value confirmation : String) : Document :=
  .ofFields [(group, .text "group.app"), ("shortcuts", .list [
    .spoken "start-timer" "Start" "Go" [(image, .text "timer"), (dialogs, .list [
      .ofFields [(key, .text "running"), (value, .bool true), ("message", .text "Already on"),
        (confirmation, .bool false)]])]])]

/-- All names at once. -/
theorem ofDocument_with_underscores :
    Config.ofDocument (spelledDocument "app_group_id" "system_image_name" "state_dialogs" "state_key"
        "show_when" "requires_confirmation") =
      Config.ofDocument (spelledDocument "appGroupId" "systemImageName" "stateDialogs" "stateKey"
        "showWhen" "requiresConfirmation") := by
  have plain : (spelledDocument "appGroupId" "systemImageName" "stateDialogs" "stateKey" "showWhen"
      "requiresConfirmation").Plain := by
    constructor <;> simp [spelledDocument, Document.spoken, Document.ofFields, Document.fields,
      itemsAt, Document.items, Document.field?, PlainFields, IsPlain, spellings, or_imp, forall_and]
  exact ofDocument_respelled plain ⟨fun _ => true, fun _ _ => true, fun _ _ _ => true⟩

end ShortcutRelay
