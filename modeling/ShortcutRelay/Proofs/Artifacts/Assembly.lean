import ShortcutRelay.Artifacts
import ShortcutRelay.Proofs.Config.Accepted
import ShortcutRelay.Proofs.Localization.Merge
import ShortcutRelay.Proofs.Localization.PhraseTable
import ShortcutRelay.Proofs.Swift.Literal

/-!
# What is generated

* `Config.Showable` : the value that each dialog waits for can be shown;
* `Swift.okWhere_file`, `TypeDeclarations.file_ok_of_typed` : the sources of a configuration whose types are
  known, with `Swift.parameterDeclarations_ok` and `TypeDeclarations.variant_ok_of_known` for parts of them;
* `Artifacts.Localized c catalog phrases a` : the localization files among the texts `a` come from
  the configuration `c` and the files that existed;
* `generate_eq_ok_iff`, `generate_unshowable`, `generate_cases` : when texts are generated, and which;
* `generate_again` : they are generated again from themselves, without a warning;
* `characters_of_generate` : when they are made of characters.
-/

namespace ShortcutRelay

/-! ## Sources -/

theorem Swift.typeName_ok {t : ValueType} (h : t.IsKnown) : ∃ name, Swift.typeName t = .ok name := by
  cases t with
  | other name => exact absurd rfl (h name)
  | text | number | boolean | date => exact ⟨_, rfl⟩

theorem TypeDeclarations.typeName_ok {t : ValueType} (h : t.IsKnown) :
    ∃ name, TypeDeclarations.typeName t = .ok name := by
  cases t with
  | other name => exact absurd rfl (h name)
  | text | number | boolean | date => exact ⟨_, rfl⟩

theorem Swift.parameterDeclarations_ok {parameters : List Parameter}
    (h : ∀ p ∈ parameters, p.type.IsKnown) (useKeys : Bool) (identifier : String) :
    ∃ text, Swift.parameterDeclarations parameters useKeys identifier = .ok text := by
  have declaration : ∀ p ∈ parameters, ∀ i, ∃ text,
      Swift.parameterDeclaration useKeys identifier i p = .ok text := by
    intro p mem i
    obtain ⟨name, named⟩ := Swift.typeName_ok (h p mem)
    unfold Swift.parameterDeclaration
    rw [named]
    exact ⟨_, rfl⟩
  obtain ⟨blocks, made⟩ := mapPositions_ok declaration 0
  unfold Swift.parameterDeclarations
  rw [made]
  split <;> exact ⟨_, rfl⟩

theorem TypeDeclarations.field_ok {p : Parameter} (h : p.type.IsKnown) :
    ∃ text, TypeDeclarations.field p = .ok text := by
  obtain ⟨name, named⟩ := TypeDeclarations.typeName_ok h
  unfold TypeDeclarations.field
  rw [named]
  exact ⟨_, rfl⟩

theorem TypeDeclarations.variant_ok_of_known {s : Shortcut} (h : ∀ p ∈ s.parameters, p.type.IsKnown) :
    ∃ text, TypeDeclarations.variant s = .ok text := by
  obtain ⟨fields, made⟩ := mapPositions_ok
    (fun p mem (_ : Nat) => TypeDeclarations.field_ok (h p mem)) 0
  unfold TypeDeclarations.variant
  rw [made]
  exact ⟨_, rfl⟩

theorem Swift.initializers_ok {parameters : List Parameter} (h : ∀ p ∈ parameters, p.type.IsKnown) :
    ∃ text, Swift.initializers parameters = .ok text := by
  have argument : ∀ p ∈ parameters, ∀ i : Nat, ∃ text,
      (fun (_ : Nat) (p : Parameter) => do return p.name ++ ": " ++ (← Swift.typeName p.type)) i p =
        Except.ok text := by
    intro p mem i
    obtain ⟨name, named⟩ := Swift.typeName_ok (h p mem)
    simp only [named]
    exact ⟨_, rfl⟩
  obtain ⟨arguments, made⟩ := mapPositions_ok argument 0
  unfold Swift.initializers
  dsimp only
  rw [made]
  split <;> exact ⟨_, rfl⟩

/-- A dialog is written where the value that it waits for can be. -/
theorem Swift.okWhere_stateDialog (s : Shortcut) (useKeys : Bool) (index : Nat) (d : ConditionalDialog) :
    OkWhere (d.showWhen.isShowable = true) .tooManyDigits (Swift.stateDialog s useKeys index d) := by
  have block (condition : String) : OkWhere (d.showWhen.isShowable = true) .tooManyDigits
      (Swift.conditionalDialog index s.className d condition
        (Localization.dialogKey s.identifier index) useKeys) :=
    (Swift.okWhere_formatValue d.showWhen).bind fun _ _ => ⟨_, rfl⟩
  unfold Swift.stateDialog
  rcases Swift.condition_cases (Protocol.stateEntry d.stateKey) d.showWhen with ⟨text, done⟩ | ⟨front, made⟩
  · rw [done]
    exact block text
  · rw [made]
    exact ((Swift.okWhere_formatValue d.showWhen).map _).bind fun text shown => (block text).ok shown

def Shortcut.Showable (s : Shortcut) : Prop :=
  ∀ d ∈ s.stateDialogs, d.showWhen.isShowable = true

theorem Swift.okWhere_stateDialogs (s : Shortcut) (useKeys : Bool) :
    OkWhere s.Showable .tooManyDigits (Swift.stateDialogs s useKeys) := by
  unfold Swift.stateDialogs
  split
  · next none_left =>
    refine .of_ok (fun d mem => ?_) _
    rw [List.isEmpty_iff.mp none_left] at mem
    cases mem
  · exact (okWhere_mapPositions (fun d _ index => Swift.okWhere_stateDialog s useKeys index d) 0).bind
      fun _ _ => ⟨_, rfl⟩

theorem Swift.okWhere_intentStruct {s : Shortcut} (h : ∀ p ∈ s.parameters, p.type.IsKnown)
    (useKeys : Bool) :
    OkWhere s.Showable (.number .tooManyDigits) (Swift.intentStruct s useKeys) := by
  obtain ⟨first, declared⟩ := Swift.parameterDeclarations_ok h useKeys s.identifier
  obtain ⟨second, initialized⟩ := Swift.initializers_ok h
  unfold Swift.intentStruct
  rw [declared, initialized]
  exact ((Swift.okWhere_stateDialogs s useKeys).mapError Swift.IntentError.number).bind fun _ _ => ⟨_, rfl⟩

def Config.Showable (c : Config) : Prop :=
  ∀ s ∈ c.shortcuts, s.Showable

/-- Where all types are known, the Swift file can be written if all values of dialogs can be. -/
theorem Swift.okWhere_file {c : Config} (h : c.Typed) (useKeys : Bool) (source : String) :
    OkWhere c.Showable (.number .tooManyDigits) (Swift.file c useKeys source) := by
  refine OkWhere.bind ?_ fun _ _ => ⟨_, rfl⟩
  exact okWhere_mapPositions (fun s mem _ => Swift.okWhere_intentStruct (h s mem) useKeys) 0

/-- Where all types are known, the type declarations can be written. -/
theorem TypeDeclarations.file_ok_of_typed {c : Config} (h : c.Typed) (source : String) :
    ∃ text, TypeDeclarations.file c source = .ok text := by
  have variant : ∀ s ∈ c.shortcuts, ∀ _ : Nat, ∃ text, TypeDeclarations.variant s = .ok text :=
    fun s mem _ => TypeDeclarations.variant_ok_of_known (h s mem)
  obtain ⟨variants, made⟩ := mapPositions_ok variant 0
  unfold TypeDeclarations.file
  rw [made]
  exact ⟨_, rfl⟩

namespace Artifacts
open ShortcutRelay.Localization

variable {c : Config} {oldCatalog : Option (List CodePoint)} {oldPhrases : Option String}
  {source : String} {a : Artifacts}

/-- The localization files among the texts come from a configuration and the files that existed. -/
structure Localized (c : Config) (oldCatalog : Option (List CodePoint)) (oldPhrases : Option String)
    (a : Artifacts) : Prop where
  strings : a.strings = Localization.strings c
  phraseList : a.phraseList = Localization.phrases c
  catalog : ∃ text, Catalog.merge (Localization.strings c) oldCatalog = .ok text ∧
    a.catalog = some text
  phrases : a.phrases = some (PhraseTable.merge (Localization.phrases c) oldPhrases)
  warnings : ∃ replaced, Catalog.isUnreadable oldCatalog = .ok replaced ∧
    a.warnings = if replaced then [catalogWarning] else []

/-- The texts of a configuration without localization. -/
def plain (swift types : String) : Artifacts :=
  { swift, types }

theorem generate_eq_ok_iff : generate c oldCatalog oldPhrases source = .ok a ↔
    Swift.file c c.localization source = .ok a.swift ∧
    TypeDeclarations.file c source = .ok a.types ∧
    if c.localization then Localized c oldCatalog oldPhrases a else a = plain a.swift a.types := by
  constructor
  · intro h
    obtain ⟨swift, made, h⟩ := of_bind_eq_ok h
    obtain ⟨types, declared, h⟩ := of_bind_eq_ok h
    split at h
    · next localized =>
      obtain ⟨text, merged, h⟩ := of_bind_eq_ok h
      obtain ⟨replaced, read, h⟩ := of_bind_eq_ok h
      cases h
      refine ⟨of_mapError_eq_ok made, of_mapError_eq_ok declared, ?_⟩
      rw [if_pos localized]
      exact ⟨rfl, rfl, ⟨text, of_mapError_eq_ok merged, rfl⟩, rfl,
        ⟨replaced, of_mapError_eq_ok read, rfl⟩⟩
    · next unlocalized =>
      cases h
      refine ⟨of_mapError_eq_ok made, of_mapError_eq_ok declared, ?_⟩
      rw [if_neg unlocalized]
      rfl
  · rintro ⟨made, declared, rest⟩
    unfold generate
    rw [made, declared]
    split at rest
    · next localized =>
      obtain ⟨strings, list, ⟨text, merged, catalog⟩, phrases, replaced, read, warnings⟩ := rest
      simp only [localized, if_true, merged, read, mapError_ok, ok_bind]
      rw [← strings, ← list, ← catalog, ← warnings]
      rw [← list] at phrases
      rw [← phrases]
      rfl
    · next unlocalized =>
      simp only [unlocalized, mapError_ok]
      rw [rest]
      rfl

/-- Where a value that a dialog waits for cannot be shown, nothing is generated. -/
theorem generate_unshowable (typed : c.Typed) (unshown : ¬c.Showable)
    (oldCatalog : Option (List CodePoint)) (oldPhrases : Option String) (source : String) :
    generate c oldCatalog oldPhrases source = .error (.number .tooManyDigits) := by
  unfold generate
  rw [(Swift.okWhere_file typed c.localization source).error unshown]
  rfl

/-- Where all types are known and all values of dialogs can be shown, texts are generated unless the
existing catalog holds a number with too many digits. -/
theorem generate_cases (typed : c.Typed) (shown : c.Showable) (oldCatalog : Option (List CodePoint))
    (oldPhrases : Option String) (source : String) :
    (∃ a, generate c oldCatalog oldPhrases source = .ok a) ∨
      ∃ text count, c.localization = true ∧ oldCatalog = some text ∧
        Json.parse text = .error (.tooManyDigits count) ∧
        generate c oldCatalog oldPhrases source = .error (.catalog (.tooManyDigits count)) := by
  obtain ⟨swift, made⟩ := (Swift.okWhere_file typed c.localization source).ok shown
  obtain ⟨types, declared⟩ := TypeDeclarations.file_ok_of_typed typed source
  cases localized : c.localization with
  | false =>
    refine .inl ⟨plain swift types, generate_eq_ok_iff.mpr ⟨made, declared, ?_⟩⟩
    rw [localized]
    rfl
  | true =>
    have merges {old : Catalog} (opened : Catalog.ofFile oldCatalog = .ok old) :
        ∃ a, generate c oldCatalog oldPhrases source = .ok a := by
      have merged := Catalog.merge_eq (Localization.strings c) opened
      obtain ⟨replaced, read⟩ := Catalog.isUnreadable_of_merge merged
      let a : Artifacts :=
        { swift, types
          catalog := some (old.putTexts (Localization.strings c).toList).render
          phrases := some (PhraseTable.merge (Localization.phrases c) oldPhrases)
          strings := Localization.strings c
          phraseList := Localization.phrases c
          warnings := if replaced then [catalogWarning] else [] }
      refine ⟨a, generate_eq_ok_iff.mpr ⟨made, declared, ?_⟩⟩
      rw [if_pos localized]
      exact ⟨rfl, rfl, ⟨_, merged, rfl⟩, rfl, ⟨replaced, read, rfl⟩⟩
    rcases Catalog.ofFile_cases oldCatalog with opened | ⟨text, members, -, -, opened⟩ |
      ⟨text, count, same, parsed, failed⟩
    · exact .inl (merges opened)
    · exact .inl (merges opened)
    · refine .inr ⟨text, count, rfl, same, parsed, ?_⟩
      have refused : Catalog.merge (Localization.strings c) oldCatalog =
          .error (.tooManyDigits count) := by
        rw [Catalog.merge, failed]
        rfl
      rw [localized] at made
      simp only [generate, localized, made, declared, refused, if_true]
      rfl

/-- Texts are generated again from themselves, and no catalog has to be replaced then. -/
theorem generate_again (whole : Catalog.WholeFile oldCatalog)
    (h : generate c oldCatalog oldPhrases source = .ok a) :
    generate c a.catalog a.phrases source = .ok { a with warnings := [] } := by
  obtain ⟨made, declared, rest⟩ := generate_eq_ok_iff.mp h
  refine generate_eq_ok_iff.mpr ⟨made, declared, ?_⟩
  split at rest
  · next localized =>
    obtain ⟨strings, list, ⟨text, merged, catalog⟩, phrases, replaced, read, warnings⟩ := rest
    obtain ⟨again, readable, -⟩ := Catalog.merge_again _ whole merged
    rw [if_pos localized, catalog, phrases]
    exact ⟨strings, list, ⟨text, again, rfl⟩, by rw [PhraseTable.merge_again],
      ⟨false, readable, rfl⟩⟩
  · next unlocalized =>
    rw [if_neg unlocalized]
    rw [rest]
    rfl

/-- The localization files are written without carriage returns. -/
theorem notMem_of_generate (whole : Catalog.WholeFile oldCatalog)
    (returns : ∀ text, oldPhrases = some text → '\r' ∉ text.toList)
    (h : generate c oldCatalog oldPhrases source = .ok a) :
    (∀ text, a.catalog = some text → .char '\r' ∉ text) ∧
      ∀ text, a.phrases = some text → '\r' ∉ text.toList := by
  obtain ⟨-, -, rest⟩ := generate_eq_ok_iff.mp h
  split at rest
  · obtain ⟨-, -, ⟨text, merged, catalog⟩, phrases, -⟩ := rest
    obtain ⟨-, -, clean⟩ := Catalog.merge_again _ whole merged
    rw [catalog, phrases]
    constructor
    · rintro text' ⟨⟩
      exact clean
    · rintro text' ⟨⟩
      exact PhraseTable.notMem_merge _ returns
  · rw [rest]
    exact ⟨nofun, nofun⟩

/-- The texts of the application are made of characters, unless there is something else in the
existing catalog. -/
theorem characters_of_generate (h : generate c oldCatalog oldPhrases source = .ok a) :
    (∀ e ∈ a.appFiles, ∃ s, e.2 = Text.codePoints s) ∨ c.localization = true ∧
      ∃ text members, oldCatalog = some text ∧ Json.parse text = .ok (.object members) ∧
        ¬ Json.Spelled (.object members) := by
  obtain ⟨-, -, rest⟩ := generate_eq_ok_iff.mp h
  split at rest
  · next localized =>
    obtain ⟨-, -, ⟨text, merged, catalog⟩, phrases, -⟩ := rest
    refine (Catalog.merge_spelled _ merged).imp ?_ fun other => ⟨localized, other⟩
    rintro ⟨s, rfl⟩ e mem
    simp only [appFiles, catalog, phrases, Option.map_some, Option.toList_some, List.mem_append,
      List.mem_singleton] at mem
    rcases mem with (rfl | rfl) | rfl <;> exact ⟨_, rfl⟩
  · rw [rest]
    refine .inl fun e mem => ?_
    obtain rfl := List.mem_singleton.mp mem
    exact ⟨_, rfl⟩

end Artifacts

end ShortcutRelay
