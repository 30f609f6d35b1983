import ShortcutRelay.Proofs.Artifacts.Translations
import ShortcutRelay.Proofs.Localization.Merge

/-!
# The language of source texts

A catalog declares its source language, which a merge keeps. The source texts are put under English
whatever it is.

* `localizationsOf` : the languages of the entry of a key, `localizationsOf_putTexts`;
* `RefreshedUnder language` : the texts of one language are new, and the others are as they were;
* `refreshedUnder_english`, `refreshedUnder_other_iff` : for which languages source texts do this;
* `merge_refreshes_english` : what a merge does to a catalog with a source language.
-/

namespace ShortcutRelay.Localization.Catalog
open Text
open Json (Exact Whole)

def languagesIn (entry : Option Json) : Option (List (List CodePoint × Json)) :=
  ((entry.bind Json.members?).bind (valueAt? (codePoints "localizations"))).bind Json.members?

def localizationsOf (strings : List (List CodePoint × Json)) (key : String) :
    Option (List (List CodePoint × Json)) :=
  languagesIn (valueAt? (codePoints key) strings)

/-- A language has a text. -/
def Holds (langs : List (List CodePoint × Json)) (language : List CodePoint) (text : String) : Prop :=
  ∃ localization, valueAt? language langs = some localization ∧
    localization.at? ["stringUnit", "value"] = some (.ofString text)

/-- Each new text stands under one language, and where there were languages, the others are as they
were. -/
structure RefreshedUnder (language : List CodePoint) (texts : OrderedMap String)
    (old new : List (List CodePoint × Json)) : Prop where
  holds : ∀ key text, texts.get? key = some text →
    ∃ langs, localizationsOf new key = some langs ∧ Holds langs language text
  others : ∀ key text before, texts.get? key = some text → localizationsOf old key = some before →
    ∀ other ≠ language, (localizationsOf new key).bind (valueAt? other) = valueAt? other before

/-! ## Source texts -/

theorem languagesIn_refresh (entry : Option Json) (text : String) :
    languagesIn (some (refresh entry text)) =
      some (putEntry (codePoints "en") (unit text) ((languagesIn entry).getD [])) := by
  by_cases isEntry : ∃ members, entry = some (.object members)
  · obtain ⟨members, rfl⟩ := isEntry
    simp [refresh, languagesIn, sourceLanguageCode, Json.members?, valueAt?_putEntry]
  · have other : ∀ members, entry ≠ some (.object members) := fun members same => isEntry ⟨members, same⟩
    have none : languagesIn entry = none := by
      cases entry with
      | none => rfl
      | some j =>
        cases j with
        | object members => exact absurd rfl (other members)
        | null | bool | int | float | text | array => rfl
    rw [refresh_other text other, none]
    rfl

/-- The new text is put under English, beside the languages that there were. -/
theorem localizationsOf_putTexts {texts : OrderedMap String} {key text : String}
    (given : texts.get? key = some text) (c : Catalog) :
    localizationsOf (putTexts texts.toList c).strings key =
      some (putEntry (codePoints "en") (unit text) ((localizationsOf c.strings key).getD [])) := by
  have given : valueAt? key texts.toList = some text := given
  rw [localizationsOf, valueAt?_putTexts texts.nodup, given]
  exact languagesIn_refresh _ text

theorem refreshedUnder_english (texts : OrderedMap String) (c : Catalog) :
    RefreshedUnder (codePoints "en") texts c.strings (putTexts texts.toList c).strings := by
  constructor
  · intro key text given
    refine ⟨_, localizationsOf_putTexts given c, unit text, ?_, rfl⟩
    rw [valueAt?_putEntry, if_pos rfl]
  · intro key text before given old other ne
    rw [localizationsOf_putTexts given, old, Option.bind_some, valueAt?_putEntry, if_neg ne,
      Option.getD_some]

/-- The texts of another language are new only where that language had them already, and English as
well. -/
theorem refreshedUnder_other_iff {language : List CodePoint} (other : language ≠ codePoints "en")
    (texts : OrderedMap String) (c : Catalog) :
    RefreshedUnder language texts c.strings (putTexts texts.toList c).strings ↔
      ∀ key text, texts.get? key = some text → ∃ before, localizationsOf c.strings key = some before ∧
        Holds before language text ∧ valueAt? (codePoints "en") before = some (unit text) := by
  constructor
  · intro refreshed key text given
    obtain ⟨langs, now, localization, found, holds⟩ := refreshed.holds key text given
    rw [localizationsOf_putTexts given] at now
    cases now
    rw [valueAt?_putEntry, if_neg other] at found
    cases old : localizationsOf c.strings key with
    | none =>
      rw [old] at found
      cases found
    | some before =>
      rw [old] at found
      have english := refreshed.others key text before given old (codePoints "en") other.symm
      rw [localizationsOf_putTexts given, Option.bind_some, valueAt?_putEntry, if_pos rfl] at english
      exact ⟨before, rfl, ⟨localization, found, holds⟩, english.symm⟩
  · intro already
    constructor
    · intro key text given
      obtain ⟨before, old, ⟨localization, found, holds⟩, -⟩ := already key text given
      refine ⟨_, localizationsOf_putTexts given c, localization, ?_, holds⟩
      rw [valueAt?_putEntry, if_neg other, old]
      exact found
    · intro key text before given old language' _
      obtain ⟨_, old', -, english⟩ := already key text given
      cases old.symm.trans old'
      rw [localizationsOf_putTexts given, old, Option.bind_some, valueAt?_putEntry]
      split
      · next same => rw [same, english]
      · rfl

/-! ## Merges -/

/-- A merge into a catalog keeps its source language and puts the new texts under English. They are the
texts of the source language only if that is English, or if there was nothing to do. -/
theorem merge_refreshes_english (texts : OrderedMap String) {text language : List CodePoint}
    {members old : List (List CodePoint × Json)} (file : Json.parse text = .ok (.object members))
    (strings : valueAt? (codePoints "strings") members = some (.object old))
    (declared : valueAt? (codePoints "sourceLanguage") members = some (.text language))
    (named : language ≠ []) :
    ∃ c : Catalog, merge texts (some text) = .ok c.render ∧
      (Whole (.object members) → Json.parse c.render = .ok c.toJson) ∧
      c.sourceLanguage = .text language ∧ RefreshedUnder (codePoints "en") texts old c.strings ∧
      (RefreshedUnder language texts old c.strings ↔ language = codePoints "en" ∨
        ∀ key text, texts.get? key = some text → ∃ before, localizationsOf old key = some before ∧
          Holds before language text ∧ valueAt? (codePoints "en") before = some (unit text)) := by
  have opened := ofFile_object file
  have entries : (ofMembers members).strings = old := strings_ofMembers strings
  refine ⟨putTexts texts.toList (ofMembers members), merge_eq texts opened,
    fun whole => parse_putTexts file whole _, ?_, ?_, ?_⟩
  · have present : (Json.text language).truthy = true := by simpa [Json.truthy] using named
    rw [putTexts_sourceLanguage, ofMembers, declared]
    exact presentOr_of_truthy present _
  · rw [← entries]
    exact refreshedUnder_english texts _
  · rw [← entries]
    by_cases english : language = codePoints "en"
    · subst english
      exact iff_of_true (refreshedUnder_english texts _) (.inl rfl)
    · rw [refreshedUnder_other_iff english, or_iff_right english]

def germanText : String :=
  "\x7b\"sourceLanguage\": \"de\", \"strings\": \x7b\"a\": \x7b\"localizations\": \x7b" ++
    "\"de\": \x7b\"stringUnit\": \x7b\"state\": \"translated\", \"value\": \"Los\"\x7d\x7d, " ++
    "\"en\": \x7b\"stringUnit\": \x7b\"state\": \"translated\", \"value\": \"Go\"\x7d\x7d\x7d\x7d\x7d\x7d"

def germanStrings : List (List CodePoint × Json) :=
  [Json.named "a" (.object [Json.named "localizations"
    (.object [Json.named "de" (unit "Los"), Json.named "en" (unit "Go")])])]

def germanMembers : List (List CodePoint × Json) :=
  [Json.named "sourceLanguage" (.ofString "de"), Json.named "strings" (.object germanStrings)]

set_option maxRecDepth 20000 in
theorem parse_germanText : Json.parse (codePoints germanText) = .ok (.object germanMembers) := by
  cbv

theorem exact_germanMembers : Exact (.object germanMembers) := by
  have put {members : List (List CodePoint × Json)} (given : Exact (.object members)) (key : String)
      {value : Json} (h : Exact value) : Exact (.object (putEntry (codePoints key) value members)) :=
    hereditary_exact.put given trivial h
  have german := put hereditary_exact.empty "de" (hereditary_exact.translation "Los")
  have languages := put german "en" (hereditary_exact.translation "Go")
  have entry := put hereditary_exact.empty "localizations" languages
  have strings : Exact (.object germanStrings) := put hereditary_exact.empty "a" entry
  have declared := put hereditary_exact.empty "sourceLanguage" (hereditary_exact.text "de")
  exact put declared "strings" strings

/-- The new text is not there already. -/
theorem german_text_is_old : ¬ ∀ key text, (OrderedMap.ofList [("a", "Start")]).get? key = some text →
    ∃ before, localizationsOf germanStrings key = some before ∧ Holds before (codePoints "de") text ∧
      valueAt? (codePoints "en") before = some (unit text) := by
  intro already
  obtain ⟨before, old, ⟨localization, found, holds⟩, -⟩ := already "a" "Start" rfl
  cases old
  cases found
  exact absurd (Json.text.inj (Option.some.inj holds)) (by decide)

/-- The new text does not become the German one, and it replaces the English translation. -/
theorem merge_refreshes_english_german :
    ∃ c : Catalog, merge (.ofList [("a", "Start")]) (some (codePoints germanText)) = .ok c.render ∧
      Json.parse c.render = .ok c.toJson ∧ c.sourceLanguage = .ofString "de" ∧
      RefreshedUnder (codePoints "en") (.ofList [("a", "Start")]) germanStrings c.strings ∧
      ¬ RefreshedUnder (codePoints "de") (.ofList [("a", "Start")]) germanStrings c.strings := by
  obtain ⟨c, written, read, language, english, german⟩ :=
    merge_refreshes_english (.ofList [("a", "Start")]) parse_germanText rfl rfl (by decide)
  refine ⟨c, written, read exact_germanMembers.whole, language, english, fun refreshed => ?_⟩
  rcases german.mp refreshed with same | already
  · exact absurd same (by decide)
  · exact german_text_is_old already

/-- A merge does not put the new texts under the declared source language. -/
theorem declared_language_is_not_refreshed :
    ¬ ∀ (texts : OrderedMap String) (text language : List CodePoint)
      (members old : List (List CodePoint × Json)), Json.parse text = .ok (.object members) →
        valueAt? (codePoints "strings") members = some (.object old) →
        valueAt? (codePoints "sourceLanguage") members = some (.text language) → language ≠ [] →
          ∃ result members' new, merge texts (some text) = .ok result ∧
            Json.parse result = .ok (.object members') ∧
            valueAt? (codePoints "strings") members' = some (.object new) ∧ RefreshedUnder language texts old new := by
  intro claim
  obtain ⟨result, members', new, merged, read, strings, refreshed⟩ :=
    claim (.ofList [("a", "Start")]) (codePoints germanText) (codePoints "de") _ _ parse_germanText rfl rfl (by decide)
  let c := putTexts [("a", "Start")] (ofMembers germanMembers)
  have settled : Settled c := (settled_ofMembers exact_germanMembers).putTexts _
  have written : merge (.ofList [("a", "Start")]) (some (codePoints germanText)) = .ok c.render :=
    merge_eq _ (ofFile_object parse_germanText)
  rw [merged] at written
  cases written
  have back : Json.parse c.render = .ok c.toJson := Json.parse_pretty settled.exact
  rw [back] at read
  cases read
  cases strings
  exact german_text_is_old ((refreshedUnder_other_iff (by decide) _ (ofMembers germanMembers)).mp refreshed)

end ShortcutRelay.Localization.Catalog
