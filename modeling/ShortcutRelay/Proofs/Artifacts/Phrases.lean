import ShortcutRelay.Proofs.Artifacts.Assembly
import ShortcutRelay.Proofs.Swift.Phrase

/-!
# Phrases in both files

A phrase stands in the Swift file, as a literal, and in the phrase table, as a key. Siri finds the
one under the other only if they are the same text.

* `Artifacts.Agree a s text` : where a phrase of a shortcut stands in the generated texts;
* `phrase_in_both` : the two are the same text, whatever the existing table holds.
-/

namespace ShortcutRelay.Artifacts
open ShortcutRelay.Localization Template

/-- The literal of a phrase stands in the Swift file, in what is written for its shortcut, and the
phrase is the key of one line of the phrase table. -/
structure Agree (a : Artifacts) (s : Shortcut) (text : String) : Prop where
  literal : (Swift.phrase text).toList <:+: (Swift.appShortcut s true).toList
  shortcut : (Swift.appShortcut s true).toList <:+: a.swift.toList
  table : ∃ table, a.phrases = some table ∧
    (Text.splitOn '\n' table.toList).countP
      (PhraseTable.entryKey? · = some (Swift.escape (tablePhrase text)).toList) = 1

theorem agree_of_generate {c : Config} {oldCatalog : Option (List CodePoint)}
    {oldPhrases : Option String} {source : String}
    {a : Artifacts} (localized : c.localization = true) {s : Shortcut} (listed : s ∈ c.shortcuts)
    {text : String} (spoken : text ∈ s.phrases)
    (h : generate c oldCatalog oldPhrases source = .ok a) : Agree a s text := by
  obtain ⟨made, -, rest⟩ := generate_eq_ok_iff.mp h
  rw [if_pos localized] at rest
  rw [localized] at made
  have inTable : tablePhrase text ∈ Localization.phrases c :=
    List.mem_flatMap.mpr ⟨s, listed, List.mem_map_of_mem spoken⟩
  exact {
    literal := Swift.phrase_infix_appShortcut spoken true
    shortcut := Swift.appShortcut_infix_file listed made
    table := ⟨_, rest.phrases, PhraseTable.countP_merge inTable oldPhrases⟩ }

/-- The literal of a phrase, read as a Swift string, is the phrase of the phrase table. That phrase
mentions the application, and it is the key of one line of the generated table. Texts are generated
where all values of dialogs can be shown, unless the existing catalog holds a number with too many
digits. -/
theorem phrase_in_both {c : Config} (localized : c.localization = true) {s : Shortcut}
    (listed : s ∈ c.shortcuts) {text : String} (spoken : text ∈ s.phrases)
    (oldCatalog : Option (List CodePoint)) (oldPhrases : Option String) (source : String) :
    (∀ rest, Swift.readLiteral Swift.nameText ((Swift.phrase text).toList ++ rest) =
      some ((tablePhrase text).toList, rest)) ∧
    tableToken.toList <:+: (tablePhrase text).toList ∧
    (∀ a, generate c oldCatalog oldPhrases source = .ok a → Agree a s text) ∧
    (c.Typed → c.Showable → (∃ a, generate c oldCatalog oldPhrases source = .ok a) ∨
      ∃ old count, oldCatalog = some old ∧ Json.parse old = .error (.tooManyDigits count)) := by
  refine ⟨Swift.readLiteral_phrase text, Swift.tableToken_infix text, ?_, ?_⟩
  · intro a h
    exact agree_of_generate localized listed spoken h
  · intro typed shown
    rcases generate_cases typed shown oldCatalog oldPhrases source with made | ⟨old, count, -, same, long, -⟩
    · exact .inl made
    · exact .inr ⟨old, count, same, long⟩

/-- A shortcut with one phrase, in which quotes, a backslash and a line break meet two mentions of
the application. -/
def spokenShortcut : Shortcut where
  identifier := "startTimer"
  title := "Start Timer"
  phrases := ["Say \"go\"\\\n\\(.applicationName)(.applicationName)"]

def spokenTable : String :=
  "\"Say \\\"go\\\"\\\\\\n$\x7bapplicationName\x7d$\x7bapplicationName\x7d\" = \"Los\";\n" ++
  "\"Say \\\"go\\\"\\\\\\n$\x7bapplicationName\x7d$\x7bapplicationName\x7d\" = \"Jetzt\";"

/-- The translated line stays the only one of its phrase. -/
theorem phrase_in_both_spoken : ∃ a,
    generate { shortcuts := [spokenShortcut], localization := true } none (some spokenTable)
      "shortcuts.config.yaml" = .ok a ∧
    Agree a spokenShortcut "Say \"go\"\\\n\\(.applicationName)(.applicationName)" ∧
    Swift.readLiteral Swift.nameText
        (Swift.phrase "Say \"go\"\\\n\\(.applicationName)(.applicationName)").toList =
      some ("Say \"go\"\\\n$\x7bapplicationName\x7d$\x7bapplicationName\x7d".toList, []) := by
  obtain ⟨read, -, agree, made⟩ := phrase_in_both
    (c := { shortcuts := [spokenShortcut], localization := true }) rfl (List.mem_singleton.mpr rfl)
    (List.mem_singleton.mpr rfl) none (some spokenTable) "shortcuts.config.yaml"
  have typed : Config.Typed { shortcuts := [spokenShortcut], localization := true } := by
    simp [Config.Typed, spokenShortcut]
  have shown : Config.Showable { shortcuts := [spokenShortcut], localization := true } := by
    simp [Config.Showable, Shortcut.Showable, spokenShortcut]
  rcases made typed shown with ⟨a, made⟩ | ⟨_, _, nothing, -⟩
  · refine ⟨a, made, agree a made, ?_⟩
    have same : tablePhrase "Say \"go\"\\\n\\(.applicationName)(.applicationName)" =
        "Say \"go\"\\\n$\x7bapplicationName\x7d$\x7bapplicationName\x7d" := by decide
    have here := read []
    rwa [List.append_nil, same] at here
  · cases nothing

end ShortcutRelay.Artifacts
