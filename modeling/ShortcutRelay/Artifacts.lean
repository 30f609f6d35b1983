import ShortcutRelay.Localization.Catalog
import ShortcutRelay.Localization.PhraseTable
import ShortcutRelay.Localization.Strings
import ShortcutRelay.Swift.File
import ShortcutRelay.TypeDeclarations

/-!
# Generated files

* `Artifacts` : the texts that are generated from a configuration;
* `Artifacts.generate` : the texts, merged with the localization files that exist;
* `Artifacts.appFiles` : the files that belong to the application, with their names.
-/

namespace ShortcutRelay

/-- Why nothing can be generated: a parameter has a type that is not known, a dialog waits for a
number that cannot be written, or the existing catalog holds one that cannot be read. -/
inductive ArtifactError
  | unknownType (error : UnknownType)
  | number (error : NumberError)
  | catalog (error : JsonError)

/-- An intent that has no text, as seen by what is generated from it. -/
def ArtifactError.ofIntent : Swift.IntentError → ArtifactError
  | .unknownType e => .unknownType e
  | .number e => .number e

def ArtifactError.message : ArtifactError → String
  | unknownType e => e.message
  | number e => e.message
  | catalog e => e.message

structure Artifacts where
  swift : String
  types : String
  catalog : Option (List CodePoint) := none
  phrases : Option String := none
  strings : OrderedMap String := .empty
  phraseList : List String := []
  warnings : List String := []

namespace Artifacts

def intentsName : String :=
  "GeneratedAppIntents.swift"

def catalogName : String :=
  "Localizable.xcstrings"

def phrasesName : String :=
  "AppShortcuts.strings"

def typesName : String :=
  "shortcuts.generated.d.ts"

/-- The name under which a configuration is mentioned unless another one is given. -/
def usualSource : String :=
  "shortcuts.config.yaml"

def catalogWarning : String :=
  "Existing " ++ catalogName ++ " could not be parsed; a new catalog was created"

/-- The texts of a configuration, with the localization files where it asks for them. -/
def generate (c : Config) (existingCatalog : Option (List CodePoint))
    (existingPhrases : Option String) (sourceName : String) : Except ArtifactError Artifacts := do
  let swift ← (Swift.file c c.localization sourceName).mapError .ofIntent
  let types ← (TypeDeclarations.file c sourceName).mapError .unknownType
  if c.localization then
    let strings := Localization.strings c
    let phraseList := Localization.phrases c
    let catalog ← (Localization.Catalog.merge strings existingCatalog).mapError .catalog
    let replaced ← (Localization.Catalog.isUnreadable existingCatalog).mapError .catalog
    return {
      swift, types, strings, phraseList
      catalog := some catalog
      phrases := some (Localization.PhraseTable.merge phraseList existingPhrases)
      warnings := if replaced then [catalogWarning] else [] }
  else return { swift, types }

def localized (a : Artifacts) : Bool :=
  a.catalog.isSome

def appFiles (a : Artifacts) : List (String × List CodePoint) :=
  [(intentsName, Text.codePoints a.swift)] ++
  (a.catalog.map (catalogName, ·)).toList ++
  (a.phrases.map fun text => (phrasesName, Text.codePoints text)).toList

end Artifacts

end ShortcutRelay
