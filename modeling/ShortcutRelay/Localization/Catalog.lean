import ShortcutRelay.Json.Printer
import ShortcutRelay.Json.Reader

/-!
# String catalogs

A catalog holds, for every key, the text in each language.

* `Catalog` : the parts of a catalog that a merge keeps;
* `Catalog.load` : the members of a catalog file;
* `Catalog.merge` : a catalog with the source texts of the configuration, in which the
  translations are kept.
-/

namespace ShortcutRelay.Localization
open Text

structure Catalog where
  sourceLanguage : Json
  strings : List (List CodePoint × Json)
  version : Json

namespace Catalog

def sourceLanguageCode : String :=
  "en"

def empty : Catalog :=
  { sourceLanguage := .ofString sourceLanguageCode, strings := [], version := .ofString "1.0" }

/-- The members of a catalog file, none where the text is no JSON object. A number with too many
digits is an error. -/
def load (text : List CodePoint) : Except JsonError (Option (List (List CodePoint × Json))) :=
  if text = [] then .ok none
  else
    match Json.parse text with
    | .ok value => .ok value.members?
    | .error .malformed => .ok none
    | .error e => .error e

def loadExisting (existing : Option (List CodePoint)) :
    Except JsonError (Option (List (List CodePoint × Json))) :=
  match existing with
  | some text => load text
  | none => .ok none

/-- The first value where it is present, else the second. -/
def presentOr (value : Option Json) (default : Json) : Json :=
  match value with
  | some v => if v.truthy then v else default
  | none => default

/-- The parts of a catalog file, with defaults where they are missing or of the wrong kind. -/
def ofMembers (members : List (List CodePoint × Json)) : Catalog :=
  { sourceLanguage :=
      presentOr (valueAt? (codePoints "sourceLanguage") members) empty.sourceLanguage
    strings :=
      ((valueAt? (codePoints "strings") members).bind Json.members?).getD empty.strings
    version := presentOr (valueAt? (codePoints "version") members) empty.version }

/-- A text in one language. -/
def unit (text : String) : Json :=
  .object [Json.named "stringUnit"
    (.object [Json.named "state" (.ofString "translated"), Json.named "value" (.ofString text)])]

/-- The entry of a key with its source text: the languages of an entry that exists are kept, and
anything that is no entry is replaced. -/
def refresh (entry : Option Json) (text : String) : Json :=
  match entry with
  | some (.object members) =>
    let languages := ((valueAt? (codePoints "localizations") members).bind Json.members?).getD []
    let renewed := putEntry (codePoints sourceLanguageCode) (unit text) languages
    .object (putEntry (codePoints "localizations") (.object renewed) members)
  | _ =>
    .object [Json.named "extractionState" (.ofString "manual"),
      Json.named "localizations" (.object [Json.named sourceLanguageCode (unit text)])]

/-- A catalog with the source text of one key. -/
def putText (c : Catalog) (entry : String × String) : Catalog :=
  let key := codePoints entry.1
  { c with strings := putEntry key (refresh (valueAt? key c.strings) entry.2) c.strings }

def toJson (c : Catalog) : Json :=
  .object [Json.named "sourceLanguage" c.sourceLanguage, Json.named "strings" (.object c.strings),
    Json.named "version" c.version]

def render (c : Catalog) : List CodePoint :=
  c.toJson.pretty

/-- The catalog of an existing file; a file that is no JSON object counts as none. -/
def ofFile (existing : Option (List CodePoint)) : Except JsonError Catalog := do
  return ((← loadExisting existing).map ofMembers).getD empty

def putTexts (texts : List (String × String)) (c : Catalog) : Catalog :=
  texts.foldl putText c

def merge (texts : OrderedMap String) (existing : Option (List CodePoint)) :
    Except JsonError (List CodePoint) := do
  return (putTexts texts.toList (← ofFile existing)).render

/-- Whether an existing file holds something that is no catalog. -/
def isUnreadable (existing : Option (List CodePoint)) : Except JsonError Bool := do
  return existing.any (· ≠ []) && (← loadExisting existing).isNone

end Catalog

end ShortcutRelay.Localization
