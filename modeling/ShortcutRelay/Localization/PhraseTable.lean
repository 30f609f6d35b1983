import ShortcutRelay.Swift.Literal
import ShortcutRelay.Text.Blank
import ShortcutRelay.Text.Pieces

/-!
# Phrase tables

A phrase table is a text of lines that each give a translation to a phrase, between quotes, as
in `"key" = "value";`.

* `entryKey?` : the key of a line of that form;
* `keptLines` : the lines of an existing table that a merge keeps;
* `PhraseTable.merge` : the kept lines, and a line for every phrase that has none.
-/

namespace ShortcutRelay.Localization.PhraseTable
open Text

/-- The characters up to the next quote that no backslash precedes, with what follows the quote.
A backslash goes together with the next character, which must not be a line break. -/
def readQuoted : List Char → Option (List Char × List Char)
  | [] => none
  | '"' :: rest => some ([], rest)
  | ['\\'] => none
  | '\\' :: c :: rest =>
    if c = '\n' then none else (readQuoted rest).map fun (s, r) => ('\\' :: c :: s, r)
  | c :: rest => (readQuoted rest).map fun (s, r) => (c :: s, r)

/-- What follows a quoted text that begins `cs`. -/
def quotedAt? : List Char → Option (List Char × List Char)
  | '"' :: cs => readQuoted cs
  | _ => none

/-- The key of a line of the form `"key" = "value";`. -/
def entryKey? (line : List Char) : Option (List Char) := do
  let (key, rest) ← quotedAt? line
  match rest.dropWhile isBlank with
  | '=' :: rest =>
    match ← quotedAt? (rest.dropWhile isBlank) with
    | (_, ';' :: _) => return key
    | _ => none
  | _ => none

/-- The lines with a key that no earlier one has, with their keys; `seen` holds the keys of the
lines in front. -/
def keptFrom (seen : List (List Char)) : List (List Char) → List (List Char × List Char)
  | [] => []
  | line :: lines =>
    match entryKey? line with
    | some key =>
      if key ∈ seen then keptFrom seen lines else (key, line) :: keptFrom (key :: seen) lines
    | none => keptFrom seen lines

def keptLines (existing : Option String) : List (List Char × List Char) :=
  match existing with
  | some text => keptFrom [] (splitOn '\n' text.toList)
  | none => []

/-- The line that translates a phrase by itself. -/
def identityLine (key : List Char) : List Char :=
  '"' :: key ++ "\" = \"".toList ++ key ++ "\";".toList

def newLines (seen : List (List Char)) : List String → List (List Char)
  | [] => []
  | phrase :: phrases =>
    let key := (Swift.escape phrase).toList
    if key ∈ seen then newLines seen phrases
    else identityLine key :: newLines (key :: seen) phrases

/-- The kept lines of an existing table, and an identity line for every phrase that has none. -/
def merge (phrases : List String) (existing : Option String) : String :=
  let kept := keptLines existing
  let lines := kept.map (·.2) ++ newLines (kept.map (·.1)) phrases
  joinLines (lines.map String.ofList)

end ShortcutRelay.Localization.PhraseTable
