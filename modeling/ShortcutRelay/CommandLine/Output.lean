import ShortcutRelay.Artifacts
import ShortcutRelay.Files.Request
import ShortcutRelay.Text.Unicode

/-!
# Writing the generated files

* `LogLine` : what is logged on the way;
* `existingText` : a localization file that may be there already;
* `writeOut` : writes the texts, those of the application first;
* `renew` : generates with the localization files that are there, then writes.
-/

namespace ShortcutRelay.CommandLine
open Files

/-- Something that is logged on the way. Details are shown only where they are asked for. -/
inductive LogLine
  | unreadable (name : String) (problem : String)
  | catalogReplaced
  | wrote (path : Path)

namespace LogLine

def source : LogLine → String
  | catalogReplaced => "localization_merge"
  | _ => "artifact_generator"

def isDetail : LogLine → Bool
  | wrote _ => true
  | _ => false

def message : LogLine → String
  | unreadable name problem => "Could not read existing " ++ name ++ ": " ++ problem
  | catalogReplaced => "Failed to parse existing String Catalog, creating new one"
  | wrote path => "Wrote " ++ path.text

end LogLine

/-- Logs a line: with its source where details are asked for, else only if it is none. -/
def log (verbose : Bool) (line : LogLine) : FileM Unit :=
  if verbose then complainLine (line.source ++ ": " ++ line.message)
  else if line.isDetail then return ()
  else complainLine line.message

/-- Programs that use files, in which some errors of files end the program. -/
abbrev OutputM := ExceptT FileError FileM

/-- The text of a localization file, none where it is missing or cannot be read. The second part
is the warning about a file that cannot be read. -/
def existingText (verbose : Bool) (path : Path) : OutputM (Option String × List String) := do
  match ← ExceptT.mk (request (.kind path)) with
  | .missing => return (none, [])
  | _ =>
    let bytes : Except FileError (List UInt8) ← ExceptT.lift (request (.read path))
    let failed (problem : String) : OutputM (Option String × List String) := do
      let line := LogLine.unreadable path.name problem
      ExceptT.lift (log verbose line)
      return (none, [line.message])
    match bytes with
    | .error _ => failed "<os error>"
    | .ok bytes =>
      match Text.readTextFile? bytes with
      | some text => return (some text, [])
      | none => failed "<decode error>"

def writeText (verbose : Bool) (path : Path) (text : List CodePoint) : OutputM Unit := do
  writeFile path text
  ExceptT.lift (log verbose (.wrote path))

def writeTexts (verbose : Bool) (directory : Path) :
    List (String × List CodePoint) → OutputM Unit
  | [] => return ()
  | (name, text) :: rest => do
    writeText verbose (directory.child name) text
    writeTexts verbose directory rest

/-- Writes the texts, those of the application first, and gives the paths written. -/
def writeOut (verbose : Bool) (a : Artifacts) (outputDir typesPath : Path) :
    OutputM (List Path) := do
  writeTexts verbose outputDir a.appFiles
  writeText verbose typesPath (Text.codePoints a.types)
  return a.appFiles.map (outputDir.child ·.1) ++ [typesPath]

inductive OutputFailure
  | artifacts (error : ArtifactError)
  | device (error : FileError)

/-- Generates with the localization files that are there, then writes. Nothing is written before
every text is there. -/
def renew (verbose : Bool) (c : Config) (outputDir typesPath : Path)
    (sourceName : String) : ExceptT OutputFailure FileM (Artifacts × List Path) := do
  let existing (name : String) : OutputM (Option String × List String) :=
    if c.localization then existingText verbose (outputDir.child name) else return (none, [])
  let (catalog, catalogWarnings) ← (existing Artifacts.catalogName).adapt .device
  let (phrases, phraseWarnings) ← (existing Artifacts.phrasesName).adapt .device
  match Artifacts.generate c (catalog.map Text.codePoints) phrases sourceName with
  | .error e => throw (.artifacts e)
  | .ok a =>
    if a.warnings ≠ [] then ExceptT.lift (log verbose .catalogReplaced)
    let a := { a with warnings := catalogWarnings ++ phraseWarnings ++ a.warnings }
    let written ← (writeOut verbose a outputDir typesPath).adapt .device
    return (a, written)

end ShortcutRelay.CommandLine
