import ShortcutRelay.CommandLine.Output
import ShortcutRelay.CommandLine.Request
import ShortcutRelay.Config.File

/-!
# The generate command

* `starterConfig` : the configuration that is written where there is none;
* `generate` : the command;
* `runRequest` : what a command line asks for.
-/

namespace ShortcutRelay.CommandLine
open Files

def configNames : List String :=
  ["shortcuts.config.yaml", "shortcuts.config.yml", "shortcuts.config.json"]

def templateName : String :=
  "shortcuts.config.yaml"

def starterConfig : String :=
  Text.joinLines [
    "# Siri Shortcuts configuration",
    "#",
    "# Define your app's shortcuts here. After editing this file, run:",
    "#   intentbridge generate",
    "",
    "shortcuts:",
    "  - identifier: exampleAction",
    "    title: Example Action",
    "    phrases:",
    "      - Do example action",
    "      - Run example",
    "      - Example shortcut",
    "    systemImageName: star.circle",
    "    description: An example shortcut - customize this!",
    "",
    "# Enable localization support (optional)",
    "# localization: true",
    ""]

/-- Why the command ends without an exit status. -/
inductive Crash
  | noProjectDirectory
  | load (failure : LoadFailure)
  | device (error : FileError)
  | artifacts (error : ArtifactError)

def Crash.message : Crash → String
  | .noProjectDirectory => "expected str, bytes or os.PathLike object, not list"
  | .load failure => failure.message
  | .device error => error.message
  | .artifacts error => error.message

/-- How the command ends before its end: with an exit status, or without one. -/
inductive Ending
  | exit (status : Nat)
  | crash (cause : Crash)

abbrev CommandM := ExceptT Ending FileM

def say (line : String) : CommandM Unit :=
  ExceptT.lift (sayLine line)

def fail {α : Type} (line : String) : CommandM α := do
  ExceptT.lift (complainLine line)
  throw (.exit 1)

def kindOf (path : Path) : CommandM FileKind :=
  ExceptT.adapt (fun e => Ending.crash (.device e)) (ExceptT.mk (request (.kind path)))

def isDirectory (path : Path) : CommandM Bool := do
  return (← kindOf path) == .directory

/-- The first of some names that stands in a directory. -/
def locateConfig (directory : Path) : List String → CommandM (Option Path)
  | [] => return none
  | name :: names => do
    let path := directory.child name
    match ← kindOf path with
    | .missing => locateConfig directory names
    | _ => return some path

/-- Writes the template of a configuration and says what to do next. -/
def writeTemplate (directory : Path) : CommandM Nat := do
  let path := directory.child templateName
  let result : Except FileError Unit ←
    ExceptT.lift (writeFile path (Text.codePoints starterConfig)).run
  if let .error _ := result then
    fail ("Error: cannot write " ++ path.text ++ ": <os error>")
  say ("  ✓ Created template: " ++ path.name)
  say ""
  say "Next steps:"
  say ("  1. Edit " ++ path.name ++ " to define your shortcuts")
  say "  2. Run: intentbridge generate"
  return 0

def failToLoad {α : Type} (e : LoadFailure) : CommandM α :=
  match e with
  | .missing _ | .config (.invalid _) => fail ("Error: " ++ e.message)
  | e => throw (.crash (.load e))

def openConfig (read : Reader) (path : Path) : CommandM Config := do
  let bytes : Option (List UInt8) ← match ← kindOf path with
    | .missing => pure none
    | .directory => failToLoad .directory
    | .file => do
      let result : Except FileError (List UInt8) ← ExceptT.lift (request (.read path))
      match result with
      | .ok bytes => pure (some bytes)
      | .error e => throw (.crash (.device e))
  match Config.load read path.text bytes with
  | .ok c => return c
  | .error e => failToLoad e

def projectEnding : String :=
  ".xcodeproj"

def failToFind {α : Type} (what : String) : CommandM α :=
  fail ("  ✗ " ++ what)

def findAppDirectory (iosDir : Path) : CommandM Path := do
  if !(← isDirectory iosDir) then failToFind ("ios directory not found: " ++ iosDir.text)
  let names : List String ←
    ExceptT.adapt (fun e => Ending.crash (.device e)) (ExceptT.mk (request (.entries iosDir)))
  match (names.filter (Text.endsWith projectEnding)).mergeSort with
  | [] => failToFind ("Could not find " ++ projectEnding ++ " in " ++ iosDir.text)
  | project :: _ =>
    let app := String.ofList (project.toList.take (project.length - projectEnding.length))
    let directory := iosDir.child app
    if !(← isDirectory directory) then
      failToFind ("App directory not found: " ++ directory.text)
    say ("  ✓ Found app: " ++ app)
    return directory

def findOutputDirectory (o : Options) (project : Path) : CommandM Path := do
  if o.outputDir = "" then findAppDirectory (project.child "ios")
  else
    let directory := Path.ofText o.outputDir
    if !(← isDirectory directory) then
      failToFind ("Output directory not found: " ++ directory.text)
    return directory

def findTypesPath (o : Options) (project : Path) : CommandM Path := do
  if o.typesPath ≠ "" then return Path.ofText o.typesPath
  let source := project.child "src"
  if ← isDirectory source then return source.child Artifacts.typesName
  return project.child Artifacts.typesName

def sayAll : List String → CommandM Unit
  | [] => return ()
  | line :: lines => do
    say line
    sayAll lines

def nextSteps (localized : Bool) : List String :=
  ["Add GeneratedAppIntents.swift to your Xcode project (if not already added)"] ++
  (if localized then
    ["Add Localizable.xcstrings to your Xcode project for translations",
     "Add AppShortcuts.strings for phrase translations"]
   else []) ++
  ["Enable App Groups capability: group.<your-bundle-id>",
   "Rebuild your app"]

def summary (c : Config) (a : Artifacts) (written : List Path) : List String :=
  written.map (fun path => "  ✓ Generated: " ++ path.text) ++
  (if a.warnings = [] then []
   else ["", "  Warnings (" ++ toString a.warnings.length ++ "):"] ++
    a.warnings.map ("    - " ++ ·)) ++
  (if a.localized then
    ["", "  Localization keys: " ++ toString a.strings.toList.length,
     "  Phrase keys: " ++ toString a.phraseList.length]
   else []) ++
  ["", "Shortcuts generated:"] ++
  (c.shortcuts.flatMap fun s =>
    ["  - " ++ s.identifier ++ ": \"" ++ s.title ++ "\"",
     "    Phrases: " ++ Text.joinWith ", " s.phrases]) ++
  ["", "Next steps:"] ++
  (nextSteps a.localized).mapIdx (fun i step => "  " ++ toString (i + 1) ++ ". " ++ step) ++
  ["", "Done!"]

def resolveProject (base : Path) (o : Options) : CommandM Path :=
  match o.projectDir with
  | none => throw (.crash .noProjectDirectory)
  | some text =>
    let path := Path.ofText text
    if path.hasNull then throw (.crash (.device .embeddedNull)) else return base.normal path

/-- What is to be generated, and where to. -/
structure Plan where
  config : Config
  outputDir : Path
  typesPath : Path
  source : String

/-- Reads a configuration and looks for the places of the files. -/
def prepare (read : Reader) (o : Options) (project configPath : Path) : CommandM Plan := do
  say ("Reading shortcuts configuration: " ++ configPath.text)
  let config ← openConfig read configPath
  let outputDir ← findOutputDirectory o project
  say ("  ✓ Found " ++ toString config.shortcuts.length ++ " shortcuts")
  if config.localization then say "  ✓ Localization enabled"
  let typesPath ← findTypesPath o project
  return { config, outputDir, typesPath, source := configPath.name }

def deliver (verbose : Bool) (p : Plan) : CommandM Nat := do
  let result ← ExceptT.lift (renew verbose p.config p.outputDir p.typesPath p.source).run
  match result with
  | .error (.artifacts e) => throw (.crash (.artifacts e))
  | .error (.device .embeddedNull) => throw (.crash (.device .embeddedNull))
  | .error (.device (.noBytes e)) => throw (.crash (.device (.noBytes e)))
  | .error (.device _) => fail "Error: cannot write generated files: <os error>"
  | .ok (a, written) =>
    sayAll (summary p.config a written)
    return 0

/-- The generate command in a working directory; the result is its exit status. -/
def generate (read : Reader) (base : Path) (o : Options) : CommandM Nat := do
  let project ← resolveProject base o
  let found ←
    if o.config = "" then locateConfig project configNames
    else pure (some (Path.ofText o.config))
  match found with
  | none => writeTemplate project
  | some configPath => deliver o.verbose (← prepare read o project configPath)

/-- How a command line ends: by refusing its arguments or showing the help, or as its command
does. -/
inductive Result
  | refused
  | helped
  | ended (ending : Ending)

def runRequest (read : Reader) (base : Path) : Request → FileM Result
  | .refused => return .refused
  | .help => return .helped
  | .overview => do
    request (.say overview)
    return .ended (.exit 1)
  | .generate options => do
    match ← (generate read base options).run with
    | .ok status => return .ended (.exit status)
    | .error ending => return .ended ending

end ShortcutRelay.CommandLine
