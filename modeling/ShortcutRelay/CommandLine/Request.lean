import ShortcutRelay.CommandLine.Arguments

/-!
# The command line

* `Options` : the options of the `generate` command;
* `Request` : what a command line asks for;
* `Request.ofArguments` : what the arguments of a command line ask for.
-/

namespace ShortcutRelay.CommandLine

/-- The options of the `generate` command. A text that is empty counts as not given, but a project
directory that was given without a value stays without one. -/
structure Options where
  config : String := ""
  projectDir : Option String := some "."
  outputDir : String := ""
  typesPath : String := ""
  verbose : Bool := false

inductive Request
  | overview
  | help
  | refused
  | generate (options : Options)

inductive OptionKey
  | help
  | config
  | projectDir
  | outputDir
  | typesPath
  | verbose
  deriving DecidableEq, Repr

def helpFlags : List (Flag OptionKey) :=
  [⟨"-h", .help, false⟩, ⟨"--help", .help, false⟩]

def generateFlags : List (Flag OptionKey) :=
  helpFlags ++
  [⟨"--config", .config, true⟩, ⟨"--project-dir", .projectDir, true⟩,
   ⟨"--output-dir", .outputDir, true⟩, ⟨"--types-path", .typesPath, true⟩,
   ⟨"--verbose", .verbose, false⟩, ⟨"-v", .verbose, false⟩]

def isHelp (key : OptionKey) : Bool :=
  key == .help

def Options.put (o : Options) : OptionKey × Option String → Options
  | (.help, _) => o
  | (.config, value) => { o with config := value.getD "" }
  | (.projectDir, value) => { o with projectDir := value }
  | (.outputDir, value) => { o with outputDir := value.getD "" }
  | (.typesPath, value) => { o with typesPath := value.getD "" }
  | (.verbose, _) => { o with verbose := true }

def generateName : String :=
  "generate"

namespace Request

/-- What the arguments after the name of the command ask for; `leftOver` says that something in
front of the name was not understood. -/
def ofGenerate (leftOver : Bool) (args : List String) : Request :=
  match readArguments generateFlags isHelp args with
  | .help => .help
  | .refused => .refused
  | .options given more =>
    if leftOver || more then .refused else .generate (given.foldl Options.put {})

def ofRest (leftOver : Bool) : List String → Request
  | [] => if leftOver then .refused else .overview
  | s :: rest =>
    match classify helpFlags s with
    | .option _ value => if value.isNone then .help else .refused
    | .attached _ behind => if (cluster? helpFlags behind).isSome then .help else .refused
    | .plain name => if name = generateName then ofGenerate leftOver rest else .refused
    | .unknown => ofRest true rest
    | .separator | .ambiguous => .refused

def ofArguments (args : List String) : Request :=
  ofRest false args

end Request

/-- The text that is shown when no command is given. -/
def overview : String :=
  Text.joinLines [
    "usage: intentbridge [-h] \x7bgenerate\x7d ...",
    "",
    "Generate Siri App Intents from a shortcuts configuration",
    "",
    "positional arguments:",
    "  \x7bgenerate\x7d",
    "    generate  Generate Swift, localization and type files",
    "",
    "options:",
    "  -h, --help  show this help message and exit",
    ""]

end ShortcutRelay.CommandLine
