import ShortcutRelay.Config.Parse
import ShortcutRelay.Text.Unicode

/-!
# Configuration files

What reads the text of a configuration is not part of the program. It is taken to give a document or
to say why there is none.

* `Reader` : a reader of configurations;
* `LoadFailure` : why a file holds no configuration;
* `Config.ofText` : the configuration of a text;
* `Config.load` : the configuration of a file.
-/

namespace ShortcutRelay

/-- Why a reader gives no document: the text breaks its grammar, or something else went wrong. -/
inductive ReaderError
  | malformed
  | other (message : String)
  deriving DecidableEq, Repr

/-- A reader of configurations: the document of a text. -/
abbrev Reader :=
  String → Except ReaderError Document

inductive LoadFailure
  | missing (path : String)
  | directory
  | undecodable
  | config (failure : ConfigFailure)
  | reader (message : String)
  deriving DecidableEq, Repr

def LoadFailure.message : LoadFailure → String
  | missing path => "Shortcuts config not found: " ++ path
  | directory => "<os error>"
  | undecodable => "<decode error>"
  | config failure => failure.message
  | reader message => message

/-- The document of a text that was found under a name. -/
def documentOfText (read : Reader) (name text : String) : Except LoadFailure Document :=
  match read text with
  | .ok d => .ok d
  | .error .malformed => .error (.config (.invalid (.unreadable name)))
  | .error (.other message) => .error (.reader message)

def Config.ofText (read : Reader) (name text : String) : Except LoadFailure Config := do
  (Config.ofDocument (← documentOfText read name text)).mapError .config

def Config.load (read : Reader) (path : String) (bytes : Option (List UInt8)) :
    Except LoadFailure Config :=
  match bytes with
  | none => .error (.missing path)
  | some bytes =>
    match Text.readTextFile? bytes with
    | some text => Config.ofText read path text
    | none => .error .undecodable

end ShortcutRelay
