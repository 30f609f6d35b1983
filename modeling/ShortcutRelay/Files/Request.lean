import ShortcutRelay.Files.Path
import ShortcutRelay.Program
import ShortcutRelay.Text.Unicode

/-!
# Uses of files

* `FileRequest` : what a program may ask of files and of its terminal;
* `FileM` : programs that use files;
* `FileError` : why a file cannot be used;
* `Files.writeFile` : writes the text of a file, which is emptied first.
-/

namespace ShortcutRelay

/-- Why a file cannot be used, or its text not be written; `refused` stands for every other reason. -/
inductive FileError
  | missing
  | notDirectory
  | isDirectory
  | nameTooLong
  | embeddedNull
  | noBytes (error : Text.NoBytes)
  | refused
  deriving DecidableEq, Repr

def FileError.message : FileError → String
  | embeddedNull => "embedded null byte"
  | noBytes e => e.message
  | _ => "<os error>"

inductive FileKind
  | missing
  | file
  | directory
  deriving DecidableEq, Repr

/-- A request of a program that uses files. A file is emptied, or made, by `clear` before `write`
fills it. `say` and `complain` write to the terminal. -/
inductive FileRequest
  | kind (path : Path)
  | entries (path : Path)
  | read (path : Path)
  | clear (path : Path)
  | write (path : Path) (bytes : List UInt8)
  | say (text : String)
  | complain (text : String)

/-- The type of the answer to a request. -/
def FileRequest.Result : FileRequest → Type
  | kind _ => Except FileError FileKind
  | entries _ => Except FileError (List String)
  | read _ => Except FileError (List UInt8)
  | clear _ => Except FileError Unit
  | write _ _ => Except FileError Unit
  | say _ => Unit
  | complain _ => Unit

def fileInterface : Interface where
  Request := FileRequest
  Answer := FileRequest.Result

abbrev FileM := Program fileInterface

namespace Files

def request (r : FileRequest) : FileM r.Result :=
  .request (I := fileInterface) r

def sayLine (line : String) : FileM Unit :=
  request (.say (line ++ "\n"))

def complainLine (line : String) : FileM Unit :=
  request (.complain (line ++ "\n"))

/-- Writes the text of a file. The file is emptied first, and stays empty where the text has no
bytes. -/
def writeFile (path : Path) (text : List CodePoint) : ExceptT FileError FileM Unit := do
  ExceptT.mk (request (.clear path))
  match Text.encodeCodePoints text with
  | .ok bytes => ExceptT.mk (request (.write path bytes))
  | .error e => throw (.noBytes e)

end Files

end ShortcutRelay
