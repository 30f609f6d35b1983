import ShortcutRelay.CommandLine.Generate
import ShortcutRelay.Yaml.Value

/-!
# The command

The command line over the files of the system: every request of the program is answered by the
system, and what the program ends with becomes the exit status.
-/

namespace ShortcutRelay.CommandLine

def fileError : IO.Error → FileError
  | .noFileOrDirectory .. => .missing
  | .noSuchThing .. => .missing
  | .inappropriateType .. => .notDirectory
  | .invalidArgument .. => .nameTooLong
  | _ => .refused

/-- The result of a use of a file. -/
def attempt {α : Type} (act : IO α) : IO (Except FileError α) := do
  match ← act.toBaseIO with
  | .ok a => return .ok a
  | .error e => return .error (fileError e)

/-- What kind of thing stands at a path. Where nothing can be found, nothing stands. -/
def kindAt (path : Path) : IO FileKind := do
  let place := (← IO.currentDir) / path.text
  if ← place.isDir then return .directory
  else if ← place.pathExists then return .file
  else return .missing

def answer : (r : FileRequest) → IO r.Result
  | .kind path => attempt (kindAt path)
  | .entries path => attempt do
    return (← ((← IO.currentDir) / path.text).readDir).toList.map (·.fileName)
  | .read path => attempt do
    return (← IO.FS.readBinFile path.text).toList
  | .clear path => attempt (IO.FS.writeBinFile path.text .empty)
  | .write path bytes => attempt (IO.FS.writeBinFile path.text ⟨bytes.toArray⟩)
  | .say text => IO.print text
  | .complain text => IO.eprint text

def status : Result → UInt32
  | .refused => 2
  | .helped => 0
  | .ended (.exit n) => n.toUInt32
  | .ended (.crash _) => 1

/-- What is shown after the command has ended, with the part of the terminal that is meant for
errors first. -/
def closing : Result → String × String
  | .refused => (overview, "")
  | .helped => ("", overview)
  | .ended (.exit _) => ("", "")
  | .ended (.crash cause) => ("Error: " ++ cause.message ++ "\n", "")

end ShortcutRelay.CommandLine

open ShortcutRelay ShortcutRelay.CommandLine in
def main (args : List String) : IO UInt32 := do
  let base := Path.ofText (← IO.currentDir).toString
  let result ← Program.run (I := fileInterface) answer
    (runRequest Yaml.reader base (.ofArguments args))
  let (complaint, text) := closing result
  IO.eprint complaint
  IO.print text
  return status result
