import ShortcutRelay.PropertyList.Saved
import ShortcutRelay.Store.Backend
import ShortcutRelay.Text.Pieces
import ShortcutRelay.Text.Unicode

/-!
# Suites in files

A suite is kept in one property list file and read anew for every request, so that handles in
several processes see each other's writes. A lock file beside it is held during each section, and
a write goes to a third file, which then takes the place of the first.

* `SuiteContent` : what stands where the file belongs;
* `SuiteFile` : the file with its lock and its directory;
* `SuiteFile.names` : the names in the directory.
-/

namespace ShortcutRelay

/-- What stands where the file of a suite belongs. -/
inductive SuiteContent
  | missing
  | directory
  | list (value : Document)
  | broken (failure : Failure)

/-- The file of a suite. `moved` says that its directory is out of reach, `group` is set where the
suite is opened by the name of its group, and `depth` counts the sections inside each other. -/
structure SuiteFile where
  directory : String
  name : String
  content : SuiteContent := .missing
  hasLock : Bool := false
  moved : Bool := false
  group : Option String := none
  blocked : Bool := false
  depth : Nat := 0

namespace SuiteFile

def path (f : SuiteFile) : String :=
  f.directory ++ "/" ++ f.name

def lockName (f : SuiteFile) : String :=
  "." ++ f.name ++ ".lock"

/-- The bytes in a name that a directory has room for. -/
def nameLimit : Nat :=
  255

/-- The bytes that the file which is written first has in its name beyond those of the suite: a
point on either side and eight random characters. -/
def draftExtra : Nat :=
  10

/-- Whether a name with some more bytes is too long. -/
def isTooLong (name : String) (extra : Nat) : Bool :=
  nameLimit < (Text.encodeUtf8 name).length + extra

def hasNull (name : String) : Bool :=
  name.toList.contains (Char.ofNat 0)

def unreadable (f : SuiteFile) (reason : Unreadable) : Failure :=
  .store (.unreadable f.path reason)

/-- Whether a text can name a group: not empty, without a slash and not a reference to a
directory. -/
def isGroup (group : String) : Bool :=
  group != "" && !group.toList.contains '/' && group != "." && group != ".."

def read (f : SuiteFile) : Except Failure Contents :=
  if hasNull f.name then .error (f.unreadable (.badValue Failure.nullInName.message))
  else if f.moved then .ok (.ofList [])
  else if isTooLong f.name 0 then .error (f.unreadable .device)
  else
    match f.content with
    | .missing => .ok (.ofList [])
    | .directory => .error (f.unreadable .device)
    | .broken e => .error e
    | .list (.map entries) => .ok (.ofList (PropertyList.textEntries entries))
    | .list _ => .error (.store (.notDictionary f.path))

def write (f : SuiteFile) (c : Contents) : Except Failure SuiteFile := do
  if f.moved || isTooLong f.name draftExtra then throw (.store (.unwritable f.path))
  match PropertyList.saved c with
  | .error n => throw (.integerRange n)
  | .ok c => return { f with content := .list (.ofFields c.toList) }

def lock (f : SuiteFile) : Except Failure SuiteFile := do
  if 0 < f.depth then return { f with depth := f.depth + 1 }
  if hasNull f.name then throw .nullInName
  if f.moved || isTooLong f.lockName 0 then throw (.store (.noLock f.path))
  return { f with hasLock := true, depth := 1 }

/-- What opening the suite by its group finds wrong. -/
def checkGroup (f : SuiteFile) : Except Failure Unit := do
  if let some group := f.group then
    if !isGroup group then throw (.store (.invalidGroup group))
    if f.blocked then throw (.store (.noDirectory f.directory))

def names (f : SuiteFile) : Option (List String) :=
  if f.moved then none
  else
    let file := match f.content with
      | .missing => []
      | _ => [f.name]
    some ((if f.hasLock then [f.lockName] else []) ++ file)

end SuiteFile

instance : Backend SuiteFile where
  obtain := do MonadExcept.ofExcept (← get).checkGroup
  load := do MonadExcept.ofExcept (← get).read
  save c := do set (← MonadExcept.ofExcept ((← get).write c))
  enter := do set (← MonadExcept.ofExcept (← get).lock)
  leave := modify fun f => { f with depth := f.depth - 1 }

end ShortcutRelay
