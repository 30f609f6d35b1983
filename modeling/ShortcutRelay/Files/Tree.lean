import ShortcutRelay.Files.Request
import ShortcutRelay.Text.Unicode

/-!
# File trees

* `FileTree` : files and directories by the names on the way to them;
* `FileTree.locate` : where a path leads;
* `Terminal` : a tree with the working directory and what was written to the terminal;
* `Terminal.run` : a program that uses files, run on a tree.
-/

namespace ShortcutRelay

/-- What stands at a place of a tree. -/
inductive FileNode
  | file (bytes : List UInt8)
  | directory
  deriving DecidableEq, Repr

/-- Files and directories by the names on the way to them. The root needs no entry. -/
structure FileTree where
  nodes : List (List String × FileNode) := []

namespace FileTree

def node? (t : FileTree) (place : List String) : Option FileNode :=
  if place = [] then some .directory else t.nodes.lookup place

def put (t : FileTree) (place : List String) (node : FileNode) : FileTree where
  nodes := (place, node) :: t.nodes.filter (·.1 != place)

/-- The bytes that a directory has room for in a name. -/
def nameLimit : Nat :=
  255

/-- The place one name further, from a place that has to be a directory. -/
def step (t : FileTree) (place : List String) (name : String) : Except FileError (List String) :=
  match t.node? place with
  | none => .error .missing
  | some (.file _) => .error .notDirectory
  | some .directory =>
    if name = ".." then .ok place.dropLast
    else if nameLimit < (Text.encodeUtf8 name).length then .error .nameTooLong
    else .ok (place ++ [name])

/-- Where a path leads; only the last name may be missing. -/
def locate (t : FileTree) (base p : Path) : Except FileError (List String) :=
  if p.hasNull then .error .embeddedNull else (base.join p).names.foldlM t.step []

def kind (t : FileTree) (base p : Path) : Except FileError FileKind :=
  match t.locate base p with
  | .error .nameTooLong => .error .nameTooLong
  | .error _ => .ok .missing
  | .ok place =>
    match t.node? place with
    | none => .ok .missing
    | some (.file _) => .ok .file
    | some .directory => .ok .directory

def entries (t : FileTree) (base p : Path) : Except FileError (List String) := do
  let place ← t.locate base p
  match t.node? place with
  | none => throw .missing
  | some (.file _) => throw .notDirectory
  | some .directory =>
    return t.nodes.filterMap fun (found, _) =>
      if found ≠ [] ∧ found.dropLast = place then found.getLast? else none

def read (t : FileTree) (base p : Path) : Except FileError (List UInt8) := do
  match t.node? (← t.locate base p) with
  | none => throw .missing
  | some .directory => throw .isDirectory
  | some (.file bytes) => return bytes

/-- The tree with other bytes in a file, which is made if it is missing. -/
def write (t : FileTree) (base p : Path) (bytes : List UInt8) : Except FileError FileTree := do
  let place ← t.locate base p
  match t.node? place with
  | some .directory => throw .isDirectory
  | some (.file _) => return t.put place (.file bytes)
  | none =>
    match t.node? place.dropLast with
    | some .directory => return t.put place (.file bytes)
    | some (.file _) => throw .notDirectory
    | none => throw .missing

end FileTree

/-- A tree with the working directory and what was written to the terminal. -/
structure Terminal where
  base : Path
  tree : FileTree
  said : String := ""
  complained : String := ""

namespace Terminal

def put (p : Path) (bytes : List UInt8) : StateM Terminal (Except FileError Unit) := do
  let s ← get
  match s.tree.write s.base p bytes with
  | .error e => return .error e
  | .ok tree =>
    set { s with tree }
    return .ok ()

/-- The answer to a request. A tree has room for all bytes: a file that can be emptied can be filled. -/
def answer : (r : FileRequest) → StateM Terminal r.Result
  | .kind p => return (← get).tree.kind (← get).base p
  | .entries p => return (← get).tree.entries (← get).base p
  | .read p => return (← get).tree.read (← get).base p
  | .clear p => put p []
  | .write p bytes => put p bytes
  | .say text => modify fun s => { s with said := s.said ++ text }
  | .complain text => modify fun s => { s with complained := s.complained ++ text }

def run {α : Type} (p : FileM α) : StateM Terminal α :=
  Program.run (I := fileInterface) answer p

end Terminal

end ShortcutRelay
