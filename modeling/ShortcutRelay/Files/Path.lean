import ShortcutRelay.Text.Pieces

/-!
# Paths

* `Path` : a root and the names below it;
* `Path.ofText`, `Path.text` : between paths and texts, in which empty names and single points
  are left out;
* `Path.child`, `Path.join`, `Path.name` : paths made of paths, and the last name of one;
* `Path.normal` : a path without references to parent directories.
-/

namespace ShortcutRelay

/-- A path: its root, which is empty for a path that begins at the working directory, and the
names below it. -/
structure Path where
  root : String := ""
  names : List String := []
  deriving DecidableEq, Repr

namespace Path
open Text

def rootOf (cs : List Char) : String :=
  match (cs.takeWhile (· == '/')).length with
  | 0 => ""
  | 2 => "//"
  | _ => "/"

def namesOf (cs : List Char) : List String :=
  ((splitOn '/' cs).map String.ofList).filter fun name => name != "" && name != "."

def ofText (s : String) : Path where
  root := rootOf s.toList
  names := namesOf s.toList

def text (p : Path) : String :=
  if p.root = "" ∧ p.names = [] then "." else p.root ++ joinWith "/" p.names

def isAbsolute (p : Path) : Bool :=
  p.root != ""

def join (p q : Path) : Path :=
  if q.isAbsolute then q else { p with names := p.names ++ q.names }

def child (p : Path) (s : String) : Path :=
  p.join (ofText s)

/-- Whether a null character stands in a path, which no file has. -/
def hasNull (p : Path) : Bool :=
  p.names.any (·.toList.contains '\x00')

def name (p : Path) : String :=
  p.names.getLast?.getD ""

/-- Names without references to parent directories; above the root there is only the root. -/
def withoutParents (names : List String) : List String :=
  names.foldl (fun above name => if name = ".." then above.dropLast else above ++ [name]) []

def normal (base p : Path) : Path :=
  let whole := base.join p
  { whole with names := withoutParents whole.names }

end Path

end ShortcutRelay
