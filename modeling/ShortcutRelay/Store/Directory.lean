import ShortcutRelay.Files.Path

/-!
# The directory of the suites

* `homePath?` : a path that may begin with the home directory of somebody;
* `storeDirectory?` : the directory that holds the files of all suites.
-/

namespace ShortcutRelay

/-- The home directories of the one who runs the program and of others by name. -/
structure Homes where
  own : String
  others : List (String × String) := []

/-- The home directory that a name stands for: a tilde alone for one's own, with a name behind it
for somebody else's. -/
def Homes.find? (h : Homes) (name : String) : Option String :=
  if name = "~" then some h.own else h.others.lookup (String.ofList (name.toList.drop 1))

/-- A path whose first name may stand for a home directory; none where it stands for that of
nobody. -/
def homePath? (h : Homes) (p : Path) : Option Path :=
  match p.names with
  | name :: rest =>
    if !p.isAbsolute && Text.startsWith "~" name then
      (h.find? name).map fun home => (Path.ofText home).join { names := rest }
    else some p
  | [] => some p

/-- The directory that is used unless another one is set. -/
def defaultStoreDirectory (h : Homes) : Path :=
  ((Path.ofText h.own).child ".intentbridge").child "groups"

/-- The directory that holds the files of all suites, given the setting for it; none where the
setting names the home directory of nobody. -/
def storeDirectory? (h : Homes) (setting : Option String) : Option Path :=
  match setting with
  | none | some "" => some (defaultStoreDirectory h)
  | some s => homePath? h (Path.ofText s)

def noHomeMessage : String :=
  "Could not determine home directory."

end ShortcutRelay
