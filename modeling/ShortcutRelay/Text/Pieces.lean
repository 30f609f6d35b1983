/-!
# Cutting and replacing

Texts are cut and changed as lists of characters.

* `splitOn` : the pieces of a text between the occurrences of one character;
* `replaceAll` : every occurrence of a text, from the left and without overlaps, replaced;
* `startsWith`, `afterStart?` : texts that begin with another one.
-/

namespace ShortcutRelay.Text

/-- The pieces between the occurrences of `sep`, one more than there are occurrences. -/
def splitOn (sep : Char) : List Char → List (List Char)
  | [] => [[]]
  | c :: cs =>
    match splitOn sep cs with
    | [] => [[c]]
    | piece :: pieces => if c = sep then [] :: piece :: pieces else (c :: piece) :: pieces

/-- The scan behind `replaceAll`; `skip` counts the characters left of the occurrence that was
just replaced. -/
def replaceFrom (old new : List Char) : Nat → List Char → List Char
  | _, [] => []
  | skip + 1, _ :: cs => replaceFrom old new skip cs
  | 0, c :: cs =>
    if old.isPrefixOf (c :: cs) then new ++ replaceFrom old new (old.length - 1) cs
    else c :: replaceFrom old new 0 cs

def replaceAll (old new : String) (s : String) : String :=
  String.ofList (replaceFrom old.toList new.toList 0 s.toList)

def startsWith (start s : String) : Bool :=
  start.toList.isPrefixOf s.toList

def afterStart? (start s : String) : Option String :=
  if startsWith start s then some (String.ofList (s.toList.drop start.length)) else none

def endsWith (tail s : String) : Bool :=
  tail.toList.reverse.isPrefixOf s.toList.reverse

def joinWith (sep : String) (texts : List String) : String :=
  String.ofList (List.intercalate sep.toList (texts.map String.toList))

def joinLines (lines : List String) : String :=
  joinWith "\n" lines

theorem splitOn_ne_nil (sep : Char) (cs : List Char) : splitOn sep cs ≠ [] := by
  cases cs with
  | nil => simp [splitOn]
  | cons c cs =>
    unfold splitOn
    split
    · simp
    · split <;> simp

end ShortcutRelay.Text
