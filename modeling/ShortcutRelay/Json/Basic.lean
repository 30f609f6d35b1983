import ShortcutRelay.OrderedMap
import ShortcutRelay.Text.Unicode

/-!
# JSON values

The texts in a value are made of code points, for an escape may write a surrogate.

* `Json` : the values, objects keeping the order of their members;
* `Json.members?` : the members of an object;
* `Json.truthy` : whether a value counts as present.
-/

namespace ShortcutRelay

/-- A JSON value. Whole numbers are exact and all other numbers are doubles. -/
inductive Json
  | null
  | bool (value : Bool)
  | int (value : Int)
  | float (value : Float)
  | text (value : List CodePoint)
  | array (items : List Json)
  | object (members : List (List CodePoint × Json))

namespace Json
open Text

instance : Inhabited Json := ⟨.null⟩

/-- Whether a value counts as present: not null, false, zero or empty. -/
def truthy : Json → Bool
  | null => false
  | bool b => b
  | int n => n != 0
  | float x => x != 0.0
  | text s => !s.isEmpty
  | array items => !items.isEmpty
  | object members => !members.isEmpty

def members? : Json → Option (List (List CodePoint × Json))
  | object members => some members
  | _ => none

/-- The text of characters as a value. -/
def ofString (s : String) : Json :=
  text (codePoints s)

/-- A member under a name of characters. -/
def named (name : String) (value : Json) : List CodePoint × Json :=
  (codePoints name, value)

@[simp] theorem named_fst (name : String) (value : Json) : (named name value).1 = codePoints name := rfl

@[simp] theorem named_snd (name : String) (value : Json) : (named name value).2 = value := rfl

end Json

end ShortcutRelay
