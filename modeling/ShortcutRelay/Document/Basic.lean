import ShortcutRelay.Calendar.Moment

/-!
# Documents

Decoded data of any shape: what a configuration file holds, what an application hands over as
state and what a suite file may contain.

* `Document` : the data;
* `Document.kind` : the name of a document's kind;
* `Document.truthy` : whether a document counts as present.
-/

namespace ShortcutRelay
open Calendar

/-- Decoded data. A map keeps the order of its entries; a set and a pair come only from files. -/
inductive Document
  | null
  | bool (value : Bool)
  | int (value : Int)
  | float (value : Float)
  | text (value : String)
  | date (value : Date)
  | moment (value : Moment)
  | bytes (value : List UInt8)
  | list (items : List Document)
  | map (entries : List (Document × Document))
  | set (items : List Document)
  | pair (first second : Document)

namespace Document

instance : Inhabited Document := ⟨.null⟩

def kind : Document → String
  | null => "NoneType"
  | bool _ => "bool"
  | int _ => "int"
  | float _ => "float"
  | text _ => "str"
  | date _ => "date"
  | moment _ => "datetime"
  | bytes _ => "bytes"
  | list _ => "list"
  | map _ => "dict"
  | set _ => "set"
  | pair _ _ => "tuple"

/-- The name of a document's kind with the family of the calendar kinds in front. -/
def fullKind : Document → String
  | date _ => "datetime.date"
  | moment _ => "datetime.datetime"
  | d => d.kind

/-- Whether a document counts as present: not null, false, zero or empty. -/
def truthy : Document → Bool
  | null => false
  | bool b => b
  | int n => n != 0
  | float x => x != 0.0
  | text s => s != ""
  | date _ => true
  | moment _ => true
  | bytes bs => !bs.isEmpty
  | list items => !items.isEmpty
  | map entries => !entries.isEmpty
  | set items => !items.isEmpty
  | pair _ _ => true

/-- The value of the first entry whose key is a given text. -/
def field? (key : String) : List (Document × Document) → Option Document
  | [] => none
  | (text k, v) :: rest => if k = key then some v else field? key rest
  | _ :: rest => field? key rest

def ofFields (fields : List (String × Document)) : Document :=
  .map (fields.map fun (k, v) => (.text k, v))

end Document

end ShortcutRelay
