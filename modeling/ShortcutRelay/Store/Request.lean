import ShortcutRelay.Failure
import ShortcutRelay.OrderedMap
import ShortcutRelay.Program

/-!
# Uses of a shared store

A shared store holds scalars under keys. Each request is answered as one step; nothing is promised
between two of them.

* `StoreRequest` : the requests that a store answers;
* `StoreM` : programs that use a store and may fail;
* `Store.get`, `Store.text`, `Store.number`, `Store.double` : reads, as they are or by type;
* `Store.set`, `Store.remove`, `Store.removeAll` : writes.
-/

namespace ShortcutRelay

/-- What a store holds, in its own order. -/
abbrev Contents := OrderedMap Document

/-- A request to a store. -/
inductive StoreRequest
  | value (key : String)
  | text (key : String)
  | put (key : String) (value : Document)
  | remove (key : String)
  | removeAll (keys : List String)
  | keys
  | snapshot

/-- The type of the answer to a request. A key without a value reads as null. -/
def StoreRequest.Result : StoreRequest → Type
  | value _ => Document
  | text _ => Except NumberError (Option String)
  | put _ _ => Unit
  | remove _ => Unit
  | removeAll _ => Unit
  | keys => List String
  | snapshot => Contents

/-- The requests to a store, every one of which may fail. -/
def storeInterface : Interface where
  Request := StoreRequest
  Answer r := Except Failure r.Result

/-- Programs that use a store and may fail. -/
abbrev StoreM := ExceptT Failure (Program storeInterface)

/-! ## Scalars -/

def Document.isScalar : Document → Bool
  | .text _ | .bool _ | .int _ | .float _ => true
  | _ => false

def Document.isNumeric : Document → Bool
  | .bool _ | .int _ | .float _ => true
  | _ => false

/-- The text of a scalar: whole doubles without a point, truth values as 1 and 0. -/
def Document.storedText : Document → Except NumberError (Option String)
  | .text s => .ok (some s)
  | .bool b => .ok (some (if b then "1" else "0"))
  | .int n => some <$> wholeText n
  | .float x =>
    .ok <| some <| match Decimal.integer? x with
      | some n => toString n
      | none => Decimal.plain.write x
  | _ => .ok none

def textAt (c : Contents) (key : String) : Except NumberError (Option String) :=
  match c.get? key with
  | some value => value.storedText
  | none => .ok none

/-- The number of a truth value or a number; texts have none. -/
def Document.storedNumber (d : Document) : Except NumberError (Option Float) :=
  if d.isNumeric then some <$> d.toFloat else .ok none

namespace Store

/-! ## Requests -/

def perform (r : StoreRequest) : StoreM r.Result :=
  ExceptT.mk (.request (I := storeInterface) r)

def get (key : String) : StoreM Document :=
  perform (.value key)

def remove (key : String) : StoreM Unit :=
  perform (.remove key)

def removeAll (keys : List String) : StoreM Unit :=
  perform (.removeAll keys)

def keys : StoreM (List String) :=
  perform .keys

def snapshot : StoreM Contents :=
  perform .snapshot

def set (key : String) (value : Document) : StoreM Unit :=
  match value with
  | .null => remove key
  | value =>
    if value.isScalar then perform (.put key value)
    else throw (.unsupportedValue key value.kind)

/-! ## Reads by type -/

/-- A number error as a failure of a store program. -/
def ofNumber {α : Type} (r : Except NumberError α) : StoreM α :=
  match r with
  | .ok a => pure a
  | .error e => throw (.number e)

def text (key : String) : StoreM (Option String) := do
  ofNumber (← perform (.text key))

def contains (key : String) : StoreM Bool := do
  return match ← get key with
    | .null => false
    | _ => true

def number (key : String) : StoreM (Option Float) := do
  ofNumber (← get key).storedNumber

/-- The double of a key: texts are read, and what is no number counts as zero. A value that is
not a text is read a second time. -/
def double (key : String) : StoreM Float := do
  match ← get key with
  | .null => return 0.0
  | .text s => return (Decimal.readFloat? s).getD 0.0
  | _ => return (← number key).getD 0.0

end Store

end ShortcutRelay
