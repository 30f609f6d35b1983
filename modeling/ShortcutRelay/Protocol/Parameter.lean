import ShortcutRelay.Protocol.Key
import ShortcutRelay.Protocol.StoredValue
import ShortcutRelay.Store.Request
import ShortcutRelay.Text.Pieces

/-!
# Parameters in the store

* `storeParameter` : writes a parameter in the form of its type;
* `storedParameters` : all parameters in the store, whatever types are declared.

A date is written as seconds since 1970 and a truth value as itself, each with a tag of its type;
texts and numbers need none.
-/

namespace ShortcutRelay.Protocol

def ofCalendar {α : Type} (r : Except Calendar.CalendarError α) : StoreM α :=
  match r with
  | .ok a => pure a
  | .error e => throw (.calendar e)

def epochSeconds (value : Document) : StoreM Float :=
  match value with
  | .moment m => ofCalendar m.toEpoch
  | .date d => ofCalendar (Calendar.Moment.ofDate d).toEpoch
  | .int _ | .float _ => Store.ofNumber value.toFloat
  | d => throw (.notADate d.kind)

def storeParameter (name : String) (type : ValueType) (value : Document) : StoreM Unit :=
  match type with
  | .date => do
    Store.set (parameterEntry name) (.float (← epochSeconds value))
    Store.set (parameterTagEntry name) (.text dateTag)
  | .boolean => do
    Store.set (parameterEntry name) (.bool value.truthy)
    Store.set (parameterTagEntry name) (.text booleanTag)
  | .number => do
    Store.set (parameterEntry name) (.float (← Store.ofNumber value.toFloat))
  | _ => do
    Store.set (parameterEntry name) (.text (← Store.ofNumber value.plainText))

def isText (expected : String) : Document → Bool
  | .text s => s == expected
  | _ => false

/-- A time that is stored as a number or as the text of one; any other text is kept. -/
def timestampOf (raw : Document) : Except NumberError (Option StoredValue) :=
  match raw with
  | .text s => .ok (some (((Decimal.readFloat? s).map .timestamp).getD (.text s)))
  | raw => if raw.isNumeric then do return some (.timestamp (← raw.toFloat)) else .ok none

/-- The parameter that a stored value and its tag stand for, none where it is no scalar. -/
def decodeParameter (raw tag : Document) : Except NumberError (Option StoredValue) :=
  if isText dateTag tag then timestampOf raw
  else if isText booleanTag tag && raw.isNumeric then .ok (some (.boolean raw.truthy))
  else
    match raw with
    | .text s => .ok (some (.text s))
    | raw => if raw.isNumeric then do return some (.number (← raw.toFloat)) else .ok none

def decodeParameters (all : Contents) :
    List (String × Document) → Except NumberError (List (String × StoredValue))
  | [] => .ok []
  | (key, raw) :: rest =>
    match Text.afterStart? parameterStart key with
    | none => decodeParameters all rest
    | some name => do
      let found ← decodeParameter raw ((all.get? (parameterTagEntry name)).getD .null)
      let others ← decodeParameters all rest
      return (found.map (name, ·)).toList ++ others

def storedParameters : StoreM (List (String × StoredValue)) := do
  let all ← Store.snapshot
  Store.ofNumber (decodeParameters all all.toList)

end ShortcutRelay.Protocol
