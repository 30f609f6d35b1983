import ShortcutRelay.Config.Basic
import ShortcutRelay.Calendar.Iso
import ShortcutRelay.Document.Number

/-!
# Parameter values

A parameter as it is found in the store, before its declared type is known.

* `StoredValue` : a text, a number, a truth value or a time;
* `StoredValue.natural` : the value by itself;
* `StoredValue.resolve` : the value as its declared type wants it.
-/

namespace ShortcutRelay

/-- A parameter as it is found in the store. A time is given in seconds since 1970. -/
inductive StoredValue
  | text (value : String)
  | number (value : Float)
  | boolean (value : Bool)
  | timestamp (value : Float)

namespace StoredValue
open Calendar

def kind : StoredValue → String
  | text _ => "text"
  | number _ => "number"
  | boolean _ => "boolean"
  | timestamp _ => "timestamp"

def raw : StoredValue → Document
  | text s => .text s
  | number x => .float x
  | boolean b => .bool b
  | timestamp x => .float x

/-- The value by itself: a time is a moment in universal time. -/
def natural : StoredValue → Except CalendarError Document
  | timestamp x => do return .moment (← Moment.ofEpoch x)
  | v => .ok v.raw

/-- The texts that mean yes and those that mean no. -/
def truthOfText? (s : String) : Option Bool :=
  let word := Text.lower (Text.trim s)
  if ["true", "yes", "1"].contains word then some true
  else if ["false", "no", "0"].contains word then some false
  else none

def resolveText : StoredValue → Except CalendarError Document
  | text s => .ok (.text s)
  | number x => .ok (.text (Decimal.plain.write x))
  | boolean b => .ok (.text (shownBool b))
  | timestamp x => do return .text ((← Moment.ofEpoch x).textWith " ")

def resolveNumber : StoredValue → Document
  | text s => ((Decimal.readFloat? s).map .float).getD (.text s)
  | number x => .float x
  | boolean b => .float (if b then 1.0 else 0.0)
  | timestamp x => .float x

def resolveBoolean : StoredValue → Document
  | text s => ((truthOfText? s).map .bool).getD (.text s)
  | number x => .bool (x != 0.0)
  | boolean b => .bool b
  | timestamp x => .bool (x != 0.0)

/-- The value as a date: numbers count as seconds, and a text that is none stays a text. -/
def resolveDate : StoredValue → Except CalendarError Document
  | text s => .ok (((Moment.ofIso? s).map .moment).getD (.text s))
  | number x => do return .moment (← Moment.ofEpoch x)
  | timestamp x => do return .moment (← Moment.ofEpoch x)
  | boolean b => .ok (.bool b)

/-- The value as its declared type wants it, or by itself where no type of the four is
declared. -/
def resolve (v : StoredValue) (declared : Option ValueType) : Except CalendarError Document :=
  match declared with
  | some .text => v.resolveText
  | some .number => .ok v.resolveNumber
  | some .boolean => .ok v.resolveBoolean
  | some .date => v.resolveDate
  | _ => v.natural

end StoredValue

end ShortcutRelay
