import ShortcutRelay.Document.Number

/-!
# Failures

* `StoreFailure` : why a shared store cannot be used;
* `Unserializable` : why a value has no JSON form;
* `Failure` : why a call ends without a result, with its wording in `Failure.message`.
-/

namespace ShortcutRelay
open Text

inductive Unreadable
  | device
  | notAPropertyList
  | badMarkup
  | badValue (text : String)
  deriving DecidableEq, Repr

def Unreadable.message : Unreadable → String
  | device => "<os error>"
  | notAPropertyList => "Invalid file"
  | badMarkup => "<xml error>"
  | badValue text => text

/-- A use of a store that is made to fail on purpose. -/
inductive StoreUse
  | opening
  | reading
  | writing
  deriving DecidableEq, Repr

def StoreUse.word : StoreUse → String
  | opening => "open"
  | reading => "read"
  | writing => "write"

inductive StoreFailure
  | invalidGroup (group : String)
  | noDirectory (path : String)
  | noLock (path : String)
  | unreadable (path : String) (reason : Unreadable)
  | notDictionary (path : String)
  | unwritable (path : String)
  | injected (use : StoreUse)
  deriving DecidableEq, Repr

def StoreFailure.message : StoreFailure → String
  | invalidGroup group => "Invalid App Group identifier: " ++ quote group
  | noDirectory path => "Cannot access App Group directory " ++ path ++ ": <os error>"
  | noLock path => "Cannot lock shared suite " ++ path ++ ": <os error>"
  | unreadable path reason => "Cannot read shared suite " ++ path ++ ": " ++ reason.message
  | notDictionary path => "Shared suite " ++ path ++ " is not a dictionary"
  | unwritable path => "Cannot write shared suite " ++ path ++ ": <os error>"
  | injected use => "injected " ++ use.word ++ " failure"

/-- What a property list holds where a value of another shape belongs. -/
inductive Misshapen
  | keyOutsideDictionary
  | notADate
  | dateWithoutMonth
  | dateWithoutDay
  | unknownEncoding (name : String)
  deriving DecidableEq, Repr

def Misshapen.message : Misshapen → String
  | keyOutsideDictionary => "list index out of range"
  | notADate => "'NoneType' object has no attribute 'groupdict'"
  | dateWithoutMonth => "function missing required argument 'month' (pos 2)"
  | dateWithoutDay => "function missing required argument 'day' (pos 3)"
  | unknownEncoding name => "unknown encoding: " ++ name

/-- Why a value has no JSON form: a part of it or a key of a map is of another kind, or a whole
number has too many digits. -/
inductive Unserializable
  | value (kind : String)
  | key (kind : String)
  | tooManyDigits
  deriving DecidableEq, Repr

def Unserializable.message : Unserializable → String
  | value kind => "Object of type " ++ kind ++ " is not JSON serializable"
  | key kind => "keys must be str, int, float, bool or None, not " ++ kind
  | tooManyDigits => Decimal.writeLimitText

/-- Why a call ends without a result. The last case belongs to no caller: a run was cut off. -/
inductive Failure
  | store (failure : StoreFailure)
  | number (error : NumberError)
  | calendar (error : Calendar.CalendarError)
  | unsupportedValue (key kind : String)
  | integerRange (n : Int)
  | misshapen (part : Misshapen)
  | nullInName
  | notADate (kind : String)
  | unknownParameters (identifier : String) (names : List String)
  | declined (message : String)
  | raised (message : String)
  | exhausted
  deriving DecidableEq, Repr

def Failure.message : Failure → String
  | store failure => failure.message
  | number error => error.message
  | calendar error => error.message
  | unsupportedValue key kind =>
    "Unsupported shared store value for " ++ quote key ++ ": " ++ kind
  | integerRange n => toString n
  | misshapen part => part.message
  | nullInName => "embedded null byte"
  | notADate kind => "Cannot encode " ++ kind ++ " as a date parameter"
  | unknownParameters identifier names =>
    identifier ++ " has no parameter(s): " ++ joinWith ", " names
  | declined message => message
  | raised message => message
  | exhausted => "cut off"

end ShortcutRelay
