import ShortcutRelay.Decimal.Reading
import ShortcutRelay.Text.Pieces

/-!
# Arguments of a command

The arguments are options, each with or without a value, and texts by themselves. An option may be
cut short as long as only one option begins like that, and its value may follow it after an equals
sign or as the next argument. Options of one letter may be written together after one hyphen.

* `Flag` : an option that a command knows;
* `classify` : what one argument is;
* `readArguments` : what all arguments of a command say.
-/

namespace ShortcutRelay.CommandLine
open Text

/-- An option that a command knows: its spelling, its key and whether it takes a value. -/
structure Flag (κ : Type) where
  spelling : String
  key : κ
  takesValue : Bool

/-- What an argument is. An option may come with a value after an equals sign, and one with a single
hyphen may have something written behind it, with an equals sign between them or without. One that
is not known is kept apart. -/
inductive Argument (κ : Type)
  | plain (text : String)
  | separator
  | option (flag : Flag κ) (value : Option String)
  | attached (flag : Flag κ) (behind : String)
  | unknown
  | ambiguous

variable {κ : Type}

def splitEquals (s : String) : String × Option String :=
  let before := s.toList.takeWhile (· != '=')
  match s.toList.dropWhile (· != '=') with
  | [] => (s, none)
  | _ :: after => (String.ofList before, some (String.ofList after))

def isNegativeNumber (s : String) : Bool :=
  match s.toList with
  | '-' :: cs =>
    let isDigit (c : Char) : Bool := (Decimal.digitValue? c).isSome
    let whole := cs.takeWhile isDigit
    match cs.dropWhile isDigit with
    | [] => !whole.isEmpty
    | '.' :: fraction => !fraction.isEmpty && fraction.all isDigit
    | _ => false
  | _ => false

/-- The options that a text may stand for, with the values given in the text. -/
def candidates (flags : List (Flag κ)) (s : String) : List (Argument κ) :=
  if startsWith "--" s then
    let (start, value) := splitEquals s
    (flags.filter fun f => startsWith start f.spelling).map (.option · value)
  else
    let short := String.ofList (s.toList.take 2)
    flags.filterMap fun f =>
      if f.spelling = short then some (.attached f (String.ofList (s.toList.drop 2)))
      else if startsWith s f.spelling then some (.option f none)
      else none

def withValue (f : Flag κ) (value : String) : Argument κ :=
  if startsWith "--" f.spelling then .option f (some value) else .attached f value

/-- An option under its full spelling, by itself or with something behind an equals sign. -/
def spelled? (flags : List (Flag κ)) (s : String) : Option (Argument κ) :=
  match flags.find? (·.spelling == s) with
  | some f => some (.option f none)
  | none =>
    match splitEquals s with
    | (start, some value) => (flags.find? (·.spelling == start)).map (withValue · value)
    | _ => none

def classify (flags : List (Flag κ)) (s : String) : Argument κ :=
  if s = "--" then .separator
  else if !startsWith "-" s || s = "-" then .plain s
  else
    match spelled? flags s with
    | some found => found
    | none =>
      match candidates flags s with
      | [found] => found
      | [] => if isNegativeNumber s || s.toList.contains ' ' then .plain s else .unknown
      | _ => .ambiguous

def classifyAll (flags : List (Flag κ)) : List String → List (Argument κ)
  | [] => []
  | s :: rest =>
    match classify flags s with
    | .separator => .separator :: rest.map .plain
    | found => found :: classifyAll flags rest

/-- What arguments say: to show the help, or which options were given with which values, and
whether something was left over. -/
inductive Reading (κ : Type)
  | help
  | refused
  | options (given : List (κ × Option String)) (leftOver : Bool)

/-- The keys of the options that some letters stand for, such as those of `-vh`; all of them have to
be options without a value, and there has to be one. -/
def cluster? (flags : List (Flag κ)) (letters : String) : Option (List κ) :=
  let key? (c : Char) : Option κ :=
    (flags.find? fun f => f.spelling == String.ofList ['-', c] && !f.takesValue).map (·.key)
  if letters = "" then none else letters.toList.mapM key?

/-- The value of an option; two hyphens are taken for the separator, which is dropped. -/
def valueOf? (text : String) : Option String :=
  if text = "--" then none else some text

/-- Goes through arguments; `isHelp` tells the option that shows the help, and `given` and
`leftOver` say what was found before. -/
def readFrom (flags : List (Flag κ)) (isHelp : κ → Bool) :
    List (Argument κ) → List (κ × Option String) → Bool → Reading κ
  | [], given, leftOver => .options given leftOver
  | .option f value :: rest, given, leftOver =>
    match f.takesValue, value, rest with
    | true, some v, rest => readFrom flags isHelp rest (given ++ [(f.key, valueOf? v)]) leftOver
    | true, none, .plain v :: rest =>
      readFrom flags isHelp rest (given ++ [(f.key, valueOf? v)]) leftOver
    | false, none, rest =>
      if isHelp f.key then .help else readFrom flags isHelp rest (given ++ [(f.key, none)]) leftOver
    | _, _, _ => .refused
  | .attached f behind :: rest, given, leftOver =>
    if f.takesValue then
      readFrom flags isHelp rest (given ++ [(f.key, valueOf? behind)]) leftOver
    else
      match cluster? flags behind with
      | none => .refused
      | some keys =>
        let keys := f.key :: keys
        if keys.any isHelp then .help
        else readFrom flags isHelp rest (given ++ keys.map (·, none)) leftOver
  | .ambiguous :: _, _, _ => .refused
  | _ :: rest, given, _ => readFrom flags isHelp rest given true

def isAmbiguous : Argument κ → Bool
  | .ambiguous => true
  | _ => false

def readArguments (flags : List (Flag κ)) (isHelp : κ → Bool) (args : List String) : Reading κ :=
  let found := classifyAll flags args
  if found.any isAmbiguous then .refused else readFrom flags isHelp found [] false

end ShortcutRelay.CommandLine
