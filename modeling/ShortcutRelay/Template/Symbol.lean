import ShortcutRelay.Text.Blank
import ShortcutRelay.Text.Case

/-!
# Symbols and identifiers

* `symbolCase` : words joined into one symbol, each with a capital letter;
* `isIdentifier` : whether a name can be written as it is in the generated sources.
-/

namespace ShortcutRelay.Template
open Text

/-- Whether a character stands between words: a hyphen, an underscore or a blank. -/
def isSeparator (c : Char) : Bool :=
  c == '-' || c == '_' || isBlank c

/-- The text without separators; a character that follows one is put in upper case. `after` says
whether a separator stands in front. -/
def joinWords : Bool → List Char → List Char
  | _, [] => []
  | after, c :: cs =>
    if isSeparator c then joinWords true cs
    else (if after then upperOf c else [c]) ++ joinWords false cs

def capitalize : List Char → List Char
  | [] => []
  | c :: cs => upperOf c ++ cs

def symbolCase (s : String) : String :=
  String.ofList (capitalize (joinWords false s.toList))

def isIdentifierStart (c : Char) : Bool :=
  ('a' ≤ c && c ≤ 'z') || ('A' ≤ c && c ≤ 'Z') || c == '_'

def isIdentifierPart (c : Char) : Bool :=
  isIdentifierStart c || ('0' ≤ c && c ≤ '9')

/-- A text without one line break at its end. -/
def withoutFinalBreak (cs : List Char) : List Char :=
  if cs.getLast? = some '\n' then cs.dropLast else cs

def isIdentifier (s : String) : Bool :=
  match withoutFinalBreak s.toList with
  | [] => false
  | c :: cs => isIdentifierStart c && cs.all isIdentifierPart

end ShortcutRelay.Template
