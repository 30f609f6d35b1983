import ShortcutRelay.Text.Pieces
import ShortcutRelay.Text.Word

/-!
# Placeholders

A message may name values of the application as `$` followed by a name in braces. A phrase mentions the
application by one of three tokens.

* `placeholders` : the names in a message, in order and with repetitions;
* `placeholder` : the placeholder of a name;
* `aroundTokens` : the pieces of a phrase around its tokens;
* `tablePhrase` : a phrase in which every mention is the first token, and which has one.
-/

namespace ShortcutRelay.Template
open Text

/-! ## Values -/

/-- The name of the placeholder that begins a text. -/
def placeholderAt? : List Char → Option (List Char)
  | '$' :: '\x7b' :: cs =>
    let name := cs.takeWhile isWord
    if name ≠ [] ∧ (cs.dropWhile isWord).head? = some '\x7d' then some name else none
  | _ => none

def placeholderNames : List Char → List (List Char)
  | [] => []
  | c :: cs =>
    match placeholderAt? (c :: cs) with
    | some name => name :: placeholderNames cs
    | none => placeholderNames cs

def placeholders (message : String) : List String :=
  (placeholderNames message.toList).map String.ofList

def placeholder (name : String) : String :=
  "$\x7b" ++ name ++ "\x7d"

/-! ## The application -/

/-- The token that phrase tables use. -/
def tableToken : String :=
  "$\x7bapplicationName\x7d"

/-- The spellings of the application's name, in the order in which they are tried. -/
def nameTokens : List (List Char) :=
  [tableToken.toList, "\\(.applicationName)".toList, "(.applicationName)".toList]

/-- The length of the token that begins a text. -/
def tokenLength? (cs : List Char) : Option Nat :=
  (nameTokens.find? (·.isPrefixOf cs)).map List.length

def splitTokens : Nat → List Char → List (List Char)
  | _, [] => [[]]
  | skip + 1, _ :: cs => splitTokens skip cs
  | 0, c :: cs =>
    match tokenLength? (c :: cs) with
    | some n => [] :: splitTokens (n - 1) cs
    | none =>
      match splitTokens 0 cs with
      | [] => [[c]]
      | piece :: pieces => (c :: piece) :: pieces

/-- The pieces of a phrase around its tokens; a phrase without a token is one piece. -/
def aroundTokens (phrase : String) : List String :=
  (splitTokens 0 phrase.toList).map String.ofList

/-- A phrase with the tokens of phrase tables; where it has none, the application's name is
added at the end. -/
def tablePhrase (phrase : String) : String :=
  match aroundTokens phrase with
  | [_] => phrase ++ " in " ++ tableToken
  | pieces => joinWith tableToken pieces

end ShortcutRelay.Template
