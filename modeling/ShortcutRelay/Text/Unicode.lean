import ShortcutRelay.Text.Hex

/-!
# Texts in bytes

A text of the program is one of characters. What comes from a JSON text may hold surrogates besides,
the code points without a character; such a text has no bytes.

* `CodePoint` : a character or a surrogate; `codePoints` : those of a text;
* `characters?` : the text of code points, none where there is a surrogate;
* `encodeCodePoints` : the bytes of code points, or where the first surrogates stand;
* `decodeUtf8?` : the text of bytes in UTF-8;
* `decodeUtf8UpTo` : its characters up to a damaged one;
* `unifyBreaks` : a text in which every line ends with a line feed;
* `readTextFile?` : the text of a file;
* `units?` : the 16-bit units of bytes, the greater half of each first or last;
* `decodeUtf16?` : the characters of bytes in UTF-16; none where half a pair stands by itself.
-/

namespace ShortcutRelay

/-- A character, or the surrogate at `0xd800` and an offset. -/
inductive CodePoint
  | char (c : Char)
  | surrogate (offset : Fin 0x800)
  deriving DecidableEq, Repr

namespace CodePoint

/-- The code point of a number; those above the last one count as zero. -/
def ofNat (n : Nat) : CodePoint :=
  if h : 0xd800 ≤ n ∧ n < 0xe000 then surrogate ⟨n - 0xd800, by omega⟩ else char (Char.ofNat n)

def toNat : CodePoint → Nat
  | char c => c.toNat
  | surrogate offset => 0xd800 + offset

def char? : CodePoint → Option Char
  | char c => some c
  | surrogate _ => none

end CodePoint

namespace Text

/-! ## Code points -/

def codePoints (s : String) : List CodePoint :=
  s.toList.map .char

def characters? (ps : List CodePoint) : Option String :=
  (ps.mapM CodePoint.char?).map String.ofList

/-- Surrogates in a row, which have no bytes: the number of the first of them, and where the first
and the last stand in a text. -/
structure NoBytes where
  code : Nat
  first : Nat
  last : Nat
  deriving DecidableEq, Repr

/-- The first surrogates in a row. -/
def NoBytes.of (ps : List CodePoint) : NoBytes :=
  let front := ps.takeWhile (·.char?.isSome)
  let row := (ps.drop front.length).takeWhile (·.char?.isNone)
  { code := (row.head?.map CodePoint.toNat).getD 0
    first := front.length
    last := front.length + row.length - 1 }

def NoBytes.message (e : NoBytes) : String :=
  if e.first = e.last then
    "'utf-8' codec can't encode character '\\u" ++ hex 4 e.code ++ "' in position " ++
      toString e.first ++ ": surrogates not allowed"
  else
    "'utf-8' codec can't encode characters in position " ++ toString e.first ++ "-" ++
      toString e.last ++ ": surrogates not allowed"

/-! ## UTF-8 -/

def decodeUtf8? (bytes : List UInt8) : Option String :=
  String.fromUTF8? ⟨bytes.toArray⟩

def utf8Width (b : UInt8) : Nat :=
  if b < 0x80 then 1 else if b < 0xE0 then 2 else if b < 0xF0 then 3 else 4

/-- The characters of bytes in UTF-8 up to the first one that is damaged, for which `mark` stands.
There are at most `fuel` of them. -/
def decodeUtf8UpTo (mark : Char) : Nat → List UInt8 → List Char
  | 0, _ => []
  | _, [] => []
  | fuel + 1, b :: bytes =>
    match decodeUtf8? ((b :: bytes).take (utf8Width b)) with
    | some s => s.toList ++ decodeUtf8UpTo mark fuel ((b :: bytes).drop (utf8Width b))
    | none => [mark]

def encodeUtf8 (s : String) : List UInt8 :=
  s.toUTF8.toList

def encodeCodePoints (ps : List CodePoint) : Except NoBytes (List UInt8) :=
  match characters? ps with
  | some s => .ok (encodeUtf8 s)
  | none => .error (.of ps)

/-- The characters with every carriage return, alone or with the line feed after it, as one line
feed. -/
def unifyBreakChars : List Char → List Char
  | [] => []
  | '\r' :: '\n' :: cs => '\n' :: unifyBreakChars cs
  | '\r' :: cs => '\n' :: unifyBreakChars cs
  | c :: cs => c :: unifyBreakChars cs

def unifyBreaks (s : String) : String :=
  String.ofList (unifyBreakChars s.toList)

/-- The text of a file: its bytes in UTF-8, with line feeds at the ends of lines. -/
def readTextFile? (bytes : List UInt8) : Option String :=
  (decodeUtf8? bytes).map unifyBreaks

/-! ## UTF-16 -/

def units? (bigEnd : Bool) : List UInt8 → Option (List Nat)
  | [] => some []
  | [_] => none
  | a :: b :: rest =>
    let unit := if bigEnd then 256 * a.toNat + b.toNat else 256 * b.toNat + a.toNat
    (units? bigEnd rest).map (unit :: ·)

def isHighHalf (unit : Nat) : Bool :=
  0xD800 ≤ unit && unit < 0xDC00

def isLowHalf (unit : Nat) : Bool :=
  0xDC00 ≤ unit && unit < 0xE000

def decodeUnits? : List Nat → Option (List Char)
  | [] => some []
  | [unit] => if isHighHalf unit || isLowHalf unit then none else some [Char.ofNat unit]
  | high :: low :: rest =>
    if isHighHalf high then
      if isLowHalf low then
        let code := 0x10000 + 0x400 * (high - 0xD800) + (low - 0xDC00)
        (decodeUnits? rest).map (Char.ofNat code :: ·)
      else none
    else if isLowHalf high then none
    else (decodeUnits? (low :: rest)).map (Char.ofNat high :: ·)

def decodeUtf16? (bigEnd : Bool) (bytes : List UInt8) : Option (List Char) :=
  (units? bigEnd bytes).bind decodeUnits?

end Text

end ShortcutRelay
