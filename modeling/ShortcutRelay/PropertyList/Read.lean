import ShortcutRelay.PropertyList.Binary
import ShortcutRelay.PropertyList.Build
import ShortcutRelay.Store.SuiteFile

/-!
# Reading property lists

A property list is written as markup or in binary; its first bytes tell which.

* `Encoding` : how characters are written in bytes;
* `markupEncoding?` : how the characters of a file that begins like markup are written;
* `PropertyList.read` : the property list of bytes;
* `PropertyList.contentOf` : what the file of a suite holds after its bytes were replaced.
-/

namespace ShortcutRelay.PropertyList
open Text

/-- How characters are written in bytes: in one of the two general forms, or each in one byte. -/
inductive Encoding
  | utf8
  | utf16 (bigEnd : Bool)
  | latin
  | ascii
  deriving DecidableEq, Repr

def byteEncodings : List (String × Encoding) :=
  [("utf-8", .utf8), ("iso-8859-1", .latin), ("latin-1", .latin), ("latin1", .latin),
    ("us-ascii", .ascii), ("ascii", .ascii), ("utf8", .ascii)]

/-- A character that no document may hold, which stands for damaged bytes. -/
def damage : Char :=
  Char.ofNat 0xFFFF

def Encoding.decode? : Encoding → List UInt8 → Option (List Char)
  | utf8, bytes => some (decodeUtf8UpTo damage bytes.length bytes)
  | utf16 bigEnd, bytes => decodeUtf16? bigEnd bytes
  | latin, bytes => some (bytes.map fun b => Char.ofNat b.toNat)
  | ascii, bytes => some (bytes.map fun b => if b < 128 then Char.ofNat b.toNat else damage)

/-- The names of the encodings whose characters begin with two bytes. -/
def pairEncodings : List String :=
  ["utf-16", "utf-16be", "utf-16le"]

/-- The encoding of a document that was taken for one in `assumed`: what its declaration says,
where that can be. -/
def Encoding.declared (assumed : Encoding) (bytes : List UInt8) : Except Problem Encoding := do
  let bad : Except Problem Encoding := .error (.unreadable .badMarkup)
  let start := match assumed with
    | utf16 bigEnd => decodeUtf16? bigEnd bytes
    | _ => latin.decode? bytes
  match start.bind Markup.declaration?, assumed with
  | none, _ => bad
  | some (none, _), _ => return assumed
  | some (some name, _), utf16 bigEnd =>
    if pairEncodings.contains name.toLower then return utf16 bigEnd
    else if (byteEncodings.lookup name.toLower).isSome then bad
    else throw (.misshapen (.unknownEncoding name))
  | some (some name, _), _ =>
    match byteEncodings.lookup name.toLower with
    | some encoding => return encoding
    | none =>
      if pairEncodings.contains name.toLower then bad
      else throw (.misshapen (.unknownEncoding name))

/-- What markup begins with: the declaration of a document, or the outermost element. -/
def markupStarts : List (List Char) :=
  ["<?xml".toList, "<plist".toList]

def startsInBytes (bytes : List UInt8) : Bool :=
  markupStarts.any fun start => (start.map fun c => c.toUInt8).isPrefixOf bytes

/-- The bytes of characters that have two bytes each. -/
def pairsOf (bigEnd : Bool) (cs : List Char) : List UInt8 :=
  cs.flatMap fun c => if bigEnd then [0, c.toUInt8] else [c.toUInt8, 0]

def startsInPairs (bigEnd : Bool) (bytes : List UInt8) : Bool :=
  markupStarts.any fun start => (pairsOf bigEnd start).isPrefixOf bytes

/-- How the characters of markup are written, and the bytes of the characters; none for bytes that
do not begin like markup. Before characters of two bytes stands a mark that tells their order; it
may stand before other ones, too. -/
def markupEncoding? (bytes : List UInt8) : Option (Encoding × List UInt8) :=
  match bytes with
  | 0xEF :: 0xBB :: 0xBF :: rest => if startsInBytes rest then some (.utf8, rest) else none
  | 0xFE :: 0xFF :: rest => if startsInPairs true rest then some (.utf16 true, rest) else none
  | 0xFF :: 0xFE :: rest => if startsInPairs false rest then some (.utf16 false, rest) else none
  | _ => if startsInBytes bytes then some (.utf8, bytes) else none

def binaryStart : List UInt8 :=
  "bplist00".toUTF8.toList

def readMarkup (assumed : Encoding) (bytes : List UInt8) : Except Problem Document := do
  match (← assumed.declared bytes).decode? bytes with
  | some cs => buildList (Markup.events (unifyBreakChars cs))
  | none => .error (.unreadable .badMarkup)

def read (bytes : List UInt8) : Except Problem Document :=
  match markupEncoding? bytes with
  | some (encoding, rest) => readMarkup encoding rest
  | none =>
    if binaryStart.isPrefixOf bytes then
      match Archive.read? bytes with
      | some value => .ok value
      | none => .error (.unreadable .notAPropertyList)
    else .error (.unreadable .notAPropertyList)

/-- What the file of a suite holds after its bytes were replaced. -/
def contentOf (f : SuiteFile) (bytes : List UInt8) : SuiteContent :=
  match read bytes with
  | .ok value => .list value
  | .error (.unreadable reason) => .broken (f.unreadable reason)
  | .error (.misshapen part) => .broken (.misshapen part)

end ShortcutRelay.PropertyList
