import ShortcutRelay.Calendar.Moment
import ShortcutRelay.Document.Basic
import ShortcutRelay.OrderedMap
import ShortcutRelay.Text.Unicode

/-!
# Binary property lists

A file of objects that refer to each other by number. Its last 32 bytes say where the table of the
places of the objects stands and which object is the outermost one.

* `Archive` : the bytes with the table;
* `Archive.object?` : the value of an object;
* `Archive.read?` : the value of a file.
-/

namespace ShortcutRelay.PropertyList
open Text Calendar

/-- The number of bytes, the greatest first. -/
def bigEndian (bytes : List UInt8) : Nat :=
  bytes.foldl (fun n b => 256 * n + b.toNat) 0

/-- The number of bytes as one that may be negative, half of the numbers being so. -/
def signedBigEndian (bytes : List UInt8) : Int :=
  let n := bigEndian bytes
  if 2 * n < Nat.pow 256 bytes.length then n else (n : Int) - Nat.pow 256 bytes.length

/-- A number of bytes at the beginning, and the bytes after them; none where there are too few. -/
def split? (count : Nat) (bytes : List UInt8) : Option (List UInt8 × List UInt8) :=
  let front := bytes.take count
  if front.length = count then some (front, bytes.drop count) else none

/-- Numbers of the same size at the beginning, and the bytes after them. -/
def numbers? (size : Nat) : Nat → List UInt8 → Option (List Nat × List UInt8)
  | 0, bytes => some ([], bytes)
  | count + 1, bytes => do
    let (front, rest) ← split? size bytes
    let (numbers, rest) ← numbers? size count rest
    return (bigEndian front :: numbers, rest)

/-- Some numbers of the same size, which is not zero and which the bytes have room for. -/
def table? (size count : Nat) (bytes : List UInt8) : Option (List Nat × List UInt8) :=
  if size = 0 ∨ bytes.length < size * count then none else numbers? size count bytes

def asciiText? (bytes : List UInt8) : Option String :=
  if bytes.all (· < 128) then some (String.ofList (bytes.map fun b => Char.ofNat b.toNat))
  else none

/-- The moment of a number of seconds since the first instant of 2001. -/
def momentSince2001? (seconds : Float) : Option Moment := do
  let (whole, microseconds) ← (splitSeconds seconds).toOption
  let m ← Moment.ofMicroseconds? (whole + 978307200) microseconds
  return { m with offset := none }

/-- A binary property list: its bytes, the places of its objects and the number of bytes of a
reference to an object. -/
structure Archive where
  bytes : List UInt8
  places : List Nat
  refSize : Nat

namespace Archive

def size? (low : Nat) (bytes : List UInt8) : Option (Nat × List UInt8) :=
  if low < 15 then some (low, bytes)
  else
    match bytes with
    | [] => none
    | b :: rest => do
      let (front, rest) ← split? (Nat.pow 2 (b.toNat % 4)) rest
      return (bigEndian front, rest)

/-- The value of an object without parts: `high` and `low` are the halves of its first byte. -/
def scalar? (high low : Nat) (rest : List UInt8) : Option Document :=
  match high, low with
  | 0, 0 => some .null
  | 0, 8 => some (.bool false)
  | 0, 9 => some (.bool true)
  | 0, 15 => some (.bytes [])
  | 1, _ =>
    let front := rest.take (Nat.pow 2 low)
    some (.int (if 3 ≤ low then signedBigEndian front else bigEndian front))
  | 2, 2 => do
    let (front, _) ← split? 4 rest
    return .float (Float32.ofBits (bigEndian front).toUInt32).toFloat
  | 2, 3 => do
    let (front, _) ← split? 8 rest
    return .float (Float.ofBits (bigEndian front).toUInt64)
  | 3, 3 => do
    let (front, _) ← split? 8 rest
    return .moment (← momentSince2001? (Float.ofBits (bigEndian front).toUInt64))
  | 4, _ => do
    let (count, rest) ← size? low rest
    return .bytes (← split? count rest).1
  | 5, _ => do
    let (count, rest) ← size? low rest
    return .text (← asciiText? (← split? count rest).1)
  | 8, _ => some (.int (bigEndian (rest.take (low + 1))))
  | 6, _ => do
    let (count, rest) ← size? low rest
    let cs ← decodeUtf16? true (← split? (2 * count) rest).1
    return .text (String.ofList cs)
  | _, _ => none

def entries? (keys values : List Document) : Option (List (String × Document)) :=
  (keys.zip values).foldlM
    (fun entries (key, value) =>
      match key with
      | .text k => some (putEntry k value entries)
      | _ => none)
    []

def object? (a : Archive) : Nat → Nat → Option Document
  | 0, _ => none
  | depth + 1, number => do
    match a.bytes.drop (← a.places[number]?) with
    | [] => none
    | b :: rest =>
      let low := b.toNat % 16
      match b.toNat / 16 with
      | 10 => do
        let (count, rest) ← size? low rest
        let (items, _) ← table? a.refSize count rest
        return .list (← items.mapM (object? a depth))
      | 13 => do
        let (count, rest) ← size? low rest
        let (keys, rest) ← table? a.refSize count rest
        let (values, _) ← table? a.refSize count rest
        let entries ← entries? (← keys.mapM (object? a depth)) (← values.mapM (object? a depth))
        return .ofFields entries
      | high => scalar? high low rest

def read? (bytes : List UInt8) : Option Document := do
  if bytes.length < 32 then none
  match bytes.drop (bytes.length - 26) with
  | placeSize :: refSize :: numbers =>
    let (counts, _) ← numbers? 8 3 numbers
    match counts with
    | [count, top, start] =>
      let (places, _) ← table? placeSize.toNat count (bytes.drop start)
      object? ⟨bytes, places, refSize.toNat⟩ (count + 1) top
    | _ => none
  | _ => none

end Archive

end ShortcutRelay.PropertyList
