import ShortcutRelay.Store.Request

/-!
# What a property list keeps

A property list file holds its dictionaries sorted by key. It stores equal scalars of one type
once, so that of the two zeros only the first one survives, and it has no room for integers beyond
64 bits.

* `PropertyList.sortEntries` : entries in the order of their keys;
* `PropertyList.saved` : what is read back after contents have been written.
-/

namespace ShortcutRelay.PropertyList

def sortEntries (entries : List (String × Document)) : List (String × Document) :=
  entries.mergeSort fun a b => a.1 ≤ b.1

/-- Whether an integer fits into a property list: signed 64 bits, or unsigned ones. -/
def fitsInteger (n : Int) : Bool :=
  -0x8000000000000000 ≤ n && n < 0x10000000000000000

/-- The state of a walk over values in the order in which they are stored: the first zero. -/
abbrev SaveM := StateT (Option Float) (Except Int)

def savedFloat (x : Float) : SaveM Float := do
  if x == 0.0 then
    match ← get with
    | some zero => return zero
    | none =>
      set (some x)
      return x
  else return x

def textEntries : List (Document × Document) → List (String × Document)
  | [] => []
  | (.text k, v) :: rest => (k, v) :: textEntries rest
  | _ :: rest => textEntries rest

mutual

def savedValue : Document → SaveM Document
  | .int n => if fitsInteger n then return .int n else throw n
  | .float x => return .float (← savedFloat x)
  | .list items => return .list (← savedItems items)
  | .map entries => return .map (← savedFields entries)
  | d => return d

def savedItems : List Document → SaveM (List Document)
  | [] => return []
  | item :: items => do
    let item ← savedValue item
    return item :: (← savedItems items)

def savedFields : List (Document × Document) → SaveM (List (Document × Document))
  | [] => return []
  | (k, v) :: entries => do
    let v ← savedValue v
    return (k, v) :: (← savedFields entries)

end

mutual

def sortedValue : Document → Document
  | .list items => .list (sortedItems items)
  | .map entries =>
    .map ((sortEntries (textEntries (sortedFields entries))).map fun (k, v) => (.text k, v))
  | d => d

def sortedItems : List Document → List Document
  | [] => []
  | item :: items => sortedValue item :: sortedItems items

def sortedFields : List (Document × Document) → List (Document × Document)
  | [] => []
  | (k, v) :: entries => (k, sortedValue v) :: sortedFields entries

end

def savedEntries : List (String × Document) → SaveM (List (String × Document))
  | [] => return []
  | (k, v) :: entries => do
    let v ← savedValue (sortedValue v)
    return (k, v) :: (← savedEntries entries)

def saved (c : Contents) : Except Int Contents := do
  let (entries, _) ← (savedEntries (sortEntries c.toList)).run none
  return .ofList entries

end ShortcutRelay.PropertyList
