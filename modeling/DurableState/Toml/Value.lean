import DurableState.Text.Position

/-!
# DurableState.Toml.Value — TOML values

A table remembers how it came to be, because that decides whether it may be added to later. Every
value below the outermost table has the place where it is written: a table of a header that of the
header, and a table that came to be on the way that of its key.
-/

namespace DurableState.Toml

/-- How a table came to be. -/
inductive Origin where
  /-- By a header of its own; so did the outermost table. -/
  | header
  /-- On the way of a header to a table below. -/
  | onTheWay
  /-- On the way of a dotted key. -/
  | dottedKey
  /-- As a value in braces. -/
  | braces
deriving Repr, DecidableEq, Inhabited

/-- A TOML value. Floats and date-times are kept as text. -/
inductive Value where
  | string (s : String)
  | integer (i : Int)
  | float (text : String)
  | boolean (b : Bool)
  | dateTime (text : String)
  | array (items : List (Located Value))
  | table (origin : Origin) (entries : List (String × Located Value))
  /-- The tables of repeated headers, each of them a list of entries. -/
  | tables (items : List (Located (List (String × Located Value))))
deriving Repr, Inhabited

/-- The entries of a table. -/
abbrev Entries := List (String × Located Value)

/-- One part of a key. -/
abbrev Part := Located String

namespace Entries

/-- The value under a key. -/
def get? (es : Entries) (key : String) : Option (Located Value) := es.lookup key

/-- Puts a value under a key, in place of an earlier one. -/
def set (es : Entries) (key : String) (v : Located Value) : Entries :=
  if (es.lookup key).isSome then es.map fun e => if e.1 == key then (key, v) else e
  else es ++ [(key, v)]

/-- Takes out a key. -/
def erase (es : Entries) (key : String) : Entries := es.filter (·.1 != key)

/-! ## Adding to tables -/

/-- Changes the last of the tables of a repeated header. -/
def modifyLast (f : Entries → Option Entries) (items : List (Located Entries)) :
    Option (List (Located Entries)) := do
  let last ← items.getLast?
  let entries ← f last.val
  return items.dropLast ++ [⟨last.left, entries⟩]

/-- Adds a value under a dotted key: `path` leads to the table and `key` is the last part. Only a
table that came to be by dotted keys takes it; `takes` says so of the table at hand. -/
def addDotted (key : String) (v : Located Value) :
    (path : List Part) → (takes : Bool) → Entries → Option Entries
  | [], takes, es => if takes && (es.get? key).isNone then some (es.set key v) else none
  | part :: path, _, es =>
    match es.get? part.val with
    | none =>
      (addDotted key v path true []).map fun inner =>
        es.set part.val ⟨part.left, .table .dottedKey inner⟩
    | some ⟨left, .table .dottedKey inner⟩ =>
      (addDotted key v path true inner).map fun inner =>
        es.set part.val ⟨left, .table .dottedKey inner⟩
    | some ⟨left, .table .onTheWay inner⟩ =>
      (addDotted key v path false inner).map fun inner =>
        es.set part.val ⟨left, .table .onTheWay inner⟩
    | some ⟨left, .tables items⟩ =>
      (modifyLast (addDotted key v path false) items).map fun items =>
        es.set part.val ⟨left, .tables items⟩
    | some _ => none

/-- Changes the entries of the table that a header leads to; of repeated headers that is the last
table. Tables that are not there come to be on the way. -/
def modifyAt (f : Entries → Option Entries) : List Part → Entries → Option Entries
  | [], es => f es
  | part :: path, es =>
    match es.get? part.val with
    | none =>
      (modifyAt f path []).map fun inner => es.set part.val ⟨part.left, .table .onTheWay inner⟩
    | some ⟨_, .table .braces _⟩ => none
    | some ⟨left, .table origin inner⟩ =>
      (modifyAt f path inner).map fun inner => es.set part.val ⟨left, .table origin inner⟩
    | some ⟨left, .tables items⟩ =>
      (modifyLast (modifyAt f path) items).map fun items => es.set part.val ⟨left, .tables items⟩
    | some _ => none

/-- Opens the table of a header that starts at a place. It may be there only as one on the way of
earlier headers; then it moves behind the other entries. -/
def openTable (left : Nat) (key : String) (es : Entries) : Option Entries :=
  match es.get? key with
  | none => some (es.set key ⟨left, .table .header []⟩)
  | some ⟨_, .table .onTheWay inner⟩ => some ((es.erase key).set key ⟨left, .table .header inner⟩)
  | some _ => none

/-- Opens a further table of a repeated header that starts at a place. All of them stand at the
place of the first. -/
def openRepeated (left : Nat) (key : String) (es : Entries) : Option Entries :=
  match es.get? key with
  | none => some (es.set key ⟨left, .tables [⟨left, []⟩]⟩)
  | some ⟨first, .tables items⟩ => some (es.set key ⟨first, .tables (items ++ [⟨left, []⟩])⟩)
  | some _ => none

end Entries

end DurableState.Toml
