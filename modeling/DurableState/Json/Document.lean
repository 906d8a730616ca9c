import DurableState.Json.Check
import DurableState.Json.Reader
import DurableState.Text.Utf8

/-!
# DurableState.Json.Document — values with a JSON form

A decoder takes a tree and the number of arrays and objects that may still be entered. A record is
read from an object, in which unknown fields are skipped and a known field stands at most once, or
from an array of its fields in their order, of which the last ones may be missing. For a text that
is refused, a checker beside the decoder says what its first fault is.
-/

namespace DurableState

/-- Reads a value from a tree; the number says how many more levels may be entered. -/
abbrev Decoder (α : Type) := Nat → Json.Tree → Option α

/-- A type whose values are written and read as JSON. -/
class Document (α : Type) where
  /-- The JSON form, with fields in the order in which they are written. -/
  toJson : α → Json
  /-- Reads the JSON form. -/
  decode : Decoder α
  /-- Looks for the first fault in a text. -/
  check : Json.Checker

/-- How deep the arrays and objects of one text may nest. -/
def Json.maxDepth : Nat := 127

namespace Document

variable {α : Type} [Document α]

/-- The compact text of a document. -/
def text (a : α) : String := (toJson a).compact

/-- Reads a document from a text. -/
def ofText? (s : String) : Option α := (Json.Tree.ofText? s).bind (decode Json.maxDepth)

/-- Reads a document from a text, or says why it is none. -/
def ofText (s : String) : Except Json.Fault α :=
  match ofText? s with
  | some a => .ok a
  | none => .error ((check α).fault Json.maxDepth s.toUTF8.data.toList)

/-- The bytes of a document. -/
def bytes (a : α) : List UInt8 := (text a).toUTF8.data.toList

/-- Reads a document from bytes. Bytes that are no text may stand in strings that are passed
over. -/
def ofBytes? (bytes : List UInt8) : Option α :=
  match String.fromUTF8? ⟨bytes.toArray⟩ with
  | some s => ofText? s
  | none => (Json.Tree.ofCharsWithStrays? (Utf8.decode bytes)).bind (decode Json.maxDepth)

/-- Reads a document from bytes, or says why they are none. -/
def ofBytes (bytes : List UInt8) : Except Json.Fault α :=
  match ofBytes? bytes with
  | some a => .ok a
  | none => .error ((check α).fault Json.maxDepth bytes)

end Document

namespace Decoder

variable {α : Type}

/-! ## Plain values -/

/-- A string. -/
def string : Decoder String
  | _, .str s => s
  | _, _ => none

/-- A truth value. -/
def bool : Decoder Bool
  | _, .bool b => some b
  | _, _ => none

/-- An integer, written as one. -/
def int : Decoder Int
  | _, .num n => n.toInt?
  | _, _ => none

/-- A natural number below a bound. -/
def natBelow (bound : Nat) : Decoder Nat := fun room t =>
  (int room t).bind fun i => if 0 ≤ i ∧ i < bound then some i.toNat else none

/-- An unsigned word of 64 bits. -/
def word64 : Decoder UInt64 := fun room t => (natBelow UInt64.size room t).map UInt64.ofNat

/-- An unsigned word of 32 bits. -/
def word32 : Decoder UInt32 := fun room t => (natBelow UInt32.size room t).map UInt32.ofNat

/-- A signed word of 32 bits. -/
def int32 : Decoder Int32 := fun room t =>
  (int room t).bind fun i =>
    if -2147483648 ≤ i ∧ i < 2147483648 then some (Int32.ofInt i) else none

/-- A value, or `null` for none. -/
def nullable (d : Decoder α) : Decoder (Option α)
  | _, .null => some none
  | room, t => (d room t).map some

/-! ## Arrays and maps -/

/-- An array of values. -/
def list (d : Decoder α) : Decoder (List α)
  | room + 1, .arr items => items.mapM (d room)
  | _, _ => none

/-- A field of an object that stands for a map. -/
def entry (d : Decoder α) (room : Nat) (field : Option String × Json.Tree) :
    Option (String × α) := do
  return (← field.1, ← d room field.2)

/-- An object as a map; of two fields with one key the later one stays. -/
def map (d : Decoder α) : Decoder (SortedMap String α)
  | room + 1, .obj fields =>
    (fields.mapM (entry d room)).map SortedMap.ofList
  | _, _ => none

/-! ## Free values -/

mutual

/-- Any value. -/
def json : Nat → Json.Tree → Option Json
  | _, .null => some .null
  | _, .bool b => some (.bool b)
  | _, .num n => n.toNumber?.map .num
  | _, .str s => s.map .str
  | room + 1, .arr items => (jsonItems room items).map .arr
  | room + 1, .obj fields => (jsonFields room fields).map Json.ofFields
  | 0, .arr _ | 0, .obj _ => none

def jsonItems : Nat → List Json.Tree → Option (List Json)
  | _, [] => some []
  | room, t :: rest => do return (← json room t) :: (← jsonItems room rest)

def jsonFields : Nat → List (Option String × Json.Tree) → Option (List (String × Json))
  | _, [] => some []
  | room, (k, t) :: rest => do return (← k, ← json room t) :: (← jsonFields room rest)

end

/-! ## Records -/

/-- The fields of a record that are present, and how many more levels they may enter. -/
structure Fields where
  room : Nat
  values : List (String × Json.Tree)

/-- The known fields of an object. A repeated one is an error, and so is a malformed key. -/
def knownFields (names : List String) (fields : List (Option String × Json.Tree)) :
    Option (List (String × Json.Tree)) := do
  let named ← fields.mapM fun f => f.1.map fun k => (k, f.2)
  let known := named.filter fun f => names.contains f.1
  if (known.map (·.1)).Nodup then some known else none

/-- A record with the given field names. -/
def fields (names : List String) : Decoder Fields
  | room + 1, .obj fs => (knownFields names fs).map fun known => ⟨room, known⟩
  | room + 1, .arr items =>
    if items.length ≤ names.length then some ⟨room, names.zip items⟩ else none
  | _, _ => none

namespace Fields

/-- A field that has to be present. -/
def required (f : Fields) (name : String) (d : Decoder α) : Option α :=
  (f.values.lookup name).bind (d f.room)

/-- A field that stands for a default if it is missing. -/
def optional (f : Fields) (name : String) (d : Decoder α) (missing : α) : Option α :=
  match f.values.lookup name with
  | none => some missing
  | some t => d f.room t

end Fields

end Decoder

instance : Document Json := ⟨id, Decoder.json, .json⟩

end DurableState
