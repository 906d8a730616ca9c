import DurableState.Failure
import DurableState.Settings
import DurableState.Toml.Document

/-!
# DurableState.Settings.File — settings from a TOML file

A file has the sections `node`, `storage`, `writer` and `log`. Sections and fields may be missing,
and unknown ones are passed over. A section may also be given as an array of its fields in order.
-/

namespace DurableState.Settings

open Toml

/-! ## Fields -/

/-- A setting, or the place of a value that cannot be one. -/
abbrev Reading := Except Nat

/-- The fields of a section in their order. A date-time in place of a section holds none. -/
def sectionFields (names : List String) (v : Located Value) : Reading Entries :=
  match v.val with
  | .table _ entries => .ok entries
  | .array items => .ok (names.zip items)
  | .tables items => .ok (names.zip (items.map fun t => ⟨t.left, .table .header t.val⟩))
  | .dateTime _ => .ok []
  | _ => .error v.left

/-- A string. -/
def readString (v : Located Value) : Reading String :=
  match v.val with
  | .string s => .ok s
  | _ => .error v.left

/-- A truth value. -/
def readBool (v : Located Value) : Reading Bool :=
  match v.val with
  | .boolean b => .ok b
  | _ => .error v.left

/-- A number that is not negative. -/
def readWord (v : Located Value) : Reading UInt64 :=
  match v.val with
  | .integer i => if 0 ≤ i then .ok (UInt64.ofNat i.toNat) else .error v.left
  | _ => .error v.left

/-! ## Sections -/

/-- The section of the node. -/
def readNode (s : Settings) (v : Located Value) : Reading Settings := do
  (← sectionFields ["id"] v).foldlM (fun s (name, v) => do
    match name with
    | "id" => return { s with nodeId := some (← readString v) }
    | _ => return s) s

/-- The section of the storage. -/
def readStorage (s : Settings) (v : Located Value) : Reading Settings := do
  (← sectionFields ["data_dir"] v).foldlM (fun s (name, v) => do
    match name with
    | "data_dir" => return { s with dataDir := ⟨← readString v⟩ }
    | _ => return s) s

/-- The section of the writer. -/
def readWriter (w : WriterSettings) (v : Located Value) : Reading WriterSettings := do
  (← sectionFields ["slow_write_logging_threshold_ms", "incremental_write"] v).foldlM
    (fun w (name, v) => do
      match name with
      | "slow_write_logging_threshold_ms" => return { w with slowWriteThreshold := ← readWord v }
      | "incremental_write" => return { w with incremental := ← readBool v }
      | _ => return w) w

/-- The section of the log. -/
def readLog (s : Settings) (v : Located Value) : Reading Settings := do
  (← sectionFields ["level"] v).foldlM (fun s (name, v) => do
    match name with
    | "level" => return { s with logLevel := ← readString v }
    | _ => return s) s

/-- Changes settings to what an entry of the outermost table says. -/
def readSection (s : Settings) (entry : String × Located Value) : Reading Settings :=
  match entry.1 with
  | "node" => readNode s entry.2
  | "storage" => readStorage s entry.2
  | "writer" => do return { s with writer := ← readWriter s.writer entry.2 }
  | "log" => readLog s entry.2
  | _ => .ok s

/-! ## Files -/

/-- Reads the text of a file. Sections are read in their order, so the first wrong value counts. -/
def ofText (cs : List Char) : Reading Settings := do
  (← Toml.ofText cs).foldlM readSection {}

/-- What is wrong with a file of settings. -/
inductive FileError where
  | unreadable (fault : IoFault)
  | malformed (position : Position)
deriving Repr, DecidableEq

/-- The text of a failure. -/
def FileError.message : FileError → String
  | .unreadable fault => fault.message
  | .malformed p =>
    "TOML parse error at line " ++ Decimal.text p.line ++ ", column " ++ Decimal.text p.column

/-- Reads the bytes of a file. -/
def ofBytes (bytes : List UInt8) : Except FileError Settings :=
  match String.fromUTF8? ⟨bytes.toArray⟩ with
  | none => .error (.unreadable .notUtf8)
  | some s => (ofText s.toList).mapError fun left => .malformed (.ofLeft s.toList left)

end DurableState.Settings
