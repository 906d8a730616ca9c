import DurableState.Json.Document

/-!
# DurableState.Cluster.Index — an index and its metadata

An index is known by its name together with a unique id; a later index of the same name is another
index. Identities are ordered by name, then by unique id, both by code points.
-/

namespace DurableState

/-! ## Identity -/

/-- Stable identity of an index across versions of its metadata. -/
structure IndexId where
  name : String
  uuid : String
deriving Repr, DecidableEq, Inhabited

namespace IndexId

instance : Ord IndexId := ⟨compareLex (compareOn (·.name)) (compareOn (·.uuid))⟩

instance : Std.TransOrd IndexId :=
  inferInstanceAs (Std.TransCmp (compareLex (compareOn IndexId.name) (compareOn IndexId.uuid)))

instance : Std.LawfulEqOrd IndexId where
  eq_of_compare {a b} h := by
    have h : compareLex (compareOn IndexId.name) (compareOn IndexId.uuid) a b = .eq := h
    rw [compareLex_eq_eq] at h
    obtain ⟨hn, hu⟩ := h
    cases a; cases b
    simp only [compareOn] at hn hu
    rw [Std.LawfulEqOrd.eq_of_compare hn, Std.LawfulEqOrd.eq_of_compare hu]

/-- The identity as it stands in messages. -/
def display (id : IndexId) : String := "[" ++ id.name ++ "/" ++ id.uuid ++ "]"

/-- The digits of a unique id from random ones: the thirteenth digit says that they are random, and
the seventeenth has its two high bits fixed. -/
def markRandom (digits : List Nat) : List Nat :=
  digits.mapIdx fun i d => if i = 12 then 4 else if i = 16 then 8 + d % 4 else d

/-- A new index, whose unique id comes from 128 random bits. -/
def random (name : String) (bits : Nat) : IndexId :=
  let digits := (List.range 32).map fun i => bits / Nat.pow 16 i % 16
  { name, uuid := String.ofList ((markRandom digits).map Decimal.hexChar) }

end IndexId

/-- A set of indices, listed in order. -/
abbrev IndexSet := SortedMap IndexId Unit

/-! ## Metadata -/

/-- Whether an index takes requests. A closed index has no shards on any node. -/
inductive IndexState where
  | opened
  | closed
deriving Repr, DecidableEq, Inhabited

/-- The word for a state in documents. -/
def IndexState.word : IndexState → String
  | .opened => "open"
  | .closed => "close"

/-- The state that a word stands for. -/
def IndexState.ofWord? (w : String) : Option IndexState :=
  if w = "open" then some .opened else if w = "close" then some .closed else none

/-- Metadata of one index. The version grows with every change to it. -/
structure IndexMetadata where
  index : IndexId
  version : UInt64
  state : IndexState
  numberOfShards : UInt32
  settings : SortedMap String String
  mappings : Json
deriving Repr, Inhabited

namespace IndexMetadata

/-- How many shards an index has unless said otherwise. -/
def defaultShards : UInt32 := 1

/-- An open index with default settings. -/
def new (index : IndexId) (version : UInt64) : IndexMetadata :=
  { index, version, state := .opened, numberOfShards := defaultShards, settings := ∅,
    mappings := .null }

/-- The same metadata in another state. -/
def withState (m : IndexMetadata) (state : IndexState) : IndexMetadata := { m with state }

/-- Whether the index is closed. -/
def isClosed (m : IndexMetadata) : Bool := m.state == .closed

/-- Equality of metadata; doubles inside the mappings are compared as numbers. -/
def same (a b : IndexMetadata) : Bool :=
  a.index == b.index && a.version == b.version && a.state == b.state &&
    a.numberOfShards == b.numberOfShards && a.settings == b.settings && a.mappings.same b.mappings

end IndexMetadata

/-! ## JSON form -/

instance : Document IndexId where
  toJson id := .obj [("name", .str id.name), ("uuid", .str id.uuid)]
  decode room t := do
    let f ← Decoder.fields ["name", "uuid"] room t
    return {
      name := ← f.required "name" Decoder.string
      uuid := ← f.required "uuid" Decoder.string }
  check := .record "IndexId" [.required "name" .string, .required "uuid" .string]

namespace IndexState

/-- A state is written as its word; an object with the word as its only key and `null` as its value
is read as well. -/
def decode : Decoder IndexState
  | _, .str (some w) => ofWord? w
  | _ + 1, .obj [(some w, .null)] => ofWord? w
  | _, _ => none

instance : Document IndexState := ⟨fun s => .str s.word, decode, .oneOf ["open", "close"]⟩

end IndexState

/-- The JSON form of a map of strings. -/
def Json.ofSettings (settings : SortedMap String String) : Json := Json.ofMap .str settings

instance : Document IndexMetadata where
  toJson m := .obj [
    ("index", Document.toJson m.index),
    ("version", .nat m.version.toNat),
    ("state", Document.toJson m.state),
    ("number_of_shards", .nat m.numberOfShards.toNat),
    ("settings", .ofSettings m.settings),
    ("mappings", m.mappings)]
  decode room t := do
    let f ← Decoder.fields
      ["index", "version", "state", "number_of_shards", "settings", "mappings"] room t
    return {
      index := ← f.required "index" Document.decode
      version := ← f.required "version" Decoder.word64
      state := ← f.required "state" Document.decode
      numberOfShards := ← f.optional "number_of_shards" Decoder.word32 IndexMetadata.defaultShards
      settings := ← f.optional "settings" (Decoder.map Decoder.string) ∅
      mappings := ← f.optional "mappings" Decoder.json .null }
  check := .record "IndexMetadata" [
    .required "index" (Document.check IndexId),
    .required "version" .word64,
    .required "state" (Document.check IndexState),
    .optional "number_of_shards" .word32,
    .optional "settings" (.map .string),
    .optional "mappings" .json]

end DurableState
