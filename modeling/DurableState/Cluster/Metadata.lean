import DurableState.Cluster.Index

/-!
# DurableState.Cluster.Metadata — metadata of a whole cluster

Metadata has a global part and one entry per index, kept under the name of the index. The global
part is persisted as one unit, each index as another, and `Metadata.ofParts` puts them together
again.
-/

namespace DurableState

/-- What the nodes agreed on when they elected a master. -/
structure Coordination where
  term : UInt64
deriving Repr, DecidableEq, Inhabited

/-- Settings for new indices whose name matches one of the patterns. -/
structure IndexTemplate where
  patterns : List String
  order : Int32
  settings : SortedMap String String
deriving Repr, DecidableEq, Inhabited

/-- Everything in the metadata of a cluster but its indices. -/
structure GlobalState where
  clusterUuid : String
  clusterUuidCommitted : Bool
  version : UInt64
  coordination : Coordination
  persistentSettings : SortedMap String String
  templates : SortedMap String IndexTemplate
  customs : SortedMap String Json
deriving Repr

/-- The metadata of a cluster; `indices` is keyed by index name. -/
structure Metadata where
  clusterUuid : String
  clusterUuidCommitted : Bool
  version : UInt64
  coordination : Coordination
  persistentSettings : SortedMap String String
  templates : SortedMap String IndexTemplate
  customs : SortedMap String Json
  indices : SortedMap String IndexMetadata
deriving Repr

/-- Entry by entry equality of two maps under an equality of values. -/
def SortedMap.sameBy {κ : Type} {α : Type} [Ord κ] [BEq κ] (eq : α → α → Bool)
    (m n : SortedMap κ α) : Bool :=
  m.entries.length == n.entries.length &&
    (m.entries.zip n.entries).all fun (a, b) => a.1 == b.1 && eq a.2 b.2

namespace GlobalState

/-- The global part of a cluster that has none yet. -/
def empty : GlobalState :=
  { clusterUuid := "", clusterUuidCommitted := false, version := 0, coordination := ⟨0⟩,
    persistentSettings := ∅, templates := ∅, customs := ∅ }

instance : Inhabited GlobalState := ⟨empty⟩

/-- Equality of everything but the version. -/
def sameContent (a b : GlobalState) : Bool :=
  a.clusterUuid == b.clusterUuid && a.clusterUuidCommitted == b.clusterUuidCommitted &&
    a.coordination == b.coordination && a.persistentSettings == b.persistentSettings &&
    a.templates == b.templates && a.customs.sameBy Json.same b.customs

/-- Equality. -/
def same (a b : GlobalState) : Bool := a.version == b.version && a.sameContent b

end GlobalState

namespace Metadata

/-- The metadata of a cluster that has none yet. -/
def empty : Metadata :=
  { clusterUuid := "", clusterUuidCommitted := false, version := 0, coordination := ⟨0⟩,
    persistentSettings := ∅, templates := ∅, customs := ∅, indices := ∅ }

instance : Inhabited Metadata := ⟨empty⟩

/-- The entry for an index. An entry under the same name with another unique id belongs to another
index. -/
def index? (m : Metadata) (id : IndexId) : Option IndexMetadata :=
  (m.indices.get? id.name).filter fun entry => entry.index.uuid == id.uuid

/-- Puts an entry under the name of its index. -/
def putIndex (m : Metadata) (entry : IndexMetadata) : Metadata :=
  { m with indices := m.indices.insert entry.index.name entry }

/-- The global part. -/
def globalState (m : Metadata) : GlobalState :=
  { clusterUuid := m.clusterUuid, clusterUuidCommitted := m.clusterUuidCommitted,
    version := m.version, coordination := m.coordination,
    persistentSettings := m.persistentSettings, templates := m.templates, customs := m.customs }

/-- Metadata from its global part and its entries. -/
def ofParts (g : GlobalState) (entries : List IndexMetadata) : Metadata :=
  entries.foldl putIndex
    { clusterUuid := g.clusterUuid, clusterUuidCommitted := g.clusterUuidCommitted,
      version := g.version, coordination := g.coordination,
      persistentSettings := g.persistentSettings, templates := g.templates, customs := g.customs,
      indices := ∅ }

/-- Equality of the global parts, not counting the version. -/
def sameGlobal (a b : Metadata) : Bool :=
  a.clusterUuid == b.clusterUuid && a.clusterUuidCommitted == b.clusterUuidCommitted &&
    a.coordination == b.coordination && a.persistentSettings == b.persistentSettings &&
    a.templates == b.templates && a.customs.sameBy Json.same b.customs

/-- Equality. -/
def same (a b : Metadata) : Bool :=
  a.globalState.same b.globalState && a.indices.sameBy IndexMetadata.same b.indices

end Metadata

/-! ## JSON form -/

instance : Document Coordination where
  toJson c := .obj [("term", .nat c.term.toNat)]
  decode room t := do
    let f ← Decoder.fields ["term"] room t
    return ⟨← f.optional "term" Decoder.word64 0⟩
  check := .record "CoordinationMetadata" [.optional "term" .word64]

instance : Document IndexTemplate where
  toJson t := .obj [
    ("patterns", .arr (t.patterns.map .str)),
    ("order", .num (.int t.order.toInt)),
    ("settings", .ofSettings t.settings)]
  decode room t := do
    let f ← Decoder.fields ["patterns", "order", "settings"] room t
    return {
      patterns := ← f.required "patterns" (Decoder.list Decoder.string)
      order := ← f.optional "order" Decoder.int32 0
      settings := ← f.optional "settings" (Decoder.map Decoder.string) ∅ }
  check := .record "IndexTemplate" [
    .required "patterns" (.list .string),
    .optional "order" .int32,
    .optional "settings" (.map .string)]

namespace GlobalState

/-- The names of the fields of a global part. -/
def fieldNames : List String :=
  ["cluster_uuid", "cluster_uuid_committed", "version", "coordination", "persistent_settings",
    "templates", "customs"]

/-- The fields of a global part. -/
def jsonFields (g : GlobalState) : List (String × Json) :=
  [("cluster_uuid", .str g.clusterUuid),
    ("cluster_uuid_committed", .bool g.clusterUuidCommitted),
    ("version", .nat g.version.toNat),
    ("coordination", Document.toJson g.coordination),
    ("persistent_settings", .ofSettings g.persistentSettings),
    ("templates", .ofMap Document.toJson g.templates),
    ("customs", .ofMap id g.customs)]

instance : Document GlobalState where
  toJson g := .obj g.jsonFields
  decode room t := do
    let f ← Decoder.fields fieldNames room t
    return {
      clusterUuid := ← f.required "cluster_uuid" Decoder.string
      clusterUuidCommitted := ← f.optional "cluster_uuid_committed" Decoder.bool false
      version := ← f.required "version" Decoder.word64
      coordination := ← f.required "coordination" Document.decode
      persistentSettings := ← f.required "persistent_settings" (Decoder.map Decoder.string)
      templates := ← f.required "templates" (Decoder.map Document.decode)
      customs := ← f.required "customs" (Decoder.map Decoder.json) }
  check := .record "GlobalState" [
    .required "cluster_uuid" .string,
    .optional "cluster_uuid_committed" .bool,
    .required "version" .word64,
    .required "coordination" (Document.check Coordination),
    .required "persistent_settings" (.map .string),
    .required "templates" (.map (Document.check IndexTemplate)),
    .required "customs" (.map .json)]

end GlobalState

instance : Document Metadata where
  toJson m := .obj (m.globalState.jsonFields ++ [("indices", .ofMap Document.toJson m.indices)])
  decode room t := do
    let f ← Decoder.fields (GlobalState.fieldNames ++ ["indices"]) room t
    return {
      clusterUuid := ← f.optional "cluster_uuid" Decoder.string ""
      clusterUuidCommitted := ← f.optional "cluster_uuid_committed" Decoder.bool false
      version := ← f.optional "version" Decoder.word64 0
      coordination := ← f.optional "coordination" Document.decode ⟨0⟩
      persistentSettings := ← f.optional "persistent_settings" (Decoder.map Decoder.string) ∅
      templates := ← f.optional "templates" (Decoder.map Document.decode) ∅
      customs := ← f.optional "customs" (Decoder.map Decoder.json) ∅
      indices := ← f.optional "indices" (Decoder.map Document.decode) ∅ }
  check := .record "Metadata" [
    .optional "cluster_uuid" .string,
    .optional "cluster_uuid_committed" .bool,
    .optional "version" .word64,
    .optional "coordination" (Document.check Coordination),
    .optional "persistent_settings" (.map .string),
    .optional "templates" (.map (Document.check IndexTemplate)),
    .optional "customs" (.map .json),
    .optional "indices" (.map (Document.check IndexMetadata))]

end DurableState
