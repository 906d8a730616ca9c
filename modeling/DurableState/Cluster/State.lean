import DurableState.Cluster.Metadata

/-!
# DurableState.Cluster.State — a snapshot of a cluster

A cluster state holds the metadata, the nodes with the one that runs this program among them, where
the shards of each index are, and whether state may be persisted yet.
-/

namespace DurableState

/-! ## Nodes -/

/-- A node of the cluster. -/
structure Node where
  id : String
  name : String
  masterEligible : Bool
  data : Bool
deriving Repr, DecidableEq, Inhabited

/-- A node that is named like its id. -/
def Node.new (id : String) (masterEligible data : Bool) : Node :=
  { id, name := id, masterEligible, data }

/-- What decides which indices a node persists. -/
inductive Role where
  /-- Persists every index of the metadata. -/
  | masterEligible
  /-- Persists the indices it hosts, and closed ones that it wrote before. -/
  | dataOnly
  /-- Persists no index. -/
  | coordinatingOnly
deriving Repr, DecidableEq, Inhabited

/-- The role of a node. -/
def Node.role (n : Node) : Role :=
  if n.masterEligible then .masterEligible else if n.data then .dataOnly else .coordinatingOnly

/-- The nodes of a cluster by id, and the id of the local one. -/
structure Nodes where
  localId : String
  nodes : SortedMap String Node
deriving Repr, DecidableEq, Inhabited

namespace Nodes

/-- The local node, if it is among the nodes. -/
def localNode? (ns : Nodes) : Option Node := ns.nodes.get? ns.localId

/-- Puts a node under its id. -/
def add (ns : Nodes) (n : Node) : Nodes := { ns with nodes := ns.nodes.insert n.id n }

end Nodes

/-! ## Routing -/

/-- One copy of a shard and the node that it is assigned to, if any. -/
structure ShardRouting where
  index : IndexId
  shard : UInt32
  primary : Bool
  nodeId : Option String
deriving Repr, DecidableEq, Inhabited

/-- Every copy of every shard. -/
structure RoutingTable where
  shards : List ShardRouting
deriving Repr, DecidableEq, Inhabited

namespace RoutingTable

/-- Adds a copy of a shard. -/
def add (r : RoutingTable) (s : ShardRouting) : RoutingTable := ⟨r.shards ++ [s]⟩

/-- The indices with at least one copy of a shard on a node. -/
def indicesOn (r : RoutingTable) (nodeId : String) : IndexSet :=
  .ofList ((r.shards.filter fun s => s.nodeId == some nodeId).map fun s => (s.index, ()))

end RoutingTable

/-! ## The state -/

/-- What the cluster holds back for now. -/
structure Blocks where
  /-- Set until the cluster has recovered its state. -/
  disableStatePersistence : Bool
deriving Repr, DecidableEq, Inhabited

/-- A snapshot of a cluster. -/
structure ClusterState where
  clusterName : String
  version : UInt64
  metadata : Metadata
  nodes : Nodes
  routing : RoutingTable
  blocks : Blocks
deriving Repr

namespace ClusterState

/-- The state that a node knows from what it persisted: metadata alone. -/
def ofPersisted (metadata : Metadata) (version : UInt64) : ClusterState :=
  { clusterName := "", version, metadata, nodes := ⟨"", ∅⟩, routing := ⟨[]⟩, blocks := ⟨false⟩ }

/-- The state without any content. -/
def empty : ClusterState := ofPersisted .empty 0

instance : Inhabited ClusterState := ⟨empty⟩

/-- The term in which the state was published. -/
def term (s : ClusterState) : UInt64 := s.metadata.coordination.term

end ClusterState

/-! ## JSON form -/

instance : Document Node where
  toJson n := .obj [
    ("id", .str n.id), ("name", .str n.name), ("master_eligible", .bool n.masterEligible),
    ("data", .bool n.data)]
  decode room t := do
    let f ← Decoder.fields ["id", "name", "master_eligible", "data"] room t
    return {
      id := ← f.required "id" Decoder.string
      name := ← f.optional "name" Decoder.string ""
      masterEligible := ← f.optional "master_eligible" Decoder.bool false
      data := ← f.optional "data" Decoder.bool false }
  check := .record "DiscoveryNode" [
    .required "id" .string, .optional "name" .string, .optional "master_eligible" .bool,
    .optional "data" .bool]

instance : Document Nodes where
  toJson ns := .obj [
    ("local_node_id", .str ns.localId), ("nodes", .ofMap Document.toJson ns.nodes)]
  decode room t := do
    let f ← Decoder.fields ["local_node_id", "nodes"] room t
    return {
      localId := ← f.optional "local_node_id" Decoder.string ""
      nodes := ← f.optional "nodes" (Decoder.map Document.decode) ∅ }
  check := .record "DiscoveryNodes" [
    .optional "local_node_id" .string, .optional "nodes" (.map (Document.check Node))]

instance : Document ShardRouting where
  toJson s := .obj [
    ("index", Document.toJson s.index), ("shard", .nat s.shard.toNat), ("primary", .bool s.primary),
    ("node_id", s.nodeId.elim .null .str)]
  decode room t := do
    let f ← Decoder.fields ["index", "shard", "primary", "node_id"] room t
    return {
      index := ← f.required "index" Document.decode
      shard := ← f.required "shard" Decoder.word32
      primary := ← f.optional "primary" Decoder.bool false
      nodeId := ← f.optional "node_id" (Decoder.nullable Decoder.string) none }
  check := .record "ShardRouting" [
    .required "index" (Document.check IndexId), .required "shard" .word32,
    .optional "primary" .bool, .optional "node_id" (.nullable .string)]

instance : Document RoutingTable where
  toJson r := .obj [("shards", .arr (r.shards.map Document.toJson))]
  decode room t := do
    let f ← Decoder.fields ["shards"] room t
    return ⟨← f.optional "shards" (Decoder.list Document.decode) []⟩
  check := .record "RoutingTable" [.optional "shards" (.list (Document.check ShardRouting))]

instance : Document Blocks where
  toJson b := .obj [("disable_state_persistence", .bool b.disableStatePersistence)]
  decode room t := do
    let f ← Decoder.fields ["disable_state_persistence"] room t
    return ⟨← f.optional "disable_state_persistence" Decoder.bool false⟩
  check := .record "ClusterBlocks" [.optional "disable_state_persistence" .bool]

instance : Document ClusterState where
  toJson s := .obj [
    ("cluster_name", .str s.clusterName),
    ("version", .nat s.version.toNat),
    ("metadata", Document.toJson s.metadata),
    ("nodes", Document.toJson s.nodes),
    ("routing_table", Document.toJson s.routing),
    ("blocks", Document.toJson s.blocks)]
  decode room t := do
    let f ← Decoder.fields
      ["cluster_name", "version", "metadata", "nodes", "routing_table", "blocks"] room t
    return {
      clusterName := ← f.optional "cluster_name" Decoder.string ""
      version := ← f.required "version" Decoder.word64
      metadata := ← f.optional "metadata" Document.decode .empty
      nodes := ← f.optional "nodes" Document.decode ⟨"", ∅⟩
      routing := ← f.optional "routing_table" Document.decode ⟨[]⟩
      blocks := ← f.optional "blocks" Document.decode ⟨false⟩ }
  check := .record "ClusterState" [
    .optional "cluster_name" .string,
    .required "version" .word64,
    .optional "metadata" (Document.check Metadata),
    .optional "nodes" (Document.check Nodes),
    .optional "routing_table" (Document.check RoutingTable),
    .optional "blocks" (Document.check Blocks)]

end DurableState
