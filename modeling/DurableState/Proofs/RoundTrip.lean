import DurableState.Cluster.State
import DurableState.Proofs.Operations
import DurableState.Proofs.Room

/-!
# DurableState.Proofs.RoundTrip — every document is read back from what is printed of it

`ReadsBack x` says that the text of `x`, and the bytes of that text, are read as `x` again.

* Documents without free values always read back: none of them nests deeper than four levels.
* Documents with free values (`IndexMetadata`, `GlobalState`, `Metadata`, `ClusterState`) read back
  if these have no floating-point numbers and the whole is not nested too deep.

`documents_read_back` collects all document types. Each comes down to `Readable`, which is closed
under records, lists and maps.
-/

namespace DurableState

/-- A document that is read back from its own text, and from the bytes of it. -/
def ReadsBack {α : Type} [Document α] (x : α) : Prop :=
  Document.ofText (Document.text x) = .ok x ∧ Document.ofBytes (Document.bytes x) = .ok x

/-- Bytes are read as the text that they encode. -/
theorem readsBack_of_ofText? {α : Type} [Document α] {x : α}
    (h : Document.ofText? (Document.text x) = some x) : ReadsBack x := by
  refine ⟨?_, ofBytes_bytes h⟩
  unfold Document.ofText
  rw [h]

/-- What is readable and not too deep reads back. -/
theorem Readable.readsBack {α : Type} [Document α] {x : α} (h : Readable x)
    (hdepth : (Document.toJson x).depth ≤ Json.maxDepth) : ReadsBack x :=
  readsBack_of_ofText? (h.ofText?_text hdepth)

/-! ## Nodes -/

theorem readable_node (n : Node) : Readable n := by
  refine readable_of_fields ["id", "name", "master_eligible", "data"] rfl (fun _ _ => rfl) rfl
    (by decide) ?_
  intro f hf
  simp only [List.forall_mem_cons] at hf
  obtain ⟨hid, hname, hmaster, hdata, _⟩ := hf
  rw [hid.required (a := n.id) rfl, hname.optional (a := n.name) rfl,
    hmaster.optional (a := n.masterEligible) rfl, hdata.optional (a := n.data) rfl]
  rfl

/-- Nodes are a map by their ids. -/
theorem readable_nodes (ns : Nodes) : Readable ns := by
  refine readable_of_fields ["local_node_id", "nodes"] rfl (fun _ _ => rfl) rfl (by decide) ?_
  intro f hf
  simp only [List.forall_mem_cons] at hf
  obtain ⟨hlocal, hnodes, _⟩ := hf
  rw [hlocal.optional (a := ns.localId) rfl,
    hnodes.optional (Decoder.map_tree (fun e _ => (readable_node e.2).decodes) hnodes.depth)]
  rfl

/-! ## Routing -/

/-- A missing node is written as `null`, which no string is. -/
theorem nullable_tree (nodeId : Option String) (room : Nat) :
    Decoder.nullable Decoder.string room (nodeId.elim Json.null Json.str).tree = some nodeId := by
  cases nodeId <;> rfl

theorem readable_shardRouting (s : ShardRouting) : Readable s := by
  refine readable_of_fields ["index", "shard", "primary", "node_id"] rfl (fun _ _ => rfl) rfl
    (by decide) ?_
  intro f hf
  simp only [List.forall_mem_cons] at hf
  obtain ⟨hindex, hshard, hprimary, hnode, _⟩ := hf
  rw [hindex.required ((readable_indexId s.index).decodes _ hindex.depth),
    hshard.required (Decoder.word32_tree _ s.shard),
    hprimary.optional (a := s.primary) rfl,
    hnode.optional (nullable_tree s.nodeId _)]
  rfl

/-- A routing table is a list of shards. -/
theorem readable_routingTable (r : RoutingTable) : Readable r := by
  refine readable_of_fields ["shards"] rfl (fun _ _ => rfl) rfl (by decide) ?_
  intro f hf
  simp only [List.forall_mem_singleton] at hf
  rw [hf.optional (Decoder.list_tree (fun s _ => (readable_shardRouting s).decodes) hf.depth)]
  rfl

theorem readable_blocks (b : Blocks) : Readable b := by
  refine readable_of_fields ["disable_state_persistence"] rfl (fun _ _ => rfl) rfl (by decide) ?_
  intro f hf
  simp only [List.forall_mem_singleton] at hf
  rw [hf.optional (a := b.disableStatePersistence) rfl]
  rfl

/-! ## Metadata and cluster states -/

/-- All free values inside of metadata are without floating-point numbers. -/
structure Metadata.IsExact (m : Metadata) : Prop where
  customs : ∀ e ∈ m.customs.entries, e.2.IsExact
  mappings : ∀ e ∈ m.indices.entries, e.2.mappings.IsExact

theorem Json.IsExact.readable {j : Json} (h : j.IsExact) : Readable j := readable_json h.1 h.2

/-- Metadata is readable if its free values are: customs, and mappings of indices. -/
theorem readable_metadata {m : Metadata} (h : m.IsExact) : Readable m := by
  have hglobal : Readable m.globalState :=
    readable_globalState fun e he => (h.customs e he).readable
  have hindices : ∀ e ∈ m.indices.entries, Readable e.2 := fun e he =>
    readable_indexMetadata (h.mappings e he).readable
  refine readable_of_fields (GlobalState.fieldNames ++ ["indices"]) rfl (fun _ _ => rfl) rfl
    (by decide) ?_
  intro f hf
  simp only [GlobalState.jsonFields, List.cons_append, List.nil_append,
    List.forall_mem_cons] at hf
  obtain ⟨huuid, hcommitted, hversion, hcoordination, hsettings, htemplates, hcustoms, hentries,
    _⟩ := hf
  -- Customs are kept as they are, so their tree is that of the value itself.
  have hfree : ∀ e ∈ m.customs.entries, ∀ room, (id e.2).depth ≤ room →
      Decoder.json room (id e.2).tree = some e.2 := fun e he => (h.customs e he).readable.decodes
  rw [huuid.optional (a := m.clusterUuid) rfl,
    hcommitted.optional (a := m.clusterUuidCommitted) rfl,
    hversion.optional (Decoder.word64_tree _ m.version),
    hcoordination.optional ((readable_coordination _).decodes _ hcoordination.depth),
    hsettings.optional (settings_tree hsettings.depth),
    htemplates.optional
      (Decoder.map_tree (fun e _ => (readable_indexTemplate e.2).decodes) htemplates.depth),
    hcustoms.optional (Decoder.map_tree hfree hcustoms.depth),
    hentries.optional (Decoder.map_tree (fun e he => (hindices e he).decodes) hentries.depth)]
  rfl

/-- Only the metadata of a state holds free values. -/
theorem readable_clusterState {s : ClusterState} (h : s.metadata.IsExact) : Readable s := by
  refine readable_of_fields
    ["cluster_name", "version", "metadata", "nodes", "routing_table", "blocks"]
    rfl (fun _ _ => rfl) rfl (by decide) ?_
  intro f hf
  simp only [List.forall_mem_cons] at hf
  obtain ⟨hname, hversion, hmetadata, hnodes, hrouting, hblocks, _⟩ := hf
  -- The fields are read in the order in which they are decoded, and each is readable.
  rw [hname.optional (a := s.clusterName) rfl,
    hversion.required (Decoder.word64_tree _ s.version),
    hmetadata.optional ((readable_metadata h).decodes _ hmetadata.depth),
    hnodes.optional ((readable_nodes _).decodes _ hnodes.depth),
    hrouting.optional ((readable_routingTable _).decodes _ hrouting.depth),
    hblocks.optional ((readable_blocks _).decodes _ hblocks.depth)]
  rfl

/-! ## How deep documents nest -/

/-- A map is one level deeper than its values. -/
theorem depth_ofMap_le {α : Type} {f : α → Json} {m : SortedMap String α} {n : Nat}
    (h : ∀ e ∈ m.entries, (f e.2).depth ≤ n) : (Json.ofMap f m).depth ≤ n + 1 := by
  refine Json.depth_obj_le_iff.2 ?_
  exact List.forall_mem_map.2 h

theorem depth_ofSettings_le (settings : SortedMap String String) :
    (Json.ofSettings settings).depth ≤ 1 :=
  depth_ofMap_le fun _ _ => Nat.le_refl 0

/-- A template holds a list of patterns and a map of settings. -/
theorem depth_indexTemplate_le (t : IndexTemplate) : (Document.toJson t).depth ≤ 2 := by
  refine Json.depth_obj_le_iff.2 ?_
  simp only [List.forall_mem_cons]
  refine ⟨?_, Nat.zero_le _, depth_ofSettings_le _, by simp⟩
  exact Json.depth_arr_le_iff.2 (List.forall_mem_map.2 fun _ _ => Nat.le_refl 0)

/-- Nodes are an object with a map of objects inside. -/
theorem depth_nodes_le (ns : Nodes) : (Document.toJson ns).depth ≤ 3 := by
  refine Json.depth_obj_le_iff.2 ?_
  simp only [List.forall_mem_cons]
  refine ⟨Nat.zero_le _, depth_ofMap_le ?_, by simp⟩
  exact fun _ _ => Nat.le_refl 1

theorem depth_shardRouting_le (s : ShardRouting) : (Document.toJson s).depth ≤ 2 := by
  refine Json.depth_obj_le_iff.2 ?_
  simp only [List.forall_mem_cons]
  refine ⟨Nat.le_refl 1, Nat.zero_le _, Nat.zero_le _, ?_, by simp⟩
  -- A shard without a node has `null` in its place.
  cases s.nodeId <;> exact Nat.zero_le _

/-- A routing table is an object with a list of shards, which hold an index each. -/
theorem depth_routingTable_le (r : RoutingTable) : (Document.toJson r).depth ≤ 4 := by
  refine Json.depth_obj_le_iff.2 (List.forall_mem_singleton.2 ?_)
  exact Json.depth_arr_le_iff.2 (List.forall_mem_map.2 fun s _ => depth_shardRouting_le s)

/-! ## All documents -/

/-- **Every document is read back from what is printed of it**, whatever its strings, numbers and
maps are. Free values must be without floating-point numbers, and what holds them must not nest
deeper than a reader goes. -/
theorem documents_read_back :
    (∀ id : IndexId, ReadsBack id) ∧
    (∀ s : IndexState, ReadsBack s) ∧
    (∀ m : IndexMetadata, m.mappings.IsExact → (Document.toJson m).depth ≤ Json.maxDepth →
      ReadsBack m) ∧
    (∀ t : IndexTemplate, ReadsBack t) ∧
    (∀ c : Coordination, ReadsBack c) ∧
    (∀ m : Metadata, m.IsExact → (Document.toJson m).depth ≤ Json.maxDepth → ReadsBack m) ∧
    (∀ g : GlobalState, (∀ e ∈ g.customs.entries, e.2.IsExact) →
      (Document.toJson g).depth ≤ Json.maxDepth → ReadsBack g) ∧
    (∀ n : Node, ReadsBack n) ∧
    (∀ ns : Nodes, ReadsBack ns) ∧
    (∀ s : ShardRouting, ReadsBack s) ∧
    (∀ r : RoutingTable, ReadsBack r) ∧
    (∀ b : Blocks, ReadsBack b) ∧
    (∀ s : ClusterState, s.metadata.IsExact → (Document.toJson s).depth ≤ Json.maxDepth →
      ReadsBack s) ∧
    (∀ m : Manifest, m.InRange → ReadsBack m) := by
  -- Documents without free values nest four levels deep at most.
  have hfour : 4 ≤ Json.maxDepth := by decide
  have hshallow : ∀ {n : Nat} {j : Json}, j.depth ≤ n → n ≤ 4 → j.depth ≤ Json.maxDepth :=
    fun hj hn => (hj.trans hn).trans hfour
  refine ⟨?_, ?_, ?_, ?_, ?_, ?_, ?_, ?_, ?_, ?_, ?_, ?_, ?_, ?_⟩
  · intro id
    exact (readable_indexId id).readsBack (hshallow (Nat.le_refl 1) (by decide))
  · intro s
    exact (readable_indexState s).readsBack (Nat.zero_le _)
  · intro m hfree hdepth
    exact (readable_indexMetadata hfree.readable).readsBack hdepth
  · intro t
    exact (readable_indexTemplate t).readsBack (hshallow (depth_indexTemplate_le t) (by decide))
  · intro c
    exact (readable_coordination c).readsBack (hshallow (Nat.le_refl 1) (by decide))
  · intro m hfree hdepth
    exact (readable_metadata hfree).readsBack hdepth
  · intro g hfree hdepth
    exact (readable_globalState fun e he => (hfree e he).readable).readsBack hdepth
  · intro n
    exact (readable_node n).readsBack (hshallow (Nat.le_refl 1) (by decide))
  · intro ns
    exact (readable_nodes ns).readsBack (hshallow (depth_nodes_le ns) (by decide))
  · intro s
    exact (readable_shardRouting s).readsBack (hshallow (depth_shardRouting_le s) (by decide))
  · intro r
    exact (readable_routingTable r).readsBack (hshallow (depth_routingTable_le r) (by decide))
  · intro b
    exact (readable_blocks b).readsBack (hshallow (Nat.le_refl 1) (by decide))
  · intro s hfree hdepth
    exact (readable_clusterState hfree).readsBack hdepth
  · intro m hm
    exact (readable_manifest hm).readsBack (hshallow (depth_manifest_le m) (by decide))

/-- Metadata of an index with characters that are escaped, the greatest numbers and mappings in 123
levels. -/
def IndexMetadata.deepest : IndexMetadata where
  index := ⟨"\"logs\"\\", "\x00\n\x1fé😀"⟩
  version := 18446744073709551615
  state := .closed
  numberOfShards := 4294967295
  settings := .ofList [("", "/\x08\t"), ("refresh", "1s")]
  mappings := .obj [("", .nested 122), ("dynamic", .bool true), ("max", .nat 18446744073709551615)]

/-- A state whose free values stand as deep as a reader goes. -/
def ClusterState.deepest : ClusterState where
  clusterName := "\x0c\x0d\x7f"
  version := 7
  metadata := { Metadata.empty with
    coordination := ⟨3⟩
    templates := .ofList [("t", ⟨["logs-*", ""], -2147483648, ∅⟩)]
    customs := .ofList [("licence", .null), ("views", .nested 124)]
    indices := .ofList [("logs", .deepest)] }
  nodes := ⟨"n1", .ofList [("n1", .new "n1" true false)]⟩
  routing := ⟨[⟨IndexMetadata.deepest.index, 0, true, none⟩,
    ⟨IndexMetadata.deepest.index, 1, false, some "n1"⟩]⟩
  blocks := ⟨true⟩

theorem ClusterState.isExact_deepest : ClusterState.deepest.metadata.IsExact := by
  constructor
  · exact (by decide +kernel : ∀ e ∈ ClusterState.deepest.metadata.customs.entries,
      e.2.isCanonical = true ∧ e.2.isIntegral = true)
  · exact (by decide +kernel : ∀ e ∈ ClusterState.deepest.metadata.indices.entries,
      e.2.mappings.isCanonical = true ∧ e.2.mappings.isIntegral = true)

theorem ClusterState.depth_deepest : (Document.toJson ClusterState.deepest).depth = 127 := by
  decide +kernel

/-- A manifest with the greatest generation. -/
def Manifest.greatest : Manifest where
  currentTerm := 18446744073709551615
  clusterStateVersion := 1
  globalGeneration := 18446744073709551615
  indexGenerations := .ofList [(⟨"logs", "u1"⟩, 2), (⟨"logs", "u0"⟩, 18446744073709551615)]

theorem Manifest.inRange_greatest : Manifest.greatest.InRange := by
  constructor
  · decide
  · intro id g hg
    have hmem := SortedMap.get?_eq_some_iff.1 hg
    -- Its two generations are looked at one by one.
    have hall : ∀ e ∈ Manifest.greatest.indexGenerations.entries, e.2 < Generation.bound := by
      decide +kernel
    exact hall _ hmem

/-- All four documents with free values at the greatest depth, and a manifest with the greatest
generation. -/
theorem documents_read_back_deepest :
    (ClusterState.deepest.metadata.IsExact ∧ Manifest.greatest.InRange ∧
      (Document.toJson ClusterState.deepest).depth = Json.maxDepth) ∧
    ReadsBack IndexMetadata.deepest ∧ ReadsBack ClusterState.deepest.metadata ∧
    ReadsBack ClusterState.deepest.metadata.globalState ∧ ReadsBack ClusterState.deepest ∧
    ReadsBack Manifest.greatest := by
  have hexact := ClusterState.isExact_deepest
  have hdepth := ClusterState.depth_deepest
  obtain ⟨_, _, hindex, _, _, hmetadata, hglobal, _, _, _, _, _, hstate, hmanifest⟩ :=
    documents_read_back
  refine ⟨⟨hexact, Manifest.inRange_greatest, hdepth⟩, ?_, ?_, ?_, ?_, ?_⟩
  · exact hindex _ (hexact.mappings ("logs", .deepest) List.mem_cons_self) (by decide +kernel)
  · exact hmetadata _ hexact (by decide +kernel)
  · exact hglobal _ hexact.customs (by decide +kernel)
  · exact hstate _ hexact hdepth.le
  · exact hmanifest _ Manifest.inRange_greatest

end DurableState
