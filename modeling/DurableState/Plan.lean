import DurableState.Cluster.State
import DurableState.Failure

/-!
# DurableState.Plan — what one update cycle has to write

Planning comes before the first write and touches no store. `relevantIndices` says which indices a
node keeps, `plan` what to do with each of them.
-/

namespace DurableState

/-! ## Relevant indices -/

/-- The role of the local node. -/
def ClusterState.localRole (s : ClusterState) : Except Error Role :=
  match s.nodes.localNode? with
  | some n => .ok n.role
  | none => .error (.localNodeMissing s.nodes.localId)

/-- The metadata of an index, which has to be there. -/
def Metadata.index (m : Metadata) (id : IndexId) : Except Error IndexMetadata :=
  match m.index? id with
  | some entry => .ok entry
  | none => .error (.indexNotFound id)

/-- Whether a data node goes on keeping an index that it wrote: one that is closed, or was closed
before, has no shards to show that it belongs here, and a reopened one has to be written before its
shards are assigned again. -/
def keepsWithoutShards (previous : ClusterState) (written : SortedMap IndexId Generation)
    (entry : IndexMetadata) : Bool :=
  let wasClosed := (previous.metadata.index? entry.index).any IndexMetadata.isClosed
  (entry.isClosed || wasClosed) && written.contains entry.index

/-- The indices whose metadata a node in the given role persists. -/
def relevantIndices (role : Role) (state previous : ClusterState)
    (written : SortedMap IndexId Generation) : Except Error IndexSet :=
  match role with
  | .masterEligible => .ok (.ofList (state.metadata.indices.values.map fun m => (m.index, ())))
  | .dataOnly =>
    match state.nodes.localNode? with
    | none => .error (.localNodeMissing state.nodes.localId)
    | some node =>
      let kept := state.metadata.indices.values.filter (keepsWithoutShards previous written)
      .ok ((state.routing.indicesOn node.id).insertMany (kept.map fun m => (m.index, ())))
  | .coordinatingOnly => .ok ∅

/-! ## Actions -/

/-- What to do with one relevant index. -/
inductive IndexAction where
  /-- Unchanged since it was written: its generation stays. -/
  | keep (id : IndexId) (generation : Generation)
  /-- Not written before, or everything is to be written. -/
  | create (entry : IndexMetadata)
  /-- Written before in another version. -/
  | update (previous current : IndexMetadata)
deriving Repr

/-- The index that an action is about. -/
def IndexAction.index : IndexAction → IndexId
  | .keep id _ => id
  | .create entry => entry.index
  | .update _ current => current.index

/-- The action for one index. Its generation is kept only if a generation is written, the metadata
before is known, and both have one version. -/
def planIndex (written : SortedMap IndexId Generation) (previous : Option Metadata)
    (metadata : Metadata) (id : IndexId) : Except Error IndexAction :=
  match metadata.index id with
  | .error e => .error e
  | .ok current =>
    match written.get? id, previous.bind (·.index? id) with
    | some generation, some before =>
      if before.version = current.version then .ok (.keep id generation)
      else .ok (.update before current)
    | _, _ => .ok (.create current)

/-- An action for every relevant index, in their order. Without metadata before, all are written. -/
def plan (written : SortedMap IndexId Generation) (relevant : IndexSet) (previous : Option Metadata)
    (metadata : Metadata) : Except Error (List IndexAction) :=
  relevant.keys.mapM (planIndex written previous metadata)

end DurableState
