import DurableState.Cluster.State
import DurableState.Failure

/-!
# DurableState.Store.Basic — where state is kept

A store writes the global part, single indices and manifests, and every write makes a new generation
that is greater than all that the store holds of the same unit. Old generations go only when they
are cleaned up, which never fails.
-/

namespace DurableState

/-- The outcome of a write, with the store behind it. -/
abbrev Attempt (σ α : Type) := Except (Failure WriteError) α × σ

/-- The operations of a store. -/
class Store (σ : Type) where
  /-- Writes the global part of some metadata, for a stated reason. -/
  writeGlobal : σ → String → Metadata → Attempt σ Generation
  /-- Writes the metadata of an index, for a stated reason. -/
  writeIndex : σ → String → IndexMetadata → Attempt σ Generation
  /-- Writes a manifest, for a stated reason, and removes all older ones. -/
  writeManifest : σ → String → Manifest → Attempt σ Unit
  /-- Removes every generation of the global part but one. -/
  cleanupGlobal : σ → Generation → σ
  /-- Removes every generation of an index but one. -/
  cleanupIndex : σ → IndexId → Generation → σ
  /-- The newest manifest and the metadata that it names. A store without a manifest has the empty
  manifest and no metadata. -/
  load : σ → Except Error (Manifest × Metadata)

end DurableState
