import DurableState.Writer

/-!
# DurableState.DataNode — a node that is not master-eligible

It persists every state that it applies. A failure is dropped: the next applied state tries again.
-/

namespace DurableState

/-- What became of an applied state. -/
inductive ApplyOutcome where
  | persisted (stats : WriteStats)
  /-- State may not be persisted yet; the next write is a full one. -/
  | skipped
  | failed (dirty : Bool)
deriving Repr, DecidableEq

/-- A data node with its writer. -/
structure DataNode (σ : Type) where
  writer : Writer σ

namespace DataNode

variable {σ : Type} [Store σ]

/-- Raises the stored term to that of a state, if that is higher. -/
def raiseTerm (w : Writer σ) (term : UInt64) : Except (Failure Error) Unit × Writer σ :=
  if w.state.manifest.currentTerm < term then
    match w.setTerm term with
    | (.ok (), w) => (.ok (), w)
    | (.error e, w) => (.error (e.map Error.write), w)
  else (.ok (), w)

/-- Raises the term, then persists the state. -/
def persist (w : Writer σ) (new previous : ClusterState) :
    Except (Failure Error) WriteStats × Writer σ :=
  match raiseTerm w new.term with
  | (.ok (), w) => w.update new previous
  | (.error e, w) => (.error e, w)

/-- Applies a state. After a success the next write is incremental. -/
def apply (d : DataNode σ) (new previous : ClusterState) :
    Except Crash ApplyOutcome × DataNode σ :=
  if new.blocks.disableStatePersistence then (.ok .skipped, ⟨d.writer.setIncremental false⟩)
  else
    match persist d.writer new previous with
    | (.ok stats, w) => (.ok (.persisted stats), ⟨w.setIncremental true⟩)
    | (.error (.error e), w) => (.ok (.failed e.isDirty), ⟨w⟩)
    | (.error (.crash c), w) => (.error c, ⟨w⟩)

end DataNode

end DurableState
