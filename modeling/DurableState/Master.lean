import DurableState.Writer

/-!
# DurableState.Master — a master-eligible node

It keeps the term and the last accepted state. After a dirty failure it cannot know what is
persisted, so such a failure is fatal: the node has to restart and load what is there.
-/

namespace DurableState

/-- A dirty failure of a write is fatal. -/
def Error.escalate : Error → Error
  | .write e => if e.isDirty then .fatal e else .write e
  | e => e

/-- A master-eligible node with its writer. -/
structure Master (σ : Type) where
  writer : Writer σ

namespace Master

variable {σ : Type} [Store σ]

/-- The stored term. -/
def currentTerm (m : Master σ) : UInt64 := m.writer.state.manifest.currentTerm

/-- The last accepted state. -/
def lastAccepted (m : Master σ) : ClusterState := m.writer.state.clusterState

/-- Records a term. -/
def setTerm (m : Master σ) (term : UInt64) : Except (Failure Error) Unit × Master σ :=
  match m.writer.setTerm term with
  | (.ok (), w) => (.ok (), ⟨w⟩)
  | (.error e, w) => (.error (e.map fun e => (Error.write e).escalate), ⟨w⟩)

/-- Accepts a state. Within one term only what changed is written; a new term has everything written
again. -/
def accept (m : Master σ) (state : ClusterState) : Except (Failure Error) Unit × Master σ :=
  let previous := m.lastAccepted
  let w := m.writer.setIncremental (previous.term == state.term)
  match w.update state previous with
  | (.ok _, w) => (.ok (), ⟨w⟩)
  | (.error e, w) => (.error (e.map Error.escalate), ⟨w⟩)

end Master

end DurableState
