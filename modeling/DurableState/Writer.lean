import DurableState.Settings
import DurableState.Transaction

/-!
# DurableState.Writer — update cycles on a store

`WriterState.cycle` is one update cycle as a function of what was committed before. A `Writer` owns
a store and what it last committed, and replaces the latter only when a cycle succeeds, so after a
failure the same update can be tried again.

The global part is compared with what the writer last committed; versions of indices are compared
with the state that the caller applied before.
-/

namespace DurableState

/-- What a writer last committed. -/
structure WriterState where
  manifest : Manifest
  clusterState : ClusterState
  /-- If not set, the next cycle writes the global part and every relevant index, changed or not. -/
  incremental : Bool
deriving Repr, Inhabited

/-- What one cycle did. -/
structure WriteStats where
  globalWritten : Bool
  indicesWritten : Nat
  indicesSkipped : Nat
  manifestWritten : Bool
deriving Repr, DecidableEq, Inhabited

/-- What a cycle is going to do, decided before the first write. -/
structure CyclePlan where
  writesGlobal : Bool
  actions : List IndexAction

namespace WriterState

variable {σ : Type} [Store σ]

/-- Plans a cycle. -/
def cyclePlan (w : WriterState) (new previous : ClusterState) : Except Error CyclePlan := do
  let role ← new.localRole
  let written := w.manifest.indexGenerations
  let relevant ← relevantIndices role new previous written
  let before := if w.incremental then some previous.metadata else none
  let actions ← plan written relevant before new.metadata
  return {
    writesGlobal := !w.incremental || !w.clusterState.metadata.sameGlobal new.metadata
    actions }

/-- The transaction that a cycle begins. -/
def begin (w : WriterState) (s : σ) : Transaction σ := { store := s, previous := w.manifest }

/-- Writes the global part if the plan says so: its generation from now on. -/
def writeGlobalPart (w : WriterState) (t : Transaction σ) (p : CyclePlan) (m : Metadata) :
    Transaction.Outcome σ Generation :=
  if p.writesGlobal then t.writeGlobal "changed" m else (.ok w.manifest.globalGeneration, t)

/-- Commits the manifest unless it says what the one before says: whether it was written. -/
def commitIfChanged (w : WriterState) (t : Transaction σ) (m : Manifest) :
    Transaction.Outcome σ Bool :=
  if m = w.manifest then (.ok false, t)
  else
    match t.commit "changed" m with
    | (.ok (), t) => (.ok true, t)
    | (.error e, t) => (.error e, t)

/-- A cycle up to its manifest: writes all parts of a plan and says what the manifest is to name. -/
def stage (w : WriterState) (s : σ) (p : CyclePlan) (new : ClusterState) :
    Transaction.Outcome σ Manifest :=
  match w.writeGlobalPart (w.begin s) p new.metadata with
  | (.error e, t) => (.error e, t)
  | (.ok globalGeneration, t) =>
    match t.executeAll p.actions ∅ with
    | (.error e, t) => (.error e, t)
    | (.ok indexGenerations, t) =>
      (.ok { currentTerm := w.manifest.currentTerm, clusterStateVersion := new.version,
             globalGeneration, indexGenerations }, t)

/-- Carries out a plan. -/
def carryOut (w : WriterState) (s : σ) (p : CyclePlan) (new : ClusterState) :
    Except (Failure WriteError) (WriterState × WriteStats) × σ :=
  match w.stage s p new with
  | (.error e, t) => (.error e, t.store)
  | (.ok manifest, t) =>
    match w.commitIfChanged t manifest with
    | (.error e, t) => (.error e, t.store)
    | (.ok manifestWritten, t) =>
      (.ok
        ({ manifest, clusterState := new, incremental := w.incremental },
          { globalWritten := p.writesGlobal, indicesWritten := t.indicesWritten,
            indicesSkipped := t.indicesSkipped, manifestWritten }),
        t.store)

/-- One update cycle: persists a new state. A failure of the planning leaves the store untouched. -/
def cycle (w : WriterState) (s : σ) (new previous : ClusterState) :
    Except (Failure Error) (WriterState × WriteStats) × σ :=
  match w.cyclePlan new previous with
  | .error e => (.error (.error e), s)
  | .ok p =>
    match w.carryOut s p new with
    | (.ok r, s) => (.ok r, s)
    | (.error e, s) => (.error (e.map Error.write), s)

end WriterState

/-! ## The writer -/

/-- A store and what was last committed to it. -/
structure Writer (σ : Type) where
  store : σ
  state : WriterState
  /-- Cycles that take longer are reported, in milliseconds. -/
  slowWriteThreshold : UInt64

namespace Writer

variable {σ : Type} [Store σ]

/-- A writer that goes on from a given manifest and state. -/
def new (store : σ) (manifest : Manifest) (clusterState : ClusterState)
    (settings : WriterSettings) : Writer σ :=
  { store, state := { manifest, clusterState, incremental := settings.incremental },
    slowWriteThreshold := settings.slowWriteThreshold }

/-- A writer that goes on from what the store holds. -/
def «open» (store : σ) (settings : WriterSettings) : Except Error (Writer σ) :=
  match Store.load store with
  | .error e => .error e
  | .ok (manifest, metadata) =>
    .ok (new store manifest (.ofPersisted metadata manifest.clusterStateVersion) settings)

/-- Persists a new state. After a failure the writer holds what it held before. -/
def update (w : Writer σ) (new previous : ClusterState) :
    Except (Failure Error) WriteStats × Writer σ :=
  match w.state.cycle w.store new previous with
  | (.ok (state, stats), store) => (.ok stats, { w with store, state })
  | (.error e, store) => (.error e, { w with store })

/-- Records a term. The manifest is written even if the term is the same. -/
def setTerm (w : Writer σ) (term : UInt64) : Except (Failure WriteError) Unit × Writer σ :=
  let manifest := w.state.manifest.withTerm term
  match (w.state.begin w.store).commit "current term changed" manifest with
  | (.ok (), t) => (.ok (), { w with store := t.store, state := { w.state with manifest } })
  | (.error e, t) => (.error e, { w with store := t.store })

/-- Says whether later cycles may leave out what did not change. -/
def setIncremental (w : Writer σ) (incremental : Bool) : Writer σ :=
  { w with state := { w.state with incremental } }

end Writer

end DurableState
