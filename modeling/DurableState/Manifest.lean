import DurableState.Cluster.Index

/-!
# DurableState.Manifest — the root record of what is persisted

A manifest names the generation of the global part and of every index that is durably written. It is
written last in each cycle, so whatever it names is complete.
-/

namespace DurableState

/-- Number of one durable version of a unit. Stores hand out generations from one on. -/
abbrev Generation := Nat

namespace Generation

/-- Stands for a unit that was never written. -/
def missing : Generation := 0

/-- Generations are words of 64 bits. -/
def bound : Nat := UInt64.size

end Generation

/-- The term, the version of the cluster state, and the generation of every unit. -/
structure Manifest where
  currentTerm : UInt64
  clusterStateVersion : UInt64
  globalGeneration : Generation
  indexGenerations : SortedMap IndexId Generation
deriving Repr, DecidableEq

namespace Manifest

/-- The manifest of a node that has persisted nothing. -/
def empty : Manifest :=
  { currentTerm := 0, clusterStateVersion := 0, globalGeneration := .missing,
    indexGenerations := ∅ }

instance : Inhabited Manifest := ⟨empty⟩

/-- Whether nothing was persisted. -/
def isEmpty (m : Manifest) : Bool := m == empty

/-- Whether the global part was never written. -/
def isGlobalMissing (m : Manifest) : Bool := m.globalGeneration == .missing

/-- The generation of an index. -/
def indexGeneration? (m : Manifest) (id : IndexId) : Option Generation := m.indexGenerations.get? id

/-- The manifest with another term. -/
def withTerm (m : Manifest) (term : UInt64) : Manifest := { m with currentTerm := term }

end Manifest

/-! ## JSON form -/

/-- The generation of one index, as it stands in a manifest. -/
structure Manifest.Entry where
  index : IndexId
  generation : Generation
deriving Repr, DecidableEq

instance : Document Manifest.Entry where
  toJson e := .obj [("index", Document.toJson e.index), ("generation", .nat e.generation)]
  decode room t := do
    let f ← Decoder.fields ["index", "generation"] room t
    return {
      index := ← f.required "index" Document.decode
      generation := ← f.required "generation" (Decoder.natBelow Generation.bound) }
  check := .record "IndexGenerationEntry" [
    .required "index" (Document.check IndexId), .required "generation" .word64]

/-- Generations are written as a list of entries in the order of the indices; of two entries for
one index the later one counts. -/
instance : Document Manifest where
  toJson m := .obj [
    ("current_term", .nat m.currentTerm.toNat),
    ("cluster_state_version", .nat m.clusterStateVersion.toNat),
    ("global_generation", .nat m.globalGeneration),
    ("index_generations", .arr (m.indexGenerations.entries.map fun (index, generation) =>
      Document.toJson (⟨index, generation⟩ : Manifest.Entry)))]
  decode room t := do
    let f ← Decoder.fields
      ["current_term", "cluster_state_version", "global_generation", "index_generations"] room t
    let entries : List Manifest.Entry ←
      f.required "index_generations" (Decoder.list Document.decode)
    return {
      currentTerm := ← f.required "current_term" Decoder.word64
      clusterStateVersion := ← f.required "cluster_state_version" Decoder.word64
      globalGeneration := ← f.required "global_generation" (Decoder.natBelow Generation.bound)
      indexGenerations := .ofList (entries.map fun e => (e.index, e.generation)) }
  check := .record "Manifest" [
    .required "current_term" .word64,
    .required "cluster_state_version" .word64,
    .required "global_generation" .word64,
    .required "index_generations" (.list (Document.check Manifest.Entry))]

end DurableState
