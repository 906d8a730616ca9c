import DurableState.Store.Basic

/-!
# DurableState.Store.Memory — a store in memory

Keeps every generation, records the calls that it receives, and can be told to fail the next write
of a unit. Generations are counted per unit and never handed out twice; indices with the same unique
id share a count. The counts are natural numbers and have no end. A count in a word of 64 bits gives
the same generations for the first `2 ^ 64 - 2` writes of a unit, and has no next one behind them.
-/

namespace DurableState

/-- A call that the store received. -/
inductive StoreCall where
  | writeGlobal (generation : Generation)
  | writeIndex (id : IndexId) (generation : Generation)
  | writeManifest (manifest : Manifest)
  | cleanupGlobal (keep : Generation)
  | cleanupIndex (id : IndexId) (keep : Generation)
  | failedWrite (unit : StateUnit) (kind : FailureKind)
deriving Repr, DecidableEq

namespace StoreCall

/-- Whether the call wrote something. -/
def isWrite : StoreCall → Bool
  | .writeGlobal _ | .writeIndex _ _ | .writeManifest _ => true
  | _ => false

/-- Whether the call removed generations. -/
def isCleanup : StoreCall → Bool
  | .cleanupGlobal _ | .cleanupIndex _ _ => true
  | _ => false

end StoreCall

/-- A store in memory. -/
structure MemoryStore where
  /-- The next generation of the global part. -/
  nextGlobal : Generation
  /-- The next generation for each unique id of an index; one if there is no entry. -/
  nextIndex : SortedMap String Generation
  global : SortedMap Generation GlobalState
  indices : SortedMap IndexId (SortedMap Generation IndexMetadata)
  /-- The newest manifest. -/
  manifest : Option Manifest
  /-- The calls since the record was last cleared, oldest first. -/
  calls : List StoreCall
  failGlobal : Option FailureKind
  /-- Failures waiting for the next write of an index, by its name. -/
  failIndex : SortedMap String FailureKind
  failManifest : Option FailureKind
deriving Repr

namespace MemoryStore

/-- The store that holds nothing. -/
def empty : MemoryStore :=
  { nextGlobal := 1, nextIndex := ∅, global := ∅, indices := ∅, manifest := none, calls := [],
    failGlobal := none, failIndex := ∅, failManifest := none }

instance : Inhabited MemoryStore := ⟨empty⟩

/-! ## Armed failures and the record of calls -/

/-- Makes the next write of the global part fail. -/
def failNextGlobal (s : MemoryStore) (kind : FailureKind) : MemoryStore :=
  { s with failGlobal := some kind }

/-- Makes the next write of an index with the given name fail. -/
def failNextIndex (s : MemoryStore) (name : String) (kind : FailureKind) : MemoryStore :=
  { s with failIndex := s.failIndex.insert name kind }

/-- Makes the next write of a manifest fail. If the failure is dirty the manifest is kept
nevertheless, as a disk may do. -/
def failNextManifest (s : MemoryStore) (kind : FailureKind) : MemoryStore :=
  { s with failManifest := some kind }

/-- Forgets the calls. -/
def clearCalls (s : MemoryStore) : MemoryStore := { s with calls := [] }

/-- Adds a call to the record. -/
def record (s : MemoryStore) (c : StoreCall) : MemoryStore := { s with calls := s.calls ++ [c] }

/-- How many writes succeeded since the record was last cleared. -/
def writeCount (s : MemoryStore) : Nat := (s.calls.filter StoreCall.isWrite).length

/-! ## What is held -/

/-- The generations of the global part. -/
def globalGenerations (s : MemoryStore) : List Generation := s.global.keys

/-- The generations of an index. -/
def indexGenerations (s : MemoryStore) (id : IndexId) : List Generation :=
  match s.indices.get? id with
  | none => []
  | some generations => generations.keys

/-- The metadata of one generation of an index. -/
def indexAt? (s : MemoryStore) (id : IndexId) (g : Generation) : Option IndexMetadata :=
  (s.indices.get? id).bind fun generations => generations.get? g

/-! ## Operations -/

/-- A write that fails. -/
def refuse {α : Type} (s : MemoryStore) (unit : StateUnit) (kind : FailureKind) :
    Attempt MemoryStore α :=
  (.error (.error ⟨kind, .injected unit, .other "injected"⟩), s.record (.failedWrite unit kind))

/-- Writes the global part. -/
def writeGlobal (s : MemoryStore) (m : Metadata) : Attempt MemoryStore Generation :=
  match s.failGlobal with
  | some kind => { s with failGlobal := none }.refuse .global kind
  | none =>
    let g := s.nextGlobal
    let s := { s with nextGlobal := g + 1, global := s.global.insert g m.globalState }
    (.ok g, s.record (.writeGlobal g))

/-- Writes the metadata of an index. -/
def writeIndex (s : MemoryStore) (m : IndexMetadata) : Attempt MemoryStore Generation :=
  match s.failIndex.get? m.index.name with
  | some kind =>
    { s with failIndex := s.failIndex.erase m.index.name }.refuse (.index m.index) kind
  | none =>
    let g := (s.nextIndex.get? m.index.uuid).getD 1
    let held := (s.indices.get? m.index).getD ∅
    let s := { s with
      nextIndex := s.nextIndex.insert m.index.uuid (g + 1)
      indices := s.indices.insert m.index (held.insert g m) }
    (.ok g, s.record (.writeIndex m.index g))

/-- Writes a manifest in place of the one before. -/
def writeManifest (s : MemoryStore) (m : Manifest) : Attempt MemoryStore Unit :=
  match s.failManifest with
  | some .clean => { s with failManifest := none }.refuse .manifest .clean
  | some .dirty => { s with failManifest := none, manifest := some m }.refuse .manifest .dirty
  | none => (.ok (), { s with manifest := some m }.record (.writeManifest m))

/-- Removes every generation of the global part but one. -/
def cleanupGlobal (s : MemoryStore) (keep : Generation) : MemoryStore :=
  { s with global := s.global.filter fun g _ => g == keep }.record (.cleanupGlobal keep)

/-- Removes every generation of an index but one, and the index with its last generation. -/
def cleanupIndex (s : MemoryStore) (id : IndexId) (keep : Generation) : MemoryStore :=
  let indices := match s.indices.get? id with
    | none => s.indices
    | some held =>
      let kept := held.filter fun g _ => g == keep
      if kept.entries.isEmpty then s.indices.erase id else s.indices.insert id kept
  { s with indices }.record (.cleanupIndex id keep)

/-- The global part that a manifest names. -/
def loadGlobal (s : MemoryStore) (m : Manifest) : Except Error GlobalState :=
  if m.isGlobalMissing then .ok .empty
  else
    match s.global.get? m.globalGeneration with
    | some g => .ok g
    | none => .error (.missing (.global m.globalGeneration))

/-- The metadata of the indices that a manifest names. -/
def loadIndices (s : MemoryStore) : List (IndexId × Generation) → Except Error (List IndexMetadata)
  | [] => .ok []
  | (id, g) :: rest =>
    match s.indexAt? id g with
    | none => .error (.missing (.index id g))
    | some m => (s.loadIndices rest).map (m :: ·)

/-- The newest manifest and the metadata that it names. -/
def load (s : MemoryStore) : Except Error (Manifest × Metadata) :=
  match s.manifest with
  | none => .ok (.empty, .empty)
  | some m => do
    let g ← s.loadGlobal m
    let entries ← s.loadIndices m.indexGenerations.entries
    return (m, .ofParts g entries)

instance : Store MemoryStore where
  writeGlobal s _ m := s.writeGlobal m
  writeIndex s _ m := s.writeIndex m
  writeManifest s _ m := s.writeManifest m
  cleanupGlobal := cleanupGlobal
  cleanupIndex := cleanupIndex
  load := load

end MemoryStore

end DurableState
