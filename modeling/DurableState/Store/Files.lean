import DurableState.StateFile.Family
import DurableState.Store.Basic

/-!
# DurableState.Store.Files — a store on a disk

```text
_state/manifest-<generation>.st
_state/global-<generation>.st
indices/<unique id>/_state/state-<generation>.st
```

Indices whose state is there without being named by a manifest are dangling; `FileStore.dangling`
finds them. A `FaultyStore` is the same store on a disk whose calls fail now and then.
-/

namespace DurableState

/-- A directory on a disk that state is kept in, and the time of writing. -/
structure FileStore where
  dataDir : Path
  disk : Disk
  now : Instant
deriving Repr

namespace FileStore

/-! ## Layout -/

/-- The files of manifests. -/
def manifests : StateFamily := ⟨"manifest-"⟩

/-- The files of the global part. -/
def globals : StateFamily := ⟨"global-"⟩

/-- The files of an index. -/
def indexFiles : StateFamily := ⟨"state-"⟩

/-- The directory of the manifests and the global part. -/
def nodeStateDir (s : FileStore) : Path := s.dataDir.join "_state"

/-- The directory above those of the indices. -/
def indicesDir (s : FileStore) : Path := s.dataDir.join "indices"

/-- The directory of an index. -/
def indexStateDir (s : FileStore) (id : IndexId) : Path :=
  (s.indicesDir.join id.uuid).join "_state"

/-! ## Writing -/

/-- Keeps the disk behind a write. -/
def afterWrite {α : Type} (s : FileStore) (r : Except (Failure WriteError) α × Disk) :
    Attempt FileStore α :=
  (r.1, { s with disk := r.2 })

/-- Writes the global part, while a call may fail of itself. -/
def writeGlobalUnder (fault : Option WriteFault) (s : FileStore) (reason : String) (m : Metadata) :
    Attempt FileStore Generation :=
  s.afterWrite (globals.writeUnder fault s.disk s.nodeStateDir reason s.now m.globalState)

/-- Writes the metadata of an index, while a call may fail of itself. -/
def writeIndexUnder (fault : Option WriteFault) (s : FileStore) (reason : String)
    (m : IndexMetadata) : Attempt FileStore Generation :=
  s.afterWrite (indexFiles.writeUnder fault s.disk (s.indexStateDir m.index) reason s.now m)

/-- Writes a manifest and removes all others, while a call of the write may fail of itself. -/
def writeManifestUnder (fault : Option WriteFault) (s : FileStore) (reason : String)
    (m : Manifest) : Attempt FileStore Unit :=
  match manifests.writeUnder fault s.disk s.nodeStateDir reason s.now m with
  | (.ok g, disk) => (.ok (), { s with disk := manifests.cleanup disk s.nodeStateDir g })
  | (.error e, disk) => (.error e, { s with disk })

/-- Writes the global part. -/
def writeGlobal (s : FileStore) (reason : String) (m : Metadata) : Attempt FileStore Generation :=
  s.writeGlobalUnder none reason m

/-- Writes the metadata of an index. -/
def writeIndex (s : FileStore) (reason : String) (m : IndexMetadata) :
    Attempt FileStore Generation :=
  s.writeIndexUnder none reason m

/-- Writes a manifest and removes all others. -/
def writeManifest (s : FileStore) (reason : String) (m : Manifest) : Attempt FileStore Unit :=
  s.writeManifestUnder none reason m

/-! ## Cleanup -/

/-- Removes every generation of the global part but one. -/
def cleanupGlobal (s : FileStore) (keep : Generation) : FileStore :=
  { s with disk := globals.cleanup s.disk s.nodeStateDir keep }

/-- Removes every generation of an index but one. -/
def cleanupIndex (s : FileStore) (id : IndexId) (keep : Generation) : FileStore :=
  { s with disk := indexFiles.cleanup s.disk (s.indexStateDir id) keep }

/-! ## Loading -/

/-- The generations of the global part. -/
def globalGenerations (s : FileStore) : Except Error (List Generation) :=
  (globals.generations s.disk s.nodeStateDir).mapError .io

/-- The generations of an index. -/
def indexGenerations (s : FileStore) (id : IndexId) : Except Error (List Generation) :=
  (indexFiles.generations s.disk (s.indexStateDir id)).mapError .io

/-- The newest manifest that can be read. -/
def loadManifest (s : FileStore) : Except Error (Option Manifest) :=
  (manifests.loadLatest s.disk s.nodeStateDir).map (Option.map Envelope.payload)

/-- The global part that a manifest names. -/
def loadGlobal (s : FileStore) (m : Manifest) : Except Error GlobalState :=
  if m.isGlobalMissing then .ok .empty
  else (globals.load s.disk s.nodeStateDir m.globalGeneration).map Envelope.payload

/-- The metadata of one generation of an index. -/
def loadIndex (s : FileStore) (id : IndexId) (g : Generation) : Except Error IndexMetadata :=
  let dir := s.indexStateDir id
  match indexFiles.load s.disk dir g with
  | .error e => .error e
  | .ok (envelope : Envelope IndexMetadata) =>
    let found := envelope.payload.index
    if found = id then .ok envelope.payload
    else .error (.corrupted (dir.join (indexFiles.fileName g)) (.wrongIndex id found))

/-- The newest manifest and the metadata that it names. -/
def load (s : FileStore) : Except Error (Manifest × Metadata) := do
  match ← s.loadManifest with
  | none => return (.empty, .empty)
  | some m =>
    let g ← s.loadGlobal m
    let entries ← m.indexGenerations.entries.mapM fun (id, g) => s.loadIndex id g
    return (m, .ofParts g entries)

instance : Store FileStore where
  writeGlobal := writeGlobal
  writeIndex := writeIndex
  writeManifest := writeManifest
  cleanupGlobal := cleanupGlobal
  cleanupIndex := cleanupIndex
  load := load

end FileStore

/-! ## Faults -/

/-- A store of files with the faults of its next writes, one for each write. Behind the last one
there are no more faults. -/
structure FaultyStore where
  files : FileStore
  faults : List (Option WriteFault)
deriving Repr

namespace FaultyStore

/-- The fault of the next write. -/
def next (s : FaultyStore) : Option WriteFault := s.faults.head?.join

/-- Keeps the files behind a write, and the faults of the writes to come. -/
def afterWrite {α : Type} (s : FaultyStore) (r : Attempt FileStore α) : Attempt FaultyStore α :=
  (r.1, ⟨r.2, s.faults.tail⟩)

instance : Store FaultyStore where
  writeGlobal s reason m := s.afterWrite (s.files.writeGlobalUnder s.next reason m)
  writeIndex s reason m := s.afterWrite (s.files.writeIndexUnder s.next reason m)
  writeManifest s reason m := s.afterWrite (s.files.writeManifestUnder s.next reason m)
  cleanupGlobal s keep := { s with files := s.files.cleanupGlobal keep }
  cleanupIndex s id keep := { s with files := s.files.cleanupIndex id keep }
  load s := s.files.load

end FaultyStore

/-! ## Dangling indices -/

/-- An index with state on disk that no manifest names. -/
structure DanglingIndex where
  index : IndexId
  generation : Generation
  /-- The directory of its state files. -/
  dir : Path
deriving Repr, DecidableEq

namespace FileStore

/-- The directories two levels below that of the indices that hold a state file, in order, each by
its two names. -/
def stateDirs (s : FileStore) : List (String × String) :=
  match s.disk.find s.indicesDir with
  | .ok (l, .directory) =>
    let dirs := (s.disk.tree.below l).filterMap fun
      | ([outer, inner, name], .file _) =>
        if (indexFiles.generationOf? name).isSome then some (outer, inner) else none
      | _ => none
    dirs.eraseDups
  | _ => []

/-- The directories up to two levels below that of the indices. -/
def indexDirs (s : FileStore) : List Path :=
  match s.disk.find s.indicesDir with
  | .ok (l, .directory) =>
    (s.disk.tree.below l).filterMap fun
      | ([outer], .directory) => some (s.indicesDir.join outer)
      | ([outer, inner], .directory) => some ((s.indicesDir.join outer).join inner)
      | _ => none
  | _ => []

/-- The state in a directory, if it can be read. -/
def danglingIn? (s : FileStore) (dirs : String × String) : Option DanglingIndex :=
  let dir := (s.indicesDir.join dirs.1).join dirs.2
  match indexFiles.loadLatest s.disk dir with
  | .ok (some (envelope : Envelope IndexMetadata)) =>
    some { index := envelope.payload.index, generation := envelope.generation, dir }
  | _ => none

/-- The indices with state in a directory that is not the one of an index in the manifest. All
directories on the way have to be readable, but state that cannot be read is passed over. -/
def dangling (s : FileStore) (m : Manifest) : Except Error (List DanglingIndex) := do
  let _ ← (s.indexDirs.mapM s.disk.listDirectory).mapError Error.io
  let named := m.indexGenerations.keys.map IndexId.uuid
  return (s.stateDirs.filter fun dirs => !named.contains dirs.1).filterMap s.danglingIn?

end FileStore

end DurableState
