import DurableState.Settings.EnvFile
import DurableState.Settings.File
import DurableState.Store.Files
import DurableState.Tool.Help
import DurableState.Writer

/-!
# DurableState.Tool.Run — what the tool does

A run is a function of the arguments, the variables, the name of the host, the time and the disk. It
gives an outcome and the disk as it is then.
-/

namespace DurableState.Tool

/-! ## Outcomes -/

/-- Why a run failed. -/
inductive RunError where
  | settings (e : Settings.FileError)
  | unreadableState (file : Path)
  | malformedState (fault : Json.Fault)
  | state (e : Error)
  /-- A term that was not written. -/
  | term (e : WriteError)
deriving Repr, DecidableEq

/-- The text of a failure. -/
def RunError.message : RunError → String
  | .settings e => e.message
  | .unreadableState file => "failed to read " ++ file.text
  | .malformedState fault => fault.message
  | .state e => e.message
  | .term e => e.message

/-- What a run prints. -/
inductive Output where
  | nothing
  | text (t : String)
  | report (j : Json)
  | stats (s : WriteStats)

/-- How a run ended. -/
inductive Outcome where
  | done (output : Output)
  | usage
  | failed (e : RunError)
  | crashed (c : Crash)

/-- What a cycle did and how long it took, in seconds and nanoseconds. -/
def statsJson (s : WriteStats) (secs nanos : Nat) : Json :=
  .obj [
    ("global_written", .bool s.globalWritten),
    ("indices_written", .nat s.indicesWritten),
    ("indices_skipped", .nat s.indicesSkipped),
    ("manifest_written", .bool s.manifestWritten),
    ("took", .obj [("secs", .nat secs), ("nanos", .nat nanos)])]

namespace Outcome

/-- The exit code of a run. -/
def exitCode : Outcome → UInt8
  | .done _ => 0
  | .failed _ => 1
  | .usage => 2
  | .crashed _ => 101

/-- What is printed, for a run that took some nanoseconds. -/
def stdout (o : Outcome) (elapsed : Nat) : String :=
  match o with
  | .done (.text t) => t
  | .done (.report j) => j.indented ++ "\n"
  | .done (.stats s) => (statsJson s (elapsed / 1000000000) (elapsed % 1000000000)).indented ++ "\n"
  | _ => ""

/-- The text of the error that is reported. -/
def error? : Outcome → Option String
  | .failed e => some e.message
  | _ => none

end Outcome

/-! ## Settings -/

/-- The nearest file `.env`, from the working directory upwards. -/
def envFile? (t : FileTree) : Nat → Location → Option (List UInt8)
  | depth, l =>
    match t.find? (l ++ [".env"]), depth with
    | some (.file content), _ => some content
    | _, 0 => none
    | _, depth + 1 => envFile? t depth l.dropLast

/-- The variables of the surroundings and of the file `.env`. -/
def setVariables (d : Disk) (env : Environment) : Except Crash Environment :=
  match envFile? d.tree d.workingDirectory.length d.workingDirectory with
  | some content => EnvFile.load env content
  | none => .ok env

/-- The settings of a file, or the defaults. -/
def fileSettings (d : Disk) : Option Path → Except Settings.FileError Settings
  | none => .ok {}
  | some file =>
    match d.read file with
    | .error fault => .error (.unreadable fault)
    | .ok bytes => Settings.ofBytes bytes

/-- The settings of a run: from the file, then from variables, then from the arguments. -/
def settings (d : Disk) (env : Environment) (i : Invocation) :
    Except Settings.FileError Settings := do
  let s := (← fileSettings d i.config).withEnvironment env
  return { s with dataDir := i.dataDir.getD s.dataDir }

/-! ## Commands -/

/-- A manifest in a report. -/
def manifestReport (m : Manifest) : Json :=
  .ofFields [
    ("current_term", .nat m.currentTerm.toNat),
    ("cluster_state_version", .nat m.clusterStateVersion.toNat),
    ("global_generation", .nat m.globalGeneration),
    ("index_generations", .arr (m.indexGenerations.entries.map fun (id, g) =>
      .ofFields [("index", .ofFields [("name", .str id.name), ("uuid", .str id.uuid)]),
        ("generation", .nat g)]))]

/-- An index in a report, with its metadata if that is there. -/
def indexReport (metadata : Metadata) (id : IndexId) (g : Generation) : Json :=
  let entry := metadata.index? id
  .ofFields [
    ("index", .str id.display),
    ("generation", .nat g),
    ("version", entry.elim .null fun e => .nat e.version.toNat),
    ("state", entry.elim .null fun e => .str e.state.word)]

/-- A dangling index in a report. -/
def danglingReport (x : DanglingIndex) : Json :=
  .ofFields [("index", .str x.index.display), ("generation", .nat x.generation),
    ("path", .str x.dir.text)]

/-- What is stored, and what dangles. -/
def inventory (s : FileStore) : Except Error Json := do
  let (manifest, metadata) ← s.load
  let dangling ← s.dangling manifest
  return .ofFields [
    ("manifest", manifestReport manifest),
    ("cluster_uuid", .str metadata.clusterUuid),
    ("indices", .arr (manifest.indexGenerations.entries.map fun (id, g) =>
      indexReport metadata id g)),
    ("dangling", .arr (dangling.map danglingReport))]

/-- Reports what is stored, and what dangles. -/
def inspect (s : FileStore) : Outcome :=
  match inventory s with
  | .error e => .failed (.state e)
  | .ok j => .done (.report j)

/-- A text file that a command reads. -/
def readText (d : Disk) (file : Path) : Option String :=
  match d.read file with
  | .error _ => none
  | .ok bytes => String.fromUTF8? ⟨bytes.toArray⟩

/-- The cluster state in a file. A state that names no local node is one of the node at hand. -/
def readState (d : Disk) (file : Path) (nodeId : String) : Except RunError ClusterState :=
  match readText d file with
  | none => .error (.unreadableState file)
  | some text =>
    match (Document.ofText text : Except Json.Fault ClusterState) with
    | .error fault => .error (.malformedState fault)
    | .ok state =>
      if state.nodes.localId = "" then
        .ok { state with nodes := { state.nodes with localId := nodeId } }
      else .ok state

/-- Persists the cluster state in a file. -/
def apply (s : FileStore) (w : WriterSettings) (nodeId : String) (file : Path) (full : Bool) :
    Outcome × Disk :=
  match readState s.disk file nodeId with
  | .error e => (.failed e, s.disk)
  | .ok state =>
    match Writer.open s w with
    | .error e => (.failed (.state e), s.disk)
    | .ok writer =>
      let writer := writer.setIncremental (!full)
      match writer.update state writer.state.clusterState with
      | (.ok stats, writer) => (.done (.stats stats), writer.store.disk)
      | (.error (.error e), writer) => (.failed (.state e), writer.store.disk)
      | (.error (.crash c), writer) => (.crashed c, writer.store.disk)

/-- Records a term. -/
def setTerm (s : FileStore) (w : WriterSettings) (term : UInt64) : Outcome × Disk :=
  match Writer.open s w with
  | .error e => (.failed (.state e), s.disk)
  | .ok writer =>
    match writer.setTerm term with
    | (.ok (), writer) => (.done .nothing, writer.store.disk)
    | (.error (.error e), writer) => (.failed (.term e), writer.store.disk)
    | (.error (.crash c), writer) => (.crashed c, writer.store.disk)

/-- What surrounds a run. -/
structure Surroundings where
  env : Environment
  hostName : String
  now : Instant

/-- Carries out a command under some settings. -/
def carryOut (around : Surroundings) (d : Disk) (s : Settings) (c : Command) : Outcome × Disk :=
  let store : FileStore := { dataDir := s.dataDir, disk := d, now := around.now }
  match c with
  | .inspect => (inspect store, d)
  | .apply file full => apply store s.writer (s.nodeId.getD around.hostName) file full
  | .setTerm term => setTerm store s.writer term

/-- Carries out an invocation. -/
def invoke (around : Surroundings) (d : Disk) (i : Invocation) : Outcome × Disk :=
  match setVariables d around.env with
  | .error c => (.crashed c, d)
  | .ok env =>
    match settings d env i with
    | .error e => (.failed (.settings e), d)
    | .ok s => carryOut around d s i.command

/-- Runs the tool. -/
def run (around : Surroundings) (d : Disk) (args : List String) : Outcome × Disk :=
  match parse args with
  | .error .usage => (.usage, d)
  | .error .version => (.done (.text (toolName ++ " " ++ version ++ "\n")), d)
  | .error (.help topic) => (.done (.text topic.text), d)
  | .ok i => invoke around d i

end DurableState.Tool
